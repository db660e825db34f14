import DistSql.Lifecycle

/-!
# Snapshot and Restore Replay

A node that restores the snapshot of another one and applies the rest of the log should
hold the database of a node that applied the whole log. Everything on the way is sound:
the stream decodes to the file that was serialized, and a node whose engine is opened on
a file with the same bytes stays alike with the node it came from. What is missing is the
place to put the file: `Restore` writes it to `c.dbPath`, which `NewDB` leaves empty, and
nothing can be written at the empty path.

## Main results

* `restore_never_replays`: no node that `NewDB` returns restores the snapshot of a
  database, whatever the log and wherever it is split.
* `restore_replays_at_path`: **replay equivalence holds for a node with a path**, when the
  snapshot was taken outside any transaction.
-/

open Golang Sqlite

namespace DistSql

variable {D E : Type}

/-! ### Replay equivalence -/

/-- Two nodes hold the same database, as far as anyone can see: the files that their
`Serialize` reads are the same, and so are the answers to every query. -/
def SameDatabase (drv : Driver D E) (a b : Host D) : Prop :=
  (a.c.db.serialize none a.fs).toOption = (b.c.db.serialize none b.fs).toOption ∧
    ∀ (req : Request) (loc : Local E),
      (a.query drv loc (some req)).2 = (b.query drv loc (some req)).2

/-- The node `b` **replays**: it restores the stream, and after the entries from number
`k` on it holds the database that `c` holds after the whole log. -/
def Replays (gz : Gzip) (pr : Proto) (drv : Driver D E) (f : RestoreFaults) (rd : Slice)
    (b c : Host D) (log : List (LogEntry × Local E)) (k : ℕ) : Prop :=
  ∃ b', b.restore gz drv f (.ok rd) = (b', .ret none) ∧
    SameDatabase drv (Machine.run (hostStep pr drv) b' (log.drop k))
      (Machine.run (hostStep pr drv) c log)

/-! ### Restoring on a node of `NewDB` -/

/-- A node that was started on a valid path serializes its file, after every log. -/
theorem Started.serialize {drv : Driver D E} {dataDir : String} {h : Host D}
    (hst : Started drv dataDir h) (hvalid : ValidPath (dbFile dataDir)) (pr : Proto)
    (log : List (LogEntry × Local E)) :
    ∃ b, (Machine.run (hostStep pr drv) h log).c.db.serialize none
      (Machine.run (hostStep pr drv) h log).fs = .ok b := by
  obtain ⟨hpath, b, hfile⟩ := hst.file hvalid
  have hkept := kept_run pr drv h log
  have hsome : (h.fs.files (dbFile dataDir)).isSome := by
    rw [hfile]
    rfl
  obtain ⟨b', hb'⟩ := Option.isSome_iff_exists.mp (hkept.disk.files _ hsome)
  refine ⟨b', ?_⟩
  rw [DiskEngine.serialize, hkept.path, hpath]
  exact FS.readFile_of_files (dbFile_namesFile dataDir).1 hb'

/-- **Restore never replays.** Let `NewDB` return the nodes `a` and `b`, the first of them
on a valid path. Whatever the log, wherever it is split, whatever `b` did before and
however its calls fail: `b` does not restore the stream of the snapshot that `a` takes at
the split. -/
theorem restore_never_replays {gz : Gzip} (hgz : gz.Lawful) (pr : Proto) (drv : Driver D E)
    {st₁ st₂ : Startup} {dir₁ dir₂ : String} {cfg₁ cfg₂ : Config} {fs₁ fs₂ : FS}
    {a b c : Host D} (ha : newDB gz drv st₁ dir₁ cfg₁ fs₁ = (a.fs, .ret (.ok a.c)))
    (hvalid : ValidPath (dbFile dir₁))
    (hb : newDB gz drv st₂ dir₂ cfg₂ fs₂ = (b.fs, .ret (.ok b.c)))
    (log earlier : List (LogEntry × Local E)) (k : ℕ) (f : Faults) {rd : Slice}
    (hrd : (Machine.run (hostStep pr drv) a (log.take k)).stream gz none f = some rd.data)
    (fr : RestoreFaults) :
    ¬Replays gz pr drv fr rd (Machine.run (hostStep pr drv) b earlier) c log k := by
  rintro ⟨b', hrestore, -⟩
  have hpath : (Machine.run (hostStep pr drv) b earlier).c.dbPath = "" :=
    (kept_run pr drv b earlier).dbPath.trans (newDB_ok hb).dbPath
  -- the stream holds a database, which has nowhere to go
  obtain ⟨bytes, hbytes⟩ := (newDB_ok ha).serialize hvalid pr (log.take k)
  have hdecode := Host.stream_decodes hgz hrd
  rw [hbytes, (restore_no_path hpath hrestore).1] at hdecode
  exact absurd (Except.ok.inj (Outcome.ret.inj hdecode)) (by simp [Except.toOption])

/-- The defaults of the raft library. -/
def defaultRaft : RaftConfig where
  localID := ""
  heartbeatTimeout := 1000000000
  electionTimeout := 1000000000
  leaderLeaseTimeout := 500000000
  commitTimeout := 50000000
  snapshotThreshold := 8192

/-- A start at which nothing fails, in a directory without raft state. -/
def quietStart : Startup where
  defaultConfig := defaultRaft
  hasExistingState := .ok false

/-- A cluster of one node. -/
def soloConfig : Config where
  raft := { defaultRaft with localID := "0" }
  bootstrap := true
  addr := "127.0.0.1:9000"

/-- The node that `NewDB` returns on an empty disk. -/
def firstNode : Host (List UInt8) where
  fs := (newDB storeGzip byteTable quietStart "data" soloConfig FS.blank).1
  c := { db := .onFile "data/db/sqlite.db", raftDir := "data", log := true }

/-- `NewDB` returns it. -/
theorem newDB_firstNode :
    newDB storeGzip byteTable quietStart "data" soloConfig FS.blank =
      (firstNode.fs, .ret (.ok firstNode.c)) := by
  rfl

/-- Its path is valid. -/
theorem validPath_firstNode : ValidPath (dbFile "data") := by
  have hplain : Plain "data/db/sqlite.db" := by decide
  have hpath : dbFile "data" = "data/db/sqlite.db" := rfl
  rw [hpath]
  exact parseUri_plain hplain

/-- The stream of its snapshot: the frame of an empty file. -/
def firstStream : Slice where
  data := frame (some emptyMember)
  spare := 0
  cap_lt := by decide

/-- It is what `Persist` writes. -/
theorem stream_firstNode : firstNode.stream storeGzip none {} = some firstStream.data := by
  rfl

/-- An insertion, as the first entry of a log. -/
def insertLog : List (LogEntry × Local UInt8) :=
  [(⟨1, execEntry "INSERT INTO foo VALUES(1)"⟩, .ofEntropy fun _ _ => 0)]

/-- The rule at work: the snapshot of a new node, and an insertion after it. -/
theorem restore_never_replays_insert :
    ¬Replays storeGzip tableProto byteTable {} firstStream firstNode firstNode insertLog 0 :=
  restore_never_replays storeGzip_lawful tableProto byteTable newDB_firstNode
    validPath_firstNode newDB_firstNode insertLog [] 0 {} stream_firstNode {}

/-- **The snapshot of a new node cannot be restored**: the stream is what the node
persisted, no call fails of itself, and `Restore` still returns an error. -/
theorem restore_has_no_path :
    firstNode.stream storeGzip none {} = some firstStream.data ∧
      (firstNode.restore storeGzip byteTable {} (.ok firstStream)).2 =
        .ret (some "cannot open disk database open : no such file or directory") ∧
      ¬Replays storeGzip tableProto byteTable {} firstStream firstNode firstNode insertLog 0 := by
  have hrestore : (firstNode.restore storeGzip byteTable {} (.ok firstStream)).2 =
      .ret (some "cannot open disk database open : no such file or directory") := by
    rfl
  refine ⟨stream_firstNode, hrestore, ?_⟩
  rintro ⟨b', hok, -⟩
  rw [hok] at hrestore
  exact absurd (Outcome.ret.inj hrestore) (by simp)

/-! ### Restoring on a node with a path -/

/-- Nodes with engines that are alike hold the same database. -/
theorem Alike.sameDatabase {a b : Host D} (h : Alike a.mounted b.mounted)
    (ha : a.c.db.path ≠ "") (hb : b.c.db.path ≠ "") (drv : Driver D E) :
    SameDatabase drv a b := by
  refine ⟨?_, fun req loc => (h.query drv loc (some req)).2⟩
  obtain ⟨bytes, hona, honb, -, -⟩ := h
  have hread : a.c.db.serialize none a.fs = .ok bytes := FS.readFile_of_files ha hona.files
  have hread' : b.c.db.serialize none b.fs = .ok bytes := FS.readFile_of_files hb honb.files
  rw [hread, hread']

/-- Nodes that are alike stay alike along every log. -/
theorem run_alike (pr : Proto) (drv : Driver D E) (log : List (LogEntry × Local E))
    {a b : Host D} (h : Alike a.mounted b.mounted) :
    Alike (Machine.run (hostStep pr drv) a log).mounted
      (Machine.run (hostStep pr drv) b log).mounted :=
  Machine.run_related (R := fun s t : Host D => Alike s.mounted t.mounted)
    (Q := fun p q => p = q)
    (by
      rintro s t p _ hst rfl
      exact (applyAction_alike hst pr drv p.2 p.1.data).1)
    (List.forall₂_same.mpr fun _ _ => rfl) h

/-- A node with a plain path restores a stream onto the file at that path. -/
theorem restore_at_path {gz : Gzip} (drv : Driver D E) {b : Host D} {rd : Slice}
    {bytes : List UInt8} (hplain : Plain b.c.dbPath) (hname : NamesFile b.c.dbPath)
    (hlog : b.c.log = true) (hrd : snapshotToBytes gz (.ok rd) = .ret (.ok (some bytes))) :
    ∃ fs, b.restore gz drv {} (.ok rd) =
        (⟨fs, { b.c with db := .onFile b.c.dbPath }⟩, .ret none) ∧
      fs.files b.c.dbPath = some bytes := by
  have hclose : b.c.db.close none none =
      ({ b.c.db with readClosed := true, writeClosed := true }, none) := by
    simp [DiskEngine.close]
  -- whether there was a file before or not, it is written anew
  have hcreate : ∃ fs, createDiskDatabase drv {} (some bytes) b.c.dbPath b.fs =
      (fs, .ok (.onFile b.c.dbPath)) ∧ fs.files b.c.dbPath = some bytes := by
    have hopen : ∀ fs : FS, fs.files b.c.dbPath = some bytes →
        openEngine drv none b.c.dbPath fs = (fs, .ok (.onFile b.c.dbPath)) := by
      intro fs hfile
      rw [openEngine_plain hplain hname, FS.create, if_pos (.inr (by simp [hfile]))]
    by_cases hold : b.fs.files b.c.dbPath = none
    · refine ⟨b.fs.setFile b.c.dbPath (some bytes), ?_, FS.setFile_files_self _ _ _⟩
      simp only [createDiskDatabase, FS.remove, if_pos (Or.inr hold : _ ∨ _), FS.writeFile,
        if_neg hname.1]
      exact hopen _ (FS.setFile_files_self _ _ _)
    · have hold' : ¬(b.c.dbPath = "" ∨ b.fs.files b.c.dbPath = none) :=
        not_or.mpr ⟨hname.1, hold⟩
      refine ⟨(b.fs.setFile b.c.dbPath none).setFile b.c.dbPath (some bytes), ?_,
        FS.setFile_files_self _ _ _⟩
      simp only [createDiskDatabase, FS.remove, if_neg hold', FS.writeFile, if_neg hname.1]
      exact hopen _ (FS.setFile_files_self _ _ _)
  obtain ⟨fs, hdb, hfile⟩ := hcreate
  refine ⟨fs, ?_, hfile⟩
  simp only [Host.restore, hrd, hclose, Host.replace, hdb, hlog]
  rfl

/-- **Replay equivalence holds for a node with a path**: if the node `c` is on the file at
its path and outside any transaction at the split, a node that restores its snapshot there
and applies the rest of the log holds the same database as `c` after the whole log. -/
theorem restore_replays_at_path {gz : Gzip} (hgz : gz.Lawful) (pr : Proto)
    (drv : Driver D E) {b c : Host D} (hplain : Plain b.c.dbPath) (hname : NamesFile b.c.dbPath)
    (hlog : b.c.log = true) (log : List (LogEntry × Local E)) (k : ℕ) {bytes : List UInt8}
    (hc : c.c.db.path ≠ "")
    (hon : OnFile (Machine.run (hostStep pr drv) c (log.take k)).mounted c.c.db.path bytes)
    (hwrite : (Machine.run (hostStep pr drv) c (log.take k)).c.db.write = .fresh false)
    (hread : (Machine.run (hostStep pr drv) c (log.take k)).c.db.read = .fresh true)
    (f : Faults) {rd : Slice}
    (hrd : (Machine.run (hostStep pr drv) c (log.take k)).stream gz none f = some rd.data) :
    Replays gz pr drv {} rd b c log k := by
  have hkept := kept_run pr drv c (log.take k)
  have hser : (Machine.run (hostStep pr drv) c (log.take k)).c.db.serialize none
      (Machine.run (hostStep pr drv) c (log.take k)).fs = .ok bytes := by
    rw [DiskEngine.serialize, hkept.path]
    exact FS.readFile_of_files hc hon.files
  have hdecode := Host.stream_decodes hgz hrd
  rw [hser] at hdecode
  obtain ⟨fs, hrestore, hfile⟩ := restore_at_path drv hplain hname hlog hdecode
  refine ⟨_, hrestore, ?_⟩
  -- the two nodes are alike at the split, and stay alike
  have halike : Alike (Host.mounted ⟨fs, { b.c with db := .onFile b.c.dbPath }⟩)
      (Machine.run (hostStep pr drv) c (log.take k)).mounted := by
    refine ⟨bytes, ⟨rfl, rfl, rfl, rfl, hfile⟩, ?_, hwrite.symm, hread.symm⟩
    rw [show (Machine.run (hostStep pr drv) c (log.take k)).mounted.eng.path = c.c.db.path
      from hkept.path]
    exact hon
  have hrun := run_alike pr drv (log.drop k) halike
  rw [← Machine.run_append, List.take_append_drop] at hrun
  refine hrun.sameDatabase ?_ ?_ drv
  · rw [(kept_run pr drv _ (log.drop k)).path]
    exact hname.1
  · rw [(kept_run pr drv c log).path]
    exact hc

end DistSql
