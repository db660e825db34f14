import DistSql.Restore

/-!
# Restarting a Node

A node that is stopped and started again on its data directory should come back to the
database that the committed log makes of an empty one, each entry taking effect once. The
life of a node is a machine (`lifeStep`) over its disk: entries are applied, queries are
answered, snapshots are taken and persisted, and the raft library writes and removes what
it likes below its own directory.

Two things stand in the way of a restart. `setupRaft` makes the raft directory with
`Mkdir`, which fails for a directory that exists, and nothing in the life of a node takes
the directory away. And behind that error `setupDB` opens the file that survived, so that
raft would deliver its log on top of a database that holds it already.

## Main results

* `lifeStep_raftDir`: no step takes the raft directory away.
* `restart_never_equivalent`: **`NewDB` never succeeds a second time**, whatever the life
  of the node in between.
* `redelivery_repeats`: behind the error, entries that are delivered again would take
  effect again.
-/

open Golang Sqlite

namespace DistSql

variable {D E : Type}

/-! ### The life of a node -/

/-- A node in its life: the host, the committed entries that it applied, and the streams
of the snapshots that were persisted, each with the number of entries it covers. -/
structure Life (D E : Type) where
  host : Host D
  log : List (LogEntry × Local E) := []
  snaps : List (ℕ × Slice) := []

/-- What happens in the life of a node. Relative names are below the raft directory. -/
inductive LifeInput (E : Type)
  | apply (record : LogEntry) (loc : Local E)
  | query (req : Option Request) (loc : Local E)
  | snapshot (fault : Option String) (f : Faults)
  | raftFile (rel : String) (content : Option (List UInt8))
  | raftDir (rel : String) (present : Bool)

/-- The path of a relative name below a directory. -/
def below (dir rel : String) : String := String.ofList (dir.toList ++ '/' :: rel.toList)

/-- A stream as it is read back: a slice, if its length is an `int`. -/
def readBack (b : List UInt8) : Option Slice :=
  if h : b.length + 0 < 2 ^ 63 then some ⟨b, 0, h⟩ else none

/-- One step in the life of a node. -/
def lifeStep (gz : Gzip) (pr : Proto) (drv : Driver D E) (dataDir : String) (l : Life D E) :
    LifeInput E → Life D E
  | .apply record loc =>
      { l with host := (l.host.apply pr drv loc record).1, log := l.log ++ [(record, loc)] }
  | .query req loc => { l with host := (l.host.query drv loc req).1 }
  | .snapshot fault f =>
      match (l.host.stream gz fault f).bind readBack with
      | some rd => { l with snaps := l.snaps ++ [(l.log.length, rd)] }
      | none => l
  | .raftFile rel content =>
      { l with host := { l.host with
          fs := l.host.fs.setFile (below (raftPath dataDir) rel) content } }
  | .raftDir rel present =>
      { l with host := { l.host with
          fs := l.host.fs.setDir (below (raftPath dataDir) rel) present } }

/-- The entries that raft delivers again after a restart: those after the newest snapshot,
or all of them. -/
def Life.redelivered (l : Life D E) : List (LogEntry × Local E) :=
  match l.snaps.getLast? with
  | some (n, _) => l.log.drop n
  | none => l.log

/-- The snapshot that raft restores at a restart: the newest one. -/
def Life.newest (f : RestoreFaults) (l : Life D E) :
    Option (Except String Slice × RestoreFaults) :=
  l.snaps.getLast?.map fun p => (.ok p.2, f)

/-- The database that a host holds. -/
def Host.database (drv : Driver D E) (h : Host D) : D := h.c.db.writeAt.load drv h.fs

/-- **Restart equivalence**: `NewDB` succeeds on the disk that the life left, restoring the
newest snapshot on the way, and after the entries that raft delivers again the database is
that of the committed log, applied once and in order to an empty database. -/
def RestartEquivalent (gz : Gzip) (pr : Proto) (drv : Driver D E) (st : Startup)
    (f : RestoreFaults) (dataDir : String) (cfg : Config) (l : Life D E) : Prop :=
  ∃ h : Host D, newDB gz drv { st with newest := l.newest f } dataDir cfg l.host.fs =
      (h.fs, .ret (.ok h.c)) ∧
    (Machine.run (hostStep pr drv) h l.redelivered).database drv =
      (Machine.run (applyStep pr drv) ⟨.fresh drv.empty, 0⟩ l.log).eng.db

/-! ### The raft directory stays -/

/-- A path below a directory is not the directory. -/
theorem below_ne (dir rel : String) : dir ≠ below dir rel := by
  intro h
  have hlen := congrArg (fun s : String => s.toList.length) h
  simp only [below, String.toList_ofList, List.length_append, List.length_cons] at hlen
  omega

/-- **No step takes the raft directory away.** -/
theorem lifeStep_raftDir (gz : Gzip) (pr : Proto) (drv : Driver D E) (dataDir : String)
    (l : Life D E) (i : LifeInput E) (h : l.host.fs.dirs (raftPath dataDir) = true) :
    (lifeStep gz pr drv dataDir l i).host.fs.dirs (raftPath dataDir) = true := by
  cases i with
  | apply record loc =>
      have hdisk := (kept_hostStep pr drv l.host (record, loc)).disk
      rw [← hdisk.dirs] at h
      exact h
  | query req loc =>
      cases req with
      | none => exact h
      | some req =>
          have hdisk := l.host.mounted.query_stay drv loc (some req)
          rw [show l.host.fs.dirs = l.host.mounted.fs.dirs from rfl, ← hdisk.dirs] at h
          exact h
  | snapshot fault f =>
      simp only [lifeStep]
      split
      · exact h
      · exact h
  | raftFile rel content => exact h
  | raftDir rel present =>
      have hne : raftPath dataDir ≠ below (raftPath dataDir) rel := below_ne _ rel
      simp only [lifeStep, FS.setDir_dirs_ne _ hne]
      exact h

/-- Nor does a whole life. -/
theorem run_raftDir (gz : Gzip) (pr : Proto) (drv : Driver D E) (dataDir : String)
    (l : Life D E) (inputs : List (LifeInput E))
    (h : l.host.fs.dirs (raftPath dataDir) = true) :
    (Machine.run (lifeStep gz pr drv dataDir) l inputs).host.fs.dirs (raftPath dataDir) =
      true := by
  have hany : Machine.Steps (lifeStep gz pr drv dataDir) (fun _ _ => True) l inputs :=
    Machine.Steps.of_forall fun _ _ _ => trivial
  exact Machine.run_invariant
    (fun l : Life D E => l.host.fs.dirs (raftPath dataDir) = true)
    (fun s i hs _ => lifeStep_raftDir gz pr drv dataDir s i hs) hany h

/-- **`NewDB` fails where there is a raft directory.** -/
theorem newDB_of_raftDir (gz : Gzip) (drv : Driver D E) (st : Startup) {dataDir : String}
    (cfg : Config) {fs : FS} (h : fs.dirs (raftPath dataDir) = true) :
    ∃ fs' m, newDB gz drv st dataDir cfg fs = (fs', .ret (.error m)) := by
  rcases hdb : setupDB drv st dataDir fs with ⟨fs₁, m | db⟩
  · exact ⟨fs₁, m, by simp only [newDB, hdb]⟩
  · obtain ⟨fs₀, hgrow, hopen⟩ := setupDB_ok hdb
    have hdir : fs₁.dirs (raftPath dataDir) = true :=
      (hgrow.trans (openEngine_ok hopen).1).dirs _ h
    refine ⟨fs₁, "mkdir " ++ raftPath dataDir ++ ": file exists", ?_⟩
    simp only [newDB, hdb, setupRaft, setupStores, FS.mkdir_of_dirs hdir]

/-! ### Restarting -/

/-- **`NewDB` never succeeds a second time.** Let `NewDB` return a node, and let it live in
any way. Whatever the libraries answer, starting it again on the same data directory fails,
so restart equivalence does not hold. -/
theorem restart_never_equivalent {gz : Gzip} (pr : Proto) {drv : Driver D E} {st : Startup}
    {dataDir : String} {cfg : Config} {fs : FS} {h : Host D}
    (hnew : newDB gz drv st dataDir cfg fs = (h.fs, .ret (.ok h.c)))
    (inputs : List (LifeInput E)) (st' : Startup) (f : RestoreFaults) (cfg' : Config) :
    ¬RestartEquivalent gz pr drv st' f dataDir cfg'
      (Machine.run (lifeStep gz pr drv dataDir) ⟨h, [], []⟩ inputs) := by
  rintro ⟨h', hok, -⟩
  have hdir := run_raftDir gz pr drv dataDir ⟨h, [], []⟩ inputs (newDB_ok hnew).raftDir
  obtain ⟨fs', m, hfail⟩ := newDB_of_raftDir gz drv { st' with newest := _ } cfg' hdir
  rw [hok] at hfail
  obtain ⟨-, hout⟩ := Prod.mk.inj hfail
  exact absurd (Outcome.ret.inj hout) (by simp)

/-- A restart in a directory with raft state. -/
def laterStart : Startup := { quietStart with hasExistingState := .ok true }

/-- A life with a snapshot and an insertion after it. -/
def snapshotLife : List (LifeInput UInt8) :=
  [.snapshot none {},
    .apply ⟨1, execEntry "INSERT INTO foo VALUES(1)"⟩ (.ofEntropy fun _ _ => 0)]

/-- The rule at work: a snapshot is taken, an entry is inserted, and the node restarts. -/
theorem restart_never_equivalent_snapshot :
    ¬RestartEquivalent storeGzip tableProto byteTable laterStart {} "data" soloConfig
      (Machine.run (lifeStep storeGzip tableProto byteTable "data") ⟨firstNode, [], []⟩
        snapshotLife) :=
  restart_never_equivalent tableProto newDB_firstNode snapshotLife laterStart {} soloConfig

/-- **A node that did nothing cannot be restarted**: the second `NewDB` finds the raft
directory of the first. -/
theorem second_start_fails :
    (newDB storeGzip byteTable laterStart "data" soloConfig firstNode.fs).2 =
        .ret (.error "mkdir data/raft: file exists") ∧
      ¬RestartEquivalent storeGzip tableProto byteTable laterStart {} "data" soloConfig
        ⟨firstNode, [], []⟩ := by
  have hfail : (newDB storeGzip byteTable laterStart "data" soloConfig firstNode.fs).2 =
      .ret (.error "mkdir data/raft: file exists") := by
    rfl
  refine ⟨hfail, ?_⟩
  rintro ⟨h, hok, -⟩
  have hok' : (newDB storeGzip byteTable laterStart "data" soloConfig firstNode.fs).2 =
      .ret (.ok h.c) := congrArg Prod.snd hok
  rw [hfail] at hok'
  exact absurd (Outcome.ret.inj hok') (by simp)

/-! ### The database that survives -/

/-- **The file survives**: on a plain path the engine that `setupDB` opens shows the
database that is in the file, on new connections. Entries that raft delivers again are
applied on top of it. -/
theorem setupDB_resumes {drv : Driver D E} {st : Startup} {dataDir : String} {fs fs' : FS}
    {db : DiskEngine D} (hplain : Plain (dbFile dataDir)) {b : List UInt8}
    (hfile : fs.files (dbFile dataDir) = some b)
    (hok : setupDB drv st dataDir fs = (fs', .ok db)) :
    Shows drv (dbFile dataDir) ⟨fs', db⟩ (.fresh (drv.ofImage b)) := by
  obtain ⟨fs₀, hgrow, hopen⟩ := setupDB_ok hok
  rw [openEngine_plain hplain (dbFile_namesFile dataDir)] at hopen
  obtain ⟨hfs, hdb⟩ := Prod.mk.inj hopen
  obtain rfl := Except.ok.inj hdb
  have hfile' : fs'.files (dbFile dataDir) = some b := by
    rw [← hfs]
    exact (FS.grows_create fs₀ _).files _ _ (hgrow.files _ _ hfile)
  exact ⟨b, ⟨rfl, rfl, rfl, rfl, hfile'⟩, rfl⟩

/-- **A log that is delivered again takes effect again**: after a log and a restart of the
engine, the same log is applied to the database that it led to. -/
theorem redelivery_repeats {drv : Driver D E} (himage : drv.LawfulImage) (pr : Proto)
    {dataDir : String} (hplain : Plain (dbFile dataDir)) {h : Host D} {r : Replica D}
    (hshow : Shows drv (dbFile dataDir) h.mounted r.eng) (log : List (LogEntry × Local E))
    {st : Startup} {fs' : FS} {db : DiskEngine D}
    (hok : setupDB drv st dataDir (Machine.run (hostStep pr drv) h log).fs = (fs', .ok db)) :
    Shows drv (dbFile dataDir)
      (Machine.run (hostStep pr drv) ⟨fs', { db := db }⟩ log).mounted
      (Machine.run (applyStep pr drv)
        ⟨.fresh (Machine.run (applyStep pr drv) r log).eng.db, 0⟩ log).eng := by
  obtain ⟨b, hon, heng⟩ := run_shows himage pr log hshow
  have hresume : Shows drv (dbFile dataDir) ⟨fs', db⟩
      (.fresh (Machine.run (applyStep pr drv) r log).eng.db) := by
    rw [heng]
    exact setupDB_resumes hplain hon.files hok
  exact run_shows himage pr log (h := ⟨fs', { db := db }⟩) hresume

end DistSql
