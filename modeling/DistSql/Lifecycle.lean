import DistSql.Replica
import DistSql.Snapshot
import DistSql.Store

/-!
# Starting, Snapshotting and Restoring a Node

The parts of `Consensus` that deal with the disk: `NewDB` with its two halves `setupDB`
and `setupRaft`, `Apply`, `Snapshot`, and `Restore`. A node is modelled with its disk
(`Host`); what the operating system and the raft library answer is passed in (`Startup`,
`RestoreFaults`).

Three details of the source decide what these functions are worth together:

* `Restore` replaces the file at `c.dbPath`, and nothing ever sets that field.
* `NewRaft` restores the newest snapshot before `NewDB` has set `c.log`, and `Restore`
  logs.
* `setupRaft` makes the raft directory with `Mkdir`.

## Main results

* `restore_no_path`: without a path, `Restore` succeeds only on a snapshot without a
  database, and leaves an engine that has no file.
* `newDB_ok`: what a node that `NewDB` returned looks like.
* `hostApply_shows`: **applying an entry on a host** is applying it to the replica that
  the host shows.
-/

open Golang Sqlite

namespace DistSql

variable {D E : Type}

/-! ### The node and its disk -/

/-- `Consensus`, without the locks and the raft instance. -/
structure Consensus (D : Type) where
  db : DiskEngine D
  dbPath : String := ""
  raftDir : String := ""
  log : Bool := false
  lastIdx : ℕ := 0

/-- A node with its disk. -/
structure Host (D : Type) where
  fs : FS
  c : Consensus D

/-- The engine of a host, on its disk. -/
def Host.mounted (h : Host D) : Mounted D := ⟨h.fs, h.c.db⟩

/-- `Apply`. -/
def Host.apply (pr : Proto) (drv : Driver D E) (loc : Local E) (record : LogEntry)
    (h : Host D) : Host D × Outcome Response :=
  let p := h.mounted.applyAction pr drv loc record.data
  (⟨p.1.fs, { h.c with db := p.1.eng, lastIdx := record.index }⟩, p.2)

/-- The weak path of `Consensus.Query`. -/
def Host.query (drv : Driver D E) (loc : Local E) (req : Option Request) (h : Host D) :
    Host D × Outcome (List QueryRes × Option String) :=
  match req with
  | none => (h, .panic nilDereference)
  | some req =>
      let p := h.mounted.query drv loc (some req)
      (⟨p.1.fs, { h.c with db := p.1.eng }⟩, p.2)

/-- `Consensus.Snapshot`: `newSnapshot` drops the error of `Serialize`. -/
def Host.snapshot (fault : Option String) (h : Host D) : Outcome Snapshot :=
  if h.c.log then .ret ⟨(h.c.db.serialize fault h.fs).toOption⟩ else .panic nilDereference

/-- The stream that raft keeps of a snapshot: `Snapshot`, and `Persist` of it. -/
def Host.stream (gz : Gzip) (fault : Option String) (f : Faults) (h : Host D) :
    Option (List UInt8) :=
  match h.snapshot fault with
  | .ret snap =>
      match persist gz f snap {} with
      | (sink, none) => some sink.written
      | (_, some _) => none
  | _ => none

/-- **A stream decodes** to what `Serialize` returned. -/
theorem Host.stream_decodes {gz : Gzip} (hgz : gz.Lawful) {fault : Option String}
    {f : Faults} {h : Host D} {rd : Slice} (hrd : h.stream gz fault f = some rd.data) :
    snapshotToBytes gz (.ok rd) = .ret (.ok (h.c.db.serialize fault h.fs).toOption) := by
  simp only [Host.stream, Host.snapshot] at hrd
  split at hrd
  · rename_i snap hsnap
    split at hrd
    · rename_i sink hpersist
      have hok : (persist gz f snap {}).2 = none := by rw [hpersist]
      have hwritten := (persist_ok hgz hok).1
      rw [hpersist] at hwritten
      have hdata : rd.data = frame (snap.database.map gz.compress) :=
        (Option.some.inj hrd).symm.trans hwritten
      rw [snapshotToBytes_persisted hgz hdata]
      split at hsnap
      · rw [← Outcome.ret.inj hsnap]
      · simp at hsnap
    · simp at hrd
  · simp at hrd

/-! ### Restoring -/

/-- The calls that fail while restoring, with their errors. -/
structure RestoreFaults where
  closeRead : Option String := none
  closeWrite : Option String := none
  remove : Option String := none
  write : Option (String × Option ℕ) := none
  ping : Option String := none

/-- `createDiskDatabase`. -/
def createDiskDatabase (drv : Driver D E) (f : RestoreFaults) (b : Option (List UInt8))
    (path : String) (fs : FS) : FS × Except String (DiskEngine D) :=
  match fs.remove f.remove path with
  | (fs, some (.other m)) => (fs, .error m)
  | (fs, _) =>
      match b with
      | none => openEngine drv f.ping path fs
      | some b =>
          match fs.writeFile f.write path b with
          | (fs, some m) => (fs, .error m)
          | (fs, none) => openEngine drv f.ping path fs

/-- The end of `Restore`, once the bytes are decoded and the old engine is closed. -/
def Host.replace (drv : Driver D E) (f : RestoreFaults) (bytes : Option (List UInt8))
    (h : Host D) : Host D × Outcome (Option String) :=
  match createDiskDatabase drv f bytes h.c.dbPath h.fs with
  | (fs, .error m) => ({ h with fs := fs }, .ret (some ("cannot open disk database " ++ m)))
  | (fs, .ok db) =>
      (⟨fs, { h.c with db := db }⟩,
        if h.c.log then .ret none else .panic nilDereference)

/-- `Restore`. -/
def Host.restore (gz : Gzip) (drv : Driver D E) (f : RestoreFaults)
    (rd : Except String Slice) (h : Host D) : Host D × Outcome (Option String) :=
  match snapshotToBytes gz rd with
  | .panic m => (h, .panic m)
  | .hang => (h, .hang)
  | .ret (.error m) => (h, .ret (some ("repb failed: " ++ m)))
  | .ret (.ok bytes) =>
      if bytes = none ∧ h.c.log = false then (h, .panic nilDereference)
      else
        match h.c.db.close f.closeRead f.closeWrite with
        | (db, some m) =>
            ({ h with c := { h.c with db := db } },
              .ret (some ("failed to close pre-repb database: " ++ m)))
        | (db, none) => Host.replace drv f bytes { h with c := { h.c with db := db } }

/-! ### Starting -/

/-- The part of `raft.Config` that `setupRaft` sets; times are in nanoseconds. -/
structure RaftConfig where
  localID : String
  heartbeatTimeout : ℤ
  electionTimeout : ℤ
  leaderLeaseTimeout : ℤ
  commitTimeout : ℤ
  snapshotThreshold : ℕ
  deriving DecidableEq, Repr

/-- `Config`: the raft part, and the address of the transport. -/
structure Config where
  raft : RaftConfig
  bootstrap : Bool
  addr : String

/-- What the operating system and the raft library answer while a node starts. The
snapshot that `NewRaft` finds is restored on the way. -/
structure Startup where
  mkdirAll : Option String := none
  ping : Option String := none
  mkdir : Option String := none
  boltStore : Option String := none
  snapshotStore : Option String := none
  defaultConfig : RaftConfig
  newRaft : RaftConfig → Option String := fun _ => none
  newest : Option (Except String Slice × RestoreFaults) := none
  hasExistingState : Except String Bool
  bootstrapCluster : List (String × String) → Option String := fun _ => none
  zap : Option String := none

/-- The directory of the database. -/
def dbDir (dataDir : String) : String := join [dataDir, "db"]

/-- The path that `setupDB` opens. -/
def dbFile (dataDir : String) : String := join [dbDir dataDir, "sqlite.db"]

/-- The path is the name of a file: it ends in `sqlite.db`. -/
theorem dbFile_namesFile (dataDir : String) : NamesFile (dbFile dataDir) := by
  have hdir : dbDir dataDir ≠ "" := join_ne_empty (e := "db") (by simp) (by decide)
  obtain ⟨before, hends⟩ := @join_ends (dbDir dataDir) "sqlite.db" hdir (by unfold IsName; decide)
    (by decide)
  have hlast : (dbFile dataDir).toList.getLast? = some 'b' := by
    rw [dbFile, hends]
    simp
  constructor
  · intro hempty
    rw [hempty] at hlast
    exact absurd hlast (by decide)
  · intro hmemory
    rw [hmemory] at hlast
    exact absurd hlast (by decide)

/-- The directory that `setupRaft` makes. -/
def raftPath (dataDir : String) : String := join [dataDir, "raft"]

/-- `setupDB`. -/
def setupDB (drv : Driver D E) (st : Startup) (dataDir : String) (fs : FS) :
    FS × Except String (DiskEngine D) :=
  match fs.mkdirAll st.mkdirAll (dbDir dataDir) with
  | (fs, some m) => (fs, .error m)
  | (fs, none) => openEngine drv st.ping (dbFile dataDir) fs

/-- The first part of `setupRaft`: the raft directory and the two stores in it. -/
def setupStores (st : Startup) (dataDir : String) (fs : FS) : FS × Option String :=
  match fs.mkdir st.mkdir (raftPath dataDir) with
  | (fs, some m) => (fs, some m)
  | (fs, none) =>
      match st.boltStore with
      | some m => (fs, some m)
      | none =>
          let fs := fs.create (join [dataDir, "raft", "raft.db"])
          match st.snapshotStore with
          | some m => (fs, some m)
          | none => (fs.makeDirs (join [dataDir, "raft", "snapshots"]), none)

/-- The configuration that `setupRaft` hands to raft: a time that is zero is left at its
default. -/
def raftConfig (default : RaftConfig) (cfg : Config) : RaftConfig where
  localID := cfg.raft.localID
  snapshotThreshold := cfg.raft.snapshotThreshold
  heartbeatTimeout := if cfg.raft.heartbeatTimeout ≠ 0 then cfg.raft.heartbeatTimeout
    else default.heartbeatTimeout
  electionTimeout := if cfg.raft.electionTimeout ≠ 0 then cfg.raft.electionTimeout
    else default.electionTimeout
  leaderLeaseTimeout := if cfg.raft.leaderLeaseTimeout ≠ 0 then cfg.raft.leaderLeaseTimeout
    else default.leaderLeaseTimeout
  commitTimeout := if cfg.raft.commitTimeout ≠ 0 then cfg.raft.commitTimeout
    else default.commitTimeout

/-- `raft.NewRaft`: it restores the newest snapshot, if there is one. -/
def newRaft (gz : Gzip) (drv : Driver D E) (st : Startup) (config : RaftConfig)
    (h : Host D) : Host D × Outcome (Option String) :=
  match st.newRaft config with
  | some m => (h, .ret (some m))
  | none =>
      match st.newest with
      | none => (h, .ret none)
      | some (rd, f) =>
          match h.restore gz drv f rd with
          | (h, .ret (some _)) => (h, .ret (some "failed to load any existing snapshots"))
          | (h, out) => (h, out)

/-- The last part of `setupRaft`: a node without state may bootstrap a cluster of its
own. -/
def bootstrap (st : Startup) (cfg : Config) (config : RaftConfig) : Option String :=
  match st.hasExistingState with
  | .error m => some m
  | .ok hasState =>
      if cfg.bootstrap && !hasState then st.bootstrapCluster [(config.localID, cfg.addr)]
      else none

/-- `setupRaft`. -/
def setupRaft (gz : Gzip) (drv : Driver D E) (st : Startup) (dataDir : String)
    (cfg : Config) (h : Host D) : Host D × Outcome (Option String) :=
  match setupStores st dataDir h.fs with
  | (fs, some m) => ({ h with fs := fs }, .ret (some m))
  | (fs, none) =>
      let config := raftConfig st.defaultConfig cfg
      match newRaft gz drv st config ⟨fs, { h.c with raftDir := dataDir }⟩ with
      | (h, .ret none) => (h, .ret (bootstrap st cfg config))
      | (h, out) => (h, out)

/-- `NewDB`. -/
def newDB (gz : Gzip) (drv : Driver D E) (st : Startup) (dataDir : String) (cfg : Config)
    (fs : FS) : FS × Outcome (Except String (Consensus D)) :=
  match setupDB drv st dataDir fs with
  | (fs, .error m) => (fs, .ret (.error m))
  | (fs, .ok db) =>
      match setupRaft gz drv st dataDir cfg ⟨fs, { db := db }⟩ with
      | (h, .panic m) => (h.fs, .panic m)
      | (h, .hang) => (h.fs, .hang)
      | (h, .ret (some m)) => (h.fs, .ret (.error m))
      | (h, .ret none) =>
          match st.zap with
          | some m => (h.fs, .ret (.error m))
          | none => (h.fs, .ret (.ok { h.c with log := true }))

/-! ### Restoring without a path -/

/-- Without a path, a database can only be created from no bytes, and has no file. -/
theorem createDiskDatabase_no_path {drv : Driver D E} {f : RestoreFaults}
    {b : Option (List UInt8)} {fs fs' : FS} {db : DiskEngine D}
    (h : createDiskDatabase drv f b "" fs = (fs', .ok db)) : b = none ∧ db.path = "" := by
  simp only [createDiskDatabase, FS.remove_empty] at h
  cases b with
  | some b =>
      simp [FS.writeFile_empty] at h
  | none => exact ⟨rfl, (openEngine_ok h).2⟩

/-- **Restoring without a path** succeeds only on a snapshot without a database, on a
node with a logger, and leaves an engine that has no file. -/
theorem restore_no_path {gz : Gzip} {drv : Driver D E} {f : RestoreFaults}
    {rd : Except String Slice} {h h' : Host D} (hpath : h.c.dbPath = "")
    (hok : h.restore gz drv f rd = (h', .ret none)) :
    snapshotToBytes gz rd = .ret (.ok none) ∧ h.c.log = true ∧ h'.c.db.path = "" := by
  rcases hbytes : snapshotToBytes gz rd with (m | bytes) | m | _
  · simp [Host.restore, hbytes] at hok
  · simp only [Host.restore, hbytes] at hok
    split at hok
    · simp at hok
    rcases hclose : h.c.db.close f.closeRead f.closeWrite with ⟨db, _ | m⟩
    · simp only [hclose, Host.replace, hpath] at hok
      split at hok
      · simp at hok
      · rename_i fs' db' hcreate
        obtain ⟨rfl, hdb⟩ := createDiskDatabase_no_path hcreate
        obtain ⟨rfl, hout⟩ := Prod.mk.inj hok
        refine ⟨rfl, ?_, hdb⟩
        by_contra hlog
        simp [hlog] at hout
    · simp [hclose] at hok
  · simp [Host.restore, hbytes] at hok
  · simp [Host.restore, hbytes] at hok

/-! ### A node that was started -/

/-- What a node that `NewDB` returned looks like, with its disk: `dbPath` is not set, the
raft directory exists, and the engine is the one that `setupDB` opened. -/
structure Started (drv : Driver D E) (dataDir : String) (h : Host D) : Prop where
  dbPath : h.c.dbPath = ""
  log : h.c.log = true
  raftDir : h.fs.dirs (raftPath dataDir) = true
  opened : ∃ fs fs', openEngine drv none (dbFile dataDir) fs = (fs', .ok h.c.db) ∧
    fs'.Grows h.fs

/-- The stores are made in a new raft directory, and nothing is taken away. -/
theorem setupStores_ok {st : Startup} {dataDir : String} {fs fs' : FS}
    (h : setupStores st dataDir fs = (fs', none)) :
    fs.Grows fs' ∧ fs'.dirs (raftPath dataDir) = true := by
  simp only [setupStores] at h
  split at h
  · simp at h
  rename_i fs₁ hmkdir
  have hgrow₁ : fs.Grows fs₁ := by
    have hgrow := FS.grows_mkdir st.mkdir (raftPath dataDir) fs
    rwa [hmkdir] at hgrow
  split at h
  · simp at h
  split at h
  · simp at h
  · obtain ⟨rfl, -⟩ := Prod.mk.inj h
    have hgrow₂ := (FS.grows_create fs₁ (join [dataDir, "raft", "raft.db"])).trans
      (FS.grows_makeDirs _ (join [dataDir, "raft", "snapshots"]))
    exact ⟨hgrow₁.trans hgrow₂, hgrow₂.dirs _ (FS.mkdir_ok hmkdir)⟩

/-- `NewRaft` succeeds on a new node only when there is no snapshot: the node has neither
a path nor a logger. -/
theorem newRaft_ok {gz : Gzip} {drv : Driver D E} {st : Startup} {config : RaftConfig}
    {h h' : Host D} (hpath : h.c.dbPath = "") (hlog : h.c.log = false)
    (hok : newRaft gz drv st config h = (h', .ret none)) : h' = h := by
  simp only [newRaft] at hok
  split at hok
  · simp at hok
  split at hok
  · exact (Prod.mk.inj hok).1.symm
  rename_i rd f hnewest
  split at hok
  · simp at hok
  · rename_i h₁ out hne hrestore
    obtain ⟨rfl, rfl⟩ := Prod.mk.inj hok
    have hlog' := (restore_no_path hpath hrestore).2.1
    rw [hlog] at hlog'
    exact absurd hlog' (by simp)

/-- `setupDB` opens the path in its directory; the files that were there stay as they
were. -/
theorem setupDB_ok {drv : Driver D E} {st : Startup} {dataDir : String} {fs fs' : FS}
    {db : DiskEngine D} (h : setupDB drv st dataDir fs = (fs', .ok db)) :
    ∃ fs₀, fs.Grows fs₀ ∧ openEngine drv none (dbFile dataDir) fs₀ = (fs', .ok db) := by
  simp only [setupDB] at h
  split at h
  · simp at h
  rename_i fs₀ hmk
  have hgrow := FS.grows_mkdirAll st.mkdirAll (dbDir dataDir) fs
  rw [hmk] at hgrow
  rcases hping : st.ping with _ | m
  · rw [hping] at h
    exact ⟨fs₀, hgrow, h⟩
  · simp [openEngine, hping] at h

/-- `setupRaft` makes the raft directory and leaves the rest of a new node alone. -/
theorem setupRaft_ok {gz : Gzip} {drv : Driver D E} {st : Startup} {dataDir : String}
    {cfg : Config} {h h' : Host D} (hpath : h.c.dbPath = "") (hlog : h.c.log = false)
    (hok : setupRaft gz drv st dataDir cfg h = (h', .ret none)) :
    h'.c = { h.c with raftDir := dataDir } ∧ h.fs.Grows h'.fs ∧
      h'.fs.dirs (raftPath dataDir) = true := by
  simp only [setupRaft] at hok
  split at hok
  · simp at hok
  rename_i fs₂ hstores
  obtain ⟨hgrow, hdir⟩ := setupStores_ok hstores
  split at hok
  · rename_i h₂ hraft
    obtain ⟨rfl, -⟩ := Prod.mk.inj hok
    let h₁ : Host D := ⟨fs₂, { h.c with raftDir := dataDir }⟩
    obtain rfl : h₂ = h₁ := newRaft_ok (h := h₁) hpath hlog hraft
    exact ⟨rfl, hgrow, hdir⟩
  · rename_i h₂ out hne _
    obtain ⟨-, rfl⟩ := Prod.mk.inj hok
    exact (hne rfl).elim

/-- **A node that `NewDB` returned.** -/
theorem newDB_ok {gz : Gzip} {drv : Driver D E} {st : Startup} {dataDir : String}
    {cfg : Config} {fs : FS} {h : Host D}
    (hnew : newDB gz drv st dataDir cfg fs = (h.fs, .ret (.ok h.c))) :
    Started drv dataDir h := by
  simp only [newDB] at hnew
  split at hnew
  · simp at hnew
  rename_i fs₁ db hdb
  obtain ⟨fs₀, -, hopen⟩ := setupDB_ok hdb
  split at hnew
  · simp at hnew
  · simp at hnew
  · simp at hnew
  rename_i h₁ hraft
  obtain ⟨hc₁, hgrow, hdir⟩ := setupRaft_ok rfl rfl hraft
  split at hnew
  · simp at hnew
  · obtain ⟨hfs, hout⟩ := Prod.mk.inj hnew
    obtain hc := Except.ok.inj (Outcome.ret.inj hout)
    rw [hfs] at hgrow hdir
    rw [hc₁] at hc
    refine ⟨?_, ?_, hdir, fs₀, fs₁, ?_, hgrow⟩
    · rw [← hc]
    · rw [← hc]
    · rw [← hc]
      exact hopen

/-- On a valid path, a node that was started has a file at the path of its engine. -/
theorem Started.file {drv : Driver D E} {dataDir : String} {h : Host D}
    (hst : Started drv dataDir h) (hvalid : ValidPath (dbFile dataDir)) :
    h.c.db.path = dbFile dataDir ∧ ∃ b, h.fs.files (dbFile dataDir) = some b := by
  obtain ⟨fs, fs', hopen, hgrow⟩ := hst.opened
  obtain ⟨b, hb⟩ := openEngine_valid hvalid (dbFile_namesFile dataDir) hopen
  exact ⟨(openEngine_ok hopen).2, b, hgrow.files _ _ hb⟩

/-! ### The replica that a host shows -/

/-- **Applying an entry on a host** is applying it to the replica that the host shows. -/
theorem hostApply_shows {drv : Driver D E} (himage : drv.LawfulImage) (pr : Proto)
    {name : String} {h : Host D} {r : Replica D} (hshow : Shows drv name h.mounted r.eng)
    (loc : Local E) (record : LogEntry) :
    Shows drv name (h.apply pr drv loc record).1.mounted (apply pr drv loc r record).1.eng ∧
      (h.apply pr drv loc record).1.c.lastIdx = (apply pr drv loc r record).1.lastIdx ∧
      (h.apply pr drv loc record).2 = (apply pr drv loc r record).2 := by
  obtain ⟨hshow', hres⟩ := applyAction_shows himage pr hshow loc record.data
  exact ⟨hshow', rfl, hres⟩

/-- One entry of a host's log. -/
def hostStep (pr : Proto) (drv : Driver D E) (h : Host D) (p : LogEntry × Local E) : Host D :=
  (h.apply pr drv p.2 p.1).1

/-- **A whole log** on a host: the replica that it shows afterwards is the fold of the log
over the replica that it showed. -/
theorem run_shows {drv : Driver D E} (himage : drv.LawfulImage) (pr : Proto)
    (log : List (LogEntry × Local E)) {name : String} {h : Host D} {r : Replica D}
    (hshow : Shows drv name h.mounted r.eng) :
    Shows drv name (Machine.run (hostStep pr drv) h log).mounted
      (Machine.run (applyStep pr drv) r log).eng :=
  Machine.run_related (R := fun (h : Host D) (r : Replica D) => Shows drv name h.mounted r.eng)
    (Q := fun p q => p = q)
    (by
      rintro s t ⟨record, loc⟩ _ hst rfl
      exact (hostApply_shows himage pr hst loc record).1)
    (List.forall₂_same.mpr fun _ _ => rfl) hshow

/-! ### What entries leave alone -/

/-- What entries leave as it is on a host: the fields that `NewDB` set, the directories,
and the existence of files. -/
structure Kept (h h' : Host D) : Prop where
  dbPath : h'.c.dbPath = h.c.dbPath
  log : h'.c.log = h.c.log
  path : h'.c.db.path = h.c.db.path
  disk : FilesStay h.fs h'.fs

/-- One entry keeps them. -/
theorem kept_hostStep (pr : Proto) (drv : Driver D E) (h : Host D) (p : LogEntry × Local E) :
    Kept h (hostStep pr drv h p) := by
  obtain ⟨hdisk, hpath⟩ := applyAction_stay pr drv p.2 p.1.data h.mounted
  exact ⟨rfl, rfl, hpath, hdisk⟩

/-- Every log keeps them. -/
theorem kept_run (pr : Proto) (drv : Driver D E) (h : Host D)
    (log : List (LogEntry × Local E)) : Kept h (Machine.run (hostStep pr drv) h log) := by
  have hany : Machine.Steps (hostStep pr drv) (fun _ _ => True) h log :=
    Machine.Steps.of_forall fun _ _ _ => trivial
  refine Machine.run_invariant (Kept h) (fun s p hs _ => ?_) hany
    ⟨rfl, rfl, rfl, .refl h.fs⟩
  have hstep := kept_hostStep pr drv s p
  exact ⟨hstep.dbPath.trans hs.dbPath, hstep.log.trans hs.log, hstep.path.trans hs.path,
    hs.disk.trans hstep.disk⟩

end DistSql
