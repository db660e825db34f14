import DistSql.Restore

/-!
# Failures of `Snapshot` and `Restore`

`Restore` replaces the engine of a node in steps that cannot be taken back: it closes the old
engine, removes its file, writes the new file, and opens it. An error on the way is returned
as it comes, and the node keeps what is left of the old engine. Only a failure to decode the
stream comes before the first of these steps.

`Snapshot` has no step that fails: `newSnapshot` drops the error of `Serialize`, and what is
left for `Persist` is a snapshot without a database, which it writes without complaint.

## Main results

* `restore_decoded`: `Restore` after the stream was decoded; if it fails, the read connection
  of the engine is closed.
* `failed_restore_safe_iff`: when a failed `Restore` changes nothing, by the calls that fail,
  the path and the disk.
* `closed_never_serves`: **a node with a closed engine serves no request again**, whatever it
  is asked to do.
* `snapshot_faithful_iff`: when a snapshot that succeeds is the database.
-/

open Golang Sqlite

namespace DistSql

variable {D E : Type}

/-! ### What comes after a call -/

/-- A request that reaches the node after the call in question: an entry of the log, or a
weak query. -/
inductive Later (E : Type)
  | apply (record : LogEntry) (loc : Local E)
  | query (req : Option Request) (loc : Local E)

/-- What the node makes of it. -/
inductive Reaction
  | applied (res : Outcome Response)
  | answered (res : Outcome (List QueryRes × Option String))

/-- The node serves one request. -/
def Host.serve (pr : Proto) (drv : Driver D E) (h : Host D) : Later E → Host D × Reaction
  | .apply record loc => ((h.apply pr drv loc record).1, .applied (h.apply pr drv loc record).2)
  | .query req loc => ((h.query drv loc req).1, .answered (h.query drv loc req).2)

/-- The node serves requests in a row. -/
def Host.serveAll (pr : Proto) (drv : Driver D E) : Host D → List (Later E) → List Reaction
  | _, [] => []
  | h, r :: rest => (h.serve pr drv r).2 :: serveAll pr drv (h.serve pr drv r).1 rest

/-- Both connections of the engine are open. -/
def DiskEngine.IsOpen (eng : DiskEngine D) : Prop :=
  eng.writeClosed = false ∧ eng.readClosed = false

/-- The node is **intact**: its engine is open, its committed database is the one from
before, and every later request is served as it would have been. -/
structure Intact (pr : Proto) (drv : Driver D E) (h h' : Host D) : Prop where
  isOpen : h'.c.db.IsOpen
  written : h'.c.db.writeAt.load drv h'.fs = h.c.db.writeAt.load drv h.fs
  read : h'.c.db.readAt.load drv h'.fs = h.c.db.readAt.load drv h.fs
  later : ∀ reqs, h'.serveAll pr drv reqs = h.serveAll pr drv reqs

/-! ### A failed `Restore` -/

section Restore

variable {gz : Gzip} {pr : Proto} {drv : Driver D E} {f : RestoreFaults}
  {rd : Except String Slice} {h : Host D}

/-- The engine can be **replaced**: no `Close` of a connection that is still open fails, nor
the removal of a file that is there, nor the `Ping` of the new engine; and if there are bytes
to be written, there is a path to write them to, and writing does not fail. -/
structure Replaceable (f : RestoreFaults) (bytes : Option (List UInt8)) (h : Host D) : Prop where
  closeRead : h.c.db.readClosed = false → f.closeRead = none
  closeWrite : h.c.db.writeClosed = false → f.closeWrite = none
  remove : h.c.dbPath ≠ "" → h.fs.files h.c.dbPath ≠ none → f.remove = none
  write : bytes ≠ none → h.c.dbPath ≠ "" ∧ f.write = none
  ping : f.ping = none

/-- `Restore` panics on a node without a logger, when the stream holds no database. -/
def LogPanics (bytes : Option (List UInt8)) (h : Host D) : Prop :=
  bytes = none ∧ h.c.log = false

/-- The read connection is closed, whether closing succeeds or not. -/
theorem DiskEngine.close_readClosed (readFault writeFault : Option String)
    (eng : DiskEngine D) : (eng.close readFault writeFault).1.readClosed = true := by
  rw [DiskEngine.close]
  split <;> rfl

/-- When `Engine.Close` reports no error. -/
theorem DiskEngine.close_eq_none_iff {readFault writeFault : Option String}
    {eng : DiskEngine D} :
    (eng.close readFault writeFault).2 = none ↔
      (eng.readClosed = false → readFault = none) ∧
        (eng.writeClosed = false → writeFault = none) := by
  rw [DiskEngine.close]
  cases hread : eng.readClosed <;> cases hwrite : eng.writeClosed <;> cases readFault <;> simp

/-- When `engine.Open` returns an engine. -/
theorem openEngine_ok_iff {drv : Driver D E} {ping : Option String} {path : String} {fs : FS} :
    (∃ fs' eng, openEngine drv ping path fs = (fs', .ok eng)) ↔ ping = none := by
  cases ping <;> simp [openEngine]

/-- When `createDiskDatabase` returns an engine. -/
theorem createDiskDatabase_ok_iff {bytes : Option (List UInt8)} {path : String} {fs : FS} :
    (∃ fs' eng, createDiskDatabase drv f bytes path fs = (fs', .ok eng)) ↔
      (path ≠ "" → fs.files path ≠ none → f.remove = none) ∧
        (bytes ≠ none → path ≠ "" ∧ f.write = none) ∧ f.ping = none := by
  by_cases hpath : path = ""
  · cases bytes <;>
      simp [createDiskDatabase, FS.remove, FS.writeFile, hpath, openEngine_ok_iff]
  by_cases hold : fs.files path = none
  · rcases hwrite : f.write with _ | ⟨m, _ | n⟩ <;> cases bytes <;>
      simp [createDiskDatabase, FS.remove, FS.writeFile, hpath, hold, hwrite, openEngine_ok_iff]
  · rcases hremove : f.remove with _ | m
    · rcases hwrite : f.write with _ | ⟨m, _ | n⟩ <;> cases bytes <;>
        simp [createDiskDatabase, FS.remove, FS.writeFile, hpath, hold, hremove, hwrite,
          openEngine_ok_iff]
    · simp [createDiskDatabase, FS.remove, hremove, hpath, hold]

/-- The engine can be replaced exactly when closing the old one and creating the new one
succeed. -/
theorem replaceable_iff (drv : Driver D E) (f : RestoreFaults) (bytes : Option (List UInt8))
    (h : Host D) :
    Replaceable f bytes h ↔
      (h.c.db.close f.closeRead f.closeWrite).2 = none ∧
        ∃ fs db, createDiskDatabase drv f bytes h.c.dbPath h.fs = (fs, .ok db) := by
  rw [DiskEngine.close_eq_none_iff, createDiskDatabase_ok_iff]
  exact ⟨fun ⟨hread, hwrite, hremove, hbytes, hping⟩ => ⟨⟨hread, hwrite⟩, hremove, hbytes, hping⟩,
    fun ⟨⟨hread, hwrite⟩, hremove, hbytes, hping⟩ => ⟨hread, hwrite, hremove, hbytes, hping⟩⟩

/-- **`Restore` after the stream was decoded**: it returns an error exactly when the engine
cannot be replaced, and then the read connection is closed. -/
theorem restore_decoded {bytes : Option (List UInt8)}
    (hdec : snapshotToBytes gz rd = .ret (.ok bytes)) (hlog : ¬LogPanics bytes h) :
    (Replaceable f bytes h ∧ ∀ m, (h.restore gz drv f rd).2 ≠ .ret (some m)) ∨
      (¬Replaceable f bytes h ∧ (h.restore gz drv f rd).1.c.db.readClosed = true ∧
        ∃ m, (h.restore gz drv f rd).2 = .ret (some m)) := by
  have hclosed := DiskEngine.close_readClosed f.closeRead f.closeWrite h.c.db
  have hlog' : ¬(bytes = none ∧ h.c.log = false) := hlog
  rw [replaceable_iff drv f bytes h]
  rcases hclose : h.c.db.close f.closeRead f.closeWrite with ⟨db, _ | m⟩
  · rw [hclose] at hclosed
    rcases hcreate : createDiskDatabase drv f bytes h.c.dbPath h.fs with ⟨fs, m | db'⟩
    · refine .inr ⟨fun hrep => ?_, ?_, "cannot open disk database " ++ m, ?_⟩
      · obtain ⟨-, fs', db', hok⟩ := hrep
        exact absurd (Prod.mk.inj hok).2 (by simp)
      · simp only [Host.restore, hdec, if_neg hlog', hclose, Host.replace, hcreate]
        exact hclosed
      · simp only [Host.restore, hdec, if_neg hlog', hclose, Host.replace, hcreate]
    · refine .inl ⟨⟨rfl, fs, db', rfl⟩, fun m => ?_⟩
      simp only [Host.restore, hdec, if_neg hlog', hclose, Host.replace, hcreate]
      split <;> simp
  · rw [hclose] at hclosed
    refine .inr ⟨fun hrep => ?_, ?_, "failed to close pre-repb database: " ++ m, ?_⟩
    · exact absurd hrep.1 (by simp)
    · simp only [Host.restore, hdec, if_neg hlog', hclose]
      exact hclosed
    · simp only [Host.restore, hdec, if_neg hlog', hclose]

/-- A failed `Restore` is **safe**: if it returns an error, the node is intact. -/
def FailsSafely (gz : Gzip) (pr : Proto) (drv : Driver D E) (f : RestoreFaults)
    (rd : Except String Slice) (h : Host D) : Prop :=
  ∀ m, (h.restore gz drv f rd).2 = .ret (some m) → Intact pr drv h (h.restore gz drv f rd).1

/-- **When a failed `Restore` is safe**: exactly when a stream that decodes leads to an engine
that can be replaced (or to the panic of the missing logger), so that the only error is one
of decoding, and that one meets an engine that is open. -/
theorem failed_restore_safe_iff (gz : Gzip) (pr : Proto) (drv : Driver D E)
    (f : RestoreFaults) (rd : Except String Slice) (h : Host D) :
    FailsSafely gz pr drv f rd h ↔
      (∀ bytes, snapshotToBytes gz rd = .ret (.ok bytes) →
        LogPanics bytes h ∨ Replaceable f bytes h) ∧
      (∀ m, snapshotToBytes gz rd = .ret (.error m) → h.c.db.IsOpen) := by
  constructor
  · intro hsafe
    constructor
    · intro bytes hdec
      by_contra hno
      obtain ⟨hlog, hrep⟩ := not_or.mp hno
      rcases @restore_decoded D E gz drv f rd h bytes hdec hlog with ⟨hok, -⟩ | ⟨-, hclosed, m, hm⟩
      · exact hrep hok
      · have hopen := (hsafe m hm).isOpen.2
        rw [hclosed] at hopen
        exact absurd hopen (by simp)
    · intro m hdec
      have hrestore : h.restore gz drv f rd = (h, .ret (some ("repb failed: " ++ m))) := by
        simp only [Host.restore, hdec]
      have hintact := hsafe _ (by rw [hrestore])
      rw [hrestore] at hintact
      exact hintact.isOpen
  · rintro ⟨hok, herr⟩ m hm
    rcases hdec : snapshotToBytes gz rd with (m' | bytes) | m' | _
    · have hrestore : (h.restore gz drv f rd).1 = h := by
        simp only [Host.restore, hdec]
      rw [hrestore]
      exact ⟨herr m' hdec, rfl, rfl, fun _ => rfl⟩
    · rcases hok bytes hdec with hlog | hrep
      · have hlog' : bytes = none ∧ h.c.log = false := hlog
        simp [Host.restore, hdec, hlog'] at hm
      · by_cases hlog : LogPanics bytes h
        · have hlog' : bytes = none ∧ h.c.log = false := hlog
          simp [Host.restore, hdec, hlog'] at hm
        rcases @restore_decoded D E gz drv f rd h bytes hdec hlog with ⟨-, hnever⟩ | ⟨hno, -⟩
        · exact absurd hm (hnever m)
        · exact absurd hrep hno
    · simp [Host.restore, hdec] at hm
    · simp [Host.restore, hdec] at hm

end Restore

/-! ### What a closed engine is good for -/

/-- Both connections of the engine are closed. -/
def DiskEngine.IsClosed (eng : DiskEngine D) : Prop :=
  eng.writeClosed = true ∧ eng.readClosed = true

/-- What a node says that serves nothing: the error of a closed connection, or that the entry
was none of its business. -/
def Reaction.Refuses : Reaction → Prop
  | .applied res => ∀ r, res = .ret r →
      r = .nil ∨ r = .exec [] (some errClosed) ∨ r = .query [] (some errClosed)
  | .answered res => ∀ r, res = .ret r → r = ([], some errClosed)

/-- An entry on a closed engine changes nothing, and is refused. -/
theorem applyAction_closed (pr : Proto) (drv : Driver D E) (loc : Local E) (data : List UInt8)
    {s : Mounted D} (hclosed : s.eng.IsClosed) :
    (s.applyAction pr drv loc data).1 = s ∧
      (Reaction.applied (s.applyAction pr drv loc data).2).Refuses := by
  obtain ⟨hwrite, hread⟩ := hclosed
  have hexec : ∀ req, s.exec drv loc req = (s, .ret ([], some errClosed)) := fun req => by
    simp [Mounted.exec, hwrite]
  have hquery : ∀ req, s.query drv loc req = (s, .ret ([], some errClosed)) := fun req => by
    simp [Mounted.query, hread]
  rw [Mounted.applyAction]
  rcases applySwitch_cases pr data with ⟨req, -, hrun⟩ | ⟨q, -, hrun⟩ | ⟨-, out, hout, hrun⟩
  · rw [hrun, hexec]
    exact ⟨rfl, by simp [Reaction.Refuses]⟩
  · rw [hrun, hquery]
    exact ⟨rfl, by simp [Reaction.Refuses]⟩
  · rw [hrun]
    refine ⟨rfl, ?_⟩
    rcases hout with rfl | ⟨m, rfl⟩
    · simp [Reaction.Refuses]
    · simp [Reaction.Refuses]

/-- A request to a node with a closed engine is refused, and the engine stays closed. -/
theorem serve_closed (pr : Proto) (drv : Driver D E) (r : Later E) {h : Host D}
    (hclosed : h.c.db.IsClosed) :
    (h.serve pr drv r).1.c.db.IsClosed ∧ (h.serve pr drv r).2.Refuses := by
  cases r with
  | apply record loc =>
      obtain ⟨hsame, hrefuses⟩ := @applyAction_closed D E pr drv loc record.data h.mounted hclosed
      refine ⟨?_, hrefuses⟩
      show (h.mounted.applyAction pr drv loc record.data).1.eng.IsClosed
      rw [hsame]
      exact hclosed
  | query req loc =>
      cases req with
      | none => exact ⟨hclosed, by simp [Host.serve, Host.query, Reaction.Refuses]⟩
      | some req =>
          have hquery : h.mounted.query drv loc (some req) =
              (h.mounted, .ret ([], some errClosed)) := by
            simp [Mounted.query, Host.mounted, hclosed.2]
          simp only [Host.serve, Host.query, hquery]
          exact ⟨hclosed, by simp [Reaction.Refuses]⟩

/-- **A node with a closed engine serves no request again.** Induction on the requests; each
of them leaves the engine closed. -/
theorem closed_never_serves (pr : Proto) (drv : Driver D E) (reqs : List (Later E)) {h : Host D}
    (hclosed : h.c.db.IsClosed) : ∀ r ∈ h.serveAll pr drv reqs, r.Refuses := by
  induction reqs generalizing h with
  | nil => simp [Host.serveAll]
  | cons req reqs ih =>
      obtain ⟨hstill, hrefuses⟩ := serve_closed pr drv req hclosed
      intro r hr
      rcases List.mem_cons.mp hr with rfl | hrest
      · exact hrefuses
      · exact ih hstill r hrest

/-- **A failed restore closes the engine for good**: the node that `NewDB` returns restores
its own snapshot, no call fails of itself, an error is returned, and no request is served
any more. -/
theorem failed_restore_ends_service :
    (firstNode.restore storeGzip byteTable {} (.ok firstStream)).2 =
        .ret (some "cannot open disk database open : no such file or directory") ∧
      (∀ reqs, ∀ r ∈ (firstNode.restore storeGzip byteTable {} (.ok firstStream)).1.serveAll
        tableProto byteTable reqs, r.Refuses) ∧
      ¬FailsSafely storeGzip tableProto byteTable {} (.ok firstStream) firstNode := by
  have hclosed : (firstNode.restore storeGzip byteTable {} (.ok firstStream)).1.c.db.IsClosed :=
    ⟨rfl, rfl⟩
  refine ⟨rfl, fun reqs => closed_never_serves tableProto byteTable reqs hclosed, fun h => ?_⟩
  have hopen := (h _ rfl).isOpen.2
  rw [hclosed.2] at hopen
  exact absurd hopen (by simp)

/-! ### A snapshot without the database -/

section Snapshot

variable {gz : Gzip} {fault : Option String} {f : Faults} {h : Host D}

/-- A snapshot is **faithful**: if `Snapshot` and `Persist` succeed, the stream decodes to the
bytes of the database, and an error of `Serialize` keeps them from succeeding. -/
structure SnapshotFaithful (gz : Gzip) (fault : Option String) (f : Faults) (h : Host D) :
    Prop where
  decodes : ∀ snap, h.snapshot fault = .ret snap → (persist gz f snap {}).2 = none →
    ∃ bytes, h.fs.files h.c.db.path = some bytes ∧
      ∀ b : Slice, b.data = (persist gz f snap {}).1.written →
        snapshotToBytes gz (.ok b) = .ret (.ok (some bytes))
  surfaces : ∀ m, h.c.db.serialize fault h.fs = .error m → ∀ snap, h.snapshot fault = .ret snap →
    (persist gz f snap {}).2 ≠ none

/-- What `Serialize` returns is in the file. -/
theorem DiskEngine.serialize_ok {fs : FS} {eng : DiskEngine D} {bytes : List UInt8}
    (h : eng.serialize fault fs = .ok bytes) : fs.files eng.path = some bytes := by
  rw [DiskEngine.serialize, FS.readFile] at h
  split at h
  · simp at h
  split at h
  · simp at h
  · rename_i b hfile
    split at h
    · simp at h
    · rw [hfile, Except.ok.inj h]

/-- The sink **refuses** even a snapshot without a database: one of its two writes fails, or
closing the sink. -/
def Refused (f : Faults) : Prop := f.write 0 ≠ none ∨ f.write 1 ≠ none ∨ f.close ≠ none

/-- When `Persist` of a snapshot without a database fails. -/
theorem persist_empty_fails_iff : (persist gz f ⟨none⟩ {}).2 ≠ none ↔ Refused f := by
  rw [Ne, persist_eq_none_iff]
  rcases hw₀ : f.write 0 with _ | ⟨m, n⟩
  · rcases hw₁ : f.write 1 with _ | ⟨m, n⟩
    · rcases hclose : f.close with _ | m <;>
        simp [persistBody, persistPayload, compressDatabase, Sink.write, Sink.close, Refused, hw₀,
          hw₁, hclose]
    · simp [persistBody, persistPayload, compressDatabase, Sink.write, Refused, hw₀, hw₁]
  · simp [persistBody, Sink.write, Refused, hw₀]

/-- **When a snapshot is faithful**: exactly when `Serialize` succeeds, or the sink refuses
even a snapshot without a database, or `Snapshot` panics because the node has no logger
yet. -/
theorem snapshot_faithful_iff (hgz : gz.Lawful) (fault : Option String) (f : Faults)
    (h : Host D) :
    SnapshotFaithful gz fault f h ↔
      (∃ bytes, h.c.db.serialize fault h.fs = .ok bytes) ∨
        Refused f ∨ h.c.log = false := by
  rw [← @persist_empty_fails_iff gz f]
  by_cases hlog : h.c.log = true
  swap
  · have hpanic : ∀ snap, h.snapshot fault ≠ .ret snap := by
      intro snap hsnap
      rw [Host.snapshot, if_neg hlog] at hsnap
      exact absurd hsnap (by simp)
    refine iff_of_true ⟨fun snap hs => absurd hs (hpanic snap), fun _ _ snap hs => ?_⟩
      (.inr (.inr (Bool.eq_false_of_not_eq_true hlog)))
    exact absurd hs (hpanic snap)
  have hset : h.c.log = false ↔ False := by simp [hlog]
  rw [hset, or_false]
  have hsnap : h.snapshot fault = .ret ⟨(h.c.db.serialize fault h.fs).toOption⟩ := if_pos hlog
  rcases hser : h.c.db.serialize fault h.fs with m | bytes
  · rw [hser] at hsnap
    refine ⟨fun hfaith => .inr (hfaith.surfaces m hser ⟨none⟩ hsnap), ?_⟩
    rintro (⟨bytes, hbytes⟩ | hfails)
    · exact absurd hbytes (by simp)
    have hnone : ∀ snap, h.snapshot fault = .ret snap → (persist gz f snap {}).2 ≠ none := by
      intro snap hsnap'
      obtain rfl := Outcome.ret.inj (hsnap.symm.trans hsnap')
      exact hfails
    exact ⟨fun snap hs hok => absurd hok (hnone snap hs), fun _ _ => hnone⟩
  · rw [hser] at hsnap
    refine iff_of_true ⟨fun snap hs hok => ?_, fun m hm => ?_⟩ (.inl ⟨bytes, rfl⟩)
    · obtain rfl := Outcome.ret.inj (hsnap.symm.trans hs)
      refine ⟨bytes, DiskEngine.serialize_ok hser, fun b hb => ?_⟩
      rw [(persist_ok hgz hok).1] at hb
      exact snapshotToBytes_persisted hgz hb
    · exact absurd (hser.symm.trans hm) (by simp)

/-- The rule at work: the snapshot of a new node. -/
theorem snapshot_faithful_new : SnapshotFaithful storeGzip none {} firstNode :=
  (snapshot_faithful_iff storeGzip_lawful none {} firstNode).mpr (.inl ⟨[], rfl⟩)

/-- **A snapshot without the database**: reading the file fails, `Snapshot` and `Persist`
succeed all the same, and the stream decodes to no database, while the file is there. -/
theorem failed_serialize_is_silent :
    firstNode.c.db.serialize (some "open data/db/sqlite.db: too many open files") firstNode.fs =
        .error "open data/db/sqlite.db: too many open files" ∧
      firstNode.fs.files firstNode.c.db.path = some [] ∧
      firstNode.stream storeGzip (some "open data/db/sqlite.db: too many open files") {} =
        some (frame none) ∧
      (∀ b : Slice, b.data = frame none → snapshotToBytes storeGzip (.ok b) = .ret (.ok none)) ∧
      ¬SnapshotFaithful storeGzip (some "open data/db/sqlite.db: too many open files") {}
        firstNode := by
  refine ⟨rfl, rfl, rfl, fun b hb => snapshotToBytes_frame_none hb, fun h => ?_⟩
  exact h.surfaces "open data/db/sqlite.db: too many open files" rfl ⟨none⟩ rfl rfl

end Snapshot

end DistSql
