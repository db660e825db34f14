import DistSql.Slice

/-!
# The Snapshot Format

A snapshot of the database travels through raft as a byte stream: `Persist` writes it
to a sink, and `snapshotToBytes` reads it back. The stream is a marker word (the
largest `uint64`, which says that the payload is compressed), a size word, and the
compressed database; a snapshot without a database has the size zero and no payload.
The decoder also knows an uncompressed form, which the encoder never writes.

The writing side has many ways to fail: any of the three calls of the gzip writer, any
of the two or three writes to the sink, and closing the sink. `Faults` says which calls
fail and how; the sink records what was written and how it was left.

## Main results

* `snapshotToBytes_persisted`: the decoder undoes the framing, at every length.
* `persist_ok`: a `Persist` that returns nil has written a complete frame, closed the
  sink and not cancelled it.
* `persist_round_trip`: the **round trip under failures**, in both directions.
-/

open Golang

namespace DistSql

/-! ### The libraries on both sides -/

/-- The gzip library: what a writer that is written to once and closed puts out, and
the three calls of the reading side. -/
structure Gzip where
  compress : List UInt8 → List UInt8
  newReader : List UInt8 → Option String
  readAll : List UInt8 → Except String (List UInt8)
  closeReader : List UInt8 → Option String

/-- Decompression undoes compression, and compressed data is never empty. -/
structure Gzip.Lawful (gz : Gzip) : Prop where
  newReader_compress : ∀ b, gz.newReader (gz.compress b) = none
  readAll_compress : ∀ b, gz.readAll (gz.compress b) = .ok b
  closeReader_compress : ∀ b, gz.closeReader (gz.compress b) = none
  compress_ne_nil : ∀ b, gz.compress b ≠ []

/-- The snapshot sink: the bytes written so far, the number of `Write` calls, whether
it was closed successfully, and whether `Cancel` was called. -/
structure Sink where
  written : List UInt8 := []
  writes : ℕ := 0
  closed : Bool := false
  cancelled : Bool := false
  deriving DecidableEq, Repr

/-- The calls that fail, with their errors. A failing `Write` of the sink may have
written some of its bytes. -/
structure Faults where
  gzipNew : Option String := none
  gzipWrite : Option String := none
  gzipClose : Option String := none
  write : ℕ → Option (String × ℕ) := fun _ => none
  close : Option String := none
  cancel : Option String := none

/-- `sink.Write`. -/
def Sink.write (f : Faults) (k : Sink) (p : List UInt8) : Sink × Option String :=
  match f.write k.writes with
  | some (m, n) => ({ k with written := k.written ++ p.take n, writes := k.writes + 1 }, some m)
  | none => ({ k with written := k.written ++ p, writes := k.writes + 1 }, none)

/-- `sink.Close`. -/
def Sink.close (f : Faults) (k : Sink) : Sink × Option String :=
  match f.close with
  | some m => (k, some m)
  | none => ({ k with closed := true }, none)

/-- `sink.Cancel`. -/
def Sink.cancel (f : Faults) (k : Sink) : Sink × Option String :=
  ({ k with cancelled := true }, f.cancel)

/-! ### Writing -/

/-- `snapshot`: the serialized database, nil when there is none. -/
structure Snapshot where
  database : Option (List UInt8)
  deriving DecidableEq, Repr

/-- `bytes.Buffer.Bytes` of a buffer that was only written to: nil when nothing was. -/
def bufferBytes (b : List UInt8) : Option (List UInt8) := if b = [] then none else some b

/-- `compressDatabase`. -/
def compressDatabase (gz : Gzip) (f : Faults) (snap : Snapshot) :
    Except String (Option (List UInt8)) :=
  match snap.database with
  | none => .ok none
  | some b =>
      match f.gzipNew with
      | some m => .error m
      | none =>
          match f.gzipWrite with
          | some m => .error m
          | none =>
              match f.gzipClose with
              | some m => .error m
              | none => .ok (bufferBytes (gz.compress b))

/-- The marker of a compressed snapshot, `math.MaxUint64`. -/
def maxUint64 : UInt64 := 0xFFFFFFFFFFFFFFFF

/-- The size word and the payload, after the marker was written. -/
def persistPayload (f : Faults) (k : Sink) (compressed : Option (List UInt8)) :
    Sink × Option String :=
  match compressed with
  | none =>
      match k.write f (putUint64 0) with
      | (k, some m) => (k, some m)
      | (k, none) => k.close f
  | some c =>
      match k.write f (putUint64 (.ofNat c.length)) with
      | (k, some m) => (k, some m)
      | (k, none) =>
          match k.write f c with
          | (k, some m) => (k, some m)
          | (k, none) => k.close f

/-- The function literal inside `Persist`. -/
def persistBody (gz : Gzip) (f : Faults) (snap : Snapshot) (k : Sink) :
    Sink × Option String :=
  match k.write f (putUint64 maxUint64) with
  | (k, some m) => (k, some m)
  | (k, none) =>
      match compressDatabase gz f snap with
      | .error m => (k, some m)
      | .ok compressed => persistPayload f k compressed

/-- `Persist`: the sink afterwards and the returned error. A failure cancels the sink;
the error of `Cancel` takes precedence over the failure. -/
def persist (gz : Gzip) (f : Faults) (snap : Snapshot) (k : Sink) : Sink × Option String :=
  match persistBody gz f snap k with
  | (k, none) => (k, none)
  | (k, some m) =>
      match k.cancel f with
      | (k, some m') => (k, some m')
      | (k, none) => (k, some m)

/-! ### Reading -/

/-- The compressed payload, decompressed. -/
def gunzip (gz : Gzip) (payload : List UInt8) : Except String (Option (List UInt8)) :=
  match gz.newReader payload with
  | some m => .error m
  | none =>
      match gz.readAll payload with
      | .error m => .error ("sqlite database decompress " ++ m)
      | .ok res =>
          match gz.closeReader payload with
          | some m => .error m
          | none => .ok (some res)

/-- `snapshotToBytes`, from the result of `io.ReadAll`. -/
def snapshotToBytes (gz : Gzip) (rd : Except String Slice) :
    Outcome (Except String (Option (List UInt8))) :=
  match rd with
  | .error m => .ret (.error ("read all error: " ++ m))
  | .ok b => do
      let head ← b.slice 0 8
      let word ← if uint64 head = maxUint64 then b.slice 8 16 else pure head
      let isCompressed := decide (uint64 head = maxUint64)
      let offset : Int64 := if isCompressed then 16 else 8
      let size := uint64 word
      if size = 0 then pure (.ok none)
      else do
        let payload ← b.slice offset (offset + size.toInt64)
        if isCompressed then pure (gunzip gz payload) else pure (.ok (some payload))

/-! ### The frame -/

/-- The stream of a snapshot with this compressed database. -/
def frame : Option (List UInt8) → List UInt8
  | none => putUint64 maxUint64 ++ putUint64 0
  | some c => putUint64 maxUint64 ++ putUint64 (.ofNat c.length) ++ c

/-- The marker word of a stream that starts with it. -/
theorem slice_marker {b : Slice} {rest : List UInt8}
    (hb : b.data = putUint64 maxUint64 ++ rest) :
    b.slice 0 8 = .ret (putUint64 maxUint64) := by
  have hlen : 8 ≤ b.data.length := by
    rw [hb, List.length_append, length_putUint64]
    omega
  rw [b.slice_data (m := 0) (n := 8) rfl rfl (by omega) hlen, hb, List.drop_zero,
    List.take_left' (length_putUint64 _)]

/-- The size word of a stream with a marker. -/
theorem slice_size {b : Slice} {n : UInt64} {rest : List UInt8}
    (hb : b.data = putUint64 maxUint64 ++ putUint64 n ++ rest) :
    b.slice 8 16 = .ret (putUint64 n) := by
  have hm : (putUint64 maxUint64).length = 8 := length_putUint64 _
  have hn : (putUint64 n).length = 8 := length_putUint64 _
  have hlen : 16 ≤ b.data.length := by
    rw [hb, List.length_append, List.length_append, hm, hn]
    omega
  rw [b.slice_data (m := 8) (n := 16) rfl rfl (by omega) hlen, hb, List.append_assoc,
    List.drop_left' hm, List.take_left' hn]

/-- **The decoder undoes the framing** of a compressed database, at every length that
a slice can have. -/
theorem snapshotToBytes_frame_some {gz : Gzip} {b : Slice} {c : List UInt8}
    (hc : c ≠ []) (hb : b.data = frame (some c)) :
    snapshotToBytes gz (.ok b) = .ret (gunzip gz c) := by
  obtain ⟨size, hsize⟩ : ∃ size : UInt64, size = .ofNat c.length := ⟨_, rfl⟩
  have hdata : b.data = putUint64 maxUint64 ++ putUint64 size ++ c := by
    rw [hb, frame, hsize]
  have hmark : b.slice 0 8 = .ret (putUint64 maxUint64) :=
    slice_marker (by rw [hdata, List.append_assoc])
  have hlen : b.data.length = 16 + c.length := by
    rw [hdata, List.length_append, List.length_append, length_putUint64, length_putUint64]
  have hfit : 16 + c.length < 2 ^ 63 := hlen ▸ b.length_lt
  have hnat : size.toNat = c.length := by
    rw [hsize, UInt64.toNat_ofNat']
    exact Nat.mod_eq_of_lt (by omega)
  have hne : size ≠ 0 := by
    intro h
    rw [h] at hnat
    exact hc (List.length_eq_zero_iff.mp hnat.symm)
  have hpay : b.slice 16 (16 + size.toInt64) = .ret c := by
    have hhi : ((16 : Int64) + size.toInt64).toInt = ((16 + c.length : ℕ) : ℤ) :=
      toInt_add_toInt64 rfl hnat hfit
    have hhead : (putUint64 maxUint64 ++ putUint64 size).length = 16 := by
      rw [List.length_append, length_putUint64, length_putUint64]
    rw [b.slice_data (m := 16) rfl hhi (by omega) (by omega), hdata,
      List.drop_left' hhead]
    simp
  simp [snapshotToBytes, hmark, slice_size hdata, hne, hpay]

/-- The decoder reads no database from the frame that holds none. -/
theorem snapshotToBytes_frame_none {gz : Gzip} {b : Slice} (hb : b.data = frame none) :
    snapshotToBytes gz (.ok b) = .ret (.ok none) := by
  have hdata : b.data = putUint64 maxUint64 ++ putUint64 0 ++ [] := by
    rw [List.append_nil]
    exact hb
  have hmark : b.slice 0 8 = .ret (putUint64 maxUint64) :=
    slice_marker (by rw [hdata, List.append_assoc])
  simp [snapshotToBytes, hmark, slice_size hdata]

/-- What a lawful gzip library makes of its own output. -/
theorem Gzip.Lawful.gunzip_compress {gz : Gzip} (h : gz.Lawful) (b : List UInt8) :
    gunzip gz (gz.compress b) = .ok (some b) := by
  simp [gunzip, h.newReader_compress, h.readAll_compress, h.closeReader_compress]

/-! ### The round trip under failures -/

/-- One of the calls that `Persist` makes for this snapshot fails: a write to the sink,
a call of the gzip writer (which is only used when there is a database), or closing
the sink. -/
def Failing (f : Faults) (snap : Snapshot) : Prop :=
  f.write 0 ≠ none ∨
    (snap.database ≠ none ∧ (f.gzipNew ≠ none ∨ f.gzipWrite ≠ none ∨ f.gzipClose ≠ none)) ∨
    f.write 1 ≠ none ∨ (snap.database ≠ none ∧ f.write 2 ≠ none) ∨ f.close ≠ none

/-- A write that succeeds. -/
theorem Sink.write_ok {f : Faults} {k k' : Sink} {p : List UInt8}
    (h : k.write f p = (k', none)) :
    f.write k.writes = none ∧
      k' = { k with written := k.written ++ p, writes := k.writes + 1 } := by
  rcases hw : f.write k.writes with _ | ⟨m, n⟩
  · simp only [Sink.write, hw] at h
    exact ⟨rfl, (Prod.mk.inj h).1.symm⟩
  · simp [Sink.write, hw] at h

/-- A close that succeeds. -/
theorem Sink.close_ok {f : Faults} {k k' : Sink} (h : k.close f = (k', none)) :
    f.close = none ∧ k' = { k with closed := true } := by
  rcases hc : f.close with _ | m
  · simp only [Sink.close, hc] at h
    exact ⟨rfl, (Prod.mk.inj h).1.symm⟩
  · simp [Sink.close, hc] at h

/-- A compression that succeeds: none of the calls of the gzip writer failed. -/
theorem compressDatabase_ok {gz : Gzip} (hgz : gz.Lawful) {f : Faults} {snap : Snapshot}
    {c : Option (List UInt8)} (h : compressDatabase gz f snap = .ok c) :
    c = snap.database.map gz.compress ∧
      (snap.database ≠ none → f.gzipNew = none ∧ f.gzipWrite = none ∧ f.gzipClose = none) := by
  rcases hdb : snap.database with _ | b
  · simp only [compressDatabase, hdb] at h
    exact ⟨(Except.ok.inj h).symm, fun hne => absurd rfl hne⟩
  · have hbuf : bufferBytes (gz.compress b) = some (gz.compress b) :=
      if_neg (hgz.compress_ne_nil b)
    simp only [compressDatabase, hdb, hbuf] at h
    split at h
    · simp at h
    rename_i hnew
    split at h
    · simp at h
    rename_i hwrite
    split at h
    · simp at h
    rename_i hclose
    exact ⟨(Except.ok.inj h).symm, fun _ => ⟨hnew, hwrite, hclose⟩⟩

/-- What stands in the frame after the marker. -/
def afterMarker : Option (List UInt8) → List UInt8
  | none => putUint64 0
  | some c => putUint64 (.ofNat c.length) ++ c

/-- The frame is the marker and what stands after it. -/
theorem frame_eq (c : Option (List UInt8)) :
    frame c = putUint64 maxUint64 ++ afterMarker c := by
  cases c with
  | none => rfl
  | some c => exact List.append_assoc _ _ _

/-- The size word and the payload, when all calls succeed. -/
theorem persistPayload_ok {f : Faults} {k k' : Sink} {c : Option (List UInt8)}
    (h : persistPayload f k c = (k', none)) :
    (f.write k.writes = none ∧ (c ≠ none → f.write (k.writes + 1) = none) ∧ f.close = none) ∧
      k'.written = k.written ++ afterMarker c ∧ k'.closed = true ∧
      k'.cancelled = k.cancelled := by
  cases c with
  | none =>
      simp only [persistPayload] at h
      split at h
      · simp at h
      rename_i k₁ hw
      obtain ⟨hfw, rfl⟩ := Sink.write_ok hw
      obtain ⟨hfc, rfl⟩ := Sink.close_ok h
      exact ⟨⟨hfw, fun hne => absurd rfl hne, hfc⟩, rfl, rfl, rfl⟩
  | some c =>
      simp only [persistPayload] at h
      split at h
      · simp at h
      rename_i k₁ hw₁
      obtain ⟨hfw₁, rfl⟩ := Sink.write_ok hw₁
      split at h
      · simp at h
      rename_i k₂ hw₂
      obtain ⟨hfw₂, rfl⟩ := Sink.write_ok hw₂
      obtain ⟨hfc, rfl⟩ := Sink.close_ok h
      exact ⟨⟨hfw₁, fun _ => hfw₂, hfc⟩, List.append_assoc _ _ _, rfl, rfl⟩

/-- **The body of `Persist`, when it returns nil**: no call failed, and the sink holds the
whole frame and is closed. -/
theorem persistBody_ok {gz : Gzip} (hgz : gz.Lawful) {f : Faults} {snap : Snapshot}
    {k' : Sink} (h : persistBody gz f snap {} = (k', none)) :
    ¬Failing f snap ∧ k'.written = frame (snap.database.map gz.compress) ∧
      k'.closed = true ∧ k'.cancelled = false := by
  simp only [persistBody] at h
  split at h
  · simp at h
  rename_i k₁ hw
  obtain ⟨hfw₀, rfl⟩ := Sink.write_ok hw
  split at h
  · simp at h
  rename_i c hcompress
  obtain ⟨rfl, hgzip⟩ := compressDatabase_ok hgz hcompress
  obtain ⟨⟨hfw₁, hfw₂, hfc⟩, hwritten, hclosed, hcancelled⟩ := persistPayload_ok h
  refine ⟨?_, ?_, hclosed, hcancelled⟩
  · rintro (h₀ | ⟨hdb, hz⟩ | h₁ | ⟨hdb, h₂⟩ | hc)
    · exact h₀ hfw₀
    · obtain ⟨hz₁, hz₂, hz₃⟩ := hgzip hdb
      rcases hz with hz | hz | hz
      · exact hz hz₁
      · exact hz hz₂
      · exact hz hz₃
    · exact h₁ hfw₁
    · exact h₂ (hfw₂ (by simpa using hdb))
    · exact hc hfc
  · rw [hwritten, frame_eq]
    rfl

/-- `Persist` returns nil exactly when its body does. -/
theorem persist_eq_none_iff {gz : Gzip} {f : Faults} {snap : Snapshot} {k : Sink} :
    (persist gz f snap k).2 = none ↔ (persistBody gz f snap k).2 = none := by
  rcases hp : persistBody gz f snap k with ⟨k', _ | m⟩
  · simp [persist, hp]
  · rcases hc : f.cancel with _ | m' <;> simp [persist, hp, Sink.cancel, hc]

/-- A failure of the body cancels the sink and is reported. -/
theorem persist_of_failing {gz : Gzip} (hgz : gz.Lawful) {f : Faults} {snap : Snapshot}
    (h : Failing f snap) :
    (persist gz f snap {}).1.cancelled = true ∧ (persist gz f snap {}).2 ≠ none := by
  rcases hp : persistBody gz f snap {} with ⟨k, _ | m⟩
  · exact absurd h (persistBody_ok hgz hp).1
  · rcases hc : f.cancel with _ | m' <;> simp [persist, hp, Sink.cancel, hc]

/-- The frame of a snapshot decodes to its database. -/
theorem snapshotToBytes_persisted {gz : Gzip} (hgz : gz.Lawful) {snap : Snapshot}
    {b : Slice} (hb : b.data = frame (snap.database.map gz.compress)) :
    snapshotToBytes gz (.ok b) = .ret (.ok snap.database) := by
  rcases hdb : snap.database with _ | d
  · rw [hdb] at hb
    exact snapshotToBytes_frame_none hb
  · rw [hdb] at hb
    rw [snapshotToBytes_frame_some (hgz.compress_ne_nil d) hb, hgz.gunzip_compress]

/-- **A `Persist` that returns nil** has written the whole frame, closed the sink and not
cancelled it. -/
theorem persist_ok {gz : Gzip} (hgz : gz.Lawful) {f : Faults} {snap : Snapshot}
    (hok : (persist gz f snap {}).2 = none) :
    (persist gz f snap {}).1.written = frame (snap.database.map gz.compress) ∧
      (persist gz f snap {}).1.closed = true ∧
      (persist gz f snap {}).1.cancelled = false := by
  rw [persist_eq_none_iff] at hok
  rcases hp : persistBody gz f snap {} with ⟨k, _ | m⟩
  · simp only [persist, hp]
    exact (persistBody_ok hgz hp).2
  · rw [hp] at hok
    exact absurd hok (by simp)

/-- **The snapshot format round trip under write failures.** If `Persist` returns nil,
the sink was closed and not cancelled, and the decoder reads exactly the database of
the snapshot from the bytes that were written — nil for nil. If one of the calls that
`Persist` makes fails, the sink is cancelled and an error is returned. -/
theorem persist_round_trip {gz : Gzip} (hgz : gz.Lawful) (f : Faults) (snap : Snapshot) :
    ((persist gz f snap {}).2 = none →
      (persist gz f snap {}).1.closed = true ∧ (persist gz f snap {}).1.cancelled = false ∧
        ∀ b : Slice, b.data = (persist gz f snap {}).1.written →
          snapshotToBytes gz (.ok b) = .ret (.ok snap.database)) ∧
      (Failing f snap →
        (persist gz f snap {}).1.cancelled = true ∧ (persist gz f snap {}).2 ≠ none) := by
  refine ⟨fun hok => ?_, persist_of_failing hgz⟩
  obtain ⟨hwritten, hclosed, hcancelled⟩ := persist_ok hgz hok
  refine ⟨hclosed, hcancelled, fun b hb => ?_⟩
  rw [hwritten] at hb
  exact snapshotToBytes_persisted hgz hb

/-- The gzip member of no data, as a writer at the best compression puts it out: the
header, one empty stored block, and a zero checksum and length. -/
def emptyMember : List UInt8 :=
  [0x1f, 0x8b, 8, 0, 0, 0, 0, 0, 2, 0xff, 1, 0, 0, 0xff, 0xff, 0, 0, 0, 0, 0, 0, 0, 0]

/-- A library that is exact on empty data, and stores other data after the empty
member. -/
def storeGzip : Gzip where
  compress b := emptyMember ++ b
  newReader b := if emptyMember.isPrefixOf b then none else some "gzip: invalid header"
  readAll b := .ok (b.drop emptyMember.length)
  closeReader _ := none

/-- The storing library is lawful. -/
theorem storeGzip_lawful : storeGzip.Lawful where
  newReader_compress b := by simp [storeGzip]
  readAll_compress b := by simp [storeGzip]
  closeReader_compress _ := rfl
  compress_ne_nil b := by simp [storeGzip, emptyMember]

/-- The round trip of the snapshot of an empty database file, without failures. -/
theorem persist_round_trip_empty_file :
    (persist storeGzip {} ⟨some []⟩ {}).2 = none ∧
      ∀ b : Slice, b.data = (persist storeGzip {} ⟨some []⟩ {}).1.written →
        snapshotToBytes storeGzip (.ok b) = .ret (.ok (some [])) :=
  ⟨rfl, ((persist_round_trip storeGzip_lawful {} ⟨some []⟩).1 rfl).2.2⟩

end DistSql
