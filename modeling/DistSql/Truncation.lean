import DistSql.Decoder

/-!
# Incomplete Snapshot Streams

A snapshot stream can end early: the store lost its tail, or the transfer broke off. The
decoder never compares what the header announces with the length of the stream. It slices
the buffer of `io.ReadAll`, and Go checks a slice against the **capacity** of the buffer,
where the bytes behind the stream are zero.

So a stream that ends early is not rejected as such. If it ends in the size word, the size
reads as if its missing bytes were zero; if the missing bytes of the payload fit the
capacity, they read as zero. What is left to notice the loss is the gzip library, and the
panic of a slice that leaves the buffer.

## Main results

* `snapshotToBytes_sliced`: the decoder takes its payload from the memory of the buffer.
* `cut_not_complete`: a proper initial part of a stream of `Persist` is not complete.
* `decoder_complete_iff`: when the decoder accepts only what is complete.
* `cut_at_marker_is_no_database`: every snapshot, cut after its marker, reads as a snapshot
  without a database.
-/

open Golang

namespace DistSql

/-! ### What a stream announces, and what is there -/

/-- The stream is **complete**: it has the header, and as many bytes after it as the header
announces. -/
def Complete (data : List UInt8) : Prop :=
  (header data).1 + (header data).2.toNat ≤ data.length

instance (data : List UInt8) : Decidable (Complete data) := inferInstanceAs (Decidable (_ ≤ _))

/-- The announced bytes after the header, as far as they are there. -/
def payload (data : List UInt8) : List UInt8 :=
  (data.drop (header data).1).take (header data).2.toNat

/-- The snapshot is marked as compressed. -/
def Marked (data : List UInt8) : Prop := streamWord data 0 = maxUint64

instance (data : List UInt8) : Decidable (Marked data) := inferInstanceAs (Decidable (_ = _))

/-- What a complete stream holds: nothing if it announces nothing, else its payload,
decompressed if it is marked. -/
def held (gz : Gzip) (data : List UInt8) : Except String (Option (List UInt8)) :=
  if (header data).2 = 0 then .ok none
  else if Marked data then gunzip gz (payload data)
  else .ok (some (payload data))

/-- The bytes that the decoder takes for the payload: those of the buffer's memory. -/
def sliced (b : Slice) : List UInt8 :=
  (b.memory.drop (header b.data).1).take (header b.data).2.toNat

/-- In a complete stream they are the payload. -/
theorem sliced_of_complete {b : Slice} (h : Complete b.data) : sliced b = payload b.data := by
  rw [Complete] at h
  have hdrop : (header b.data).2.toNat ≤ (b.data.drop (header b.data).1).length := by
    rw [List.length_drop]
    omega
  rw [sliced, payload, Slice.memory, List.drop_append_of_le_length (by omega),
    List.take_append_of_le_length hdrop]

/-- A complete stream fits its buffer. -/
theorem Complete.fits {b : Slice} (h : Complete b.data) : Fits b := by
  refine .inr (le_trans h ?_)
  rw [Slice.cap]
  omega

/-- **The decoder takes its payload from the memory of the buffer**, when it is there. -/
theorem snapshotToBytes_sliced (gz : Gzip) {b : Slice} (hb : OfReadAll b) (hfits : Fits b)
    (hsize : (header b.data).2 ≠ 0) :
    snapshotToBytes gz (.ok b) =
      if Marked b.data then .ret (gunzip gz (sliced b)) else .ret (.ok (some (sliced b))) := by
  have hcap : (header b.data).1 + (header b.data).2.toNat ≤ b.cap := hfits.resolve_left hsize
  have hend : (Int64.ofNat (header b.data).1 + (header b.data).2.toInt64).toInt =
      (((header b.data).1 + (header b.data).2.toNat : ℕ) : ℤ) :=
    toInt_add_toInt64 (header_offset _) rfl (lt_of_le_of_lt hcap b.cap_lt)
  rw [snapshotToBytes_header gz hb, if_neg hsize,
    Slice.slice_memory (header_offset _) hend (by omega) hcap, Nat.add_sub_cancel_left]
  rfl

/-- A stream that announces nothing is a snapshot without a database. -/
theorem snapshotToBytes_zero (gz : Gzip) {b : Slice} (hb : OfReadAll b)
    (hsize : (header b.data).2 = 0) : snapshotToBytes gz (.ok b) = .ret (.ok none) := by
  rw [snapshotToBytes_header gz hb, if_pos hsize]

/-- **A complete stream decodes to what it holds.** -/
theorem snapshotToBytes_complete (gz : Gzip) {b : Slice} (hb : OfReadAll b)
    (h : Complete b.data) : snapshotToBytes gz (.ok b) = .ret (held gz b.data) := by
  by_cases hsize : (header b.data).2 = 0
  · rw [snapshotToBytes_zero gz hb hsize, held, if_pos hsize]
  · rw [snapshotToBytes_sliced gz hb h.fits hsize, held, if_neg hsize, sliced_of_complete h]
    split <;> rfl

/-! ### Streams that were cut -/

/-- The word of a stream at a place where a word was written. -/
theorem streamWord_append {pre rest : List UInt8} {w : UInt64} {i : ℕ} (hpre : pre.length = i) :
    streamWord (pre ++ (putUint64 w ++ rest)) i = w := by
  have hword : (putUint64 w).length = 8 := length_putUint64 w
  have hassoc : pre ++ (putUint64 w ++ rest) ++ List.replicate 16 0 =
      (pre ++ putUint64 w) ++ (rest ++ List.replicate 16 0) := by simp
  have hlen : (pre ++ putUint64 w).length = i + 8 := by
    rw [List.length_append, hpre, hword]
  rw [streamWord, hassoc, List.take_left' hlen, List.drop_left' hpre, uint64_putUint64]

/-- Every stream of `Persist` is the marker, a size, and so many bytes. -/
theorem frame_shape (c : Option (List UInt8)) :
    ∃ p, frame c = putUint64 maxUint64 ++ (putUint64 (.ofNat p.length) ++ p) := by
  cases c with
  | none => exact ⟨[], by simp [frame]⟩
  | some c => exact ⟨c, List.append_assoc _ _ _⟩

/-- The stream is **cut**: it is a proper initial part of a stream that `Persist` wrote. -/
def Cut (gz : Gzip) (data : List UInt8) : Prop :=
  ∃ (f : Faults) (snap : Snapshot) (whole : Slice),
    (persist gz f snap {}).2 = none ∧ whole.data = (persist gz f snap {}).1.written ∧
      data <+: whole.data ∧ data ≠ whole.data

/-- **What was cut is not complete.** Either the header is not all there, or the size is the
one of the whole stream. -/
theorem cut_not_complete {gz : Gzip} (hgz : gz.Lawful) {data : List UInt8} (h : Cut gz data) :
    ¬Complete data := by
  obtain ⟨f, snap, whole, hok, hwhole, ⟨tail, htail⟩, hne⟩ := h
  have htail_ne : tail ≠ [] := by
    rintro rfl
    exact hne (by rwa [List.append_nil] at htail)
  have hpos : 0 < tail.length := List.length_pos_of_ne_nil htail_ne
  have hbound : whole.data.length < 2 ^ 63 := whole.length_lt
  rw [(persist_ok hgz hok).1] at hwhole
  obtain ⟨p, hframe⟩ := frame_shape (snap.database.map gz.compress)
  rw [hwhole, hframe] at htail hbound
  have hmark : (putUint64 maxUint64).length = 8 := length_putUint64 _
  have hword : (putUint64 (.ofNat p.length)).length = 8 := length_putUint64 _
  have hlens := congrArg List.length htail
  simp only [List.length_append, hmark, hword] at hlens hbound
  intro hcomplete
  rw [Complete] at hcomplete
  have hheader := header_length data
  -- the marker is all there, so the header has two words
  obtain ⟨rest, rfl⟩ : putUint64 maxUint64 <+: data :=
    List.prefix_of_prefix_length_le ⟨_, rfl⟩ ⟨tail, htail⟩ (by omega)
  have hmarked : streamWord (putUint64 maxUint64 ++ rest) 0 = maxUint64 :=
    @streamWord_append [] rest maxUint64 0 rfl
  rw [header, if_pos hmarked] at hcomplete
  rw [List.append_assoc, List.append_cancel_left_eq] at htail
  -- so is the size, and it is that of the whole stream
  obtain ⟨rest', rfl⟩ : putUint64 (.ofNat p.length) <+: rest :=
    List.prefix_of_prefix_length_le ⟨_, rfl⟩ ⟨tail, htail⟩ (by
      rw [List.length_append, hmark] at hcomplete
      omega)
  rw [streamWord_append hmark, UInt64.toNat_ofNat'] at hcomplete
  simp only [List.length_append, hmark, hword] at hcomplete hlens
  omega

/-! ### When only complete streams are accepted -/

/-- The decoder **accepts only complete streams**, at this buffer: what it returns without an
error is what a complete stream holds, and a stream of `Persist` that was cut is an
error. -/
structure AcceptsComplete (gz : Gzip) (b : Slice) : Prop where
  complete : ∀ res, snapshotToBytes gz (.ok b) = .ret (.ok res) →
    Complete b.data ∧ held gz b.data = .ok res
  rejects : Cut gz b.data → ∃ m, snapshotToBytes gz (.ok b) = .ret (.error m)

/-- The gzip library notices the loss: the stream is marked and announces a payload, and what
the decoder takes for it does not decompress. -/
def Detected (gz : Gzip) (b : Slice) : Prop :=
  Marked b.data ∧ (header b.data).2 ≠ 0 ∧ Fits b ∧ ∃ m, gunzip gz (sliced b) = .error m

/-- What the gzip library notices is an error of the decoder. -/
theorem Detected.rejected {gz : Gzip} {b : Slice} (h : Detected gz b) (hb : OfReadAll b) :
    ∃ m, snapshotToBytes gz (.ok b) = .ret (.error m) := by
  obtain ⟨hmarked, hsize, hfits, m, hm⟩ := h
  exact ⟨m, by rw [snapshotToBytes_sliced gz hb hfits hsize, if_pos hmarked, hm]⟩

/-- **When the decoder accepts only complete streams**: exactly when the stream is complete,
or the gzip library notices the loss, or the payload leaves the buffer and the stream is not
one that was cut (the decoder panics there). -/
theorem decoder_complete_iff {gz : Gzip} (hgz : gz.Lawful) {b : Slice} (hb : OfReadAll b) :
    AcceptsComplete gz b ↔
      Complete b.data ∨ Detected gz b ∨ (¬Fits b ∧ ¬Cut gz b.data) := by
  constructor
  · intro h
    by_cases hcomplete : Complete b.data
    · exact .inl hcomplete
    by_cases hfits : Fits b
    swap
    · refine .inr (.inr ⟨hfits, fun hcut => ?_⟩)
      obtain ⟨m, hm⟩ := h.rejects hcut
      have hreturns := (snapshotToBytes_returns_iff gz hb).not.mpr hfits
      rw [hm] at hreturns
      exact hreturns trivial
    -- the decoder returns, and it must not accept
    have hreject : ∀ res, snapshotToBytes gz (.ok b) ≠ .ret (.ok res) := fun res hres =>
      hcomplete (h.complete res hres).1
    by_cases hsize : (header b.data).2 = 0
    · exact absurd (snapshotToBytes_zero gz hb hsize) (hreject none)
    have hsliced := snapshotToBytes_sliced gz hb hfits hsize
    by_cases hmarked : Marked b.data
    · rw [if_pos hmarked] at hsliced
      rcases hgunzip : gunzip gz (sliced b) with m | res
      · exact .inr (.inl ⟨hmarked, hsize, hfits, m, hgunzip⟩)
      · rw [hgunzip] at hsliced
        exact absurd hsliced (hreject res)
    · rw [if_neg hmarked] at hsliced
      exact absurd hsliced (hreject _)
  · rintro (hcomplete | hdetected | ⟨hfits, hcut⟩)
    · refine ⟨fun res hres => ⟨hcomplete, ?_⟩, fun hcut => ?_⟩
      · rw [snapshotToBytes_complete gz hb hcomplete] at hres
        exact Outcome.ret.inj hres
      · exact absurd hcomplete (cut_not_complete hgz hcut)
    · obtain ⟨m, hm⟩ := hdetected.rejected hb
      refine ⟨fun res hres => ?_, fun _ => ⟨m, hm⟩⟩
      exact absurd (hm.symm.trans hres) (by simp)
    · refine ⟨fun res hres => ?_, fun h => absurd h hcut⟩
      have hreturns := (snapshotToBytes_returns_iff gz hb).not.mpr hfits
      rw [hres] at hreturns
      exact absurd trivial hreturns

/-- The rule at work: the whole stream of the snapshot of an empty file. -/
theorem decoder_complete_empty_file :
    AcceptsComplete storeGzip (shortBuffer (frame (some emptyMember)) (by decide)) :=
  (decoder_complete_iff storeGzip_lawful (ofReadAll_shortBuffer _)).mpr (.inl (by decide))

/-- **Every snapshot, cut after its marker, reads as one without a database**, and no error
is returned. -/
theorem cut_at_marker_is_no_database (gz : Gzip) {b : Slice} (hb : OfReadAll b)
    (hdata : b.data = putUint64 maxUint64) : snapshotToBytes gz (.ok b) = .ret (.ok none) := by
  refine snapshotToBytes_zero gz hb ?_
  rw [hdata]
  decide

/-- **A cut snapshot is accepted**: `Persist` writes the snapshot of an empty file, the
stream ends after the marker, and the decoder returns no database and no error. -/
theorem cut_snapshot_accepted :
    Cut storeGzip (List.replicate 8 0xFF) ∧
      snapshotToBytes storeGzip (.ok (shortBuffer (List.replicate 8 0xFF) (by decide))) =
        .ret (.ok none) ∧
      ¬AcceptsComplete storeGzip (shortBuffer (List.replicate 8 0xFF) (by decide)) := by
  have hread : snapshotToBytes storeGzip
      (.ok (shortBuffer (List.replicate 8 0xFF) (by decide))) = .ret (.ok none) :=
    cut_at_marker_is_no_database storeGzip (ofReadAll_shortBuffer _) (by decide)
  refine ⟨⟨{}, ⟨some []⟩, shortBuffer (frame (some emptyMember)) (by decide), rfl, rfl,
    by decide, by decide⟩, hread, fun h => ?_⟩
  exact absurd (h.complete none hread).1 (by decide)

end DistSql
