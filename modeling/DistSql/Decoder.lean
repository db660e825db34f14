import DistSql.Snapshot

/-!
# The Snapshot Decoder on Arbitrary Streams

`snapshotToBytes` reads whatever a snapshot store hands it. It takes one or two header
words from the buffer that `io.ReadAll` returned, and slices out as many bytes as the
last of them announces, with no check in between: the announced size is a `uint64` that
is turned into an `int64` and added to an offset.

The buffer of `io.ReadAll` starts with a capacity of 512 bytes, so the header words can
always be sliced: beyond the end of a short stream they are zero. The payload can be
sliced exactly when it ends within the capacity, and the decoder panics at every other
stream.

## Main results

* `snapshotToBytes_header`: the decoder, by the header of its stream.
* `slice_payload_returns_iff`: when the payload can be sliced out.
* `decoder_safe_iff`: when the decoder does not panic.
* `huge_size_panics`: a stream at which it does.
-/

open Golang

namespace DistSql

/-- The word at a position of a stream; bytes beyond the end read as zero. -/
def streamWord (data : List UInt8) (i : ℕ) : UInt64 :=
  uint64 (((data ++ List.replicate 16 0).take (i + 8)).drop i)

/-- The header of a stream: its length, and the size that it announces. -/
def header (data : List UInt8) : ℕ × UInt64 :=
  if streamWord data 0 = maxUint64 then (16, streamWord data 8) else (8, streamWord data 0)

/-- The header is one word or two. -/
theorem header_length (data : List UInt8) : (header data).1 = 8 ∨ (header data).1 = 16 := by
  rw [header]
  split
  · exact .inr rfl
  · exact .inl rfl

/-- The length of the header, as an `int64`. -/
theorem header_offset (data : List UInt8) :
    (Int64.ofNat (header data).1).toInt = ((header data).1 : ℕ) := by
  rcases header_length data with h | h <;> rw [h] <;> rfl

/-- A buffer of `io.ReadAll`: it started with room for 512 bytes. -/
def OfReadAll (b : Slice) : Prop := 512 ≤ b.cap

/-- The header words can be sliced from every buffer of `io.ReadAll`. -/
theorem slice_word {b : Slice} (hb : OfReadAll b) {lo hi : Int64} {i : ℕ} (hi8 : i ≤ 8)
    (hlo : lo.toInt = i) (hhi : hi.toInt = ((i + 8 : ℕ) : ℤ)) :
    ∃ w, b.slice lo hi = .ret w ∧ uint64 w = streamWord b.data i := by
  rw [OfReadAll] at hb
  refine ⟨_, Slice.slice_memory hlo hhi (by omega) (by omega), ?_⟩
  rw [streamWord, ← Slice.take_memory (b := b) (by omega) (by omega), List.drop_take]

/-- **The decoder, by the header of its stream**: a size of zero is no database, and
any other size is sliced out of the buffer after the header. -/
theorem snapshotToBytes_header (gz : Gzip) {b : Slice} (hb : OfReadAll b) :
    snapshotToBytes gz (.ok b) =
      if (header b.data).2 = 0 then .ret (.ok none)
      else
        b.slice (.ofNat (header b.data).1)
            (.ofNat (header b.data).1 + (header b.data).2.toInt64) >>= fun payload =>
          if streamWord b.data 0 = maxUint64 then .ret (gunzip gz payload)
          else .ret (.ok (some payload)) := by
  obtain ⟨w₀, hw₀, hword₀⟩ := @slice_word b hb 0 8 0 (by omega) rfl rfl
  obtain ⟨w₁, hw₁, hword₁⟩ := @slice_word b hb 8 16 8 (by omega) rfl rfl
  by_cases hmark : streamWord b.data 0 = maxUint64
  · simp [snapshotToBytes, hw₀, hword₀, hmark, hw₁, hword₁, header]
  · simp [snapshotToBytes, hw₀, hword₀, hmark, header]

/-! ### The payload -/

/-- The announced payload ends within the capacity of the buffer. -/
def Fits (b : Slice) : Prop :=
  (header b.data).2 = 0 ∨ (header b.data).1 + (header b.data).2.toNat ≤ b.cap

/-- The end of the payload, as the decoder computes it, wraps around when it does not
fit an `int64`, and is then in front of its start. -/
theorem payload_end {m : ℕ} {off : Int64} {size : UInt64} (hoff : off.toInt = m)
    (hm : m ≤ 16) :
    (m + size.toNat < 2 ^ 63 ∧ (off + size.toInt64).toInt = ((m + size.toNat : ℕ) : ℤ)) ∨
      (2 ^ 63 ≤ m + size.toNat ∧ (off + size.toInt64).toInt < off.toInt) := by
  have hsize : size.toNat < 2 ^ 64 := size.toNat_lt
  rcases Nat.lt_or_ge (m + size.toNat) (2 ^ 63) with hlt | hge
  · exact .inl ⟨hlt, toInt_add_toInt64 hoff rfl hlt⟩
  · refine .inr ⟨hge, ?_⟩
    rw [toInt_add_toInt64_bmod hoff, hoff, Int.bmod_def]
    omega

/-- **When the payload can be sliced out**: exactly when it ends within the capacity. -/
theorem slice_payload_returns_iff {b : Slice} {m : ℕ} {off : Int64} {size : UInt64}
    (hoff : off.toInt = m) (hm : m ≤ 16) :
    (b.slice off (off + size.toInt64)).Returns ↔ m + size.toNat ≤ b.cap := by
  have hcap : b.cap < 2 ^ 63 := b.cap_lt
  rcases @payload_end m off size hoff hm with ⟨hlt, hend⟩ | ⟨hge, hend⟩
  · rcases Nat.lt_or_ge b.cap (m + size.toNat) with hout | hin
    · rw [Slice.slice_panics (by rw [hend]; omega)]
      exact iff_of_false (by simp) (by omega)
    · rw [Slice.slice_memory hoff hend (by omega) hin]
      exact iff_of_true (by simp) hin
  · rw [Slice.slice_panics (by omega)]
    exact iff_of_false (by simp) (by omega)

/-! ### Safety -/

/-- The decoder handles what `io.ReadAll` returned **safely**: it comes back with bytes
or an error, and the end of the payload does not wrap around. -/
structure DecodesSafely (gz : Gzip) (rd : Except String Slice) : Prop where
  returns : (snapshotToBytes gz rd).Returns
  noWrap : ∀ b, rd = .ok b →
    (Int64.ofNat (header b.data).1 + (header b.data).2.toInt64).toInt =
      (header b.data).1 + (header b.data).2.toInt64.toInt

/-- The decoder comes back exactly when the announced payload fits the buffer. -/
theorem snapshotToBytes_returns_iff (gz : Gzip) {b : Slice} (hb : OfReadAll b) :
    (snapshotToBytes gz (.ok b)).Returns ↔ Fits b := by
  rw [snapshotToBytes_header gz hb, Fits]
  by_cases hzero : (header b.data).2 = 0
  · simp [hzero]
  have hm : (header b.data).1 ≤ 16 := by
    rcases header_length b.data with h | h <;> omega
  rw [if_neg hzero, or_iff_right hzero, ← slice_payload_returns_iff (header_offset _) hm]
  refine Outcome.returns_bind_iff fun payload => ?_
  split <;> exact trivial

/-- **When the decoder is safe**: exactly when reading the stream failed, or the size
that the stream announces is zero or fits the buffer behind the header. -/
theorem decoder_safe_iff (gz : Gzip) (rd : Except String Slice)
    (hrd : ∀ b, rd = .ok b → OfReadAll b) :
    DecodesSafely gz rd ↔ ∀ b, rd = .ok b → Fits b := by
  rcases rd with m | b
  · exact iff_of_true ⟨trivial, by simp⟩ (by simp)
  have hb : OfReadAll b := hrd b rfl
  constructor
  · intro h b' hb'
    obtain rfl := Except.ok.inj hb'
    exact (snapshotToBytes_returns_iff gz hb).mp h.returns
  · intro h
    have hfits : Fits b := h b rfl
    refine ⟨(snapshotToBytes_returns_iff gz hb).mpr hfits, fun b' hb' => ?_⟩
    obtain rfl := Except.ok.inj hb'
    have hcap : b.cap < 2 ^ 63 := b.cap_lt
    have hlt : (header b.data).1 + (header b.data).2.toNat < 2 ^ 63 := by
      rcases hfits with hzero | hle
      · rw [hzero, UInt64.toNat_zero]
        rcases header_length b.data with h | h <;> omega
      · omega
    rw [toInt_add_toInt64 (header_offset _) rfl hlt, toInt_toInt64 rfl (by omega)]
    push_cast
    rfl

/-- The buffer that `io.ReadAll` returns for a short stream. -/
def shortBuffer (data : List UInt8) (h : data.length ≤ 512) : Slice where
  data := data
  spare := 512 - data.length
  cap_lt := by omega

/-- It is one of `io.ReadAll`. -/
theorem ofReadAll_shortBuffer {data : List UInt8} (h : data.length ≤ 512) :
    OfReadAll (shortBuffer data h) := by
  show 512 ≤ data.length + (512 - data.length)
  omega

/-- The rule at work: a stream that ends after the marker announces no database. -/
theorem decoder_safe_marker :
    DecodesSafely storeGzip (.ok (shortBuffer (List.replicate 8 0xFF) (by decide))) := by
  refine (decoder_safe_iff _ _ ?_).mpr ?_
  · intro b hb
    rw [← Except.ok.inj hb]
    exact ofReadAll_shortBuffer _
  · intro b hb
    rw [← Except.ok.inj hb]
    exact .inl (by decide)

/-- **A size word that does not fit an `int64`** makes the decoder panic: the marker,
followed by the largest `uint64`. -/
theorem huge_size_panics :
    ¬DecodesSafely storeGzip (.ok (shortBuffer (List.replicate 16 0xFF) (by decide))) := by
  intro h
  have hpanic : snapshotToBytes storeGzip
      (.ok (shortBuffer (List.replicate 16 0xFF) (by decide))) =
        .panic "runtime error: slice bounds out of range" := by
    decide
  have hret := h.returns
  rw [hpanic] at hret
  exact hret

end DistSql
