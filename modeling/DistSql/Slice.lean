import DistSql.Outcome
import Mathlib.Data.List.Basic
import Mathlib.Tactic.Ring

/-!
# Byte Slices and Little-Endian Words

A Go byte slice is a window into an array: it has a length, and a capacity up to
which a slice expression may reach past that length. `Slice` keeps both, with the
fact that a capacity is an `int`; the memory past the length is zero, as it is in a
buffer that only ever grew by reading into it. Bounds are `int64` values, with their
wrap-around, and a slice expression out of bounds panics.

## Main results

* `uint64_putUint64`: reading eight little-endian bytes undoes writing them.
* `Slice.slice_data`: a slice expression within the length is a part of the contents.
* `Slice.slice_memory`: one within the capacity is a part of the memory.
* `toInt_add_toInt64`: an offset plus a size does not wrap when the sum is a length.
-/

namespace Golang

/-! ### Little-endian words -/

/-- The `w` little-endian bytes of a number. -/
def bytesLE : ℕ → ℕ → List UInt8
  | 0, _ => []
  | w + 1, n => UInt8.ofNat n :: bytesLE w (n / 256)

/-- The number with the given little-endian bytes. -/
def natLE : List UInt8 → ℕ
  | [] => 0
  | b :: bs => b.toNat + 256 * natLE bs

/-- The number of bytes is the width. -/
@[simp] theorem length_bytesLE (w n : ℕ) : (bytesLE w n).length = w := by
  induction w generalizing n with
  | zero => rfl
  | succ w ih => rw [bytesLE, List.length_cons, ih]

/-- A number that fits the width is read back. -/
theorem natLE_bytesLE {w n : ℕ} (h : n < 256 ^ w) : natLE (bytesLE w n) = n := by
  induction w generalizing n with
  | zero =>
      have h0 : n = 0 := by simpa using h
      rw [h0]
      rfl
  | succ w ih =>
      have hq : n / 256 < 256 ^ w := by
        rw [pow_succ] at h
        omega
      have hb : (UInt8.ofNat n).toNat = n % 256 := by simp
      rw [bytesLE, natLE, ih hq, hb]
      omega

/-- `binary.Write` of a `uint64`. -/
def putUint64 (n : UInt64) : List UInt8 := bytesLE 8 n.toNat

/-- `binary.Read` of a `uint64`. -/
def uint64 (b : List UInt8) : UInt64 := .ofNat (natLE b)

@[simp] theorem length_putUint64 (n : UInt64) : (putUint64 n).length = 8 :=
  length_bytesLE 8 n.toNat

/-- **Reading a word undoes writing it.** -/
@[simp] theorem uint64_putUint64 (n : UInt64) : uint64 (putUint64 n) = n := by
  have hn : n.toNat < 256 ^ 8 := n.toNat_lt
  rw [uint64, putUint64, natLE_bytesLE hn]
  exact UInt64.ofNat_toNat

/-! ### Slices -/

/-- A **byte slice**: its contents, and the number of zero bytes between its length
and its capacity. The capacity is an `int`. -/
structure Slice where
  data : List UInt8
  spare : ℕ
  cap_lt : data.length + spare < 2 ^ 63

namespace Slice

/-- The capacity. -/
def cap (b : Slice) : ℕ := b.data.length + b.spare

/-- The bytes up to the capacity. -/
def memory (b : Slice) : List UInt8 := b.data ++ List.replicate b.spare 0

/-- The slice expression `b[lo:hi]`. -/
def slice (b : Slice) (lo hi : Int64) : Outcome (List UInt8) :=
  if 0 ≤ lo.toInt ∧ lo.toInt ≤ hi.toInt ∧ hi.toInt ≤ b.cap then
    .ret ((b.memory.drop lo.toInt.toNat).take (hi.toInt - lo.toInt).toNat)
  else .panic "runtime error: slice bounds out of range"

/-- The length of a slice is an `int`. -/
theorem length_lt (b : Slice) : b.data.length < 2 ^ 63 := by
  have h := b.cap_lt
  omega

/-- **A slice expression within the capacity** is a part of the memory. -/
theorem slice_memory {b : Slice} {lo hi : Int64} {m n : ℕ} (hlo : lo.toInt = m)
    (hhi : hi.toInt = n) (hmn : m ≤ n) (hn : n ≤ b.cap) :
    b.slice lo hi = .ret ((b.memory.drop m).take (n - m)) := by
  have hbounds : 0 ≤ lo.toInt ∧ lo.toInt ≤ hi.toInt ∧ hi.toInt ≤ b.cap := by
    rw [hlo, hhi]
    omega
  have hsub : (hi.toInt - lo.toInt).toNat = n - m := by
    rw [hlo, hhi]
    omega
  have hm : lo.toInt.toNat = m := by rw [hlo]; rfl
  rw [slice, if_pos hbounds, hsub, hm]

/-- **A slice expression within the length** is a part of the contents. -/
theorem slice_data {b : Slice} {lo hi : Int64} {m n : ℕ} (hlo : lo.toInt = m)
    (hhi : hi.toInt = n) (hmn : m ≤ n) (hn : n ≤ b.data.length) :
    b.slice lo hi = .ret ((b.data.drop m).take (n - m)) := by
  have hcap : n ≤ b.cap := by
    rw [cap]
    omega
  rw [slice_memory hlo hhi hmn hcap, memory,
    List.drop_append_of_le_length (le_trans hmn hn),
    List.take_append_of_le_length (by rw [List.length_drop]; omega)]

/-- A slice expression out of bounds panics. -/
theorem slice_panics {b : Slice} {lo hi : Int64}
    (h : ¬(0 ≤ lo.toInt ∧ lo.toInt ≤ hi.toInt ∧ hi.toInt ≤ b.cap)) :
    b.slice lo hi = .panic "runtime error: slice bounds out of range" := by
  rw [slice, if_neg h]

/-- The first bytes of the memory do not depend on how much memory there is, if there is
enough. -/
theorem take_memory {b : Slice} {n k : ℕ} (hn : n ≤ b.cap) (hk : n ≤ b.data.length + k) :
    b.memory.take n = (b.data ++ List.replicate k 0).take n := by
  have hspare : min (n - b.data.length) b.spare = n - b.data.length := by
    rw [cap] at hn
    omega
  have hpad : min (n - b.data.length) k = n - b.data.length := by omega
  rw [memory, List.take_append, List.take_append, List.take_replicate, List.take_replicate,
    hspare, hpad]

end Slice

/-- The `int64` of a `uint64` below `2 ^ 63` is the same number. -/
theorem toInt_toInt64 {size : UInt64} {k : ℕ} (hk : size.toNat = k) (hfit : k < 2 ^ 63) :
    size.toInt64.toInt = k := by
  have h : size.toInt64.toInt = (size.toNat : ℤ).bmod (2 ^ 64) :=
    BitVec.toInt_eq_toNat_bmod size.toBitVec
  rw [h, hk]
  exact Int.bmod_eq_of_le (by omega) (by omega)

/-- The sum of an offset and the `int64` of a size, with its wrap-around. -/
theorem toInt_add_toInt64_bmod {off : Int64} {size : UInt64} {m : ℕ} (hoff : off.toInt = m) :
    (off + size.toInt64).toInt = ((m + size.toNat : ℕ) : ℤ).bmod (2 ^ 64) := by
  have h : size.toInt64.toInt = (size.toNat : ℤ).bmod (2 ^ 64) :=
    BitVec.toInt_eq_toNat_bmod size.toBitVec
  rw [Int64.toInt_add, hoff, h]
  push_cast
  exact Int.add_bmod_bmod

/-- **No wrap-around**: an offset plus a size is their sum when the sum is below
`2 ^ 63`. -/
theorem toInt_add_toInt64 {off : Int64} {size : UInt64} {m k : ℕ} (hoff : off.toInt = m)
    (hk : size.toNat = k) (hfit : m + k < 2 ^ 63) :
    (off + size.toInt64).toInt = ((m + k : ℕ) : ℤ) := by
  rw [toInt_add_toInt64_bmod hoff, hk]
  exact Int.bmod_eq_of_le (by omega) (by omega)

end Golang
