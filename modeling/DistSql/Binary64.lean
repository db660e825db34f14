import Mathlib.Algebra.Order.Field.Rat
import Mathlib.Algebra.Order.Field.Power
import Mathlib.Tactic.FieldSimp
import Mathlib.Tactic.Linarith
import Mathlib.Tactic.Positivity
import Mathlib.Tactic.Ring
import DistSql.Json

/-!
# Numbers in 64 Bits

The format of a `float64`, IEEE 754 binary64, and `strconv.ParseFloat`, by which Go reads a
number literal.

A `float64` is given by its bits: a sign, eleven bits of exponent and 52 of fraction. Without
the sign they are a natural number, and the **magnitude** that this number stands for is a whole
number of units of `2⁻¹⁰⁷⁴`. So rounding to a `float64` is rounding one natural number to
another, and that is how `parseFloat` is defined: find the spacing of the magnitudes around the
literal, and round to a multiple of it, in the middle to an even one.

## Main results

* `magnitude_add`: the magnitude of the bits that `nearestBits` puts together.
* `magnitude_dvd`: large magnitudes are multiples of the spacing.
* `parseFloat_nearest`: **no other `float64` is nearer to a literal** than the one that it
  becomes.
* `exists_value_eq_iff`: the integers that are a `float64` are those of at most 53 significant
  bits.
-/

namespace Golang

/-- The value of a number literal. -/
def Number.value (n : Number) : ℚ :=
  (if n.negative then -1 else 1) * (n.mantissa * 10 ^ n.exponent)

namespace Binary64

/-! ### The format -/

/-- How many binary digits the smallest number has after its point. -/
@[irreducible] def digits : ℕ := 1074

/-- How many units make one. -/
def scale : ℕ := 2 ^ digits

/-- The magnitude that bits without a sign stand for, in units. -/
def magnitude (b : ℕ) : ℕ :=
  if b < 2 ^ 52 then b else (2 ^ 52 + b % 2 ^ 52) * 2 ^ (b / 2 ^ 52 - 1)

/-- The bits from which on a pattern is not a number, or infinite. -/
def infinity : ℕ := 2047 * 2 ^ 52

/-- A pattern of bits is a **finite** number. -/
def Finite (d : UInt64) : Prop := d.toNat % 2 ^ 63 < infinity

instance (d : UInt64) : Decidable (Finite d) := inferInstanceAs (Decidable (_ < _))

/-- The value of a finite number. -/
def value (d : UInt64) : ℚ :=
  (if d.toNat < 2 ^ 63 then 1 else -1) * (magnitude (d.toNat % 2 ^ 63) / scale)

/-- The bits of a number with a sign. -/
def withSign (negative : Bool) (b : ℕ) : UInt64 := .ofNat (if negative then 2 ^ 63 + b else b)

/-- A `float64` is **nearest** to a number: it is finite, and no finite one is nearer. -/
def Nearest (x : ℚ) (d : UInt64) : Prop :=
  Finite d ∧ ∀ e, Finite e → |value d - x| ≤ |value e - x|

/-! ### Rounding -/

/-- The quotient to the nearest whole number, in the middle to the even one. -/
def roundHalfEven (p q : ℕ) : ℕ :=
  if 2 * (p % q) < q ∨ 2 * (p % q) = q ∧ p / q % 2 = 0 then p / q else p / q + 1

/-- The spacing of the magnitudes around a quotient is this power of two. -/
def spacing (p q : ℕ) : ℕ := Nat.log2 (p / q) - 52

/-- The bits of the magnitude nearest to a quotient. -/
def nearestBits (p q : ℕ) : ℕ :=
  spacing p q * 2 ^ 52 + roundHalfEven p (q * 2 ^ spacing p q)

/-- `strconv.ParseFloat`: the nearest number, or an error if that is not a finite one. -/
def parseFloat (n : Number) : Option UInt64 :=
  let b := nearestBits (n.mantissa * 10 ^ n.exponent.toNat * scale) (10 ^ (-n.exponent).toNat)
  if b < infinity then some (withSign n.negative b) else none

section Round

variable {p q : ℕ}

theorem le_roundHalfEven (p q : ℕ) : p / q ≤ roundHalfEven p q := by
  rw [roundHalfEven]
  split <;> omega

theorem roundHalfEven_le (p q : ℕ) : roundHalfEven p q ≤ p / q + 1 := by
  rw [roundHalfEven]
  split <;> omega

/-- Rounding goes half of the way at most. -/
theorem two_mul_abs_roundHalfEven (hq : 0 < q) :
    2 * |(roundHalfEven p q * q : ℤ) - p| ≤ q := by
  have hp : (p : ℤ) = p / q * q + p % q := by
    have h := Nat.div_add_mod' p q
    exact_mod_cast h.symm
  have hlt : (p % q : ℤ) < q := by exact_mod_cast Nat.mod_lt p hq
  have hnn : (0 : ℤ) ≤ p % q := Int.emod_nonneg _ (by exact_mod_cast hq.ne')
  rw [roundHalfEven]
  split
  · rename_i hdown
    have hhalf : 2 * (p % q : ℤ) ≤ q := by
      have h : 2 * (p % q) ≤ q := by omega
      exact_mod_cast h
    have hdiff : ((p / q : ℕ) * q : ℤ) - p = -(p % q) := by
      push_cast
      linarith
    rw [hdiff, abs_neg, abs_of_nonneg hnn]
    exact hhalf
  · rename_i hup
    have hhalf : (q : ℤ) ≤ 2 * (p % q) := by
      have h : q ≤ 2 * (p % q) := by omega
      exact_mod_cast h
    have hdiff : ((p / q + 1 : ℕ) * q : ℤ) - p = q - p % q := by
      push_cast
      linarith
    rw [hdiff, abs_of_nonneg (by linarith)]
    linarith

/-- **No other multiple is nearer.** -/
theorem abs_roundHalfEven_le (hq : 0 < q) (c : ℕ) :
    |(roundHalfEven p q * q : ℤ) - p| ≤ |(c * q : ℤ) - p| := by
  by_cases hc : c = roundHalfEven p q
  · rw [hc]
  have hhalf := @two_mul_abs_roundHalfEven p q hq
  -- another multiple is a whole `q` away from this one
  have hfar : (q : ℤ) ≤ |(c * q : ℤ) - roundHalfEven p q * q| := by
    rw [← sub_mul, abs_mul, abs_of_nonneg (Int.natCast_nonneg q)]
    have hone : 1 ≤ |(c : ℤ) - roundHalfEven p q| :=
      Int.one_le_abs (sub_ne_zero.mpr (by exact_mod_cast hc))
    nlinarith
  have htri := abs_sub_le (c * q : ℤ) p (roundHalfEven p q * q)
  rw [abs_sub_comm (p : ℤ)] at htri
  linarith

end Round

/-! ### Magnitudes -/

/-- **The magnitude of a spacing and a multiple of it.** The multiple may have one bit more
than the format has: the carry goes into the exponent. -/
theorem magnitude_add {k m : ℕ} (hm : k = 0 ∨ 2 ^ 52 ≤ m) (hle : m ≤ 2 ^ 53) :
    magnitude (k * 2 ^ 52 + m) = m * 2 ^ k := by
  rw [magnitude]
  split
  · rename_i hlt
    obtain rfl : k = 0 := by omega
    simp
  rename_i hge
  rcases hle.lt_or_eq with hlt | rfl
  · have hdiv : (k * 2 ^ 52 + m) / 2 ^ 52 = k + 1 := by omega
    have hmod : 2 ^ 52 + (k * 2 ^ 52 + m) % 2 ^ 52 = m := by omega
    rw [hdiv, hmod, Nat.add_sub_cancel]
  · have hdiv : (k * 2 ^ 52 + 2 ^ 53) / 2 ^ 52 = k + 2 := by omega
    have hmod : (k * 2 ^ 52 + 2 ^ 53) % 2 ^ 52 = 0 := by omega
    rw [hdiv, hmod, Nat.add_zero, show k + 2 - 1 = k + 1 from rfl]
    ring

/-- A magnitude is a number of at most 53 bits and a power of two. -/
theorem magnitude_eq (b : ℕ) : ∃ m k, magnitude b = m * 2 ^ k ∧ m < 2 ^ 53 := by
  rw [magnitude]
  split
  · exact ⟨b, 0, by simp, by omega⟩
  · exact ⟨2 ^ 52 + b % 2 ^ 52, b / 2 ^ 52 - 1, rfl, by omega⟩

/-- **Large magnitudes are multiples of the spacing.** -/
theorem magnitude_dvd {b k : ℕ} (h : 2 ^ (52 + k) ≤ magnitude b) :
    ∃ c, magnitude b = c * 2 ^ k := by
  obtain ⟨m, k', hb, hm⟩ := magnitude_eq b
  have hk : k ≤ k' := by
    have hlt : 2 ^ (52 + k) < 2 ^ (53 + k') := by
      calc 2 ^ (52 + k) ≤ m * 2 ^ k' := hb ▸ h
        _ < 2 ^ 53 * 2 ^ k' := Nat.mul_lt_mul_of_pos_right hm (Nat.two_pow_pos k')
        _ = 2 ^ (53 + k') := (pow_add 2 53 k').symm
    have hexp := (Nat.pow_lt_pow_iff_right (by omega)).mp hlt
    omega
  obtain ⟨d, rfl⟩ := Nat.exists_eq_add_of_le hk
  exact ⟨m * 2 ^ d, by rw [hb, pow_add]; ring⟩

section Bits

variable {p q : ℕ}

/-- The quotient has 53 bits, counted in its spacing, or it is small. -/
theorem spacing_spec (p q : ℕ) :
    p / q / 2 ^ spacing p q < 2 ^ 53 ∧ (spacing p q = 0 ∨ 2 ^ 52 ≤ p / q / 2 ^ spacing p q) := by
  by_cases hN : p / q = 0
  · rw [spacing, hN]
    simp
  have hlo := Nat.log2_self_le hN
  have hhi := @Nat.lt_log2_self (p / q)
  rw [spacing]
  by_cases hk : Nat.log2 (p / q) ≤ 52
  · have hsmall : 2 ^ (Nat.log2 (p / q) + 1) ≤ 2 ^ 53 := Nat.pow_le_pow_right (by omega) (by omega)
    rw [Nat.sub_eq_zero_of_le hk, Nat.pow_zero, Nat.div_one]
    exact ⟨by omega, .inl rfl⟩
  · obtain ⟨k, hk⟩ := Nat.exists_eq_add_of_le (Nat.le_of_not_le hk)
    rw [hk] at hlo hhi ⊢
    rw [Nat.add_sub_cancel_left]
    refine ⟨?_, .inr ?_⟩
    · rw [Nat.div_lt_iff_lt_mul (Nat.two_pow_pos k), ← pow_add]
      rwa [show 53 + k = 52 + k + 1 by omega]
    · rw [Nat.le_div_iff_mul_le (Nat.two_pow_pos k), ← pow_add]
      exact hlo

/-- The magnitude of the bits that rounding gives. -/
theorem magnitude_nearestBits (p q : ℕ) :
    magnitude (nearestBits p q) =
      roundHalfEven p (q * 2 ^ spacing p q) * 2 ^ spacing p q := by
  obtain ⟨hlt, hge⟩ := spacing_spec p q
  rw [Nat.div_div_eq_div_mul] at hlt hge
  have hlo := le_roundHalfEven p (q * 2 ^ spacing p q)
  have hhi := roundHalfEven_le p (q * 2 ^ spacing p q)
  exact magnitude_add (hge.imp_right fun h => h.trans hlo) (by omega)

/-- **No other magnitude is nearer.** -/
theorem abs_magnitude_le (hq : 0 < q) (b : ℕ) :
    |(magnitude (nearestBits p q) * q : ℤ) - p| ≤ |(magnitude b * q : ℤ) - p| := by
  have hQ : 0 < q * 2 ^ spacing p q := Nat.mul_pos hq (Nat.two_pow_pos _)
  have hround : (magnitude (nearestBits p q) * q : ℤ) =
      roundHalfEven p (q * 2 ^ spacing p q) * (q * 2 ^ spacing p q : ℕ) := by
    rw [magnitude_nearestBits]
    push_cast
    ring
  rw [hround]
  rcases Nat.lt_or_ge (magnitude b) (2 ^ (52 + spacing p q)) with hsmall | hlarge
  · rcases (spacing_spec p q).2 with hk | hk
    · have hb : (magnitude b * q : ℤ) = magnitude b * (q * 2 ^ spacing p q : ℕ) := by
        rw [hk, pow_zero, Nat.mul_one]
      rw [hb]
      exact abs_roundHalfEven_le hQ _
    -- the smallest number of this spacing lies in between
    · refine (abs_roundHalfEven_le hQ (2 ^ 52)).trans ?_
      have hmid : 2 ^ 52 * (q * 2 ^ spacing p q) ≤ p := by
        rw [Nat.div_div_eq_div_mul, Nat.le_div_iff_mul_le hQ] at hk
        exact hk
      have hless : magnitude b * q ≤ 2 ^ 52 * (q * 2 ^ spacing p q) := by
        calc magnitude b * q ≤ 2 ^ (52 + spacing p q) * q := Nat.mul_le_mul_right q hsmall.le
          _ = 2 ^ 52 * (q * 2 ^ spacing p q) := by rw [pow_add]; ring
      have hmid' : ((2 ^ 52 : ℕ) * (q * 2 ^ spacing p q : ℕ) : ℤ) ≤ p := by exact_mod_cast hmid
      have hless' : (magnitude b * q : ℤ) ≤ (2 ^ 52 : ℕ) * (q * 2 ^ spacing p q : ℕ) := by
        exact_mod_cast hless
      rw [abs_of_nonpos (by linarith), abs_of_nonpos (by linarith)]
      linarith
  · obtain ⟨c, hc⟩ := magnitude_dvd hlarge
    have hb : (magnitude b * q : ℤ) = c * (q * 2 ^ spacing p q : ℕ) := by
      rw [hc]
      push_cast
      ring
    rw [hb]
    exact abs_roundHalfEven_le hQ c

end Bits

/-! ### Values -/

theorem digits_eq : digits = 1074 := by rw [digits]

theorem scale_pos : 0 < scale := Nat.two_pow_pos digits

section Value

variable {b : ℕ} {negative : Bool}

/-- The bits with a sign, as a number. -/
theorem toNat_withSign (hb : b < infinity) :
    (withSign negative b).toNat = if negative then 2 ^ 63 + b else b := by
  rw [infinity] at hb
  rw [withSign, UInt64.toNat_ofNat']
  split <;> omega

/-- Bits below infinity are finite with either sign. -/
theorem finite_withSign (hb : b < infinity) : Finite (withSign negative b) := by
  rw [Finite, toNat_withSign hb]
  rw [infinity] at hb ⊢
  split <;> omega

/-- The value of bits with a sign. -/
theorem value_withSign (hb : b < infinity) :
    value (withSign negative b) = (if negative then -1 else 1) * (magnitude b / scale) := by
  rw [value, toNat_withSign hb]
  rw [infinity] at hb
  cases negative with
  | true =>
      have hmod : (2 ^ 63 + b) % 2 ^ 63 = b := by omega
      have hsign : ¬2 ^ 63 + b < 2 ^ 63 := by omega
      simp only [if_true, hmod, if_neg hsign]
  | false =>
      have hmod : b % 2 ^ 63 = b := by omega
      have hsign : b < 2 ^ 63 := by omega
      simp only [Bool.false_eq_true, if_false, hmod, if_pos hsign]

/-- Without its sign, a value is its magnitude. -/
theorem abs_value (d : UInt64) : |value d| = magnitude (d.toNat % 2 ^ 63) / scale := by
  have hnn : (0 : ℚ) ≤ magnitude (d.toNat % 2 ^ 63) / scale := by positivity
  rw [value]
  split
  · rw [one_mul, abs_of_nonneg hnn]
  · rw [neg_one_mul, abs_neg, abs_of_nonneg hnn]

/-- The value of a literal, in units. -/
theorem number_value (n : Number) :
    n.value = (if n.negative then -1 else 1) *
      ((n.mantissa * 10 ^ n.exponent.toNat * scale : ℕ) / (10 ^ (-n.exponent).toNat : ℕ) /
        scale) := by
  have hscale : (scale : ℚ) ≠ 0 := by exact_mod_cast scale_pos.ne'
  have hpow : (10 : ℚ) ^ n.exponent = 10 ^ n.exponent.toNat / 10 ^ (-n.exponent).toNat := by
    rcases Int.le_total 0 n.exponent with h | h
    · obtain ⟨e, he⟩ := Int.eq_ofNat_of_zero_le h
      simp [he]
    · obtain ⟨e, he⟩ := Int.eq_ofNat_of_zero_le (Int.neg_nonneg_of_nonpos h)
      obtain he' : n.exponent = -e := by omega
      simp [he', zpow_neg]
  rw [Number.value, hpow]
  push_cast
  field_simp

end Value

/-- How far apart a magnitude and a quotient are. -/
theorem abs_div_sub {q : ℕ} (hq : 0 < q) (m p : ℕ) :
    |(m / scale : ℚ) - p / q / scale| = (|(m * q : ℤ) - p| : ℤ) / (q * scale) := by
  have hq' : (0 : ℚ) < q := by exact_mod_cast hq
  have hscale : (0 : ℚ) < scale := by exact_mod_cast scale_pos
  have hdiff : (m / scale : ℚ) - p / q / scale = (m * q - p) / (q * scale) := by
    field_simp
  rw [hdiff, abs_div, abs_of_pos (mul_pos hq' hscale)]
  push_cast
  rfl

/-- **No other `float64` is nearer to a literal** than the one that it becomes. -/
theorem parseFloat_nearest {n : Number} {d : UInt64} (h : parseFloat n = some d) :
    Nearest n.value d := by
  simp only [parseFloat, Option.ite_none_right_eq_some, Option.some.injEq] at h
  obtain ⟨hfin, rfl⟩ := h
  refine ⟨finite_withSign hfin, fun e he => ?_⟩
  have hq : 0 < 10 ^ (-n.exponent).toNat := by positivity
  have hscale : (0 : ℚ) < (10 ^ (-n.exponent).toNat : ℕ) * scale := by
    have hpos := Nat.mul_pos hq scale_pos
    exact_mod_cast hpos
  have hsign : |(if n.negative then -1 else 1 : ℚ)| = 1 := by split <;> simp
  have hnn : (0 : ℚ) ≤ (n.mantissa * 10 ^ n.exponent.toNat * scale : ℕ) /
      (10 ^ (-n.exponent).toNat : ℕ) / scale := by positivity
  have habs : |n.value| = (n.mantissa * 10 ^ n.exponent.toNat * scale : ℕ) /
      (10 ^ (-n.exponent).toNat : ℕ) / scale := by
    rw [number_value, abs_mul, hsign, one_mul, abs_of_nonneg hnn]
  calc |value (withSign n.negative _) - n.value|
      = |(magnitude _ / scale : ℚ) - _ / _ / scale| := by
        rw [value_withSign hfin, number_value, ← mul_sub, abs_mul, hsign, one_mul]
    _ ≤ |(magnitude (e.toNat % 2 ^ 63) / scale : ℚ) - _ / _ / scale| := by
        rw [abs_div_sub hq, abs_div_sub hq]
        refine div_le_div_of_nonneg_right ?_ hscale.le
        exact_mod_cast abs_magnitude_le hq _
    _ = |(|value e| : ℚ) - (|n.value| : ℚ)| := by rw [habs, abs_value]
    _ ≤ |value e - n.value| := abs_abs_sub_abs_le _ _

/-! ### Integers -/

/-- An integer has at most 53 **significant bits**. -/
def Significant (n : ℤ) : Prop := ∃ m k : ℕ, n.natAbs = m * 2 ^ k ∧ m < 2 ^ 53

/-- A quotient without a remainder is not rounded. -/
theorem roundHalfEven_of_dvd {p q : ℕ} (hq : 0 < q) (h : q ∣ p) : roundHalfEven p q * q = p := by
  rw [roundHalfEven, Nat.mod_eq_zero_of_dvd h, if_pos (.inl (by omega))]
  exact Nat.div_mul_cancel h

/-- A number of at most 53 significant bits is a multiple of its spacing. -/
theorem magnitude_nearestBits_of_significant {m k : ℕ} (hm : m < 2 ^ 53) :
    magnitude (nearestBits (m * 2 ^ k) 1) = m * 2 ^ k := by
  have hspacing : spacing (m * 2 ^ k) 1 ≤ k := by
    rw [spacing, Nat.div_one]
    by_cases hzero : m * 2 ^ k = 0
    · simp [hzero]
    have hlt : m * 2 ^ k < 2 ^ (53 + k) := by
      rw [pow_add]
      exact Nat.mul_lt_mul_of_pos_right hm (Nat.two_pow_pos k)
    have hlog := (Nat.log2_lt hzero).mpr hlt
    omega
  rw [magnitude_nearestBits, Nat.one_mul]
  exact roundHalfEven_of_dvd (Nat.two_pow_pos _)
    ((pow_dvd_pow 2 hspacing).trans (Nat.dvd_mul_left _ m))

/-- A number of at most 64 binary digits, in units, is far from infinity. -/
theorem nearestBits_lt_infinity {p : ℕ} (hp : p < 2 ^ (64 + digits)) :
    nearestBits p 1 < infinity := by
  have hdigits := digits_eq
  have hspacing : spacing p 1 ≤ 64 + digits - 53 := by
    rw [spacing, Nat.div_one]
    by_cases hzero : p = 0
    · simp [hzero]
    have hlog := (Nat.log2_lt hzero).mpr hp
    omega
  have hlt := (spacing_spec p 1).1
  rw [Nat.div_div_eq_div_mul] at hlt
  have hle := roundHalfEven_le p (1 * 2 ^ spacing p 1)
  rw [nearestBits, infinity]
  omega

/-- Of a magnitude that is a whole number, at most 53 bits are significant. -/
theorem significant_of_magnitude {a b s : ℕ} (h : magnitude b = a * 2 ^ s) :
    ∃ m k, a = m * 2 ^ k ∧ m < 2 ^ 53 := by
  obtain ⟨m, k, hmk, hm⟩ := magnitude_eq b
  rw [h] at hmk
  rcases Nat.le_total s k with hk | hk
  · obtain ⟨j, rfl⟩ := Nat.exists_eq_add_of_le hk
    refine ⟨m, j, Nat.eq_of_mul_eq_mul_right (Nat.two_pow_pos s) ?_, hm⟩
    rw [hmk, pow_add]
    ring
  · obtain ⟨j, rfl⟩ := Nat.exists_eq_add_of_le hk
    have ha : a * 2 ^ j = m := by
      refine Nat.eq_of_mul_eq_mul_right (Nat.two_pow_pos k) ?_
      rw [← hmk, pow_add]
      ring
    have hle := Nat.le_mul_of_pos_right a (Nat.two_pow_pos j)
    exact ⟨a, 0, by simp, by omega⟩

/-- **The integers that are a `float64`** are those of at most 53 significant bits. -/
theorem exists_value_eq_iff {n : ℤ} (hn : n.natAbs < 2 ^ 64) :
    (∃ d, Finite d ∧ value d = n) ↔ Significant n := by
  have hpos : (scale : ℚ) ≠ 0 := by exact_mod_cast scale_pos.ne'
  constructor
  · rintro ⟨d, -, hd⟩
    have h := abs_value d
    rw [hd, eq_div_iff hpos, ← Int.cast_abs, ← Nat.cast_natAbs] at h
    refine @significant_of_magnitude n.natAbs (d.toNat % 2 ^ 63) digits ?_
    exact_mod_cast h.symm
  · rintro ⟨m, k, hmk, hm⟩
    have hunits : m * 2 ^ (k + digits) = n.natAbs * scale := by
      rw [hmk, scale, pow_add, Nat.mul_assoc]
    have hfin : nearestBits (m * 2 ^ (k + digits)) 1 < infinity := by
      refine nearestBits_lt_infinity ?_
      rw [hunits, pow_add]
      exact Nat.mul_lt_mul_of_pos_right hn scale_pos
    refine ⟨withSign (n < 0) _, finite_withSign hfin, ?_⟩
    rw [value_withSign hfin, magnitude_nearestBits_of_significant hm, hunits, Nat.cast_mul,
      mul_div_cancel_right₀ _ hpos, Nat.cast_natAbs, Int.cast_abs]
    rcases lt_or_ge n 0 with hneg | hnn
    · have hneg' : (n : ℚ) < 0 := by exact_mod_cast hneg
      rw [if_pos (decide_eq_true hneg), abs_of_neg hneg', neg_one_mul, neg_neg]
    · have hnn' : (0 : ℚ) ≤ n := by exact_mod_cast hnn
      rw [if_neg (by simpa using hnn), abs_of_nonneg hnn', one_mul]

/-- **An integer becomes itself exactly if it has at most 53 significant bits**, whatever
becomes of the others, as long as nothing is nearer. -/
theorem Nearest.value_eq_iff {n : ℤ} {d : UInt64} (hd : Nearest n d) (hn : n.natAbs < 2 ^ 64) :
    value d = n ↔ Significant n := by
  constructor
  · intro h
    exact (exists_value_eq_iff hn).mp ⟨d, hd.1, h⟩
  · intro h
    obtain ⟨e, he, hvalue⟩ := (exists_value_eq_iff hn).mpr h
    have hle := hd.2 e he
    rw [hvalue, sub_self, abs_zero] at hle
    exact sub_eq_zero.mp (abs_nonpos_iff.mp hle)

end Binary64

end Golang
