import DistSql.Marshal

/-!
# Basic Authentication

The header by which a client names itself, as Go's `net/http` reads and writes it: the word
`Basic`, in any case, and the base64 form of a name, a colon and a password. The decoder skips
line breaks, takes four digits at a time and wants the padding that belongs to the end; it does
not look at the bits that the padding stands for. The name ends at the first colon, so it cannot
have one.

## Main results

* `base64Decode_base64`: **what is encoded is decoded**.
* `parseBasicAuth_basicAuth`: what is read from a header that a client has written.
* `parseBasicAuth_iff`: **which headers carry a name and a password**.
-/

namespace Golang

/-! ### Base64 -/

/-- The six bits of a digit. -/
def base64Value (c : Char) : Option ℕ :=
  if 'A' ≤ c ∧ c ≤ 'Z' then some (c.toNat - 'A'.toNat)
  else if 'a' ≤ c ∧ c ≤ 'z' then some (c.toNat - 'a'.toNat + 26)
  else if '0' ≤ c ∧ c ≤ '9' then some (c.toNat - '0'.toNat + 52)
  else if c = '+' then some 62
  else if c = '/' then some 63
  else none

/-- The bytes of four digits, or of fewer and padding. -/
def base64Quanta : List Char → Option (List UInt8)
  | [] => some []
  | [a, b, '=', '='] => do
      let x ← base64Value a
      let y ← base64Value b
      return [.ofNat (x * 4 + y / 16)]
  | [a, b, c, '='] => do
      let x ← base64Value a
      let y ← base64Value b
      let z ← base64Value c
      return [.ofNat (x * 4 + y / 16), .ofNat (y % 16 * 16 + z / 4)]
  | a :: b :: c :: d :: rest => do
      let x ← base64Value a
      let y ← base64Value b
      let z ← base64Value c
      let w ← base64Value d
      let bytes ← base64Quanta rest
      return .ofNat (x * 4 + y / 16) :: .ofNat (y % 16 * 16 + z / 4) :: .ofNat (z % 4 * 64 + w) ::
        bytes
  | _ => none

/-- `base64.StdEncoding.DecodeString`: line breaks are skipped. -/
def base64Decode (s : List Char) : Option (List UInt8) :=
  base64Quanta (s.filter fun c => c ≠ '\r' ∧ c ≠ '\n')

/-- A digit has its value. -/
theorem base64Value_base64Digit {n : ℕ} (hn : n < 64) : base64Value (base64Digit n) = some n := by
  have hall : ∀ i : Fin 64, base64Value (base64Digit i) = some (i : ℕ) := by decide
  exact hall ⟨n, hn⟩

/-- A digit is no padding and no line break. -/
theorem base64Digit_plain {n : ℕ} (hn : n < 64) :
    base64Digit n ≠ '=' ∧ base64Digit n ≠ '\r' ∧ base64Digit n ≠ '\n' := by
  have hall : ∀ i : Fin 64, base64Digit i ≠ '=' ∧ base64Digit i ≠ '\r' ∧ base64Digit i ≠ '\n' := by
    decide
  exact hall ⟨n, hn⟩

/-- Two digits for one byte. -/
theorem base64_one (a : UInt8) :
    UInt8.ofNat (a.toNat / 4 * 4 + a.toNat % 4 * 16 / 16) = a := by
  rw [← UInt8.toNat_inj, UInt8.toNat_ofNat']
  have := a.toNat_lt
  omega

/-- The first of two bytes, or of three. -/
theorem base64_first (a b : UInt8) :
    UInt8.ofNat (a.toNat / 4 * 4 + (a.toNat % 4 * 16 + b.toNat / 16) / 16) = a := by
  rw [← UInt8.toNat_inj, UInt8.toNat_ofNat']
  have := a.toNat_lt
  have := b.toNat_lt
  omega

/-- The byte behind it, with some bits of the next one. -/
theorem base64_second (a b : UInt8) {k : ℕ} (hk : k < 4) :
    UInt8.ofNat ((a.toNat % 4 * 16 + b.toNat / 16) % 16 * 16 + (b.toNat % 16 * 4 + k) / 4) = b := by
  rw [← UInt8.toNat_inj, UInt8.toNat_ofNat']
  have := b.toNat_lt
  omega

/-- The last of three bytes. -/
theorem base64_third (b c : UInt8) :
    UInt8.ofNat ((b.toNat % 16 * 4 + c.toNat / 64) % 4 * 64 + c.toNat % 64) = c := by
  rw [← UInt8.toNat_inj, UInt8.toNat_ofNat']
  have := c.toNat_lt
  omega

/-- Four digits without padding. -/
theorem base64Quanta_four {a b c d : Char} (hd : d ≠ '=') (rest : List Char) :
    base64Quanta (a :: b :: c :: d :: rest) = do
      let x ← base64Value a
      let y ← base64Value b
      let z ← base64Value c
      let w ← base64Value d
      let bytes ← base64Quanta rest
      return .ofNat (x * 4 + y / 16) :: .ofNat (y % 16 * 16 + z / 4) :: .ofNat (z % 4 * 64 + w) ::
        bytes := by
  rw [base64Quanta]
  · exact fun _ h _ => hd h
  · exact fun h _ => hd h

/-- What is encoded is decoded, three bytes at a time. -/
theorem base64Quanta_base64 (bytes : List UInt8) : base64Quanta (base64 bytes) = some bytes := by
  induction bytes using base64.induct with
  | case1 => rfl
  | case2 a =>
      have ha := a.toNat_lt
      have hx := base64Value_base64Digit (show a.toNat / 4 < 64 by omega)
      have hy := base64Value_base64Digit (show a.toNat % 4 * 16 < 64 by omega)
      simp only [base64, base64Quanta, hx, hy, Option.bind_eq_bind, Option.bind_some, base64_one,
        Option.pure_def]
  | case3 a b =>
      have ha := a.toNat_lt
      have hb := b.toNat_lt
      have hx := base64Value_base64Digit (show a.toNat / 4 < 64 by omega)
      have hy := base64Value_base64Digit (show a.toNat % 4 * 16 + b.toNat / 16 < 64 by omega)
      have hz := base64Value_base64Digit (show b.toNat % 16 * 4 < 64 by omega)
      have hpad := (base64Digit_plain (show b.toNat % 16 * 4 < 64 by omega)).1
      have hsecond := base64_second a b (show 0 < 4 by omega)
      rw [Nat.add_zero] at hsecond
      simp only [base64, base64Quanta, hx, hy, hz, Option.bind_eq_bind, Option.bind_some,
        base64_first, hsecond, Option.pure_def]
  | case4 a b c rest ih =>
      have ha := a.toNat_lt
      have hb := b.toNat_lt
      have hc := c.toNat_lt
      have hx := base64Value_base64Digit (show a.toNat / 4 < 64 by omega)
      have hy := base64Value_base64Digit (show a.toNat % 4 * 16 + b.toNat / 16 < 64 by omega)
      have hz := base64Value_base64Digit (show b.toNat % 16 * 4 + c.toNat / 64 < 64 by omega)
      have hw := base64Value_base64Digit (show c.toNat % 64 < 64 by omega)
      have hpad := (base64Digit_plain (show c.toNat % 64 < 64 by omega)).1
      have hsecond := base64_second a b (show c.toNat / 64 < 4 by omega)
      rw [base64, base64Quanta_four hpad, hx, hy, hz, hw, ih]
      simp only [Option.bind_eq_bind, Option.bind_some, base64_first, hsecond, base64_third,
        Option.pure_def]

/-- The digits of some bytes have no line break. -/
theorem base64_plain (bytes : List UInt8) : ∀ c ∈ base64 bytes, c ≠ '\r' ∧ c ≠ '\n' := by
  have hpad : '=' ≠ '\r' ∧ '=' ≠ '\n' := by decide
  induction bytes using base64.induct with
  | case1 => exact fun c hc => absurd hc List.not_mem_nil
  | case2 a =>
      have ha := a.toNat_lt
      have hx := base64Digit_plain (show a.toNat / 4 < 64 by omega)
      have hy := base64Digit_plain (show a.toNat % 4 * 16 < 64 by omega)
      simp only [base64, List.forall_mem_cons]
      exact ⟨hx.2, hy.2, hpad, hpad, fun c hc => absurd hc List.not_mem_nil⟩
  | case3 a b =>
      have ha := a.toNat_lt
      have hb := b.toNat_lt
      have hx := base64Digit_plain (show a.toNat / 4 < 64 by omega)
      have hy := base64Digit_plain (show a.toNat % 4 * 16 + b.toNat / 16 < 64 by omega)
      have hz := base64Digit_plain (show b.toNat % 16 * 4 < 64 by omega)
      simp only [base64, List.forall_mem_cons]
      exact ⟨hx.2, hy.2, hz.2, hpad, fun c hc => absurd hc List.not_mem_nil⟩
  | case4 a b c rest ih =>
      have ha := a.toNat_lt
      have hb := b.toNat_lt
      have hc := c.toNat_lt
      have hx := base64Digit_plain (show a.toNat / 4 < 64 by omega)
      have hy := base64Digit_plain (show a.toNat % 4 * 16 + b.toNat / 16 < 64 by omega)
      have hz := base64Digit_plain (show b.toNat % 16 * 4 + c.toNat / 64 < 64 by omega)
      have hw := base64Digit_plain (show c.toNat % 64 < 64 by omega)
      simp only [base64, List.forall_mem_cons]
      exact ⟨hx.2, hy.2, hz.2, hw.2, ih⟩

/-- **What is encoded is decoded.** -/
theorem base64Decode_base64 (bytes : List UInt8) : base64Decode (base64 bytes) = some bytes := by
  have hfilter : (base64 bytes).filter (fun c => c ≠ '\r' ∧ c ≠ '\n') = base64 bytes := by
    refine List.filter_eq_self.mpr fun c hc => ?_
    simpa using base64_plain bytes c hc
  rw [base64Decode, hfilter, base64Quanta_base64]

/-! ### A name and a password -/

/-- The byte of a colon. -/
def colonByte : UInt8 := 0x3A

/-- `strings.Cut` at the first colon, if there is one. -/
def cutColon : List UInt8 → Option (List UInt8 × List UInt8)
  | [] => none
  | b :: rest =>
      if b = colonByte then some ([], rest)
      else (cutColon rest).map fun parts => (b :: parts.1, parts.2)

/-- **Where the name ends.** -/
theorem cutColon_eq_some_iff {s user pass : List UInt8} :
    cutColon s = some (user, pass) ↔ s = user ++ colonByte :: pass ∧ colonByte ∉ user := by
  induction s generalizing user with
  | nil => simp [cutColon]
  | cons b rest ih =>
      by_cases hb : b = colonByte
      · subst hb
        rcases user with _ | ⟨u, user⟩
        · simp [cutColon, eq_comm]
        · simp only [cutColon, if_true, Option.some.injEq, Prod.mk.injEq, List.cons_append,
            List.cons.injEq, List.mem_cons, not_or]
          constructor
          · rintro ⟨h, -⟩
            exact absurd h.symm (List.cons_ne_nil u user)
          · rintro ⟨⟨h, -⟩, hne, -⟩
            exact absurd h hne
      · simp only [cutColon, if_neg hb, Option.map_eq_some_iff, Prod.mk.injEq]
        rcases user with _ | ⟨u, user⟩
        · simp [hb]
        · constructor
          · rintro ⟨parts, hparts, heq, rfl⟩
            obtain ⟨rfl, rfl⟩ := List.cons.inj heq
            obtain ⟨rfl, hnot⟩ := ih.mp hparts
            exact ⟨rfl, fun hmem => (List.mem_cons.mp hmem).elim (fun h => hb h.symm) hnot⟩
          · rintro ⟨heq, hnot⟩
            obtain ⟨rfl, rfl⟩ := List.cons.inj heq
            exact ⟨(user, pass), ih.mpr ⟨rfl, fun hmem => hnot (List.mem_cons_of_mem b hmem)⟩,
              rfl, rfl⟩

/-- The scheme, and the space behind it. -/
def basicScheme : List Char := "Basic ".toList

/-- `parseBasicAuth`: the scheme may be written in any case. -/
def parseBasicAuth (auth : List Char) : Option (List UInt8 × List UInt8) :=
  if (auth.take basicScheme.length).map Char.toLower = basicScheme.map Char.toLower then
    (base64Decode (auth.drop basicScheme.length)).bind cutColon
  else none

/-- `SetBasicAuth`: the header that a client writes. -/
def basicAuth (user pass : List UInt8) : List Char :=
  basicScheme ++ base64 (user ++ colonByte :: pass)

/-- **What is read from a header that a client has written**: the name ends at its own first
colon. -/
theorem parseBasicAuth_basicAuth (user pass : List UInt8) :
    parseBasicAuth (basicAuth user pass) = cutColon (user ++ colonByte :: pass) := by
  rw [parseBasicAuth, basicAuth, List.take_left, List.drop_left, if_pos rfl, base64Decode_base64,
    Option.bind_some]

/-- A header **carries** a name and a password: behind the scheme stands the code of both, with
the first colon between them. -/
structure Carries (auth : List Char) (user pass : List UInt8) : Prop where
  scheme : (auth.take basicScheme.length).map Char.toLower = basicScheme.map Char.toLower
  code : base64Decode (auth.drop basicScheme.length) = some (user ++ colonByte :: pass)
  noColon : colonByte ∉ user

/-- **Which headers carry a name and a password.** -/
theorem parseBasicAuth_iff {auth : List Char} {user pass : List UInt8} :
    parseBasicAuth auth = some (user, pass) ↔ Carries auth user pass := by
  rw [parseBasicAuth]
  split
  · rename_i hscheme
    constructor
    · intro h
      obtain ⟨s, hs, hcut⟩ := Option.bind_eq_some_iff.mp h
      obtain ⟨rfl, hnot⟩ := cutColon_eq_some_iff.mp hcut
      exact ⟨hscheme, hs, hnot⟩
    · rintro ⟨-, hs, hnot⟩
      exact Option.bind_eq_some_iff.mpr ⟨_, hs, cutColon_eq_some_iff.mpr ⟨rfl, hnot⟩⟩
  · rename_i hscheme
    constructor
    · exact fun h => absurd h (by simp)
    · exact fun h => absurd h.scheme hscheme

end Golang
