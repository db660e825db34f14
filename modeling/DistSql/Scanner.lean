import DistSql.Json
import DistSql.Utf8
import Mathlib.Data.Int.Notation

/-!
# Reading JSON

The scanner of Go's `encoding/json`: which byte strings are documents, and which document each
of them is. A document is surrounded by blanks, its strings may be escaped, and its nesting is
bounded.

What the scanner accepts is stated as a grammar (`Denotes`), in which texts are put together
from the texts of their parts. The scanner itself works through the text from left to right and
never goes back; it reads as much of a number as there is, so a text denotes a number only if
what follows is not a part of it.

## Main results

* `scanString_iff`, `scanNumber_sound`, `scanNumber_complete`: the literals.
* `Denotes.parses`: **every text of the grammar is read**, as what it denotes.
* `parseJson_iff`: the scanner accepts exactly the grammar.
-/

namespace Golang

/-! ### Blanks -/

/-- A blank. -/
def isJsonSpace (c : Char) : Bool := c = ' ' || c = '\t' || c = '\r' || c = '\n'

/-- The text behind its blanks. -/
def skipSpace (cs : List Char) : List Char := cs.dropWhile isJsonSpace

/-- The text has only blanks. -/
def Blank (cs : List Char) : Prop := ∀ c ∈ cs, isJsonSpace c = true

/-- The text does not begin with a blank. -/
def Solid (cs : List Char) : Prop := ∀ c ∈ cs.head?, isJsonSpace c = false

/-- Blanks in front of a text are skipped. -/
theorem skipSpace_append {w cs : List Char} (hw : Blank w) (hcs : Solid cs) :
    skipSpace (w ++ cs) = cs := by
  rw [skipSpace, List.dropWhile_append_of_pos hw]
  cases cs with
  | nil => rfl
  | cons c cs => exact List.dropWhile_cons_of_neg (by simp [hcs c rfl])

/-- A text is its blanks, and what is behind them. -/
theorem exists_blank (cs : List Char) : ∃ w, Blank w ∧ cs = w ++ skipSpace cs := by
  refine ⟨cs.takeWhile isJsonSpace, fun c hc => ?_, (List.takeWhile_append_dropWhile ..).symm⟩
  exact List.all_eq_true.mp List.all_takeWhile c hc

/-! ### Strings -/

/-- A piece of a string literal: a character, or the number of an escape, which is a unit of
UTF-16. -/
inductive StrUnit
  | rune (c : Char)
  | escape (u : ℕ)
  deriving DecidableEq, Repr

/-- The value of a hexadecimal digit. -/
def hexVal (c : Char) : Option ℕ :=
  if c.isDigit then some (c.toNat - 48)
  else if 'a' ≤ c ∧ c ≤ 'f' then some (c.toNat - 87)
  else if 'A' ≤ c ∧ c ≤ 'F' then some (c.toNat - 55)
  else none

/-- The number with four hexadecimal digits. -/
def hex4 (a b c d : Char) : Option ℕ :=
  (hexVal a).bind fun a => (hexVal b).bind fun b => (hexVal c).bind fun c => (hexVal d).map fun d =>
    ((a * 16 + b) * 16 + c) * 16 + d

/-- The character of an escape with one letter. -/
def simpleEscape (c : Char) : Option Char :=
  if c = '"' ∨ c = '\\' ∨ c = '/' then some c
  else if c = 'b' then some '\x08'
  else if c = 'f' then some '\x0c'
  else if c = 'n' then some '\n'
  else if c = 'r' then some '\r'
  else if c = 't' then some '\t'
  else none

/-- The number of an escape, behind its `u`. -/
def scanHex : List Char → Option (StrUnit × List Char)
  | a :: b :: c :: d :: rest => (hex4 a b c d).map fun u => (.escape u, rest)
  | _ => none

/-- An escape, behind its backslash. -/
def scanEscape : List Char → Option (StrUnit × List Char)
  | [] => none
  | e :: rest =>
      if e = 'u' then scanHex rest else (simpleEscape e).map fun c => (.rune c, rest)

/-- One piece of a string literal, and what follows it. -/
def scanUnit : List Char → Option (StrUnit × List Char)
  | [] => none
  | c :: rest =>
      if c = '\\' then scanEscape rest
      else if c = '"' ∨ c.toNat < 0x20 then none
      else some (.rune c, rest)

/-- A string literal behind its first quote, and what follows it; the first argument bounds the
number of its pieces. -/
def scanStringFuel : ℕ → List Char → Option (List StrUnit × List Char)
  | _, [] => none
  | 0, _ => none
  | fuel + 1, c :: rest =>
      if c = '"' then some ([], rest)
      else
        (scanUnit (c :: rest)).bind fun p =>
          (scanStringFuel fuel p.2).map fun q => (p.1 :: q.1, q.2)

/-- A string literal behind its first quote, and what follows it. -/
def scanString (cs : List Char) : Option (List StrUnit × List Char) := scanStringFuel cs.length cs

/-- The character of a pair of surrogates. -/
def surrogatePair (u : ℕ) : Option StrUnit → Option Char
  | some (.escape v) =>
      if u < 0xDC00 ∧ 0xDC00 ≤ v ∧ v < 0xE000 then
        some (Char.ofNat (0x10000 + (u - 0xD800) * 0x400 + (v - 0xDC00)))
      else none
  | _ => none

/-- The characters of a string literal: a pair of surrogates is one, and a surrogate alone is
U+FFFD. The first argument says whether the next piece has been used in a pair. -/
def joinUnitsFrom : Bool → List StrUnit → List Char
  | _, [] => []
  | true, _ :: rest => joinUnitsFrom false rest
  | false, .rune c :: rest => c :: joinUnitsFrom false rest
  | false, .escape u :: rest =>
      if u < 0xD800 ∨ 0xE000 ≤ u then Char.ofNat u :: joinUnitsFrom false rest
      else
        match surrogatePair u rest.head? with
        | some c => c :: joinUnitsFrom true rest
        | none => '�' :: joinUnitsFrom false rest

/-- The text of the pieces of a string literal. -/
def joinUnits (us : List StrUnit) : String := .ofList (joinUnitsFrom false us)

/-- How a piece of a string literal is **spelled**. -/
inductive Spells : List Char → StrUnit → Prop
  | plain {c : Char} (h : 0x20 ≤ c.toNat) (hquote : c ≠ '"') (hescape : c ≠ '\\') :
      Spells [c] (.rune c)
  | simple {e c : Char} (h : simpleEscape e = some c) : Spells ['\\', e] (.rune c)
  | number {a b c d : Char} {u : ℕ} (h : hex4 a b c d = some u) :
      Spells ['\\', 'u', a, b, c, d] (.escape u)

/-- The text between the quotes of a string literal, and its pieces. -/
inductive StrBody : List Char → List StrUnit → Prop
  | nil : StrBody [] []
  | cons {cs cs' : List Char} {u : StrUnit} {us : List StrUnit} (h : Spells cs u)
      (hrest : StrBody cs' us) : StrBody (cs ++ cs') (u :: us)

/-- The text is a **string literal** for `s`. -/
def IsString (cs : List Char) (s : String) : Prop :=
  ∃ body us, cs = '"' :: (body ++ ['"']) ∧ StrBody body us ∧ s = joinUnits us

/-- One piece is read exactly when it is spelled there. -/
theorem scanUnit_iff {cs rest : List Char} {u : StrUnit} :
    scanUnit cs = some (u, rest) ↔ ∃ piece, cs = piece ++ rest ∧ Spells piece u := by
  constructor
  · intro h
    unfold scanUnit at h
    split at h
    · cases h
    rename_i c cs
    split at h
    · rename_i hc
      subst hc
      unfold scanEscape at h
      split at h
      · cases h
      rename_i e cs
      split at h
      · rename_i he
        subst he
        unfold scanHex at h
        split at h
        · obtain ⟨v, hv, hpair⟩ := Option.map_eq_some_iff.mp h
          obtain ⟨rfl, rfl⟩ := Prod.mk.inj hpair
          exact ⟨_, rfl, .number hv⟩
        · cases h
      · obtain ⟨c, hc, hpair⟩ := Option.map_eq_some_iff.mp h
        obtain ⟨rfl, rfl⟩ := Prod.mk.inj hpair
        exact ⟨['\\', e], rfl, .simple hc⟩
    · rename_i hescape
      split at h
      · cases h
      rename_i hplain
      obtain ⟨rfl, rfl⟩ := Prod.mk.inj (Option.some.inj h)
      obtain ⟨hquote, hctl⟩ := not_or.mp hplain
      exact ⟨[c], rfl, .plain (Nat.not_lt.mp hctl) hquote hescape⟩
  · rintro ⟨piece, rfl, hpiece⟩
    cases hpiece with
    | @plain c h hquote hescape =>
        rw [List.singleton_append, scanUnit, if_neg hescape,
          if_neg (not_or.mpr ⟨hquote, Nat.not_lt.mpr h⟩)]
    | @simple e c h =>
        have hu : e ≠ 'u' := by
          rintro rfl
          simp [simpleEscape] at h
        simp [scanUnit, scanEscape, hu, h]
    | @number a b c d u h => simp [scanUnit, scanEscape, scanHex, h]

/-- A piece has at least one character, and does not begin with a quote. -/
theorem Spells.exists_cons {piece : List Char} {u : StrUnit} (h : Spells piece u) :
    ∃ c cs, piece = c :: cs ∧ c ≠ '"' := by
  cases h with
  | plain _ hquote _ => exact ⟨_, _, rfl, hquote⟩
  | simple _ => exact ⟨_, _, rfl, by decide⟩
  | number _ => exact ⟨_, _, rfl, by decide⟩

/-- What is read of a string literal is spelled there, piece by piece. -/
theorem scanStringFuel_sound {fuel : ℕ} {cs rest : List Char} {us : List StrUnit}
    (h : scanStringFuel fuel cs = some (us, rest)) :
    ∃ body, cs = body ++ '"' :: rest ∧ StrBody body us := by
  induction fuel generalizing cs us with
  | zero => cases cs <;> cases h
  | succ fuel ih =>
      cases cs with
      | nil => cases h
      | cons c cs =>
          rw [scanStringFuel] at h
          split at h
          · rename_i hc
            obtain ⟨rfl, rfl⟩ := Prod.mk.inj (Option.some.inj h)
            exact ⟨[], by rw [hc]; rfl, .nil⟩
          · obtain ⟨⟨u, cs'⟩, hunit, h⟩ := Option.bind_eq_some_iff.mp h
            obtain ⟨⟨us', rest'⟩, hrest, hpair⟩ := Option.map_eq_some_iff.mp h
            obtain ⟨rfl, rfl⟩ := Prod.mk.inj hpair
            obtain ⟨piece, hpiece, hspells⟩ := scanUnit_iff.mp hunit
            obtain ⟨body, rfl, hbody⟩ := ih hrest
            exact ⟨piece ++ body, by rw [hpiece, List.append_assoc], .cons hspells hbody⟩

/-- A string literal is read. -/
theorem StrBody.scan {body : List Char} {us : List StrUnit} (h : StrBody body us) {fuel : ℕ}
    (hfuel : body.length < fuel) (rest : List Char) :
    scanStringFuel fuel (body ++ '"' :: rest) = some (us, rest) := by
  induction h generalizing fuel with
  | nil =>
      obtain ⟨fuel, rfl⟩ : ∃ k, fuel = k + 1 := ⟨fuel - 1, by simp at hfuel; omega⟩
      rw [List.nil_append, scanStringFuel, if_pos rfl]
  | @cons piece cs u us hpiece _ ih =>
      obtain ⟨c, piece', rfl, hquote⟩ := hpiece.exists_cons
      rw [List.length_append, List.length_cons] at hfuel
      obtain ⟨fuel, rfl⟩ : ∃ k, fuel = k + 1 := ⟨fuel - 1, by omega⟩
      have hunit : scanUnit (c :: piece' ++ (cs ++ '"' :: rest)) = some (u, cs ++ '"' :: rest) :=
        scanUnit_iff.mpr ⟨_, rfl, hpiece⟩
      rw [List.append_assoc, List.cons_append, scanStringFuel, if_neg hquote, ← List.cons_append,
        hunit, Option.bind_some, ih (by omega)]
      rfl

/-- **A string literal is read exactly when it is there.** -/
theorem scanString_iff {cs rest : List Char} {us : List StrUnit} :
    scanString cs = some (us, rest) ↔ ∃ body, cs = body ++ '"' :: rest ∧ StrBody body us := by
  refine ⟨scanStringFuel_sound, ?_⟩
  rintro ⟨body, rfl, hbody⟩
  exact hbody.scan (by simp) rest

/-! ### Numbers -/

/-- The text has only digits. -/
def Digits (cs : List Char) : Prop := ∀ c ∈ cs, c.isDigit = true

/-- The text does not begin with a digit. -/
def NoDigit (cs : List Char) : Prop := ∀ c ∈ cs.head?, c.isDigit = false

/-- The number with these digits. -/
def digitsValue (cs : List Char) : ℕ := Nat.ofDigitChars 10 cs 0

/-- The whole part of a number: a zero is not followed by digits. -/
def scanInt : List Char → Option (List Char × List Char)
  | [] => none
  | c :: rest =>
      if c = '0' then some (['0'], rest)
      else if c.isDigit then some (c :: rest.takeWhile Char.isDigit, rest.dropWhile Char.isDigit)
      else none

/-- At least one digit, and what follows. -/
def scanDigits (cs : List Char) : Option (List Char × List Char) :=
  if cs.takeWhile Char.isDigit = [] then none
  else some (cs.takeWhile Char.isDigit, cs.dropWhile Char.isDigit)

/-- The digits behind the point, if there is one. -/
def scanFrac : List Char → Option (List Char × List Char)
  | [] => some ([], [])
  | c :: rest => if c = '.' then scanDigits rest else some ([], c :: rest)

/-- A sign, if there is one: whether it is a minus. -/
def scanSign : List Char → Bool × List Char
  | [] => (false, [])
  | c :: rest =>
      if c = '-' then (true, rest) else if c = '+' then (false, rest) else (false, c :: rest)

/-- The exponent, if there is one. -/
def scanExp : List Char → Option (ℤ × List Char)
  | [] => some (0, [])
  | c :: rest =>
      if c = 'e' ∨ c = 'E' then
        (scanDigits (scanSign rest).2).map fun p =>
          (if (scanSign rest).1 then -(digitsValue p.1 : ℤ) else digitsValue p.1, p.2)
      else some (0, c :: rest)

/-- A minus, if there is one. -/
def scanMinus : List Char → Bool × List Char
  | [] => (false, [])
  | c :: rest => if c = '-' then (true, rest) else (false, c :: rest)

/-- A number, and what follows it. -/
def scanNumber (cs : List Char) : Option (Number × List Char) :=
  (scanInt (scanMinus cs).2).bind fun i => (scanFrac i.2).bind fun f => (scanExp f.2).map fun e =>
    (⟨(scanMinus cs).1, digitsValue (i.1 ++ f.1), e.1 - f.1.length⟩, e.2)

/-- The whole part of a number. -/
inductive IntText : List Char → Prop
  | zero : IntText ['0']
  | digits {c : Char} {cs : List Char} (hzero : c ≠ '0') (hc : c.isDigit = true)
      (hcs : Digits cs) : IntText (c :: cs)

/-- The part of a number from its point on, and the digits behind the point. -/
inductive FracText : List Char → List Char → Prop
  | absent : FracText [] []
  | present {cs : List Char} (hne : cs ≠ []) (hcs : Digits cs) : FracText ('.' :: cs) cs

/-- The exponent of a number. -/
inductive ExpText : List Char → ℤ → Prop
  | absent : ExpText [] 0
  | unsigned {e : Char} {cs : List Char} (he : e = 'e' ∨ e = 'E') (hne : cs ≠ [])
      (hcs : Digits cs) :
      ExpText (e :: cs) (digitsValue cs)
  | plus {e : Char} {cs : List Char} (he : e = 'e' ∨ e = 'E') (hne : cs ≠ []) (hcs : Digits cs) :
      ExpText (e :: '+' :: cs) (digitsValue cs)
  | minus {e : Char} {cs : List Char} (he : e = 'e' ∨ e = 'E') (hne : cs ≠ []) (hcs : Digits cs) :
      ExpText (e :: '-' :: cs) (-digitsValue cs)

/-- The text is a **number literal** for `n`. -/
def IsNumber (cs : List Char) (n : Number) : Prop :=
  ∃ (negative : Bool) (i f fs e : List Char) (x : ℤ), IntText i ∧ FracText f fs ∧ ExpText e x ∧
    cs = (if negative then ['-'] else []) ++ (i ++ (f ++ e)) ∧
    n = ⟨negative, digitsValue (i ++ fs), x - fs.length⟩

/-- The text is not the rest of a number. -/
def NoNumber (cs : List Char) : Prop :=
  ∀ c ∈ cs.head?, c.isDigit = false ∧ c ≠ '.' ∧ c ≠ 'e' ∧ c ≠ 'E'

/-- Digits are read up to what is not one. -/
theorem span_digits {ds cs : List Char} (hds : Digits ds) (hcs : NoDigit cs) :
    (ds ++ cs).takeWhile Char.isDigit = ds ∧ (ds ++ cs).dropWhile Char.isDigit = cs := by
  rw [List.takeWhile_append_of_pos hds, List.dropWhile_append_of_pos hds]
  cases cs with
  | nil => simp
  | cons c cs =>
      have hc : ¬c.isDigit = true := by simp [hcs c rfl]
      rw [List.takeWhile_cons_of_neg hc, List.dropWhile_cons_of_neg hc, List.append_nil]
      exact ⟨rfl, rfl⟩

/-- The digits in front of a text. -/
theorem digits_takeWhile (cs : List Char) : Digits (cs.takeWhile Char.isDigit) := fun _ hc =>
  (List.all_eq_true.mp (List.all_takeWhile (p := Char.isDigit) (l := cs))) _ hc

/-- At least one digit is read exactly when it is there. -/
theorem scanDigits_iff {cs ds rest : List Char} :
    scanDigits cs = some (ds, rest) ↔ ds ≠ [] ∧ Digits ds ∧ NoDigit rest ∧ cs = ds ++ rest := by
  constructor
  · intro h
    unfold scanDigits at h
    split at h
    · cases h
    rename_i hne
    obtain ⟨rfl, rfl⟩ := Prod.mk.inj (Option.some.inj h)
    refine ⟨hne, digits_takeWhile cs, fun c hc => ?_, (List.takeWhile_append_dropWhile ..).symm⟩
    have hnot := List.head?_dropWhile_not Char.isDigit cs
    rw [Option.mem_def.mp hc] at hnot
    exact hnot
  · rintro ⟨hne, hds, hrest, rfl⟩
    obtain ⟨htake, hdrop⟩ := span_digits hds hrest
    rw [scanDigits, htake, hdrop, if_neg hne]

/-- The whole part that is read is one. -/
theorem scanInt_sound {cs i rest : List Char} (h : scanInt cs = some (i, rest)) :
    IntText i ∧ cs = i ++ rest := by
  unfold scanInt at h
  split at h
  · cases h
  rename_i c cs
  split at h
  · rename_i hc
    obtain ⟨rfl, rfl⟩ := Prod.mk.inj (Option.some.inj h)
    exact ⟨.zero, by rw [hc]; rfl⟩
  rename_i hzero
  split at h
  · rename_i hc
    obtain ⟨rfl, rfl⟩ := Prod.mk.inj (Option.some.inj h)
    refine ⟨.digits hzero hc (digits_takeWhile cs), ?_⟩
    rw [List.cons_append, List.takeWhile_append_dropWhile]
  · cases h

/-- A whole part is read. -/
theorem IntText.scan {i rest : List Char} (h : IntText i) (hrest : NoDigit rest) :
    scanInt (i ++ rest) = some (i, rest) := by
  cases h with
  | zero => rfl
  | digits hzero hc hcs =>
      obtain ⟨htake, hdrop⟩ := span_digits hcs hrest
      rw [List.cons_append, scanInt, if_neg hzero, if_pos hc, htake, hdrop]

/-- The digits behind the point that are read are there. -/
theorem scanFrac_sound {cs fs rest : List Char} (h : scanFrac cs = some (fs, rest)) :
    ∃ f, FracText f fs ∧ cs = f ++ rest := by
  unfold scanFrac at h
  split at h
  · obtain ⟨rfl, rfl⟩ := Prod.mk.inj (Option.some.inj h)
    exact ⟨[], .absent, rfl⟩
  rename_i c cs
  split at h
  · rename_i hc
    obtain ⟨hne, hds, -, rfl⟩ := scanDigits_iff.mp h
    exact ⟨'.' :: fs, .present hne hds, by rw [hc]; rfl⟩
  · obtain ⟨rfl, rfl⟩ := Prod.mk.inj (Option.some.inj h)
    exact ⟨[], .absent, rfl⟩

/-- The digits behind the point are read. -/
theorem FracText.scan {f fs rest : List Char} (h : FracText f fs) (hdigit : NoDigit rest)
    (hpoint : ∀ c ∈ rest.head?, c ≠ '.') : scanFrac (f ++ rest) = some (fs, rest) := by
  cases h with
  | absent =>
      cases rest with
      | nil => rfl
      | cons c rest => exact if_neg (hpoint c rfl)
  | present hne hcs => exact scanDigits_iff.mpr ⟨hne, hcs, hdigit, rfl⟩

/-- There is a minus, a plus, or no sign. -/
theorem scanSign_cases (cs : List Char) :
    (∃ r, cs = '-' :: r ∧ scanSign cs = (true, r)) ∨
      (∃ r, cs = '+' :: r ∧ scanSign cs = (false, r)) ∨ scanSign cs = (false, cs) := by
  cases cs with
  | nil => exact .inr (.inr rfl)
  | cons c cs =>
      by_cases hminus : c = '-'
      · exact .inl ⟨cs, by rw [hminus], if_pos hminus⟩
      by_cases hplus : c = '+'
      · exact .inr (.inl ⟨cs, by rw [hplus], by rw [scanSign, if_neg hminus, if_pos hplus]⟩)
      · exact .inr (.inr (by rw [scanSign, if_neg hminus, if_neg hplus]))

/-- The exponent that is read is there. -/
theorem scanExp_sound {cs rest : List Char} {x : ℤ} (h : scanExp cs = some (x, rest)) :
    ∃ e, ExpText e x ∧ cs = e ++ rest := by
  unfold scanExp at h
  split at h
  · obtain ⟨rfl, rfl⟩ := Prod.mk.inj (Option.some.inj h)
    exact ⟨[], .absent, rfl⟩
  rename_i c cs
  split at h
  · rename_i hc
    obtain ⟨⟨ds, rest'⟩, hds, hpair⟩ := Option.map_eq_some_iff.mp h
    obtain ⟨rfl, rfl⟩ := Prod.mk.inj hpair
    obtain ⟨hne, hdigits, -, hcs⟩ := scanDigits_iff.mp hds
    rcases scanSign_cases cs with ⟨r, rfl, hsign⟩ | ⟨r, rfl, hsign⟩ | hsign
    all_goals
      simp only [hsign] at hcs ⊢
      subst hcs
    · exact ⟨c :: '-' :: ds, .minus hc hne hdigits, rfl⟩
    · exact ⟨c :: '+' :: ds, .plus hc hne hdigits, rfl⟩
    · exact ⟨c :: ds, .unsigned hc hne hdigits, rfl⟩
  · obtain ⟨rfl, rfl⟩ := Prod.mk.inj (Option.some.inj h)
    exact ⟨[], .absent, rfl⟩

/-- A digit is no sign. -/
theorem scanSign_digits {ds : List Char} (hds : Digits ds) (hne : ds ≠ []) (rest : List Char) :
    scanSign (ds ++ rest) = (false, ds ++ rest) := by
  obtain ⟨d, ds', rfl⟩ := List.exists_cons_of_ne_nil hne
  have hd := hds d List.mem_cons_self
  have hminus : d ≠ '-' := by
    rintro rfl
    exact absurd hd (by decide)
  have hplus : d ≠ '+' := by
    rintro rfl
    exact absurd hd (by decide)
  rw [List.cons_append, scanSign, if_neg hminus, if_neg hplus]

/-- An exponent is read. -/
theorem ExpText.scan {e rest : List Char} {x : ℤ} (h : ExpText e x) (hrest : NoNumber rest) :
    scanExp (e ++ rest) = some (x, rest) := by
  have hdigit : NoDigit rest := fun c hc => (hrest c hc).1
  cases h with
  | absent =>
      cases rest with
      | nil => rfl
      | cons c rest =>
          obtain ⟨-, -, he, hE⟩ := hrest c rfl
          exact if_neg (not_or.mpr ⟨he, hE⟩)
  | @unsigned e cs he hne hcs =>
      rw [List.cons_append, scanExp, if_pos he, scanSign_digits hcs hne,
        scanDigits_iff.mpr ⟨hne, hcs, hdigit, rfl⟩]
      rfl
  | @plus e cs he hne hcs =>
      have hsign : scanSign ('+' :: cs ++ rest) = (false, cs ++ rest) := rfl
      rw [List.cons_append, scanExp, if_pos he, hsign,
        scanDigits_iff.mpr ⟨hne, hcs, hdigit, rfl⟩]
      rfl
  | @minus e cs he hne hcs =>
      have hsign : scanSign ('-' :: cs ++ rest) = (true, cs ++ rest) := rfl
      rw [List.cons_append, scanExp, if_pos he, hsign,
        scanDigits_iff.mpr ⟨hne, hcs, hdigit, rfl⟩]
      rfl

/-- The minus that is read is there. -/
theorem scanMinus_eq (cs : List Char) :
    cs = (if (scanMinus cs).1 then ['-'] else []) ++ (scanMinus cs).2 := by
  cases cs with
  | nil => rfl
  | cons c cs =>
      rw [scanMinus]
      split
      · rename_i hc
        rw [hc]
        rfl
      · rfl

/-- A whole part begins with a digit. -/
theorem IntText.exists_cons {i : List Char} (h : IntText i) :
    ∃ c cs, i = c :: cs ∧ c.isDigit = true := by
  cases h with
  | zero => exact ⟨'0', [], rfl, by decide⟩
  | digits _ hc _ => exact ⟨_, _, rfl, hc⟩

/-- A minus in front of a whole part is read. -/
theorem scanMinus_int {i : List Char} (h : IntText i) (negative : Bool) (rest : List Char) :
    scanMinus ((if negative then ['-'] else []) ++ (i ++ rest)) = (negative, i ++ rest) := by
  cases negative with
  | true => rfl
  | false =>
      obtain ⟨c, cs, rfl, hc⟩ := h.exists_cons
      have hminus : c ≠ '-' := by
        rintro rfl
        exact absurd hc (by decide)
      exact if_neg hminus

/-- **A number that is read is there.** -/
theorem scanNumber_sound {cs rest : List Char} {n : Number} (h : scanNumber cs = some (n, rest)) :
    ∃ lit, IsNumber lit n ∧ cs = lit ++ rest := by
  obtain ⟨⟨i, r₁⟩, hi, h⟩ := Option.bind_eq_some_iff.mp h
  obtain ⟨⟨fs, r₂⟩, hf, h⟩ := Option.bind_eq_some_iff.mp h
  obtain ⟨⟨x, r₃⟩, he, hpair⟩ := Option.map_eq_some_iff.mp h
  obtain ⟨rfl, rfl⟩ := Prod.mk.inj hpair
  obtain ⟨hint, hcs⟩ := scanInt_sound hi
  obtain ⟨f, hfrac, rfl⟩ := scanFrac_sound hf
  obtain ⟨e, hexp, rfl⟩ := scanExp_sound he
  refine ⟨_, ⟨(scanMinus cs).1, i, f, fs, e, x, hint, hfrac, hexp, rfl, rfl⟩, ?_⟩
  have hminus := scanMinus_eq cs
  rw [hcs] at hminus
  exact hminus.trans (by simp only [List.append_assoc])

/-- What comes behind the whole part of a number is not a digit. -/
theorem noDigit_exp {e rest : List Char} {x : ℤ} (he : ExpText e x) (hrest : NoNumber rest) :
    NoDigit (e ++ rest) ∧ ∀ c ∈ (e ++ rest).head?, c ≠ '.' := by
  have hletter : ∀ {c : Char}, c = 'e' ∨ c = 'E' → c.isDigit = false ∧ c ≠ '.' := by
    rintro c (rfl | rfl) <;> decide
  cases he with
  | absent => exact ⟨fun c hc => (hrest c hc).1, fun c hc => (hrest c hc).2.1⟩
  | unsigned he | plus he | minus he =>
      refine ⟨fun c hc => ?_, fun c hc => ?_⟩
      · obtain rfl := Option.some.inj hc
        exact (hletter he).1
      · obtain rfl := Option.some.inj hc
        exact (hletter he).2

/-- **A number is read**, if what follows is not a part of it. -/
theorem scanNumber_complete {lit : List Char} {n : Number} (h : IsNumber lit n) {rest : List Char}
    (hrest : NoNumber rest) : scanNumber (lit ++ rest) = some (n, rest) := by
  obtain ⟨negative, i, f, fs, e, x, hi, hf, he, rfl, rfl⟩ := h
  obtain ⟨hdigit, hpoint⟩ := noDigit_exp he hrest
  have hbehind : NoDigit (f ++ (e ++ rest)) := by
    cases hf with
    | absent => exact hdigit
    | present =>
        intro c hc
        obtain rfl := Option.some.inj hc
        decide
  have hminus := scanMinus_int hi negative (f ++ (e ++ rest))
  rw [scanNumber, List.append_assoc, List.append_assoc, List.append_assoc, hminus,
    hi.scan hbehind, Option.bind_some, hf.scan hdigit hpoint, Option.bind_some, he.scan hrest]
  rfl

/-! ### Values -/

/-- A word that stands for a document. -/
def scanWord (word : List Char) (j : Json) (cs : List Char) : Option (Json × List Char) :=
  if word.isPrefixOf cs then some (j, cs.drop word.length) else none

/-- What is in brackets, behind the opening one: nothing, or items. -/
def scanBracket {α : Type} (close : Char) (items : List Char → Option (List α × List Char))
    (cs : List Char) : Option (List α × List Char) :=
  match skipSpace cs with
  | [] => none
  | c :: rest => if c = close then some ([], rest) else items (c :: rest)

/-- What comes behind an item: further items, or the closing bracket. -/
def scanRest {α : Type} (close : Char) (items : List Char → Option (List α × List Char)) (x : α)
    (cs : List Char) : Option (List α × List Char) :=
  match skipSpace cs with
  | [] => none
  | c :: rest =>
      if c = ',' then (items (skipSpace rest)).map fun p => (x :: p.1, p.2)
      else if c = close then some ([x], rest)
      else none

/-- A colon, and what follows it. -/
def scanColon (cs : List Char) : Option (List Char) :=
  match skipSpace cs with
  | [] => none
  | c :: rest => if c = ':' then some (skipSpace rest) else none

/-- `pushParseState`: how deep the nesting may still go inside a bracket. -/
def pushParseState : ℕ → Option ℕ
  | 0 => none
  | depth + 1 => some depth

mutual

/-- A document, and what follows it. The arguments bound the steps and the nesting. -/
def scanValue : ℕ → ℕ → List Char → Option (Json × List Char)
  | 0, _, _ => none
  | _, _, [] => none
  | fuel + 1, depth, c :: rest =>
      if c = '"' then (scanString rest).map fun p => (.str (joinUnits p.1), p.2)
      else if c = '[' then
        (pushParseState depth).bind fun depth =>
          (scanBracket ']' (scanElems fuel depth) rest).map fun p => (.arr p.1, p.2)
      else if c = '\x7b' then
        (pushParseState depth).bind fun depth =>
          (scanBracket '\x7d' (scanMembers fuel depth) rest).map fun p => (.obj p.1, p.2)
      else if c = 'n' then scanWord ['u', 'l', 'l'] .null rest
      else if c = 't' then scanWord ['r', 'u', 'e'] (.bool true) rest
      else if c = 'f' then scanWord ['a', 'l', 's', 'e'] (.bool false) rest
      else (scanNumber (c :: rest)).map fun p => (.num p.1, p.2)

/-- The elements of an array, and what follows their bracket. -/
def scanElems : ℕ → ℕ → List Char → Option (List Json × List Char)
  | 0, _, _ => none
  | fuel + 1, depth, cs =>
      (scanValue fuel depth cs).bind fun p => scanRest ']' (scanElems fuel depth) p.1 p.2

/-- A member of an object, and what follows it. -/
def scanMember : ℕ → ℕ → List Char → Option ((String × Json) × List Char)
  | 0, _, _ => none
  | _, _, [] => none
  | fuel + 1, depth, c :: rest =>
      if c = '"' then
        (scanString rest).bind fun p => (scanColon p.2).bind fun cs =>
          (scanValue fuel depth cs).map fun q => ((joinUnits p.1, q.1), q.2)
      else none

/-- The members of an object, and what follows their bracket. -/
def scanMembers : ℕ → ℕ → List Char → Option (List (String × Json) × List Char)
  | 0, _, _ => none
  | fuel + 1, depth, cs =>
      (scanMember fuel depth cs).bind fun p => scanRest '\x7d' (scanMembers fuel depth) p.1 p.2

end

/-- `maxNestingDepth`. -/
def maxNestingDepth : ℕ := 10000

/-- **The document in a byte string**, if it is one. -/
def parseJson (b : List UInt8) : Option Json :=
  let cs := runes b
  (scanValue (cs.length + 1) maxNestingDepth (skipSpace cs)).bind fun p =>
    if skipSpace p.2 = [] then some p.1 else none

/-! ### The grammar -/

/-- A part of a document. -/
inductive Piece
  | value (j : Json)
  | elems (js : List Json)
  | member (m : String × Json)
  | members (ms : List (String × Json))

/-- A text **denotes** a part of a document, with a bound on the nesting. -/
inductive Denotes : ℕ → List Char → Piece → Prop
  | null {d : ℕ} : Denotes d ['n', 'u', 'l', 'l'] (.value .null)
  | yes {d : ℕ} : Denotes d ['t', 'r', 'u', 'e'] (.value (.bool true))
  | no {d : ℕ} : Denotes d ['f', 'a', 'l', 's', 'e'] (.value (.bool false))
  | num {d : ℕ} {cs : List Char} {n : Number} (h : IsNumber cs n) : Denotes d cs (.value (.num n))
  | str {d : ℕ} {cs : List Char} {s : String} (h : IsString cs s) : Denotes d cs (.value (.str s))
  | emptyArr {d : ℕ} {w : List Char} (hw : Blank w) :
      Denotes (d + 1) ('[' :: (w ++ [']'])) (.value (.arr []))
  | arr {d : ℕ} {w cs : List Char} {js : List Json} (hw : Blank w) (h : Denotes d cs (.elems js)) :
      Denotes (d + 1) ('[' :: (w ++ (cs ++ [']']))) (.value (.arr js))
  | emptyObj {d : ℕ} {w : List Char} (hw : Blank w) :
      Denotes (d + 1) ('\x7b' :: (w ++ ['\x7d'])) (.value (.obj []))
  | obj {d : ℕ} {w cs : List Char} {ms : List (String × Json)} (hw : Blank w)
      (h : Denotes d cs (.members ms)) :
      Denotes (d + 1) ('\x7b' :: (w ++ (cs ++ ['\x7d']))) (.value (.obj ms))
  | elem {d : ℕ} {cs w : List Char} {j : Json} (h : Denotes d cs (.value j)) (hw : Blank w) :
      Denotes d (cs ++ w) (.elems [j])
  | elems {d : ℕ} {cs w w' cs' : List Char} {j : Json} {js : List Json}
      (h : Denotes d cs (.value j)) (hw : Blank w) (hw' : Blank w')
      (hrest : Denotes d cs' (.elems js)) :
      Denotes d (cs ++ (w ++ ',' :: (w' ++ cs'))) (.elems (j :: js))
  | member {d : ℕ} {k w w' cs : List Char} {key : String} {j : Json} (hkey : IsString k key)
      (hw : Blank w) (hw' : Blank w') (h : Denotes d cs (.value j)) :
      Denotes d (k ++ (w ++ ':' :: (w' ++ cs))) (.member (key, j))
  | lastMember {d : ℕ} {cs w : List Char} {m : String × Json} (h : Denotes d cs (.member m))
      (hw : Blank w) : Denotes d (cs ++ w) (.members [m])
  | members {d : ℕ} {cs w w' cs' : List Char} {m : String × Json} {ms : List (String × Json)}
      (h : Denotes d cs (.member m)) (hw : Blank w) (hw' : Blank w')
      (hrest : Denotes d cs' (.members ms)) :
      Denotes d (cs ++ (w ++ ',' :: (w' ++ cs'))) (.members (m :: ms))

/-- The text of a part is **read** as that part. -/
def Parses (d : ℕ) (cs : List Char) : Piece → Prop
  | .value j => ∀ fuel rest, cs.length ≤ fuel → NoNumber rest →
      scanValue fuel d (cs ++ rest) = some (j, rest)
  | .elems js => ∀ fuel rest, cs.length < fuel →
      scanElems fuel d (cs ++ ']' :: rest) = some (js, rest)
  | .member m => ∀ fuel rest, cs.length ≤ fuel → NoNumber rest →
      scanMember fuel d (cs ++ rest) = some (m, rest)
  | .members ms => ∀ fuel rest, cs.length < fuel →
      scanMembers fuel d (cs ++ '\x7d' :: rest) = some (ms, rest)

/-! ### Every text of the grammar is read -/

/-- The first character of a number decides that it is one. -/
theorem number_head {c : Char} (h : c = '-' ∨ c.isDigit = true) :
    isJsonSpace c = false ∧ c ∉ ['"', '[', '\x7b', ']', '\x7d', 'n', 't', 'f'] := by
  rcases h with rfl | h
  · decide
  have hne : ∀ d : Char, d.isDigit = false → c ≠ d := by
    rintro d hd rfl
    rw [hd] at h
    cases h
  refine ⟨?_, ?_⟩
  · simp [isJsonSpace, hne _ (by decide : ' '.isDigit = false),
      hne _ (by decide : '\t'.isDigit = false),
      hne _ (by decide : '\r'.isDigit = false), hne _ (by decide : '\n'.isDigit = false)]
  · intro hmem
    have hall : ['"', '[', '\x7b', ']', '\x7d', 'n', 't', 'f'].all (!·.isDigit) = true := by decide
    exact hne c (by simpa using List.all_eq_true.mp hall c hmem) rfl

/-- A number begins with a minus or a digit. -/
theorem IsNumber.exists_cons {cs : List Char} {n : Number} (h : IsNumber cs n) :
    ∃ c cs', cs = c :: cs' ∧ (c = '-' ∨ c.isDigit = true) := by
  obtain ⟨negative, i, f, fs, e, x, hi, -, -, rfl, -⟩ := h
  obtain ⟨c, i', rfl, hc⟩ := hi.exists_cons
  cases negative with
  | true => exact ⟨'-', _, rfl, .inl rfl⟩
  | false => exact ⟨c, _, rfl, .inr hc⟩

/-- The text of a part begins with a character that is neither a blank nor a closing bracket. -/
theorem Denotes.exists_cons {d : ℕ} {cs : List Char} {p : Piece} (h : Denotes d cs p) :
    ∃ c cs', cs = c :: cs' ∧ isJsonSpace c = false ∧ c ≠ ']' ∧ c ≠ '\x7d' := by
  induction h with
  | null | yes | no | emptyArr | arr | emptyObj | obj => exact ⟨_, _, rfl, by decide⟩
  | num hn =>
      obtain ⟨c, cs', rfl, hc⟩ := hn.exists_cons
      obtain ⟨hsolid, hother⟩ := number_head hc
      simp only [List.mem_cons, not_or] at hother
      exact ⟨c, cs', rfl, hsolid, hother.2.2.2.1, hother.2.2.2.2.1⟩
  | str hs =>
      obtain ⟨body, us, rfl, -, -⟩ := hs
      exact ⟨_, _, rfl, by decide⟩
  | member hkey =>
      obtain ⟨body, us, rfl, -, -⟩ := hkey
      exact ⟨_, _, rfl, by decide⟩
  | elem _ _ ih | elems _ _ _ _ ih _ | lastMember _ _ ih | members _ _ _ _ ih _ =>
      obtain ⟨c, cs', rfl, hc⟩ := ih
      exact ⟨c, _, rfl, hc⟩

/-- Such a text does not begin with a blank. -/
theorem Denotes.solid {d : ℕ} {cs : List Char} {p : Piece} (h : Denotes d cs p) (rest : List Char) :
    Solid (cs ++ rest) := by
  obtain ⟨c, cs', rfl, hc, -, -⟩ := h.exists_cons
  intro a ha
  obtain rfl := Option.some.inj ha
  exact hc

/-- Blanks are not a part of a number. -/
theorem NoNumber.blank_append {w cs : List Char} (hw : Blank w) (hcs : NoNumber cs) :
    NoNumber (w ++ cs) := by
  cases w with
  | nil => exact hcs
  | cons b w =>
      intro a ha
      obtain rfl := Option.some.inj ha
      have hb := hw b List.mem_cons_self
      simp only [isJsonSpace, Bool.or_eq_true, decide_eq_true_eq] at hb
      rcases hb with ((rfl | rfl) | rfl) | rfl <;> decide

/-- Behind a document come blanks and a separator or a bracket. -/
theorem noNumber_blank {w : List Char} (hw : Blank w) {c : Char}
    (hc : c = ',' ∨ c = ']' ∨ c = '\x7d')
    (rest : List Char) : NoNumber (w ++ c :: rest) := by
  refine .blank_append hw fun a ha => ?_
  obtain rfl := Option.some.inj ha
  rcases hc with rfl | rfl | rfl <;> decide

section Brackets

variable {α : Type} {close : Char} {items : List Char → Option (List α × List Char)}

/-- An empty pair of brackets. -/
theorem scanBracket_empty (hclose : isJsonSpace close = false) {w : List Char} (hw : Blank w)
    (rest : List Char) : scanBracket close items (w ++ close :: rest) = some ([], rest) := by
  have hsolid : Solid (close :: rest) := fun c hc => Option.some.inj hc ▸ hclose
  rw [scanBracket, skipSpace_append hw hsolid]
  exact if_pos rfl

/-- Brackets around items. -/
theorem scanBracket_items {w : List Char} (hw : Blank w) {c : Char} {cs : List Char}
    (hc : isJsonSpace c = false) (hclose : c ≠ close) :
    scanBracket close items (w ++ c :: cs) = items (c :: cs) := by
  have hsolid : Solid (c :: cs) := fun a ha => Option.some.inj ha ▸ hc
  rw [scanBracket, skipSpace_append hw hsolid]
  exact if_neg hclose

/-- The last item. -/
theorem scanRest_last (hclose : isJsonSpace close = false) (hcomma : close ≠ ',') {w : List Char}
    (hw : Blank w) (x : α) (rest : List Char) :
    scanRest close items x (w ++ close :: rest) = some ([x], rest) := by
  have hsolid : Solid (close :: rest) := fun c hc => Option.some.inj hc ▸ hclose
  rw [scanRest, skipSpace_append hw hsolid]
  simp only [if_neg hcomma, if_true]

/-- An item with others behind it. -/
theorem scanRest_more {w w' cs : List Char} (hw : Blank w) (hw' : Blank w') (hcs : Solid cs)
    {xs : List α} {rest : List Char} (h : items cs = some (xs, rest)) (x : α) :
    scanRest close items x (w ++ ',' :: (w' ++ cs)) = some (x :: xs, rest) := by
  have hsolid : Solid (',' :: (w' ++ cs)) := fun c hc => by
    obtain rfl := Option.some.inj hc
    decide
  rw [scanRest, skipSpace_append hw hsolid]
  simp only [if_true, skipSpace_append hw' hcs, h, Option.map_some]

/-- What is read of brackets is there. -/
theorem scanBracket_sound {cs rest : List Char} {xs : List α}
    (h : scanBracket close items cs = some (xs, rest)) :
    (∃ w, Blank w ∧ cs = w ++ close :: rest ∧ xs = []) ∨
      ∃ w cs', Blank w ∧ cs = w ++ cs' ∧ items cs' = some (xs, rest) := by
  obtain ⟨w, hw, hcs⟩ := exists_blank cs
  unfold scanBracket at h
  split at h
  · cases h
  rename_i c rest' hskip
  rw [hskip] at hcs
  split at h
  · rename_i hc
    obtain ⟨rfl, rfl⟩ := Prod.mk.inj (Option.some.inj h)
    exact .inl ⟨w, hw, hc ▸ hcs, rfl⟩
  · exact .inr ⟨w, _, hw, hcs, h⟩

/-- What is read behind an item is there. -/
theorem scanRest_sound {x : α} {cs rest : List Char} {xs : List α}
    (h : scanRest close items x cs = some (xs, rest)) :
    (∃ w, Blank w ∧ cs = w ++ close :: rest ∧ xs = [x]) ∨
      ∃ w w' cs' xs', Blank w ∧ Blank w' ∧ cs = w ++ ',' :: (w' ++ cs') ∧
        items cs' = some (xs', rest) ∧ xs = x :: xs' := by
  obtain ⟨w, hw, hcs⟩ := exists_blank cs
  unfold scanRest at h
  split at h
  · cases h
  rename_i c rest' hskip
  rw [hskip] at hcs
  split at h
  · rename_i hc
    obtain ⟨⟨xs', rest''⟩, hitems, hpair⟩ := Option.map_eq_some_iff.mp h
    obtain ⟨rfl, rfl⟩ := Prod.mk.inj hpair
    obtain ⟨w', hw', hrest⟩ := exists_blank rest'
    refine .inr ⟨w, w', _, xs', hw, hw', ?_, hitems, rfl⟩
    rw [hcs, hc, ← hrest]
  split at h
  · rename_i hc
    obtain ⟨rfl, rfl⟩ := Prod.mk.inj (Option.some.inj h)
    exact .inl ⟨w, hw, hc ▸ hcs, rfl⟩
  · cases h

end Brackets

/-- A colon is read. -/
theorem scanColon_complete {w w' cs : List Char} (hw : Blank w) (hw' : Blank w') (hcs : Solid cs) :
    scanColon (w ++ ':' :: (w' ++ cs)) = some cs := by
  have hsolid : Solid (':' :: (w' ++ cs)) := fun c hc => by
    obtain rfl := Option.some.inj hc
    decide
  rw [scanColon, skipSpace_append hw hsolid]
  simp only [if_true, skipSpace_append hw' hcs]

/-- A colon that is read is there. -/
theorem scanColon_sound {cs cs' : List Char} (h : scanColon cs = some cs') :
    ∃ w w', Blank w ∧ Blank w' ∧ cs = w ++ ':' :: (w' ++ cs') := by
  obtain ⟨w, hw, hcs⟩ := exists_blank cs
  unfold scanColon at h
  split at h
  · cases h
  rename_i c rest hskip
  rw [hskip] at hcs
  split at h
  · rename_i hc
    obtain rfl := Option.some.inj h
    obtain ⟨w', hw', hrest⟩ := exists_blank rest
    refine ⟨w, w', hw, hw', ?_⟩
    rw [hcs, hc, ← hrest]
  · cases h

/-- A word is read exactly when it is there. -/
theorem scanWord_iff {word cs rest : List Char} {j j' : Json} :
    scanWord word j cs = some (j', rest) ↔ cs = word ++ rest ∧ j' = j := by
  rw [scanWord]
  constructor
  · intro h
    split at h
    · rename_i hprefix
      obtain ⟨rest', rfl⟩ := List.isPrefixOf_iff_prefix.mp hprefix
      obtain ⟨rfl, rfl⟩ := Prod.mk.inj (Option.some.inj h)
      rw [List.drop_left]
      exact ⟨rfl, rfl⟩
    · cases h
  · rintro ⟨rfl, rfl⟩
    rw [if_pos (List.isPrefixOf_iff_prefix.mpr (List.prefix_append word rest)), List.drop_left]

/-- **Every text of the grammar is read**, as what it denotes; induction on how it was put
together. -/
theorem Denotes.parses {d : ℕ} {cs : List Char} {p : Piece} (h : Denotes d cs p) :
    Parses d cs p := by
  induction h with
  | null | yes | no =>
      intro fuel rest hfuel _
      obtain ⟨fuel, rfl⟩ : ∃ k, fuel = k + 1 := ⟨fuel - 1, by simp at hfuel; omega⟩
      simp [scanValue, scanWord]
  | @num d cs n hn =>
      intro fuel rest hfuel hrest
      have hscan := scanNumber_complete hn hrest
      obtain ⟨c, cs', rfl, hc⟩ := hn.exists_cons
      obtain ⟨fuel, rfl⟩ : ∃ k, fuel = k + 1 := ⟨fuel - 1, by simp at hfuel; omega⟩
      have hother := (number_head hc).2
      simp only [List.mem_cons, List.not_mem_nil, or_false, not_or] at hother
      obtain ⟨hquote, harr, hobj, -, -, hn, ht, hf⟩ := hother
      rw [List.cons_append] at hscan ⊢
      rw [scanValue, if_neg hquote, if_neg harr, if_neg hobj, if_neg hn, if_neg ht, if_neg hf,
        hscan]
      rfl
  | @str d cs s hs =>
      intro fuel rest hfuel _
      obtain ⟨body, us, rfl, hbody, rfl⟩ := hs
      obtain ⟨fuel, rfl⟩ : ∃ k, fuel = k + 1 := ⟨fuel - 1, by simp at hfuel; omega⟩
      have hscan : scanString (body ++ '"' :: rest) = some (us, rest) :=
        scanString_iff.mpr ⟨body, rfl, hbody⟩
      rw [List.cons_append, List.append_assoc, List.singleton_append, scanValue, if_pos rfl, hscan]
      rfl
  | @emptyArr d w hw =>
      intro fuel rest hfuel _
      obtain ⟨fuel, rfl⟩ : ∃ k, fuel = k + 1 := ⟨fuel - 1, by simp at hfuel; omega⟩
      have hscan := @scanBracket_empty _ ']' (scanElems fuel d) (by decide) w hw rest
      rw [List.cons_append, List.append_assoc, List.singleton_append, scanValue, if_neg (by decide),
        if_pos rfl, pushParseState, Option.bind_some, hscan]
      rfl
  | @arr d w cs js hw h ih =>
      intro fuel rest hfuel _
      simp only [List.length_cons, List.length_append] at hfuel
      obtain ⟨fuel, rfl⟩ : ∃ k, fuel = k + 1 := ⟨fuel - 1, by omega⟩
      have hscan : scanBracket ']' (scanElems fuel d) (w ++ (cs ++ ']' :: rest)) =
          some (js, rest) := by
        have hitems := ih fuel rest (by omega)
        obtain ⟨c, cs', rfl, hc, hclose, -⟩ := h.exists_cons
        exact (scanBracket_items hw hc hclose).trans hitems
      rw [List.cons_append, List.append_assoc, List.append_assoc, List.singleton_append, scanValue,
        if_neg (by decide), if_pos rfl, pushParseState, Option.bind_some, hscan]
      rfl
  | @emptyObj d w hw =>
      intro fuel rest hfuel _
      obtain ⟨fuel, rfl⟩ : ∃ k, fuel = k + 1 := ⟨fuel - 1, by simp at hfuel; omega⟩
      have hscan := @scanBracket_empty _ '\x7d' (scanMembers fuel d) (by decide) w hw rest
      rw [List.cons_append, List.append_assoc, List.singleton_append, scanValue, if_neg (by decide),
        if_neg (by decide), if_pos rfl, pushParseState, Option.bind_some, hscan]
      rfl
  | @obj d w cs ms hw h ih =>
      intro fuel rest hfuel _
      simp only [List.length_cons, List.length_append] at hfuel
      obtain ⟨fuel, rfl⟩ : ∃ k, fuel = k + 1 := ⟨fuel - 1, by omega⟩
      have hscan : scanBracket '\x7d' (scanMembers fuel d) (w ++ (cs ++ '\x7d' :: rest)) =
          some (ms, rest) := by
        have hitems := ih fuel rest (by omega)
        obtain ⟨c, cs', rfl, hc, -, hclose⟩ := h.exists_cons
        exact (scanBracket_items hw hc hclose).trans hitems
      rw [List.cons_append, List.append_assoc, List.append_assoc, List.singleton_append, scanValue,
        if_neg (by decide), if_neg (by decide), if_pos rfl, pushParseState, Option.bind_some, hscan]
      rfl
  | @elem d cs w j h hw ih =>
      intro fuel rest hfuel
      simp only [List.length_append] at hfuel
      obtain ⟨fuel, rfl⟩ : ∃ k, fuel = k + 1 := ⟨fuel - 1, by omega⟩
      rw [List.append_assoc, scanElems,
        ih fuel _ (by omega) (noNumber_blank hw (.inr (.inl rfl)) rest), Option.bind_some]
      exact scanRest_last (by decide) (by decide) hw j rest
  | @elems d cs w w' cs' j js h hw hw' hrest ih ihrest =>
      intro fuel rest hfuel
      simp only [List.length_append, List.length_cons] at hfuel
      obtain ⟨fuel, rfl⟩ : ∃ k, fuel = k + 1 := ⟨fuel - 1, by omega⟩
      simp only [List.append_assoc, List.cons_append]
      rw [scanElems, ih fuel _ (by omega) (noNumber_blank hw (.inl rfl) _), Option.bind_some]
      exact scanRest_more hw hw' (hrest.solid _) (ihrest fuel rest (by omega)) j
  | @member d k w w' cs key j hkey hw hw' h ih =>
      intro fuel rest hfuel hends
      obtain ⟨body, us, rfl, hbody, rfl⟩ := hkey
      simp only [List.length_append, List.length_cons] at hfuel
      obtain ⟨fuel, rfl⟩ : ∃ k, fuel = k + 1 := ⟨fuel - 1, by omega⟩
      simp only [List.append_assoc, List.cons_append, List.nil_append]
      have hscan : scanString (body ++ '"' :: (w ++ ':' :: (w' ++ (cs ++ rest)))) =
          some (us, w ++ ':' :: (w' ++ (cs ++ rest))) := scanString_iff.mpr ⟨body, rfl, hbody⟩
      rw [scanMember, if_pos rfl, hscan, Option.bind_some,
        scanColon_complete hw hw' (h.solid rest), Option.bind_some, ih fuel rest (by omega) hends]
      rfl
  | @lastMember d cs w m h hw ih =>
      intro fuel rest hfuel
      simp only [List.length_append] at hfuel
      obtain ⟨fuel, rfl⟩ : ∃ k, fuel = k + 1 := ⟨fuel - 1, by omega⟩
      rw [List.append_assoc, scanMembers,
        ih fuel _ (by omega) (noNumber_blank hw (.inr (.inr rfl)) rest), Option.bind_some]
      exact scanRest_last (by decide) (by decide) hw m rest
  | @members d cs w w' cs' m ms h hw hw' hrest ih ihrest =>
      intro fuel rest hfuel
      simp only [List.length_append, List.length_cons] at hfuel
      obtain ⟨fuel, rfl⟩ : ∃ k, fuel = k + 1 := ⟨fuel - 1, by omega⟩
      simp only [List.append_assoc, List.cons_append]
      rw [scanMembers, ih fuel _ (by omega) (noNumber_blank hw (.inl rfl) _), Option.bind_some]
      exact scanRest_more hw hw' (hrest.solid _) (ihrest fuel rest (by omega)) m

/-! ### Only texts of the grammar are read -/

/-- What is read with so many steps is in the grammar. -/
structure SoundAt (fuel : ℕ) : Prop where
  value : ∀ {d cs j rest}, scanValue fuel d cs = some (j, rest) →
    ∃ lit, cs = lit ++ rest ∧ Denotes d lit (.value j)
  elems : ∀ {d cs js rest}, scanElems fuel d cs = some (js, rest) →
    ∃ lit, cs = lit ++ ']' :: rest ∧ Denotes d lit (.elems js)
  member : ∀ {d cs m rest}, scanMember fuel d cs = some (m, rest) →
    ∃ lit, cs = lit ++ rest ∧ Denotes d lit (.member m)
  members : ∀ {d cs ms rest}, scanMembers fuel d cs = some (ms, rest) →
    ∃ lit, cs = lit ++ '\x7d' :: rest ∧ Denotes d lit (.members ms)

/-- A document that is read. -/
theorem SoundAt.value_succ {fuel : ℕ} (ih : SoundAt fuel) {d : ℕ} {cs rest : List Char} {j : Json}
    (h : scanValue (fuel + 1) d cs = some (j, rest)) :
    ∃ lit, cs = lit ++ rest ∧ Denotes d lit (.value j) := by
  cases cs with
  | nil => simp [scanValue] at h
  | cons c cs =>
      rw [scanValue] at h
      split at h
      · rename_i hc
        subst hc
        obtain ⟨⟨us, rest'⟩, hscan, hpair⟩ := Option.map_eq_some_iff.mp h
        obtain ⟨rfl, rfl⟩ := Prod.mk.inj hpair
        obtain ⟨body, rfl, hbody⟩ := scanString_iff.mp hscan
        exact ⟨'"' :: (body ++ ['"']), by simp, .str ⟨body, us, rfl, hbody, rfl⟩⟩
      split at h
      · rename_i hc
        subst hc
        cases d with
        | zero => cases h
        | succ d =>
            rw [pushParseState, Option.bind_some] at h
            obtain ⟨⟨js, rest'⟩, hscan, hpair⟩ := Option.map_eq_some_iff.mp h
            obtain ⟨rfl, rfl⟩ := Prod.mk.inj hpair
            rcases scanBracket_sound hscan with ⟨w, hw, rfl, rfl⟩ | ⟨w, cs', hw, rfl, hitems⟩
            · exact ⟨_, by simp, .emptyArr hw⟩
            · obtain ⟨lit, rfl, hlit⟩ := ih.elems hitems
              exact ⟨_, by simp, .arr hw hlit⟩
      split at h
      · rename_i hc
        subst hc
        cases d with
        | zero => cases h
        | succ d =>
            rw [pushParseState, Option.bind_some] at h
            obtain ⟨⟨ms, rest'⟩, hscan, hpair⟩ := Option.map_eq_some_iff.mp h
            obtain ⟨rfl, rfl⟩ := Prod.mk.inj hpair
            rcases scanBracket_sound hscan with ⟨w, hw, rfl, rfl⟩ | ⟨w, cs', hw, rfl, hitems⟩
            · exact ⟨_, by simp, .emptyObj hw⟩
            · obtain ⟨lit, rfl, hlit⟩ := ih.members hitems
              exact ⟨_, by simp, .obj hw hlit⟩
      split at h
      · rename_i hc
        obtain ⟨rfl, rfl⟩ := scanWord_iff.mp h
        exact ⟨_, by rw [hc]; rfl, .null⟩
      split at h
      · rename_i hc
        obtain ⟨rfl, rfl⟩ := scanWord_iff.mp h
        exact ⟨_, by rw [hc]; rfl, .yes⟩
      split at h
      · rename_i hc
        obtain ⟨rfl, rfl⟩ := scanWord_iff.mp h
        exact ⟨_, by rw [hc]; rfl, .no⟩
      · obtain ⟨⟨n, rest'⟩, hscan, hpair⟩ := Option.map_eq_some_iff.mp h
        obtain ⟨rfl, rfl⟩ := Prod.mk.inj hpair
        obtain ⟨lit, hlit, hcs⟩ := scanNumber_sound hscan
        exact ⟨lit, hcs, .num hlit⟩

/-- **What is read is in the grammar**; induction on the steps. -/
theorem soundAt (fuel : ℕ) : SoundAt fuel := by
  induction fuel with
  | zero =>
      refine ⟨fun h => ?_, fun h => ?_, fun h => ?_, fun h => ?_⟩
      · simp [scanValue] at h
      · simp [scanElems] at h
      · simp [scanMember] at h
      · simp [scanMembers] at h
  | succ fuel ih =>
      refine ⟨ih.value_succ, fun {d cs js rest} h => ?_, fun {d cs m rest} h => ?_,
        fun {d cs ms rest} h => ?_⟩
      · rw [scanElems] at h
        obtain ⟨⟨j, cs'⟩, hvalue, hrest⟩ := Option.bind_eq_some_iff.mp h
        obtain ⟨lit, rfl, hlit⟩ := ih.value hvalue
        rcases scanRest_sound hrest with
          ⟨w, hw, hcs, rfl⟩ | ⟨w, w', cs', js', hw, hw', hcs, hitems, rfl⟩
        · simp only at hcs
          exact ⟨_, by rw [hcs, List.append_assoc], .elem hlit hw⟩
        · obtain ⟨lit', rfl, hlit'⟩ := ih.elems hitems
          simp only at hcs
          exact ⟨_, by rw [hcs]; simp, .elems hlit hw hw' hlit'⟩
      · cases cs with
        | nil => simp [scanMember] at h
        | cons c cs =>
            rw [scanMember] at h
            split at h
            · rename_i hc
              subst hc
              obtain ⟨⟨us, cs₁⟩, hscan, h⟩ := Option.bind_eq_some_iff.mp h
              obtain ⟨cs₂, hcolon, h⟩ := Option.bind_eq_some_iff.mp h
              obtain ⟨⟨j, rest'⟩, hvalue, hpair⟩ := Option.map_eq_some_iff.mp h
              obtain ⟨rfl, rfl⟩ := Prod.mk.inj hpair
              obtain ⟨body, rfl, hbody⟩ := scanString_iff.mp hscan
              obtain ⟨w, w', hw, hw', hcs⟩ := scanColon_sound hcolon
              obtain ⟨lit, rfl, hlit⟩ := ih.value hvalue
              simp only at hcs
              have hkey : IsString ('"' :: (body ++ ['"'])) (joinUnits us) :=
                ⟨body, us, rfl, hbody, rfl⟩
              exact ⟨_, by rw [hcs]; simp, .member hkey hw hw' hlit⟩
            · cases h
      · rw [scanMembers] at h
        obtain ⟨⟨m, cs'⟩, hmember, hrest⟩ := Option.bind_eq_some_iff.mp h
        obtain ⟨lit, rfl, hlit⟩ := ih.member hmember
        rcases scanRest_sound hrest with
          ⟨w, hw, hcs, rfl⟩ | ⟨w, w', cs', ms', hw, hw', hcs, hitems, rfl⟩
        · simp only at hcs
          exact ⟨_, by rw [hcs, List.append_assoc], .lastMember hlit hw⟩
        · obtain ⟨lit', rfl, hlit'⟩ := ih.members hitems
          simp only at hcs
          exact ⟨_, by rw [hcs]; simp, .members hlit hw hw' hlit'⟩

/-- **The scanner accepts exactly the grammar**: a byte string is the document `j` when its
characters are a text of `j` between blanks. -/
theorem parseJson_iff {b : List UInt8} {j : Json} :
    parseJson b = some j ↔ ∃ w cs w', runes b = w ++ (cs ++ w') ∧ Blank w ∧ Blank w' ∧
      Denotes maxNestingDepth cs (.value j) := by
  rw [parseJson]
  constructor
  · intro h
    obtain ⟨⟨j', rest⟩, hvalue, h⟩ := Option.bind_eq_some_iff.mp h
    obtain ⟨lit, hlit, hdenotes⟩ := (soundAt _).value hvalue
    obtain ⟨w, hw, hcs⟩ := exists_blank (runes b)
    obtain ⟨w', hw', hrest⟩ := exists_blank rest
    split at h
    · rename_i hnil
      obtain rfl := Option.some.inj h
      simp only at hnil
      rw [hnil, List.append_nil] at hrest
      exact ⟨w, lit, w', by rw [hcs, hlit, ← hrest], hw, hw', hdenotes⟩
    · cases h
  · rintro ⟨w, cs, w', hb, hw, hw', hdenotes⟩
    have hends : NoNumber w' := by
      have h := NoNumber.blank_append hw' (show NoNumber [] from fun c hc => by cases hc)
      rwa [List.append_nil] at h
    have hvalue := hdenotes.parses ((runes b).length + 1) w' (by rw [hb]; simp; omega) hends
    have hskip : skipSpace w' = [] := by
      have h := @skipSpace_append w' [] hw' (fun c hc => by cases hc)
      rwa [List.append_nil] at h
    rw [hb] at hvalue ⊢
    rw [skipSpace_append hw (hdenotes.solid w'), hvalue, Option.bind_some]
    exact if_pos hskip

end Golang
