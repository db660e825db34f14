import Mathlib.Data.Int.Notation
import DistSql.Binary64

/-!
# Printing JSON

The encoding half of Go's `encoding/json`: how a document becomes a text. A text has no blank
between its tokens, a byte slice is written in base64, and a number in decimal, with an
exponent only if it is very large or very small. An `Encoder` may be told not to escape `<`,
`>` and `&`; `Marshal` always does, also in the text that a `MarshalJSON` method returned.

## Main results

* `Json.text_eq_null_iff`: **only `null` is written as `null`**.
* `trimNewlines_text`: an array or an object is written without a newline at its end.
-/

namespace Golang

/-! ### Base64 -/

/-- The digit of six bits. -/
def base64Digit (n : ℕ) : Char :=
  if n < 26 then Char.ofNat ('A'.toNat + n)
  else if n < 52 then Char.ofNat ('a'.toNat + (n - 26))
  else if n < 62 then Char.ofNat ('0'.toNat + (n - 52))
  else if n = 62 then '+'
  else '/'

/-- `base64.StdEncoding`: four digits for three bytes, with padding at the end. -/
def base64 : List UInt8 → List Char
  | [] => []
  | [a] => [base64Digit (a.toNat / 4), base64Digit (a.toNat % 4 * 16), '=', '=']
  | [a, b] =>
      [base64Digit (a.toNat / 4), base64Digit (a.toNat % 4 * 16 + b.toNat / 16),
        base64Digit (b.toNat % 16 * 4), '=']
  | a :: b :: c :: rest =>
      base64Digit (a.toNat / 4) :: base64Digit (a.toNat % 4 * 16 + b.toNat / 16) ::
        base64Digit (b.toNat % 16 * 4 + c.toNat / 64) :: base64Digit (c.toNat % 64) :: base64 rest

/-! ### Numbers -/

/-- A whole number as a literal. -/
def Number.ofInt (i : ℤ) : Number := ⟨i < 0, i.natAbs, 0⟩

/-- A number with its decimal point behind this many of its digits. -/
def fixedText (digits : List Char) (point : ℤ) : List Char :=
  if point ≤ 0 then '0' :: '.' :: List.replicate (-point).toNat '0' ++ digits
  else if point.toNat < digits.length then
    digits.take point.toNat ++ '.' :: digits.drop point.toNat
  else digits ++ List.replicate (point.toNat - digits.length) '0'

/-- A number with an exponent: one digit in front of the point. -/
def exponentText (digits : List Char) (point : ℤ) : List Char :=
  digits.take 1 ++ (if 1 < digits.length then '.' :: digits.drop 1 else []) ++
    'e' :: (if point - 1 < 0 then '-' else '+') :: Nat.toDigits 10 (point - 1).natAbs

/-- The text of a number: an exponent is used below `10⁻⁶` and from `10²¹` on. -/
def Number.text (n : Number) : List Char :=
  let digits := Nat.toDigits 10 n.mantissa
  let point : ℤ := digits.length + n.exponent
  (if n.negative then ['-'] else []) ++
    if n.mantissa ≠ 0 ∧ (point < -5 ∨ 21 < point) then exponentText digits point
    else fixedText digits point

/-- How a `float64` that is no finite number is named. -/
def unsupportedValue (d : UInt64) : String :=
  "json: unsupported value: " ++
    if d.toNat % 2 ^ 63 ≠ Binary64.infinity then "NaN"
    else if d.toNat < 2 ^ 63 then "+Inf" else "-Inf"

/-- A `float64` as a document, given the literal of each that is finite. -/
def encodeFloat (float : UInt64 → Number) (d : UInt64) : Except String Json :=
  if Binary64.Finite d then .ok (.num (float d)) else .error (unsupportedValue d)

/-! ### Texts -/

/-- An escape with the number of a character, in four digits. -/
def unicodeEscape (c : Char) : List Char :=
  ['\\', 'u', Nat.digitChar (c.toNat / 4096 % 16), Nat.digitChar (c.toNat / 256 % 16),
    Nat.digitChar (c.toNat / 16 % 16), Nat.digitChar (c.toNat % 16)]

/-- The two line separators that are always escaped. -/
def isSeparator (c : Char) : Bool := c.toNat = 0x2028 || c.toNat = 0x2029

/-- The characters that are escaped for HTML. -/
def isHTML (c : Char) : Bool := c = '<' || c = '>' || c = '&'

/-- One character of a text. -/
def quoteChar (html : Bool) (c : Char) : List Char :=
  if c = '"' ∨ c = '\\' then ['\\', c]
  else if c = '\n' then ['\\', 'n']
  else if c = '\r' then ['\\', 'r']
  else if c = '\t' then ['\\', 't']
  else if c.toNat < 0x20 ∨ isSeparator c ∨ html ∧ isHTML c then unicodeEscape c
  else [c]

/-- A text in quotes. -/
def quote (html : Bool) (s : String) : List Char :=
  '"' :: s.toList.flatMap (quoteChar html) ++ ['"']

/-- `compact`, on the text that a `MarshalJSON` method returned: what an `Encoder` without
HTML escapes has left is escaped now. -/
def compactHTML (text : List Char) : List Char :=
  text.flatMap fun c => if isSeparator c || isHTML c then unicodeEscape c else [c]

/-! ### Documents -/

mutual

/-- The text of a document. -/
def Json.text (html : Bool) : Json → List Char
  | .null => ['n', 'u', 'l', 'l']
  | .bool true => ['t', 'r', 'u', 'e']
  | .bool false => ['f', 'a', 'l', 's', 'e']
  | .num n => n.text
  | .str s => quote html s
  | .arr elems => '[' :: Json.texts html elems ++ [']']
  | .obj members => '\x7b' :: Json.memberTexts html members ++ ['\x7d']

/-- The texts of the elements of an array. -/
def Json.texts (html : Bool) : List Json → List Char
  | [] => []
  | [j] => Json.text html j
  | j :: k :: rest => Json.text html j ++ ',' :: Json.texts html (k :: rest)

/-- The texts of the members of an object. -/
def Json.memberTexts (html : Bool) : List (String × Json) → List Char
  | [] => []
  | [(key, j)] => quote html key ++ ':' :: Json.text html j
  | (key, j) :: m :: rest =>
      quote html key ++ ':' :: Json.text html j ++ ',' :: Json.memberTexts html (m :: rest)

end

/-- `bytes.TrimRight` of newlines. -/
def trimNewlines (text : List Char) : List Char := (text.reverse.dropWhile (· = '\n')).reverse

/-- The newline that an `Encoder` writes behind a document is trimmed off again. -/
theorem trimNewlines_concat {text : List Char} {c : Char} (hc : c ≠ '\n') :
    trimNewlines (text ++ [c] ++ ['\n']) = text ++ [c] := by
  rw [trimNewlines, List.reverse_append, List.reverse_append]
  simp [hc]

/-- What is written behind an array or an object is trimmed off again. -/
theorem trimNewlines_text (html : Bool) {j : Json}
    (hj : (∃ elems, j = .arr elems) ∨ ∃ members, j = .obj members) :
    trimNewlines (j.text html ++ ['\n']) = j.text html := by
  rcases hj with ⟨elems, rfl⟩ | ⟨members, rfl⟩
  · simp only [Json.text]
    exact trimNewlines_concat (by decide)
  · simp only [Json.text]
    exact trimNewlines_concat (by decide)

/-! ### What is written as `null` -/

/-- Only digits, a sign, a point and an exponent are written for a number. -/
theorem not_mem_numberText {c : Char} (hdigit : c.isDigit = false)
    (hother : c ∉ ['-', '+', '.', 'e']) (n : Number) : c ∉ n.text := by
  have hdigits : ∀ m, c ∉ Nat.toDigits 10 m := by
    intro m hmem
    rw [Nat.isDigit_of_mem_toDigits (by decide) (Nat.le_refl 10) hmem] at hdigit
    cases hdigit
  have hzero : c ≠ '0' := by
    rintro rfl
    exact absurd hdigit (by decide)
  simp only [List.mem_cons, List.not_mem_nil, or_false, not_or] at hother
  obtain ⟨hminus, hplus, hpoint, hexp⟩ := hother
  have hfixed : ∀ m point, c ∉ fixedText (Nat.toDigits 10 m) point := by
    intro m point hmem
    rw [fixedText] at hmem
    split at hmem
    · simp [hzero, hpoint, hdigits] at hmem
    split at hmem
    · simp only [List.mem_append, List.mem_cons] at hmem
      rcases hmem with h | h | h
      · exact hdigits m (List.mem_of_mem_take h)
      · exact hpoint h
      · exact hdigits m (List.mem_of_mem_drop h)
    · simp [hzero, hdigits] at hmem
  have hexponent : ∀ m point, c ∉ exponentText (Nat.toDigits 10 m) point := by
    intro m point hmem
    simp only [exponentText, List.mem_append, List.mem_cons] at hmem
    rcases hmem with (h | h) | h | h | h
    · exact hdigits m (List.mem_of_mem_take h)
    · split at h
      · rcases List.mem_cons.mp h with h | h
        · exact hpoint h
        · exact hdigits m (List.mem_of_mem_drop h)
      · simp at h
    · exact hexp h
    · split at h
      · exact hminus h
      · exact hplus h
    · exact hdigits _ h
  intro hmem
  simp only [Number.text, List.mem_append] at hmem
  rcases hmem with h | h
  · split at h
    · exact hminus (List.mem_singleton.mp h)
    · simp at h
  · split at h
    · exact hexponent _ _ h
    · exact hfixed _ _ h

/-- **Only `null` is written as `null`.** -/
theorem Json.text_eq_null_iff (html : Bool) (j : Json) :
    j.text html = ['n', 'u', 'l', 'l'] ↔ j = .null := by
  cases j with
  | null => simp [Json.text]
  | bool b => cases b <;> simp [Json.text]
  | num n =>
      refine ⟨fun h => ?_, fun h => (nomatch h)⟩
      have hn : 'n' ∉ n.text := not_mem_numberText (by decide) (by decide) n
      rw [Json.text] at h
      rw [h] at hn
      exact absurd List.mem_cons_self hn
  | str s => simp [Json.text, quote]
  | arr elems => simp [Json.text]
  | obj members => simp [Json.text]

end Golang
