import Mathlib.Data.List.Basic
import Mathlib.Data.Char

/-!
# SQLite URI File Names

A connection is opened by a name of the form `file:<text>`, which SQLite reads as a URI:

* the file name ends at the first `?` or `#`, and its `%HH` escapes are decoded (an
  escaped zero byte ends the name as well);
* the text between the `?` and the `#` is a list of `key=value` parameters, separated by
  `&`;
* the parameter `mode=ro` makes the connection read-only.

An escape is read as the character of that number. These rules know no authority part: a
text that begins with two slashes is read as a file name like any other.

## Main results

* `parseUri_plain`: a text without `?`, `#` and `%` denotes the file of that name.
* `parseUri_plain_ro`: it still does when `?mode=ro` is appended, and the connection is
  read-only.
* `parseUri_file_eq_iff`: **the texts that denote the file of that name** are those without
  `?`, `#` and escapes.
-/

namespace Sqlite

/-! ### Reading a URI -/

/-- The value of a hexadecimal digit. -/
def hexDigit (c : Char) : Option ℕ :=
  if '0' ≤ c ∧ c ≤ '9' then some (c.toNat - '0'.toNat)
  else if 'a' ≤ c ∧ c ≤ 'f' then some (c.toNat - 'a'.toNat + 10)
  else if 'A' ≤ c ∧ c ≤ 'F' then some (c.toNat - 'A'.toNat + 10)
  else none

/-- The file name: up to the first `?` or `#`, with escapes decoded. A `%` that is not
followed by two digits stands for itself. -/
def uriName : List Char → List Char
  | [] => []
  | [c] => if c = '?' ∨ c = '#' then [] else [c]
  | [c, a] => if c = '?' ∨ c = '#' then [] else c :: uriName [a]
  | c :: a :: b :: rest =>
      if c = '?' ∨ c = '#' then []
      else if c = '%' then
        match hexDigit a, hexDigit b with
        | some h, some l =>
            if 16 * h + l = 0 then [] else Char.ofNat (16 * h + l) :: uriName rest
        | _, _ => c :: uriName (a :: b :: rest)
      else c :: uriName (a :: b :: rest)

/-- The text of the parameters: between the first `?` and the `#`. -/
def uriQuery : List Char → List Char
  | [] => []
  | c :: rest =>
      if c = '#' then []
      else if c = '?' then rest.takeWhile (· ≠ '#')
      else uriQuery rest

/-- The parts of a text between separators. -/
def splitAt (sep : Char) : List Char → List (List Char)
  | [] => [[]]
  | c :: rest =>
      if c = sep then [] :: splitAt sep rest
      else
        match splitAt sep rest with
        | [] => [[c]]
        | part :: parts => (c :: part) :: parts

/-- One parameter: a key, and the value after its first `=`. -/
def uriParam (text : List Char) : List Char × List Char :=
  (text.takeWhile (· ≠ '='), (text.dropWhile (· ≠ '=')).drop 1)

/-- What the name of a connection says: the file, and whether the connection is
read-only. -/
structure Uri where
  file : String
  readOnly : Bool
  deriving DecidableEq, Repr

/-- The URI of the connection name `file:<text>`. -/
def parseUri (text : String) : Uri where
  file := String.ofList (uriName text.toList)
  readOnly :=
    (splitAt '&' (uriQuery text.toList)).any fun p =>
      uriParam p = ("mode".toList, "ro".toList)

/-! ### Plain texts -/

/-- The characters that mean something in a URI. -/
def Reserved (c : Char) : Prop := c = '?' ∨ c = '#' ∨ c = '%'

instance : DecidablePred Reserved :=
  fun c => inferInstanceAs (Decidable (c = '?' ∨ c = '#' ∨ c = '%'))

/-- A text without reserved characters. -/
def Plain (text : String) : Prop := ∀ c ∈ text.toList, ¬Reserved c

instance : DecidablePred Plain :=
  fun text => List.decidableBAll (¬Reserved ·) text.toList

/-- A character that is not reserved is part of the name. -/
theorem uriName_cons {c : Char} (hc : ¬Reserved c) (cs : List Char) :
    uriName (c :: cs) = c :: uriName cs := by
  simp only [Reserved, not_or] at hc
  obtain ⟨hq, hh, hp⟩ := hc
  have hend : ¬(c = '?' ∨ c = '#') := not_or.mpr ⟨hq, hh⟩
  match cs with
  | [] => exact if_neg hend
  | [a] => exact if_neg hend
  | a :: b :: rest => exact (if_neg hend).trans (if_neg hp)

/-- **A plain name is read as it is**, in front of any rest. -/
theorem uriName_plain {cs : List Char} (h : ∀ c ∈ cs, ¬Reserved c) (rest : List Char) :
    uriName (cs ++ rest) = cs ++ uriName rest := by
  induction cs with
  | nil => rfl
  | cons c cs ih =>
      rw [List.cons_append, uriName_cons (h c List.mem_cons_self),
        ih fun x hx => h x (List.mem_cons_of_mem c hx), List.cons_append]

/-- The parameters behind a plain name. -/
theorem uriQuery_plain {cs : List Char} (h : ∀ c ∈ cs, ¬Reserved c) (rest : List Char) :
    uriQuery (cs ++ rest) = uriQuery rest := by
  induction cs with
  | nil => rfl
  | cons c cs ih =>
      have hc : ¬Reserved c := h c List.mem_cons_self
      simp only [Reserved, not_or] at hc
      rw [List.cons_append, uriQuery, if_neg hc.2.1, if_neg hc.1]
      exact ih fun x hx => h x (List.mem_cons_of_mem c hx)

/-- **A plain text denotes the file of that name.** -/
theorem parseUri_plain {text : String} (h : Plain text) : parseUri text = ⟨text, false⟩ := by
  have hname : uriName text.toList = text.toList := by
    have happ := uriName_plain h []
    rwa [List.append_nil, uriName, List.append_nil] at happ
  have hquery : uriQuery text.toList = [] := by
    have happ := uriQuery_plain h []
    rwa [List.append_nil] at happ
  rw [parseUri, hname, hquery, String.ofList_toList]
  rfl

/-- A plain text with `?mode=ro` denotes the same file, read-only. -/
theorem parseUri_plain_ro {text : String} (h : Plain text) :
    parseUri (text ++ "?mode=ro") = ⟨text, true⟩ := by
  have hlist : (text ++ "?mode=ro").toList = text.toList ++ "?mode=ro".toList := by simp
  have hname : uriName (text ++ "?mode=ro").toList = text.toList := by
    rw [hlist, uriName_plain h]
    exact List.append_nil _
  have hquery : uriQuery (text ++ "?mode=ro").toList = "mode=ro".toList := by
    rw [hlist, uriQuery_plain h]
    rfl
  rw [parseUri, hname, hquery, String.ofList_toList]
  rfl

/-! ### Literal texts -/

/-- The text begins with an escape: a `%` and two hexadecimal digits. -/
def startsEscape : List Char → Bool
  | c :: a :: b :: _ => c = '%' && (hexDigit a).isSome && (hexDigit b).isSome
  | _ => false

/-- The text has an escape. -/
def hasEscape : List Char → Bool
  | [] => false
  | c :: rest => startsEscape (c :: rest) || hasEscape rest

/-- A **literal** text: nothing in it ends a file name, and there is no escape. -/
structure Literal (text : String) : Prop where
  ends : ∀ c ∈ text.toList, c ≠ '?' ∧ c ≠ '#'
  escapes : hasEscape text.toList = false

/-- Whether a text is literal can be computed. -/
theorem literal_iff {text : String} :
    ((text.toList.all fun c => c != '?' && c != '#') && !hasEscape text.toList) = true ↔
      Literal text := by
  simp only [Bool.and_eq_true, List.all_eq_true, bne_iff_ne, Bool.not_eq_true']
  exact ⟨fun h => ⟨h.1, h.2⟩, fun h => ⟨h.ends, h.escapes⟩⟩

instance : DecidablePred Literal := fun _ => decidable_of_iff _ literal_iff

/-- A character that ends no name and begins no escape is part of the name. -/
theorem uriName_cons_literal {c : Char} {cs : List Char} (hc : c ≠ '?' ∧ c ≠ '#')
    (hesc : startsEscape (c :: cs) = false) : uriName (c :: cs) = c :: uriName cs := by
  have hend : ¬(c = '?' ∨ c = '#') := not_or.mpr hc
  match cs with
  | [] => exact if_neg hend
  | [a] => exact if_neg hend
  | a :: b :: rest =>
      rw [uriName, if_neg hend]
      split
      · rename_i hp
        split
        · rename_i h l hh hl
          simp [startsEscape, hp, hh, hl] at hesc
        · rfl
      · rfl

/-- A name ends at a question mark or a hash sign. -/
theorem uriName_cons_end {c : Char} (hend : c = '?' ∨ c = '#') (cs : List Char) :
    uriName (c :: cs) = [] := by
  match cs with
  | [] => exact if_pos hend
  | [a] => exact if_pos hend
  | a :: b :: rest => exact if_pos hend

/-- An escape is shorter than what it was written with. -/
theorem length_uriName_of_escape {cs : List Char} (h : startsEscape cs = true)
    (hrest : ∀ rest : List Char, rest.length < cs.length → (uriName rest).length ≤ rest.length) :
    (uriName cs).length < cs.length := by
  match cs, h with
  | c :: a :: b :: rest, h =>
      simp only [startsEscape, Bool.and_eq_true, decide_eq_true_eq] at h
      obtain ⟨⟨rfl, ha⟩, hb⟩ := h
      obtain ⟨x, hx⟩ := Option.isSome_iff_exists.mp ha
      obtain ⟨y, hy⟩ := Option.isSome_iff_exists.mp hb
      have hlen := hrest rest (by simp only [List.length_cons]; omega)
      rw [uriName, if_neg (by decide), if_pos rfl]
      simp only [hx, hy]
      split
      · simp
      · simp only [List.length_cons]
        omega

/-- A name is not longer than its text. Induction on the length: an escape takes three
characters at once. -/
theorem length_uriName_le (n : ℕ) (cs : List Char) (hn : cs.length ≤ n) :
    (uriName cs).length ≤ cs.length := by
  induction n generalizing cs with
  | zero =>
      obtain rfl : cs = [] := List.length_eq_zero_iff.mp (Nat.le_zero.mp hn)
      simp [uriName]
  | succ n ih =>
      rcases cs with _ | ⟨c, cs⟩
      · simp [uriName]
      simp only [List.length_cons] at hn
      by_cases hend : c = '?' ∨ c = '#'
      · simp [uriName_cons_end hend]
      by_cases hesc : startsEscape (c :: cs) = true
      · refine Nat.le_of_lt (length_uriName_of_escape hesc fun rest hlt => ih rest ?_)
        simp only [List.length_cons] at hlt
        omega
      · rw [uriName_cons_literal (not_or.mp hend) ((Bool.not_eq_true _).mp hesc)]
        simp only [List.length_cons]
        exact Nat.succ_le_succ (ih cs (by omega))

/-- **A name that is its text is literal.** -/
theorem literal_of_uriName_eq {cs : List Char} (h : uriName cs = cs) :
    (∀ c ∈ cs, c ≠ '?' ∧ c ≠ '#') ∧ hasEscape cs = false := by
  induction cs with
  | nil => exact ⟨by simp, rfl⟩
  | cons c cs ih =>
      have hend : ¬(c = '?' ∨ c = '#') := by
        intro hend
        rw [uriName_cons_end hend] at h
        exact List.cons_ne_nil c cs h.symm
      have hesc : startsEscape (c :: cs) = false := by
        by_contra hesc
        have hlt := length_uriName_of_escape ((Bool.not_eq_false _).mp hesc)
          fun rest _ => length_uriName_le rest.length rest le_rfl
        rw [h] at hlt
        exact lt_irrefl _ hlt
      rw [uriName_cons_literal (not_or.mp hend) hesc] at h
      obtain ⟨hends, hescapes⟩ := ih (List.cons.inj h).2
      refine ⟨fun x hx => ?_, by rw [hasEscape, hesc, hescapes]; rfl⟩
      rcases List.mem_cons.mp hx with rfl | hx
      · exact not_or.mp hend
      · exact hends x hx

/-- A literal text does not begin an escape with what is appended to it, if that begins with a
question mark. -/
theorem startsEscape_append {c : Char} {cs rest : List Char}
    (h : startsEscape (c :: cs) = false) (hrest : rest = [] ∨ rest.head? = some '?') :
    startsEscape (c :: (cs ++ rest)) = false := by
  have hq : hexDigit '?' = none := by decide
  rcases hrest with rfl | hrest
  · rwa [List.append_nil]
  obtain ⟨rest', rfl⟩ : ∃ rest', rest = '?' :: rest' := by
    rcases rest with _ | ⟨x, rest'⟩
    · simp at hrest
    · exact ⟨rest', by rw [Option.some.inj hrest]⟩
  match cs with
  | [] => rcases rest' with _ | ⟨y, rest'⟩ <;> simp [startsEscape, hq]
  | [a] => simp [startsEscape, hq]
  | a :: b :: tail => exact h

/-- **A literal name is read as it is**, in front of parameters or nothing. -/
theorem uriName_literal {cs rest : List Char} (hends : ∀ c ∈ cs, c ≠ '?' ∧ c ≠ '#')
    (hescapes : hasEscape cs = false) (hrest : rest = [] ∨ rest.head? = some '?') :
    uriName (cs ++ rest) = cs ++ uriName rest := by
  induction cs with
  | nil => rfl
  | cons c cs ih =>
      simp only [hasEscape, Bool.or_eq_false_iff] at hescapes
      rw [List.cons_append, uriName_cons_literal (hends c List.mem_cons_self)
          (startsEscape_append hescapes.1 hrest),
        ih (fun x hx => hends x (List.mem_cons_of_mem c hx)) hescapes.2, List.cons_append]

/-- The parameters behind a literal name. -/
theorem uriQuery_literal {cs : List Char} (hends : ∀ c ∈ cs, c ≠ '?' ∧ c ≠ '#')
    (rest : List Char) : uriQuery (cs ++ rest) = uriQuery rest := by
  induction cs with
  | nil => rfl
  | cons c cs ih =>
      obtain ⟨hq, hh⟩ := hends c List.mem_cons_self
      rw [List.cons_append, uriQuery, if_neg hh, if_neg hq]
      exact ih fun x hx => hends x (List.mem_cons_of_mem c hx)

/-- **The texts that denote the file of that name** are the literal ones. -/
theorem parseUri_file_eq_iff (text : String) : (parseUri text).file = text ↔ Literal text := by
  constructor
  · intro h
    have hname : uriName text.toList = text.toList := by
      rw [← String.toList_ofList (l := uriName text.toList)]
      exact congrArg String.toList h
    exact ⟨(literal_of_uriName_eq hname).1, (literal_of_uriName_eq hname).2⟩
  · intro h
    have hname := uriName_literal h.ends h.escapes (.inl rfl)
    rw [List.append_nil, uriName, List.append_nil] at hname
    rw [parseUri, hname, String.ofList_toList]

/-- A literal text with `?mode=ro` denotes the file of that name, read-only. -/
theorem parseUri_literal_ro {text : String} (h : Literal text) :
    parseUri (text ++ "?mode=ro") = ⟨text, true⟩ := by
  have hlist : (text ++ "?mode=ro").toList = text.toList ++ "?mode=ro".toList := by simp
  have hname : uriName (text ++ "?mode=ro").toList = text.toList := by
    rw [hlist, uriName_literal h.ends h.escapes (.inr rfl)]
    exact List.append_nil _
  have hquery : uriQuery (text ++ "?mode=ro").toList = "mode=ro".toList := by
    rw [hlist, uriQuery_literal h.ends]
    rfl
  rw [parseUri, hname, hquery, String.ofList_toList]
  rfl

end Sqlite
