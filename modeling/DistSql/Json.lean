import DistSql.Loop

/-!
# JSON Documents and Go Values

The part of Go's `encoding/json` that decides what a document becomes in a Go variable. The
syntax of JSON belongs to the library's scanner; what is here starts from the document that
it accepts and follows the rules of `Unmarshal` for the types that the program uses.

* A `null` leaves a variable at its zero value, or at the value that it has.
* A value of another type is an error.
* A number becomes a `float64`, or an error when it is out of range.
* Of two members of an object with one key, the later one counts.
* A slice is decoded into the array behind it, so what the array held before shows through
  where an element is `null`.

## Main results

* `Json.isSome_toAny`: **a document becomes a value exactly when its numbers are in range**.
* `Json.toMembers_nil`: **an object becomes the map of the members that count**.
* `Json.nodup_toMembers`: the keys of a map are distinct.
-/

namespace Golang

/-- A number literal: sign, digits as a whole number, and decimal exponent. -/
structure Number where
  negative : Bool
  mantissa : ℕ
  exponent : Int
  deriving DecidableEq, Repr

/-- A JSON document. -/
inductive Json
  | null
  | bool (b : Bool)
  | num (n : Number)
  | str (s : String)
  | arr (elems : List Json)
  | obj (members : List (String × Json))
  deriving Repr

/-- A value of type `any`, with the types that the program asks for. A `float64` is given by
its bits. -/
inductive Any
  | nil
  | bool (b : Bool)
  | int (i : Int64)
  | int64 (i : Int64)
  | float64 (bits : UInt64)
  | bytes (b : List UInt8)
  | string (s : String)
  | slice (elems : List Any)
  | map (members : List (String × Any))
  deriving Repr

/-- A member is set in a map. -/
def setMember (m : List (String × Any)) (key : String) (v : Any) : List (String × Any) :=
  m.filter (·.1 ≠ key) ++ [(key, v)]

mutual

/-- `Unmarshal` of a document into a variable of type `any`. -/
def Json.toAny (float : Number → Option UInt64) : Json → Option Any
  | .null => some .nil
  | .bool b => some (.bool b)
  | .num n => (float n).map .float64
  | .str s => some (.string s)
  | .arr elems => (toAnys float elems).map .slice
  | .obj members => (toMembers float [] members).map .map

/-- The elements of an array, each into a variable of type `any`. -/
def Json.toAnys (float : Number → Option UInt64) : List Json → Option (List Any)
  | [] => some []
  | j :: rest => (toAny float j).bind fun v => (toAnys float rest).map (v :: ·)

/-- The members of an object, set one after the other. -/
def Json.toMembers (float : Number → Option UInt64) (m : List (String × Any)) :
    List (String × Json) → Option (List (String × Any))
  | [] => some m
  | (key, j) :: rest => (toAny float j).bind fun v => toMembers float (setMember m key v) rest

end

/-- `Unmarshal` into a variable of type `string`. -/
def Json.toText : Json → Option String
  | .null => some ""
  | .str s => some s
  | _ => none

/-- `Unmarshal` into a variable of type `[]string`. -/
def Json.toTexts : Json → Option (List String)
  | .null => some []
  | .arr elems => elems.mapM Json.toText
  | _ => none

/-- `Unmarshal` into a variable of type `[]any`. -/
def Json.toSlice (float : Number → Option UInt64) : Json → Option (List Any)
  | .null => some []
  | .arr elems => toAnys float elems
  | _ => none

/-- `Unmarshal` into a variable of type `[][]any`. -/
def Json.toSlices (float : Number → Option UInt64) : Json → Option (List (List Any))
  | .null => some []
  | .arr elems => elems.mapM (toSlice float)
  | _ => none

/-- `Unmarshal` into a variable of type `map[string]any`. -/
def Json.toMap (float : Number → Option UInt64) : Json → Option (List (String × Any))
  | .null => some []
  | .obj members => toMembers float [] members
  | _ => none

/-! ### Decoding into a variable that has a value -/

/-- `Unmarshal` into a variable of type `string` that has a value. -/
def Json.intoText (old : String) : Json → Option String
  | .null => some old
  | .str s => some s
  | _ => none

/-- A variable of type `[]string`: the elements of the slice, and what the array behind it
holds after them, left from earlier values. -/
structure Texts where
  values : List String := []
  rest : List String := []
  deriving DecidableEq, Repr

/-- The elements of an array, each into its place in the array behind a slice; new places are
empty. -/
def Json.intoArray : List String → List Json → Option (List String)
  | old, [] => some old
  | old, j :: js =>
      (intoText (old.headD "") j).bind fun s => (intoArray old.tail js).map (s :: ·)

/-- `Unmarshal` into a variable of type `[]string` that has a value. A `null` and an empty
array make a new slice. -/
def Texts.decode (ts : Texts) : Json → Option Texts
  | .null => some {}
  | .arr [] => some {}
  | .arr elems =>
      (Json.intoArray (ts.values ++ ts.rest) elems).map fun a =>
        ⟨a.take elems.length, a.drop elems.length⟩
  | _ => none

/-- How a stream goes on after the last document that can be read: `More` finds another one
that is malformed, or it finds none and the next `Token` has this error. -/
inductive Stop
  | malformed (msg : String)
  | ends (err : Option String)
  deriving DecidableEq, Repr

/-- What a `json.Decoder` meets in a stream: the error of the first `Token`, the documents
that `Decode` reads while there are `More`, and how they stop. -/
structure Feed where
  first : Option String := none
  docs : List Json
  stop : Stop := .ends none

/-! ### What a decode depends on -/

/-- The members of a document that is an object. -/
def Json.members : Json → List (String × Json)
  | .obj ms => ms
  | _ => []

/-- The document `null`. -/
def Json.isNull : Json → Bool
  | .null => true
  | _ => false

/-- A text variable keeps its value, unless it is given a text. -/
theorem Json.intoText_cases {old s : String} {v : Json} (h : v.intoText old = some s) :
    (v = .null ∧ s = old) ∨ v = .str s := by
  cases v <;> simp_all [Json.intoText]

/-- Whether a text can be decoded does not depend on what was there. -/
theorem Json.isSome_intoText (old old' : String) (v : Json) :
    (v.intoText old).isSome = (v.intoText old').isSome := by
  cases v <;> rfl

/-- Whether the elements of an array can be decoded does not depend on what was there. -/
theorem Json.isSome_intoArray (old old' : List String) (js : List Json) :
    (intoArray old js).isSome = (intoArray old' js).isSome := by
  induction js generalizing old old' with
  | nil => rfl
  | cons j js ih =>
      have hrest := ih old.tail old'.tail
      cases j <;> simp [intoArray, intoText, hrest]

/-- Where no element is `null`, neither do the elements. -/
theorem Json.intoArray_congr {old old' a a' : List String} {js : List Json}
    (h : intoArray old js = some a) (h' : intoArray old' js = some a')
    (hnull : ∀ j ∈ js, j.isNull = false) : a.take js.length = a'.take js.length := by
  induction js generalizing old old' a a' with
  | nil => rfl
  | cons j js ih =>
      have hrest : ∀ j' ∈ js, j'.isNull = false := fun j' hmem =>
        hnull j' (List.mem_cons_of_mem j hmem)
      cases j with
      | str s =>
          simp only [intoArray, intoText, Option.bind_some, Option.map_eq_some_iff] at h h'
          obtain ⟨b, hb, rfl⟩ := h
          obtain ⟨b', hb', rfl⟩ := h'
          rw [List.length_cons, List.take_succ_cons, List.take_succ_cons, ih hb hb' hrest]
      | null => exact absurd (hnull .null List.mem_cons_self) (by simp [isNull])
      | bool | num | arr | obj => simp [intoArray, intoText] at h

/-! ### What a document becomes -/

/-- The members that count: of several with one key, the last. -/
def lastMembers {β : Type} : List (String × β) → List (String × β)
  | [] => []
  | m :: rest => if m.1 ∈ rest.map Prod.fst then lastMembers rest else m :: lastMembers rest

/-- A member that counts is a member. -/
theorem mem_of_mem_lastMembers {β : Type} {ms : List (String × β)} {m : String × β}
    (h : m ∈ lastMembers ms) : m ∈ ms := by
  induction ms with
  | nil => exact h
  | cons m' rest ih =>
      rw [lastMembers] at h
      split at h
      · exact List.mem_cons_of_mem m' (ih h)
      · rcases List.mem_cons.mp h with rfl | h
        · exact List.mem_cons_self
        · exact List.mem_cons_of_mem m' (ih h)

/-- **Of the members that count, only one has a key.** -/
theorem eq_of_mem_lastMembers {β : Type} {ms : List (String × β)} {m m' : String × β}
    (h : m ∈ lastMembers ms) (h' : m' ∈ lastMembers ms) (hkey : m.1 = m'.1) : m = m' := by
  induction ms with
  | nil => cases h
  | cons a rest ih =>
      rw [lastMembers] at h h'
      split at h
      · rename_i hlater
        rw [if_pos hlater] at h'
        exact ih h h'
      rename_i hlast
      rw [if_neg hlast] at h'
      have hother : ∀ c ∈ lastMembers rest, c.1 ≠ a.1 := fun c hc hca =>
        hlast (hca ▸ List.mem_map_of_mem (mem_of_mem_lastMembers hc))
      rcases List.mem_cons.mp h with hm | hm <;> rcases List.mem_cons.mp h' with hm' | hm'
      · rw [hm, hm']
      · exact absurd (hkey ▸ congrArg Prod.fst hm) (hother m' hm')
      · exact absurd (hkey ▸ congrArg Prod.fst hm') (hother m hm)
      · exact ih hm hm'

mutual

/-- Every number of a document is in range. -/
def Json.inRange (float : Number → Option UInt64) : Json → Bool
  | .num n => (float n).isSome
  | .arr elems => allInRange float elems
  | .obj members => membersInRange float members
  | .null | .bool _ | .str _ => true

/-- Every number of the elements of an array is in range. -/
def Json.allInRange (float : Number → Option UInt64) : List Json → Bool
  | [] => true
  | j :: rest => inRange float j && allInRange float rest

/-- Every number of the members of an object is in range. -/
def Json.membersInRange (float : Number → Option UInt64) : List (String × Json) → Bool
  | [] => true
  | (_, j) :: rest => inRange float j && membersInRange float rest

end

section ToAny

variable {float : Number → Option UInt64}

/-- The elements of an array are decoded in a loop. -/
theorem Json.toAnys_eq_mapM (js : List Json) : toAnys float js = js.mapM (toAny float) := by
  induction js with
  | nil => rfl
  | cons j rest ih =>
      rw [toAnys, List.mapM_cons, ih]
      rcases toAny float j with _ | v
      · rfl
      · rcases rest.mapM (toAny float) with _ | vs <;> rfl

mutual

/-- **A document becomes a value exactly when its numbers are in range.** -/
theorem Json.isSome_toAny : ∀ j : Json, (toAny float j).isSome = inRange float j
  | .null | .bool _ | .str _ => rfl
  | .num n => by simp [toAny, inRange]
  | .arr elems => by simp [toAny, inRange, isSome_toAnys elems]
  | .obj members => by simp [toAny, inRange, isSome_toMembers members]

/-- The same of the elements of an array. -/
theorem Json.isSome_toAnys : ∀ js : List Json, (toAnys float js).isSome = allInRange float js
  | [] => rfl
  | j :: rest => by
      rw [toAnys, allInRange, ← isSome_toAny j, ← isSome_toAnys rest]
      rcases toAny float j with _ | v <;> simp

/-- The same of the members of an object, whatever was set before. -/
theorem Json.isSome_toMembers : ∀ (ms : List (String × Json)) {m : List (String × Any)},
    (toMembers float m ms).isSome = membersInRange float ms
  | [], _ => rfl
  | (key, j) :: rest, m => by
      rw [toMembers, membersInRange, ← isSome_toAny j]
      rcases toAny float j with _ | v
      · simp
      · simp [isSome_toMembers rest]

end

/-- A member of a map comes from a member of the object. -/
def Json.Becomes (float : Number → Option UInt64) (a : String × Json) (b : String × Any) : Prop :=
  b.1 = a.1 ∧ a.2.toAny float = some b.2

/-- What a map has after further members were set: of the old ones those with another key, and
of the new ones those that count. -/
theorem Json.toMembers_eq {ms : List (String × Json)} {m m' : List (String × Any)}
    (h : toMembers float m ms = some m') :
    ∃ new, m' = m.filter (fun a => a.1 ∉ ms.map Prod.fst) ++ new ∧
      List.Forall₂ (Becomes float) (lastMembers ms) new := by
  induction ms generalizing m with
  | nil =>
      obtain rfl := Option.some.inj h
      exact ⟨[], by simp, .nil⟩
  | cons a rest ih =>
      obtain ⟨v, hv, hrest⟩ := Option.bind_eq_some_iff.mp h
      obtain ⟨new, rfl, hnew⟩ := ih hrest
      have hfilter : (m.filter (·.1 ≠ a.1)).filter (fun b => b.1 ∉ rest.map Prod.fst) =
          m.filter fun b => b.1 ∉ (a :: rest).map Prod.fst := by
        rw [List.filter_filter]
        congr 1
        funext b
        simp only [List.map_cons, List.mem_cons, not_or, Bool.decide_and, Bool.and_comm]
      rw [setMember, List.filter_append, hfilter, lastMembers]
      -- a later member of the same key drops this one
      by_cases hkey : a.1 ∈ rest.map Prod.fst
      · rw [if_pos hkey]
        exact ⟨new, by simp [hkey], hnew⟩
      · rw [if_neg hkey]
        exact ⟨(a.1, v) :: new, by simp [hkey], .cons ⟨rfl, hv⟩ hnew⟩

/-- **An object becomes the map of the members that count.** -/
theorem Json.toMembers_nil {ms : List (String × Json)} {m : List (String × Any)}
    (h : toMembers float [] ms = some m) : List.Forall₂ (Becomes float) (lastMembers ms) m := by
  obtain ⟨new, rfl, hnew⟩ := toMembers_eq h
  exact hnew

/-- **The keys of a map are distinct.** -/
theorem Json.nodup_toMembers {ms : List (String × Json)} {m m' : List (String × Any)}
    (h : toMembers float m ms = some m') (hm : (m.map Prod.fst).Nodup) :
    (m'.map Prod.fst).Nodup := by
  induction ms generalizing m with
  | nil =>
      obtain rfl := Option.some.inj h
      exact hm
  | cons a rest ih =>
      obtain ⟨v, -, hrest⟩ := Option.bind_eq_some_iff.mp h
      refine ih hrest ?_
      rw [setMember, List.map_append, List.nodup_append]
      refine ⟨hm.sublist (List.filter_sublist.map Prod.fst), by simp, ?_⟩
      intro x hx y hy
      obtain ⟨b, hb, rfl⟩ := List.mem_map.mp hx
      obtain rfl := List.mem_singleton.mp hy
      simpa using (List.mem_filter.mp hb).2

end ToAny

end Golang
