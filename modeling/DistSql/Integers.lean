import DistSql.Binary64
import DistSql.Convert
import DistSql.Grammar

/-!
# Integers as Parameters

The way of an integer from the body of a request to the driver: a number literal, a `float64` in
a variable of type `any`, the `oneof` of a parameter, a bound argument. An integer of 64 bits
fits at both ends, but not into a `float64`.

The results assume of the library only that it reads a number as a nearest `float64`, which
`Binary64.parseFloat` does.

## Main results

* `item_given`: a literal gives a parameter that stores its `float64`.
* `convertParamsToSQL_ok`: the parameters of a request are all bound.
* `integers_exact_iff`: **an integer is bound exactly** when it has at most 53 significant bits.
-/

open Golang Url Sqlite

namespace DistSql

/-- The library reads a number as a nearest `float64`. -/
def ReadsNearest (lib : Library) : Prop :=
  ∀ n d, lib.float n = some d → Binary64.Nearest n.value d

/-- The literal of an integer: its digits, with or without a sign. -/
def IsLiteral (z : ℤ) (n : Number) : Prop :=
  n.exponent = 0 ∧ z = if n.negative then -(n.mantissa : ℤ) else n.mantissa

/-- The value of the literal of an integer. -/
theorem IsLiteral.value_eq {z : ℤ} {n : Number} (h : IsLiteral z n) : n.value = z := by
  obtain ⟨hexp, rfl⟩ := h
  rw [Number.value, hexp]
  cases n.negative <;> simp

/-- A number is **given** as a parameter: by itself, or as a member that counts. -/
inductive Given (n : Number) : Json → String → Prop
  | positional : Given n (.num n) ""
  | named {ms : List (String × Json)} {key : String} (h : (key, .num n) ∈ lastMembers ms) :
      Given n (.obj ms) key

/-- The number that a parameter stores. -/
def storedNumber : ParamValue → Option ℚ
  | .i i => some i.toInt
  | .d d => if Binary64.Finite d then some (Binary64.value d) else none
  | .b _ | .y _ | .s _ => none

/-- The number that an argument binds. -/
def boundNumber : Value → Option ℚ
  | .int i => some i.toInt
  | .double d => if Binary64.Finite d then some (Binary64.value d) else none
  | .bool _ | .bytes _ | .text _ => none

/-- An integer is carried **exactly**: it is stored and bound. -/
def Exact (z : ℤ) (p : Parameter) (arg : NamedArg) : Prop :=
  p.value.bind storedNumber = some (z : ℚ) ∧ boundNumber arg.value = some (z : ℚ)

/-- What item `j` of a statement became under a name: a parameter of the statement, among those
of the item, and the argument at its place. -/
def Became (float : Number → Option UInt64) (items : List Json) (st : Statement) (j : ℕ)
    (name : String) (p : Parameter) (arg : NamedArg) : Prop :=
  ∃ (pss : List (List Parameter)) (ps : List Parameter) (args : List NamedArg) (k : ℕ),
    List.Forall₂ (Item float lastMembers) items pss ∧ st.params = pss.flatten ∧
    pss[j]? = some ps ∧ p ∈ ps ∧ p.name = name ∧
    convertParamsToSQL st.params = .ok args ∧ st.params[k]? = some p ∧ args[k]? = some arg

section Items

variable {float : Number → Option UInt64}

/-- The value of a number is its `float64`. -/
theorem Scalar.of_num {n : Number} {v : ParamValue} (h : Scalar float (.num n) v) :
    ∃ d, float n = some d ∧ v = .d d := by
  cases h with
  | num hd => exact ⟨_, hd, rfl⟩

/-- **A literal gives a parameter that stores its `float64`**, and its item no other of the
name. -/
theorem item_given {item : Json} {ps : List Parameter} (hitem : Item float lastMembers item ps)
    {n : Number} {name : String} (hgiven : Given n item name) :
    ∃ d, float n = some d ∧ ⟨some (.d d), name⟩ ∈ ps ∧
      ∀ p ∈ ps, p.name = name → p = ⟨some (.d d), name⟩ := by
  cases hgiven with
  | positional =>
      cases hitem with
      | scalar hscalar =>
          obtain ⟨d, hd, rfl⟩ := hscalar.of_num
          exact ⟨d, hd, List.mem_singleton.mpr rfl, fun p hp _ => List.mem_singleton.mp hp⟩
  | @named ms _ hmem =>
      cases hitem with
      | scalar hscalar => cases hscalar
      | object _ hqs hperm =>
          obtain ⟨q, hq, v, hscalar, rfl⟩ := exists_of_forall₂_left hqs hmem
          obtain ⟨d, hd, rfl⟩ := hscalar.of_num
          refine ⟨d, hd, hperm.mem_iff.mpr hq, fun p hp hname => ?_⟩
          -- another parameter of the name comes from a member of the key
          obtain ⟨m, hm, v', hscalar', rfl⟩ := exists_of_forall₂_right hqs (hperm.mem_iff.mp hp)
          obtain rfl := eq_of_mem_lastMembers hm hmem hname
          obtain ⟨d', hd', rfl⟩ := hscalar'.of_num
          rw [Option.some.inj (hd'.symm.trans hd)]

/-- Every parameter of an item has a value. -/
theorem Item.value_ne_none {counts : List (String × Json) → List (String × Json)} {item : Json}
    {ps : List Parameter} (hitem : Item float counts item ps) {p : Parameter} (hp : p ∈ ps) :
    ∃ v, p.value = some v := by
  cases hitem with
  | scalar h =>
      rw [List.mem_singleton.mp hp]
      exact ⟨_, rfl⟩
  | object _ hqs hperm =>
      obtain ⟨m, -, v, -, rfl⟩ := exists_of_forall₂_right hqs (hperm.mem_iff.mp hp)
      exact ⟨v, rfl⟩

/-- **The parameters of a request are all bound.** -/
theorem convertParamsToSQL_ok {counts : List (String × Json) → List (String × Json)}
    {items : List Json} {pss : List (List Parameter)}
    (h : List.Forall₂ (Item float counts) items pss) :
    ∃ args, convertParamsToSQL pss.flatten = .ok args := by
  refine exists_mapM_ok fun p hp => ?_
  obtain ⟨ps, hps, hp⟩ := List.mem_flatten.mp hp
  obtain ⟨item, -, hitem⟩ := exists_of_forall₂_right h hps
  obtain ⟨v, hv⟩ := hitem.value_ne_none hp
  cases v <;> exact ⟨_, by rw [convertParam, hv]⟩

end Items

/-- **An integer is bound exactly when it has at most 53 significant bits.** It is stored as a
`float64` and bound as one in any case. -/
theorem integers_exact_iff {lib : Library} (hlib : ReadsNearest lib) {b : Bytes}
    {elems : List Json} (hdoc : lib.json b = some (.arr elems)) {sts : List Statement}
    (hok : parseStatements lib b = .ok sts) {i j : ℕ} {sql : String} {items : List Json}
    (helem : elems[i]? = some (.arr (.str sql :: items))) {item : Json}
    (hitem : items[j]? = some item) {n : Number} {name : String} (hgiven : Given n item name)
    {z : ℤ} (hz : IsLiteral z n) (hrange : -2 ^ 63 ≤ z ∧ z < 2 ^ 63) :
    ∃ st, sts[i]? = some st ∧
      (∃ p arg, Became lib.float items st j name p arg) ∧
      ∀ p arg, Became lib.float items st j name p arg →
        (∃ d, p.value = some (.d d) ∧ arg.value = .double d) ∧
          (Exact z p arg ↔ Binary64.Significant z) := by
  obtain ⟨doc, hdoc', hmeans⟩ := parseStatements_sound hok
  obtain rfl := Option.some.inj (hdoc.symm.trans hdoc')
  have hsize : z.natAbs < 2 ^ 64 := by omega
  rcases hmeans with ⟨-, helems⟩ | ⟨-, helems⟩
  · obtain ⟨st, -, hst⟩ := getElem?_of_forall₂ helems helem
    cases hst
  obtain ⟨st, hst, hwith⟩ := getElem?_of_forall₂ helems helem
  refine ⟨st, hst, ?_, ?_⟩
  · -- the parameter of the literal, and its place among those of the statement
    obtain @⟨_, _, pss, hpss⟩ := hwith
    obtain ⟨ps, hps, hread⟩ := getElem?_of_forall₂ hpss hitem
    obtain ⟨d, -, hp, -⟩ := item_given hread hgiven
    obtain ⟨args, hargs⟩ := convertParamsToSQL_ok hpss
    have hmem := List.mem_flatten.mpr ⟨ps, List.mem_of_getElem? hps, hp⟩
    obtain ⟨k, hk⟩ := List.mem_iff_getElem?.mp hmem
    obtain ⟨arg, harg, -⟩ := getElem?_of_forall₂ (mapM_eq_ok_iff.mp hargs) hk
    exact ⟨⟨some (.d d), name⟩, arg, pss, ps, args, k, hpss, rfl, hps, hp, rfl, hargs, hk, harg⟩
  · rintro p arg ⟨pss, ps, args, k, hpss, -, hps, hp, hname, hargs, hk, harg⟩
    obtain ⟨ps', hps', hread⟩ := getElem?_of_forall₂ hpss hitem
    obtain rfl := Option.some.inj (hps.symm.trans hps')
    obtain ⟨d, hd, -, honly⟩ := item_given hread hgiven
    obtain rfl := honly p hp hname
    obtain ⟨arg', harg', hconvert⟩ := getElem?_of_forall₂ (mapM_eq_ok_iff.mp hargs) hk
    obtain rfl := Option.some.inj (harg.symm.trans harg')
    obtain rfl := Except.ok.inj hconvert
    refine ⟨⟨d, rfl, rfl⟩, ?_⟩
    have hnear : Binary64.Nearest z d := hz.value_eq ▸ hlib n d hd
    rw [← hnear.value_eq_iff hsize]
    simp [Exact, storedNumber, boundNumber, hnear.1]

/-- A body with a small and a large integer. -/
def twoIntegers : Bytes := ascii "[[\"INSERT INTO t VALUES (?, ?)\", 3, 9007199254740993]]"

/-- The items of its statement. -/
def twoItems : List Json := [.num ⟨false, 3, 0⟩, .num ⟨false, 9007199254740993, 0⟩]

/-- The library for that body, with Go's way to read a number. -/
def twoLibrary : Library :=
  { oneDocument twoIntegers (by decide)
      (.arr [.arr (.str "INSERT INTO t VALUES (?, ?)" :: twoItems)]) with
    float := Binary64.parseFloat }

/-- The statement that is read from it. -/
def twoParams : Statement where
  sql := "INSERT INTO t VALUES (?, ?)"
  params := [⟨some (.d 0x4008000000000000), ""⟩, ⟨some (.d 0x4340000000000000), ""⟩]

theorem json_twoIntegers : twoLibrary.json twoIntegers =
    some (.arr [.arr (.str "INSERT INTO t VALUES (?, ?)" :: twoItems)]) := by
  simp only [twoLibrary, oneDocument_json]

theorem readsNearest_twoLibrary : ReadsNearest twoLibrary := by
  intro n d h
  simp only [twoLibrary] at h
  exact Binary64.parseFloat_nearest h

theorem parseStatements_twoIntegers :
    parseStatements twoLibrary twoIntegers = .ok [twoParams] := by
  decide +kernel

/-- The small integer is bound exactly. -/
theorem small_integer_exact :
    ∃ st p arg, Became twoLibrary.float twoItems st 0 "" p arg ∧ Exact 3 p arg := by
  obtain ⟨st, -, ⟨p, arg, hbecame⟩, hall⟩ := @integers_exact_iff twoLibrary
    readsNearest_twoLibrary twoIntegers _ json_twoIntegers _ parseStatements_twoIntegers 0 0 _
    twoItems rfl _ rfl ⟨false, 3, 0⟩ "" .positional 3 ⟨rfl, rfl⟩ (by decide)
  exact ⟨st, p, arg, hbecame, (hall p arg hbecame).2.mpr ⟨3, 0, rfl, by decide⟩⟩

/-- **A large integer is bound as its neighbour**: `9007199254740993` is read, stored and bound
as `9007199254740992`. -/
theorem large_integer_rounded :
    ReadsNearest twoLibrary ∧ parseStatements twoLibrary twoIntegers = .ok [twoParams] ∧
      Became twoLibrary.float twoItems twoParams 1 "" ⟨some (.d 0x4340000000000000), ""⟩
        ⟨"", .double 0x4340000000000000⟩ ∧
      boundNumber (.double 0x4340000000000000) = some 9007199254740992 ∧
      ¬Exact 9007199254740993 ⟨some (.d 0x4340000000000000), ""⟩
        ⟨"", .double 0x4340000000000000⟩ := by
  have hbound : boundNumber (.double 0x4340000000000000) = some 9007199254740992 := by
    decide +kernel
  have hthree : twoLibrary.float ⟨false, 3, 0⟩ = some 0x4008000000000000 := by
    decide +kernel
  have hlarge : twoLibrary.float ⟨false, 9007199254740993, 0⟩ = some 0x4340000000000000 := by
    decide +kernel
  refine ⟨readsNearest_twoLibrary, parseStatements_twoIntegers, ?_, hbound, fun hexact => ?_⟩
  · exact ⟨[[⟨some (.d 0x4008000000000000), ""⟩], [⟨some (.d 0x4340000000000000), ""⟩]], _, _, 1,
      .cons (.scalar (.num hthree)) (.cons (.scalar (.num hlarge)) .nil), rfl, rfl,
      List.mem_singleton_self _, rfl, rfl, rfl, rfl⟩
  · have hother := hexact.2
    rw [hbound] at hother
    exact absurd (Option.some.inj hother) (by norm_num)

end DistSql
