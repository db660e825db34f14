import DistSql.Loop
import DistSql.Pb

/-!
# Conversions at the Driver's Edge

`convertParamsToSQL` turns the parameters of a statement into bound arguments, and
`convertToProto` turns a scanned row into the parameters of a result row.

The second one has two ways to end besides a result: an error for a time or a type it
cannot represent, and a panic. The panic is reached by a byte cell under a column
whose declared type is a string type: there the code assigns to the `Value` field of
a parameter that was never allocated.

## Main results

* `convertCell_stops`: how a cell converts; it panics exactly when it is a byte cell
  under a string-typed column.
* `convertToProto_stops`: a row with one cell per declared type converts as the first
  cell does that stops its conversion.
* `row_kept_iff`: when the conversion of a row keeps every value.
-/

open Golang Sqlite

namespace DistSql

/-- The panic of a write through a nil pointer. -/
def nilDereference : String :=
  "runtime error: invalid memory address or nil pointer dereference"

/-- The panic of an index past the end of a slice. -/
def indexOutOfRange : String := "runtime error: index out of range"

/-! ### Parameters -/

/-- The bound argument of one parameter. -/
def convertParam (p : Parameter) : Except String NamedArg :=
  match p.value with
  | some (.i i) => .ok ⟨p.name, .int i⟩
  | some (.d d) => .ok ⟨p.name, .double d⟩
  | some (.b b) => .ok ⟨p.name, .bool b⟩
  | some (.y y) => .ok ⟨p.name, .bytes y⟩
  | some (.s s) => .ok ⟨p.name, .text s⟩
  | none => .error "unsupported type: <nil>"

/-- `convertParamsToSQL`: the first parameter without a value fails them all. -/
def convertParamsToSQL (params : List Parameter) : Except String (List NamedArg) :=
  params.mapM convertParam

/-- The text of an error that converting parameters returns is not empty. -/
theorem convertParamsToSQL_error {params : List Parameter} {m : String}
    (h : convertParamsToSQL params = .error m) : m ≠ "" := by
  obtain ⟨p, -, hp⟩ := mapM_error h
  rcases hv : p.value with _ | v
  · simp only [convertParam, hv, Except.error.injEq] at hp
    rw [← hp]
    decide
  · cases v <;> simp [convertParam, hv] at hp

/-! ### Cells and rows -/

/-- `strings.HasPrefix`. -/
def hasPrefix (t p : String) : Bool := p.toList.isPrefixOf t.toList

/-- `isStringType`: the declared types whose byte cells are texts. -/
def isStringType (t : String) : Bool :=
  t == "text" || t == "json" || t == "" || hasPrefix t "varchar" ||
    hasPrefix t "varying character" || hasPrefix t "nchar" ||
    hasPrefix t "native character" || hasPrefix t "nvarchar" || hasPrefix t "clob"

/-- One case of the type switch of `convertToProto`, for a cell with a slot of its
own. A `nil` cell and one of type `int` leave the slot empty. -/
def convertCell (ty : String) : Cell → Outcome (Except String (Option Parameter))
  | .int _ => .ret (.ok none)
  | .int64 i => .ret (.ok (some ⟨some (.i i), ""⟩))
  | .float64 d => .ret (.ok (some ⟨some (.d d), ""⟩))
  | .bool b => .ret (.ok (some ⟨some (.b b), ""⟩))
  | .string s => .ret (.ok (some ⟨some (.s s), ""⟩))
  | .bytes y =>
      -- the slot is still nil here, and the string branch writes through it
      if isStringType ty then .panic nilDereference
      else .ret (.ok (some ⟨some (.y y), ""⟩))
  | .time t =>
      match t.marshalText with
      | .error m => .ret (.error m)
      | .ok text => .ret (.ok (some ⟨some (.s text), ""⟩))
  | .null => .ret (.ok none)
  | .other ty repr => .ret (.error ("unhandled column type: " ++ ty ++ " " ++ repr))

/-- The same case for a cell past the last slot: `none` when it leaves the slots
alone. -/
def convertOverflow : Cell → Option (Outcome (Except String (List (Option Parameter))))
  | .int _ | .null => none
  | .time t =>
      match t.marshalText with
      | .error m => some (.ret (.error m))
      | .ok _ => some (.panic indexOutOfRange)
  | .other ty repr => some (.ret (.error ("unhandled column type: " ++ ty ++ " " ++ repr)))
  | _ => some (.panic indexOutOfRange)

/-- `convertToProto`: one slot per declared type, filled cell by cell. -/
def convertToProto : List String → List Cell →
    Outcome (Except String (List (Option Parameter)))
  | types, [] => .ret (.ok (types.map fun _ => none))
  | [], c :: cs =>
      match convertOverflow c with
      | none => convertToProto [] cs
      | some r => r
  | ty :: types, c :: cs =>
      (convertCell ty c).okThen fun v =>
        (convertToProto types cs).okThen fun vs => .ret (.ok (v :: vs))

/-! ### When a conversion panics -/

/-- A byte cell under a string-typed column. -/
def blobInText (ty : String) : Cell → Bool
  | .bytes _ => isStringType ty
  | _ => false

/-- A cell that makes the conversion of its row return an error. -/
def unrepresentable : Cell → Bool
  | .time t => decide ¬t.Strict
  | .other _ _ => true
  | _ => false

/-- The cell at which the conversion of a row stops, with its declared type: the
first one that is unrepresentable or a byte cell under a string-typed column. -/
def firstStop : List (String × Cell) → Option (String × Cell)
  | [] => none
  | p :: ps => if unrepresentable p.2 || blobInText p.1 p.2 then some p else firstStop ps

/-- What becomes of a conversion that stops at the given cell, or at none: a value, a
panic for a byte cell under a string-typed column, an error for any other. -/
def StopsAs {α : Type} (stop : Option (String × Cell)) (x : Outcome (Except String α)) :
    Prop :=
  match stop with
  | none => ∃ a, x = .ret (.ok a)
  | some p => if blobInText p.1 p.2 then ∃ m, x = .panic m else ∃ m, x = .ret (.error m)

/-- **How a cell converts**: to a value, to an error when it is unrepresentable, and in
a panic when it is a byte cell under a string-typed column. -/
theorem convertCell_stops (ty : String) (c : Cell) :
    StopsAs (firstStop [(ty, c)]) (convertCell ty c) := by
  cases c with
  | bytes y =>
      by_cases h : isStringType ty <;>
        simp [StopsAs, firstStop, convertCell, unrepresentable, blobInText, h]
  | time t =>
      rcases t.marshalText_eq with ⟨h, hm⟩ | ⟨h, m, hm⟩ <;>
        simp [StopsAs, firstStop, convertCell, unrepresentable, blobInText, hm, h]
  | _ => simp [StopsAs, firstStop, convertCell, unrepresentable, blobInText]

/-- A conversion that stops is not continued. -/
theorem StopsAs.stopped {α β : Type} {p : String × Cell} {x : Outcome (Except String α)}
    (h : StopsAs (some p) x) (k : α → Outcome (Except String β)) :
    StopsAs (some p) (x.okThen k) := by
  by_cases hb : blobInText p.1 p.2
  · simp only [StopsAs, if_pos hb] at h ⊢
    obtain ⟨m, rfl⟩ := h
    exact ⟨m, rfl⟩
  · simp only [StopsAs, if_neg hb] at h ⊢
    obtain ⟨m, rfl⟩ := h
    exact ⟨m, rfl⟩

/-- A conversion stops as its last part does, whatever is put around its value. -/
theorem StopsAs.map {α β : Type} {stop : Option (String × Cell)}
    {x : Outcome (Except String α)} (h : StopsAs stop x) (g : α → β) :
    StopsAs stop (x.okThen fun a => .ret (.ok (g a))) := by
  rcases stop with _ | p
  · obtain ⟨a, rfl⟩ := h
    exact ⟨g a, rfl⟩
  · exact h.stopped _

/-- **How a row converts** that has one cell per declared type: as the first cell does
that stops its conversion. Induction on the types; a cell that converts leaves the
decision to the rest of the row. -/
theorem convertToProto_stops {types : List String} {row : List Cell}
    (hlen : row.length = types.length) :
    StopsAs (firstStop (types.zip row)) (convertToProto types row) := by
  induction types generalizing row with
  | nil =>
      obtain rfl : row = [] := List.length_eq_zero_iff.mp hlen
      exact ⟨[], rfl⟩
  | cons ty types ih =>
      obtain ⟨c, cs, rfl⟩ : ∃ c cs, row = c :: cs :=
        List.exists_cons_of_length_eq_add_one hlen
      have hcell := convertCell_stops ty c
      rw [List.zip_cons_cons, convertToProto]
      by_cases hstop : (unrepresentable c || blobInText ty c) = true
      · rw [firstStop, if_pos hstop] at hcell ⊢
        exact hcell.stopped _
      · rw [firstStop, if_neg hstop] at hcell ⊢
        obtain ⟨v, hv⟩ := hcell
        rw [hv]
        exact (ih (by simpa using hlen)).map (v :: ·)

/-! ### What a conversion keeps -/

/-- A cell as the driver delivers it, with a time in a year of four digits. -/
def Delivered : Cell → Prop
  | .time t => 0 ≤ t.year ∧ t.year ≤ 9999
  | .int _ | .other _ _ => False
  | _ => True

/-- The entry keeps the value of the cell: nothing for a `NULL`, and otherwise the same
value under the case of its kind. A byte cell is a text under a string-typed column. -/
def KeepsCell (ty : String) (entry : Option Parameter) : Cell → Prop
  | .null => entry = none
  | .int64 i => entry = some ⟨some (.i i), ""⟩
  | .float64 d => entry = some ⟨some (.d d), ""⟩
  | .bool b => entry = some ⟨some (.b b), ""⟩
  | .string s => entry = some ⟨some (.s s), ""⟩
  | .bytes y =>
      if isStringType ty then
        ∃ s : String, entry = some ⟨some (.s s), ""⟩ ∧ s.toUTF8.toList = y
      else entry = some ⟨some (.y y), ""⟩
  | .time t => entry = some ⟨some (.s t.rfc3339), ""⟩
  | .int _ | .other _ _ => False

/-- The conversion of a row **keeps every value**: it returns one entry per column, in
order, each of which keeps the value of its cell. -/
def RowKept (types : List String) (row : List Cell) : Prop :=
  ∃ entries, convertToProto types row = .ret (.ok entries) ∧
    List.Forall₂ (fun p entry => KeepsCell p.1 entry p.2) (types.zip row) entries

/-- A delivered cell that does not stop the conversion is kept. -/
theorem convertCell_kept {ty : String} {c : Cell} (hc : Delivered c)
    (hrep : unrepresentable c = false) (hblob : blobInText ty c = false) :
    ∃ v, convertCell ty c = .ret (.ok v) ∧ KeepsCell ty v c := by
  cases c with
  | bytes y =>
      have hty : isStringType ty = false := hblob
      refine ⟨some ⟨some (.y y), ""⟩, ?_, ?_⟩
      · simp [convertCell, hty]
      · simp [KeepsCell, hty]
  | time t =>
      have hstrict : t.Strict := by simpa [unrepresentable] using hrep
      have htext : t.marshalText = .ok t.rfc3339 :=
        (t.marshalText_eq.resolve_right fun h => h.1 hstrict).2
      refine ⟨some ⟨some (.s t.rfc3339), ""⟩, ?_, rfl⟩
      simp only [convertCell, htext]
  | int i => exact absurd hc id
  | other ty repr => exact absurd hc id
  | _ => exact ⟨_, rfl, rfl⟩

/-- A delivered row is kept when no cell of it stops the conversion. Induction on the
types. -/
theorem convertToProto_kept {types : List String} {row : List Cell}
    (hlen : row.length = types.length) (hrow : ∀ c ∈ row, Delivered c)
    (hstop : ∀ p ∈ types.zip row, unrepresentable p.2 = false ∧ blobInText p.1 p.2 = false) :
    RowKept types row := by
  induction types generalizing row with
  | nil =>
      obtain rfl : row = [] := List.length_eq_zero_iff.mp hlen
      exact ⟨[], rfl, .nil⟩
  | cons ty types ih =>
      obtain ⟨c, cs, rfl⟩ : ∃ c cs, row = c :: cs :=
        List.exists_cons_of_length_eq_add_one hlen
      rw [List.zip_cons_cons] at hstop
      obtain ⟨hrep, hblob⟩ := hstop (ty, c) List.mem_cons_self
      obtain ⟨v, hv, hkeep⟩ := convertCell_kept (hrow c List.mem_cons_self) hrep hblob
      obtain ⟨vs, hvs, hkeeps⟩ := ih (by simpa using hlen)
        (fun c' hc' => hrow c' (List.mem_cons_of_mem c hc'))
        (fun p hp => hstop p (List.mem_cons_of_mem _ hp))
      refine ⟨v :: vs, ?_, .cons hkeep hkeeps⟩
      rw [convertToProto, hv, Outcome.ret_ok_okThen, hvs, Outcome.ret_ok_okThen]

/-- No cell stops the conversion when the first one that does is none. -/
theorem not_stop_of_firstStop {cells : List (String × Cell)} (h : firstStop cells = none) :
    ∀ p ∈ cells, unrepresentable p.2 = false ∧ blobInText p.1 p.2 = false := by
  induction cells with
  | nil => simp
  | cons q qs ih =>
      rw [firstStop] at h
      split at h
      · exact absurd h (by simp)
      rename_i hq
      intro p hp
      rcases List.mem_cons.mp hp with rfl | hp
      · exact Bool.or_eq_false_iff.mp (Bool.eq_false_iff.mpr hq)
      · exact ih h p hp

/-- A delivered cell is unrepresentable only for the zone of a time. -/
theorem Delivered.representable_iff {c : Cell} (h : Delivered c) :
    unrepresentable c = false ↔ ∀ t, c = .time t → t.zoneHour < 24 := by
  cases c with
  | time t =>
      have hyear : 0 ≤ t.year ∧ t.year ≤ 9999 := h
      simp [unrepresentable, Time.Strict, hyear]
  | int i => exact absurd h id
  | other ty repr => exact absurd h id
  | _ => simp [unrepresentable]

/-- **When the conversion of a row keeps every value**: exactly when no byte cell stands
under a string-typed column, and no time is a day or more away from UTC. -/
theorem row_kept_iff {types : List String} {row : List Cell}
    (hlen : row.length = types.length) (hrow : ∀ c ∈ row, Delivered c) :
    RowKept types row ↔ ∀ p ∈ types.zip row,
      blobInText p.1 p.2 = false ∧ ∀ t, p.2 = .time t → t.zoneHour < 24 := by
  have hdelivered : ∀ p ∈ types.zip row, Delivered p.2 :=
    fun p hp => hrow p.2 (List.of_mem_zip hp).2
  constructor
  · rintro ⟨entries, hret, -⟩
    have hstop := convertToProto_stops hlen
    rcases hf : firstStop (types.zip row) with _ | q
    · intro p hp
      obtain ⟨hrep, hblob⟩ := not_stop_of_firstStop hf p hp
      exact ⟨hblob, (hdelivered p hp).representable_iff.mp hrep⟩
    · -- a conversion that stops returns no entries
      rw [hf, hret, StopsAs] at hstop
      split at hstop <;> obtain ⟨m, hm⟩ := hstop <;> exact absurd hm (by simp)
  · intro h
    refine convertToProto_kept hlen hrow fun p hp => ?_
    exact ⟨(hdelivered p hp).representable_iff.mpr (h p hp).2, (h p hp).1⟩

/-- The rule at work: an integer, a byte string under a blob column, and a `NULL` under a
text column. -/
theorem row_kept_three :
    RowKept ["integer", "blob", "text"] [.int64 7, .bytes [1, 255], .null] :=
  (@row_kept_iff ["integer", "blob", "text"] [.int64 7, .bytes [1, 255], .null]
    rfl (by simp [Delivered])).mpr (by
      intro p hp
      simp only [List.zip_cons_cons, List.zip_nil_right, List.mem_cons, List.not_mem_nil,
        or_false] at hp
      rcases hp with rfl | rfl | rfl <;> exact ⟨by decide, by simp⟩)

/-- **A byte string in a column without a declared type** is not kept: the conversion
panics. -/
theorem blob_not_kept :
    convertToProto [""] [.bytes [1]] = .panic nilDereference ∧ ¬RowKept [""] [.bytes [1]] := by
  have hpanic : convertToProto [""] [.bytes [1]] = .panic nilDereference := by decide
  refine ⟨hpanic, ?_⟩
  rintro ⟨entries, hret, -⟩
  rw [hpanic] at hret
  exact absurd hret (by simp)

end DistSql
