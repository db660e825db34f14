import DistSql.Convert
import DistSql.Loop
import DistSql.Marshal

/-!
# Results as JSON

The package `encoding`: how the results of a request become the JSON text of an answer.
Pointers are kept here as Go has them, since the conversions treat each of them in its own
way: a nil result panics, a nil row and a row without a parameter list become `null`, and so
does a parameter without a value. What `strconv` writes for a finite `float64` is a parameter,
`float`.

## Main results

* `protoToJSON_ok_iff`: results can be encoded exactly when **no cell is an infinity or not a
  number**.
* `answer_mirrors_results`: **the JSON answer mirrors the results**, result by result, row by
  row and cell by cell.
-/

open Golang

namespace DistSql

/-! ### Results as Go holds them -/

/-- `pb.Values`, with a parameter list that may be nil. -/
structure RawValues where
  params : Option (List (Option Parameter))
  deriving DecidableEq, Repr

/-- `pb.QueryRes`, with rows that may be nil. -/
structure RawQueryRes where
  columns : List String := []
  types : List String := []
  values : List (Option RawValues) := []
  error : String := ""
  deriving DecidableEq, Repr

/-- A result of the engine, which has no nil rows. -/
def QueryRes.raw (q : QueryRes) : RawQueryRes :=
  ⟨q.columns, q.types, q.values.map fun row => some ⟨some row.params⟩, q.error⟩

namespace Encoding

/-! ### The conversions -/

/-- `Result`. Its time is always zero, and so never written. -/
structure Result where
  lastInsertID : Int64
  rowsAffected : Int64
  error : String
  deriving DecidableEq, Repr

/-- `EncQueryRes`: a row that is nil stands for `null`, and so does a value. -/
structure EncQueryRes where
  columns : List String
  types : List String
  values : List (Option (List (Option ParamValue)))
  error : String
  deriving DecidableEq, Repr

/-- `convertExecuteResult`. -/
def convertExecuteResult : Option ExecRes → Outcome Result
  | none => .panic nilDereference
  | some res => .ret ⟨res.lastInsertId, res.rowsAffected, res.error⟩

/-- One turn of the loop of `convertValues`. Its switch has a case for every value that a
parameter can have. -/
def convertRow (vals : Option RawValues) : Option (List (Option ParamValue)) :=
  match vals with
  | none => none
  | some vals =>
      match vals.params with
      | none => none
      | some params => some (params.map fun p => p.bind Parameter.value)

/-- `convertValues`. -/
def convertValues (v : List (Option RawValues)) : List (Option (List (Option ParamValue))) :=
  v.map convertRow

/-- `convertQueryRes` of a result that is not nil. -/
def encQueryRes (q : RawQueryRes) : EncQueryRes :=
  ⟨q.columns, q.types, convertValues q.values, q.error⟩

/-- `convertQueryRes`. -/
def convertQueryRes : Option RawQueryRes → Outcome EncQueryRes
  | none => .panic nilDereference
  | some q => .ret (encQueryRes q)

/-! ### The encoder -/

/-- A field with the option `omitempty`. -/
def omitEmpty (key : String) (empty : Bool) (doc : Json) : List (String × Json) :=
  if empty then [] else [(key, doc)]

/-- A text field. -/
def omitText (key text : String) : List (String × Json) := omitEmpty key (text = "") (.str text)

/-- A field with a list of texts. -/
def omitTexts (key : String) (texts : List String) : List (String × Json) :=
  omitEmpty key texts.isEmpty (.arr (texts.map .str))

/-- A field with a list of documents. -/
def omitDocs (key : String) (docs : List Json) : List (String × Json) :=
  omitEmpty key docs.isEmpty (.arr docs)

/-- A field with a whole number. -/
def omitInt (key : String) (i : Int64) : List (String × Json) :=
  omitEmpty key (i = 0) (.num (.ofInt i.toInt))

/-- A `Result` as a document. -/
def encodeResult (res : Result) : Json :=
  .obj (omitInt "last_insert_id" res.lastInsertID ++ omitInt "rows_affected" res.rowsAffected ++
    omitText "error" res.error)

section Encoder

variable (float : UInt64 → Number)

/-- A value of type `any` in a row. -/
def encodeValue : Option ParamValue → Except String Json
  | none => .ok .null
  | some (.i i) => .ok (.num (.ofInt i.toInt))
  | some (.d d) => encodeFloat float d
  | some (.b b) => .ok (.bool b)
  | some (.y y) => .ok (.str (.ofList (base64 y)))
  | some (.s s) => .ok (.str s)

/-- A row. -/
def encodeRow : Option (List (Option ParamValue)) → Except String Json
  | none => .ok .null
  | some cells => (cells.mapM (encodeValue float)).map .arr

/-- The rows of a result or of a list. -/
def encodeRows (rows : List (Option (List (Option ParamValue)))) : Except String (List Json) :=
  rows.mapM (encodeRow float)

/-- An `EncQueryRes` as a document. -/
def encodeQueryRes (q : EncQueryRes) : Except String Json :=
  (encodeRows float q.values).map fun rows =>
    .obj (omitTexts "columns" q.columns ++ omitTexts "types" q.types ++ omitDocs "values" rows ++
      omitText "error" q.error)

/-- `structToJson`: the encoder writes a newline behind the document, which is trimmed. -/
def structToJson (doc : Except String Json) : Except String String :=
  doc.map fun j => .ofList (trimNewlines (j.text false ++ ['\n']))

/-- What `ProtoToJSON` is called with. Any other value is given by what the encoder makes of
it. -/
inductive Message
  | execRes (res : Option ExecRes)
  | execResults (res : List (Option ExecRes))
  | queryRes (res : Option RawQueryRes)
  | queryResults (res : List (Option RawQueryRes))
  | values (v : List (Option RawValues))
  | other (doc : Except String Json)

/-- `ProtoToJSON`. -/
def protoToJSON : Message → Outcome (Except String String)
  | .execRes res => do
      let val ← convertExecuteResult res
      return structToJson (.ok (encodeResult val))
  | .execResults res => do
      let vals ← res.mapM convertExecuteResult
      return structToJson (.ok (.arr (vals.map encodeResult)))
  | .queryRes res => do
      let val ← convertQueryRes res
      return structToJson (encodeQueryRes float val)
  | .queryResults res => do
      let vals ← res.mapM convertQueryRes
      return structToJson ((vals.mapM (encodeQueryRes float)).map .arr)
  | .values v => .ret (structToJson ((encodeRows float (convertValues v)).map .arr))
  | .other doc => .ret (structToJson doc)

end Encoder

/-! ### When results can be encoded -/

/-- What the cell holds, if it is set. -/
def cellValue (p : Option Parameter) : Option ParamValue := p.bind Parameter.value

/-- The cells of a row, if it has a parameter list. -/
def rowCells (row : Option RawValues) : Option (List (Option Parameter)) :=
  row.bind RawValues.params

/-- A row is converted cell by cell. -/
theorem convertRow_eq (row : Option RawValues) :
    convertRow row = (rowCells row).map (List.map cellValue) := by
  rcases row with _ | ⟨_ | params⟩ <;> rfl

/-- **Every number is finite**: no cell is an infinity or not a number. -/
def AllFinite (q : RawQueryRes) : Prop :=
  ∀ row ∈ q.values, ∀ cells, rowCells row = some cells → ∀ p ∈ cells, ∀ d,
    cellValue p = some (.d d) → Binary64.Finite d

section

variable {float : UInt64 → Number}

/-- A result of `map` on an `Except`. -/
theorem map_eq_ok_iff {α β : Type} {f : α → β} {x : Except String α} {b : β} :
    x.map f = .ok b ↔ ∃ a, x = .ok a ∧ f a = b := by
  cases x <;> simp [Except.map]

/-- A value is encoded unless it is a number that is not finite. -/
theorem encodeValue_ok_iff (v : Option ParamValue) :
    (∃ j, encodeValue float v = .ok j) ↔ ∀ d, v = some (.d d) → Binary64.Finite d := by
  match v with
  | none => simp [encodeValue]
  | some (.i i) => simp [encodeValue]
  | some (.d d) =>
      by_cases hd : Binary64.Finite d
      · simp [encodeValue, encodeFloat, hd]
      · simp [encodeValue, encodeFloat, hd]
  | some (.b b) => simp [encodeValue]
  | some (.y y) => simp [encodeValue]
  | some (.s s) => simp [encodeValue]

/-- A row is encoded when its cells are. -/
theorem encodeRow_ok_iff (row : Option RawValues) :
    (∃ j, encodeRow float (convertRow row) = .ok j) ↔
      ∀ cells, rowCells row = some cells → ∀ p ∈ cells, ∀ d,
        cellValue p = some (.d d) → Binary64.Finite d := by
  rw [convertRow_eq]
  rcases rowCells row with _ | cells
  · simp [encodeRow]
  · have hcells : (∃ js, (cells.map cellValue).mapM (encodeValue float) = .ok js) ↔
        ∀ p ∈ cells, ∀ d, cellValue p = some (.d d) → Binary64.Finite d := by
      rw [exists_mapM_ok_iff, List.forall_mem_map]
      exact forall₂_congr fun p _ => encodeValue_ok_iff (cellValue p)
    simp only [Option.map_some, encodeRow, map_eq_ok_iff, Option.some.injEq, forall_eq',
      ← hcells]
    exact ⟨fun ⟨_, js, hjs, _⟩ => ⟨js, hjs⟩, fun ⟨js, hjs⟩ => ⟨_, js, hjs, rfl⟩⟩

/-- A result is encoded when its rows are. -/
theorem encodeQueryRes_ok_iff (q : RawQueryRes) :
    (∃ j, encodeQueryRes float (encQueryRes q) = .ok j) ↔ AllFinite q := by
  have hrows : (∃ js, encodeRows float (convertValues q.values) = .ok js) ↔ AllFinite q := by
    rw [encodeRows, convertValues, exists_mapM_ok_iff, List.forall_mem_map]
    exact forall₂_congr fun row _ => encodeRow_ok_iff row
  simp only [encodeQueryRes, encQueryRes, map_eq_ok_iff, ← hrows]
  exact ⟨fun ⟨_, js, hjs, _⟩ => ⟨js, hjs⟩, fun ⟨js, hjs⟩ => ⟨_, js, hjs, rfl⟩⟩

/-- The text of a list of documents. -/
theorem structToJson_arr (docs : Except String (List Json)) :
    structToJson (docs.map .arr) = docs.map fun js => .ofList ((Json.arr js).text false) := by
  rcases docs with e | js
  · rfl
  · exact congrArg (fun cs => Except.ok (String.ofList cs))
      (trimNewlines_text false (.inl ⟨js, rfl⟩))

/-- What becomes of results that are not nil. -/
theorem protoToJSON_queryResults (results : List RawQueryRes) :
    protoToJSON float (.queryResults (results.map some)) =
      .ret (((results.map encQueryRes).mapM (encodeQueryRes float)).map fun docs =>
        .ofList ((Json.arr docs).text false)) := by
  have hvals : (results.map some).mapM convertQueryRes = .ret (results.map encQueryRes) := by
    rw [mapM_eq_ret_iff, List.forall₂_map_left_iff, List.forall₂_map_right_iff]
    exact List.forall₂_same.mpr fun q _ => rfl
  simp only [protoToJSON, hvals, Outcome.ret_bind, Outcome.pure_eq_ret, structToJson_arr]

/-- **When results can be encoded.** -/
theorem protoToJSON_ok_iff (results : List RawQueryRes) :
    (∃ text, protoToJSON float (.queryResults (results.map some)) = .ret (.ok text)) ↔
      ∀ q ∈ results, AllFinite q := by
  have hdocs : (∃ docs, (results.map encQueryRes).mapM (encodeQueryRes float) = .ok docs) ↔
      ∀ q ∈ results, AllFinite q := by
    rw [exists_mapM_ok_iff, List.forall_mem_map]
    exact forall₂_congr fun q _ => encodeQueryRes_ok_iff q
  simp only [protoToJSON_queryResults, Outcome.ret.injEq, map_eq_ok_iff, ← hdocs]
  exact ⟨fun ⟨_, docs, hok, _⟩ => ⟨docs, hok⟩, fun ⟨docs, hok⟩ => ⟨_, docs, hok, rfl⟩⟩

end

/-! ### What the answer mirrors -/

section

variable (float : UInt64 → Number)

/-- The JSON form of a value. -/
def jsonForm : ParamValue → Json
  | .i i => .num (.ofInt i.toInt)
  | .d d => .num (float d)
  | .b b => .bool b
  | .y y => .str (.ofList (base64 y))
  | .s s => .str s

/-- The document is written as `null`. -/
def IsNull (j : Json) : Prop := j.text false = ['n', 'u', 'l', 'l']

/-- A document **mirrors a cell**: it is written as `null` exactly for a parameter that is not
set, and else it is the form of the parameter's value. -/
structure MirrorsCell (p : Option Parameter) (j : Json) : Prop where
  null : IsNull j ↔ cellValue p = none
  value : ∀ v, cellValue p = some v → j = jsonForm float v

/-- A document **mirrors a row**: it is written as `null` exactly for a nil row or one without
a parameter list, and else it is an array with one item per parameter, in order. -/
structure MirrorsRow (row : Option RawValues) (j : Json) : Prop where
  null : IsNull j ↔ rowCells row = none
  cells : ∀ ps, rowCells row = some ps →
    ∃ items, j = .arr items ∧ List.Forall₂ (MirrorsCell float) ps items

/-- A document **mirrors a result**: it is an object with its columns, its types and its error,
each omitted exactly when it is empty, and with one entry per row, in order, omitted exactly
when there is no row. -/
def MirrorsResult (q : RawQueryRes) (j : Json) : Prop :=
  ∃ members rows, j = .obj members ∧ List.Forall₂ (MirrorsRow float) q.values rows ∧
    (members.map Prod.fst).Nodup ∧
    (∀ key doc, (key, doc) ∈ members ↔
      (key = "columns" ∧ q.columns ≠ [] ∧ doc = .arr (q.columns.map .str)) ∨
      (key = "types" ∧ q.types ≠ [] ∧ doc = .arr (q.types.map .str)) ∨
      (key = "values" ∧ q.values ≠ [] ∧ doc = .arr rows) ∨
      (key = "error" ∧ q.error ≠ "" ∧ doc = .str q.error))

variable {float}

/-- No value has the form of `null`. -/
theorem jsonForm_ne_null (v : ParamValue) : jsonForm float v ≠ .null := by
  cases v <;> simp [jsonForm]

/-- **A cell is mirrored.** -/
theorem mirrorsCell_of_encode {p : Option Parameter} {j : Json}
    (h : encodeValue float (cellValue p) = .ok j) : MirrorsCell float p j := by
  have hform : ∀ v, cellValue p = some v → j = jsonForm float v := by
    intro v hv
    rw [hv] at h
    cases v with
    | d d =>
        simp only [encodeValue, encodeFloat] at h
        split at h
        · exact (Except.ok.inj h).symm
        · cases h
    | i i => exact (Except.ok.inj h).symm
    | b b => exact (Except.ok.inj h).symm
    | y y => exact (Except.ok.inj h).symm
    | s s => exact (Except.ok.inj h).symm
  refine ⟨(Json.text_eq_null_iff false j).trans ?_, hform⟩
  rcases hp : cellValue p with _ | v
  · rw [hp] at h
    exact iff_of_true (Except.ok.inj h).symm rfl
  · rw [hform v hp]
    exact iff_of_false (jsonForm_ne_null v) (by simp)

/-- **A row is mirrored.** -/
theorem mirrorsRow_of_encode {row : Option RawValues} {j : Json}
    (h : encodeRow float (convertRow row) = .ok j) : MirrorsRow float row j := by
  rw [convertRow_eq] at h
  rcases hrow : rowCells row with _ | ps
  · rw [hrow] at h
    obtain rfl := Except.ok.inj h
    exact ⟨iff_of_true rfl hrow, fun ps hps => by rw [hrow] at hps; cases hps⟩
  · rw [hrow] at h
    obtain ⟨items, hitems, rfl⟩ := map_eq_ok_iff.mp h
    refine ⟨(Json.text_eq_null_iff false _).trans ?_, fun ps' hps' => ⟨items, rfl, ?_⟩⟩
    · rw [hrow]
      exact iff_of_false (by simp) (by simp)
    · obtain rfl : ps = ps' := Option.some.inj (hrow.symm.trans hps')
      rw [mapM_eq_ok_iff, List.forall₂_map_left_iff] at hitems
      exact hitems.imp fun p item hitem => mirrorsCell_of_encode hitem

/-- A field is there unless it is empty. -/
theorem mem_omitEmpty {key k : String} {empty : Bool} {doc d : Json} :
    (k, d) ∈ omitEmpty key empty doc ↔ k = key ∧ empty = false ∧ d = doc := by
  cases empty <;> simp [omitEmpty]

/-- A field has its own key. -/
theorem keys_omitEmpty (key : String) (empty : Bool) (doc : Json) :
    ((omitEmpty key empty doc).map Prod.fst).Sublist [key] := by
  cases empty <;> simp [omitEmpty]

/-- **A result is mirrored.** -/
theorem mirrorsResult_of_encode {q : RawQueryRes} {j : Json}
    (h : encodeQueryRes float (encQueryRes q) = .ok j) : MirrorsResult float q j := by
  obtain ⟨rows, hrows, rfl⟩ := map_eq_ok_iff.mp h
  simp only [encQueryRes, encodeRows, convertValues] at hrows
  rw [mapM_eq_ok_iff, List.forall₂_map_left_iff] at hrows
  have hmirror : List.Forall₂ (MirrorsRow float) q.values rows :=
    hrows.imp fun row doc hdoc => mirrorsRow_of_encode hdoc
  have hempty : rows = [] ↔ q.values = [] := by
    rw [← List.length_eq_zero_iff, ← List.length_eq_zero_iff, hmirror.length_eq]
  refine ⟨_, rows, rfl, hmirror, ?_, fun key doc => ?_⟩
  · -- the keys are among those of the four fields, in their order
    have hkeys := (((keys_omitEmpty "columns" q.columns.isEmpty (.arr (q.columns.map .str))).append
      (keys_omitEmpty "types" q.types.isEmpty (.arr (q.types.map .str)))).append
      (keys_omitEmpty "values" rows.isEmpty (.arr rows))).append
      (keys_omitEmpty "error" (q.error = "") (.str q.error))
    simp only [← List.map_append] at hkeys
    exact hkeys.nodup (by decide)
  · change (key, doc) ∈ omitTexts "columns" q.columns ++ omitTexts "types" q.types ++
      omitDocs "values" rows ++ omitText "error" q.error ↔ _
    simp only [List.mem_append, omitTexts, omitDocs, omitText, mem_omitEmpty,
      List.isEmpty_eq_false_iff, decide_eq_false_iff_not, ne_eq, hempty, or_assoc]

/-- **The JSON answer mirrors the results.** The text is that of an array with one object per
result, in order, and each object mirrors its result. -/
theorem answer_mirrors_results (results : List RawQueryRes) {text : String}
    (h : protoToJSON float (.queryResults (results.map some)) = .ret (.ok text)) :
    ∃ docs, text = .ofList ((Json.arr docs).text false) ∧
      List.Forall₂ (MirrorsResult float) results docs := by
  rw [protoToJSON_queryResults, Outcome.ret.injEq, map_eq_ok_iff] at h
  obtain ⟨docs, hdocs, rfl⟩ := h
  rw [mapM_eq_ok_iff, List.forall₂_map_left_iff] at hdocs
  exact ⟨docs, rfl, hdocs.imp fun q doc hdoc => mirrorsResult_of_encode hdoc⟩

/-- Two rows of a table, as the engine returns them: an id and a name, and then an id and a
`NULL`. -/
def twoRows : RawQueryRes where
  columns := ["id", "name"]
  types := ["integer", "text"]
  values := [some ⟨some [some ⟨some (.i 1), ""⟩, some ⟨some (.s "atest"), ""⟩]⟩,
    some ⟨some [some ⟨some (.i 2), ""⟩, none]⟩]

/-- Their text. -/
def twoRowsText : String :=
  "[\x7b\"columns\":[\"id\",\"name\"],\"types\":[\"integer\",\"text\"]," ++
    "\"values\":[[1,\"atest\"],[2,null]]\x7d]"

/-- The answer for two rows, and the document in it. -/
theorem answer_mirrors_twoRows :
    protoToJSON (fun _ => ⟨false, 0, 0⟩) (.queryResults [some twoRows]) =
        .ret (.ok twoRowsText) ∧
      ∃ doc, MirrorsResult (fun _ => ⟨false, 0, 0⟩) twoRows doc := by
  have htext : protoToJSON (fun _ => ⟨false, 0, 0⟩) (.queryResults [some twoRows]) =
      .ret (.ok twoRowsText) := by decide +kernel
  obtain ⟨docs, -, hmirror⟩ := answer_mirrors_results [twoRows] htext
  obtain ⟨doc, -, hdoc, -⟩ := List.forall₂_cons_left_iff.mp hmirror
  exact ⟨htext, doc, hdoc⟩

end

end Encoding

end DistSql
