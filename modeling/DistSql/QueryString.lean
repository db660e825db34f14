import DistSql.Url

/-!
# Printing a Query

The encoding half of Go's queries: `QueryEscape`, and `Encode`, which joins the values of a
query with the separators that it has escaped in them. A space becomes a plus sign, so that a
plus sign has to be escaped.

## Main results

* `queryUnescape_queryEscape`: **a value that was escaped is read as it was**.
* `plain_printQuery`: a query that was printed needs no more escapes anywhere.
* `parseQuery_printQuery`: **a query that was printed is read as it was**.
-/

namespace Url

/-- `shouldEscape` for the values of a query. -/
def shouldEscapeQuery (b : UInt8) : Bool :=
  !((0x61 ≤ b && b ≤ 0x7A) || (0x41 ≤ b && b ≤ 0x5A) || (0x30 ≤ b && b ≤ 0x39) ||
    b ∈ ([0x2D, 0x5F, 0x2E, 0x7E] : Bytes))

/-- `QueryEscape`: a space becomes a plus sign. -/
def queryEscape (s : Bytes) : Bytes :=
  (encode true (fun b => shouldEscapeQuery b && b != space) s).map fun b =>
    if b = space then plus else b

/-- A byte of a value that was escaped. -/
def QueryByte (b : UInt8) : Prop := b = percent ∨ b = plus ∨ shouldEscapeQuery b = false

instance (b : UInt8) : Decidable (QueryByte b) := inferInstanceAs (Decidable (_ ∨ _))

/-- Escaping byte by byte. -/
theorem queryEscape_cons (b : UInt8) (s : Bytes) :
    queryEscape (b :: s) = queryEscape [b] ++ queryEscape s := by
  rw [queryEscape, encode_cons, List.map_append]
  rfl

/-- The bytes of a value that was escaped. -/
theorem queryByte_queryEscape {s : Bytes} : ∀ b ∈ queryEscape s, QueryByte b := by
  have hbyte : ∀ b : UInt8, (queryEscape [b]).all (fun c => decide (QueryByte c)) = true :=
    forall_byte (by decide +kernel)
  induction s with
  | nil => exact fun b hb => absurd hb List.not_mem_nil
  | cons b s ih =>
      intro c hc
      rw [queryEscape_cons] at hc
      rcases List.mem_append.mp hc with hc | hc
      · exact of_decide_eq_true (List.all_eq_true.mp (hbyte b) c hc)
      · exact ih c hc

/-- They stand in a URL as they are, and separate nothing. -/
theorem QueryByte.plain {b : UInt8} (h : QueryByte b) :
    b ≠ ampersand ∧ b ≠ equals ∧ b ≠ semicolon ∧ b ≠ hash ∧ TargetByte b ∧ b < 0x80 := by
  have hall : ∀ b : UInt8, QueryByte b →
      b ≠ ampersand ∧ b ≠ equals ∧ b ≠ semicolon ∧ b ≠ hash ∧ TargetByte b ∧ b < 0x80 :=
    forall_byte (by decide +kernel)
  exact hall b h

/-- **A value that was escaped is read as it was.** -/
theorem queryUnescape_queryEscape (s : Bytes) : queryUnescape (queryEscape s) = some s := by
  have hbyte : ∀ b : UInt8, (queryEscape [b]).map (fun b => if b = plus then space else b) =
      encode true (fun b => shouldEscapeQuery b && b != space) [b] :=
    forall_byte (by decide +kernel)
  have hspaces : ∀ s : Bytes, (queryEscape s).map (fun b => if b = plus then space else b) =
      encode true (fun b => shouldEscapeQuery b && b != space) s := by
    intro s
    induction s with
    | nil => rfl
    | cons b s ih => rw [queryEscape_cons, List.map_append, hbyte, ih, ← encode_cons]
  rw [queryUnescape, hspaces]
  refine unescape_encode fun b _ hb => ?_
  rw [hb]
  decide

/-- A key with its value. -/
def encodePart (v : Bytes × Bytes) : Bytes := queryEscape v.1 ++ equals :: queryEscape v.2

/-- `Encode`, for values in the order in which they are given. -/
def printQuery (values : Values) : Bytes := [ampersand].intercalate (values.map encodePart)

/-- The bytes of a part. -/
theorem mem_encodePart {v : Bytes × Bytes} {b : UInt8} (h : b ∈ encodePart v) :
    b = equals ∨ QueryByte b := by
  rcases List.mem_append.mp h with h | h
  · exact .inr (queryByte_queryEscape b h)
  · rcases List.mem_cons.mp h with h | h
    · exact .inl h
    · exact .inr (queryByte_queryEscape b h)

/-- **A query that was printed** stands in a URL as it is. -/
theorem plain_printQuery (values : Values) :
    ∀ b ∈ printQuery values, b ≠ hash ∧ TargetByte b ∧ b < 0x80 := by
  have hpart : ∀ v : Bytes × Bytes, ∀ b ∈ encodePart v, b ≠ hash ∧ TargetByte b ∧ b < 0x80 := by
    intro v b hb
    rcases mem_encodePart hb with rfl | h
    · decide
    · exact h.plain.2.2.2
  induction values with
  | nil => exact fun b hb => absurd hb List.not_mem_nil
  | cons v rest ih =>
      rcases rest with _ | ⟨w, rest⟩
      · simpa [printQuery, List.intercalate] using hpart v
      · intro b hb
        have hsplit : printQuery (v :: w :: rest) =
            encodePart v ++ ampersand :: printQuery (w :: rest) := by
          simp [printQuery, List.intercalate]
        rw [hsplit] at hb
        rcases List.mem_append.mp hb with hb | hb
        · exact hpart v b hb
        · rcases List.mem_cons.mp hb with rfl | hb
          · decide
          · exact ih b hb

/-- A part is read as it was. -/
theorem queryPart_encodePart (v : Bytes × Bytes) : queryPart (encodePart v) = some (some v) := by
  have hsemicolon : semicolon ∉ encodePart v := by
    intro hmem
    rcases mem_encodePart hmem with h | h
    · exact absurd h (by decide)
    · exact h.plain.2.2.1 rfl
  have hne : encodePart v ≠ [] := by simp [encodePart]
  have hcut : cut equals (encodePart v) = (queryEscape v.1, queryEscape v.2) := by
    rw [encodePart, cut_append fun hmem => (queryByte_queryEscape _ hmem).plain.2.1 rfl,
      cut_cons_self, List.append_nil]
  rw [queryPart, if_neg hsemicolon, if_neg hne]
  simp only [hcut, queryUnescape_queryEscape, Option.bind_some, Option.map_some]

/-- **A query that was printed is read as it was.** -/
theorem parseQuery_printQuery (values : Values) :
    parseQuery (printQuery values) = (values, true) := by
  rcases values with _ | ⟨v, rest⟩
  · decide
  have hparts : ∀ part ∈ (v :: rest).map encodePart, ampersand ∉ part := by
    simp only [List.forall_mem_map]
    intro w _ hmem
    rcases mem_encodePart hmem with h | h
    · exact absurd h (by decide)
    · exact h.plain.1 rfl
  have hsplit : (printQuery (v :: rest)).splitOn ampersand = (v :: rest).map encodePart :=
    List.splitOn_intercalate ampersand hparts (by simp)
  have hread : ((v :: rest).map encodePart).map queryPart =
      (v :: rest).map fun w => some (some w) := by
    rw [List.map_map]
    exact List.map_congr_left fun w _ => queryPart_encodePart w
  simp only [parseQuery, hsplit, hread]
  simp [List.filterMap_map, Function.comp_def, Option.join_some]

end Url
