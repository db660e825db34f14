import DistSql.Pb

/-!
# Entries on the Wire

The wire format belongs to the protobuf library, and the development only assumes that
its decoder undoes its encoder. This module has an instance of that assumption: a
library that knows a few messages, with the bytes that protobuf gives them, and refuses
all others. It is what the concrete runs of the other modules are encoded with.
-/

open Sqlite

namespace DistSql

/-- A library that knows the messages of a table. -/
def Codec.table {α : Type} [DecidableEq α] (t : List (α × List UInt8)) : Codec α where
  marshal m :=
    match t.find? fun p => p.1 = m with
    | some p => .ok p.2
    | none => .error "proto: not in the table"
  unmarshal b :=
    match t.find? fun p => p.2 = b with
    | some p => .ok p.1
    | none => .error "proto: cannot parse invalid wire-format data"

/-- The decoder of a table undoes its encoder when no two messages share their bytes. -/
theorem Codec.table_lawful {α : Type} [DecidableEq α] {t : List (α × List UInt8)}
    (h : ∀ p ∈ t, ∀ q ∈ t, p.2 = q.2 → p.1 = q.1) : (Codec.table t).Lawful := by
  intro m b hm
  simp only [Codec.table] at hm ⊢
  rcases hf : t.find? fun p => decide (p.1 = m) with _ | p
  · simp [hf] at hm
  obtain rfl : p.2 = b := by simpa [hf] using hm
  have hp : p ∈ t := List.mem_of_find?_eq_some hf
  have hpm : p.1 = m := by simpa using List.find?_some hf
  rcases hg : t.find? fun q => decide (q.2 = p.2) with _ | q
  · have hnone := List.find?_eq_none.mp hg p hp
    simp at hnone
  · have hq : q ∈ t := List.mem_of_find?_eq_some hg
    have hqp : q.2 = p.2 := by simpa using List.find?_some hg
    simp only [hg, h q hq p hp hqp, hpm]

/-- A length-delimited field of less than 128 bytes. -/
def lenField (tag : UInt8) (payload : List UInt8) : List UInt8 :=
  tag :: .ofNat payload.length :: payload

/-- A request with one statement and no parameters. -/
def oneStmt (sql : String) : Request := ⟨false, [⟨sql, []⟩]⟩

/-- The bytes of `oneStmt`, for an ASCII text. -/
def oneStmtBytes (sql : String) : List UInt8 :=
  lenField 0x12 (lenField 0x0a (sql.toList.map fun c => .ofNat c.toNat))

/-- The bytes of a strong query with one statement. -/
def oneQueryBytes (sql : String) : List UInt8 := lenField 0x0a (oneStmtBytes sql) ++ [0x10, 1]

/-- The entry that executes `oneStmt`. -/
def execEntry (sql : String) : List UInt8 := [8, 1] ++ lenField 0x12 (oneStmtBytes sql)

/-- The entry of a strong query with one statement; the type `ACTION_QUERY` is zero and
does not appear. -/
def queryEntry (sql : String) : List UInt8 := lenField 0x12 (oneQueryBytes sql)

/-- The texts that are executed in the concrete runs. -/
def execTexts : List String := ["INSERT INTO foo VALUES(1)", "INSERT INTO foo VALUES(random())"]

/-- The texts that are queried in the concrete runs. -/
def queryTexts : List String := ["SELECT * FROM foo", "SELECT x'01'"]

/-- The library that knows these requests and the actions that carry them. -/
def tableProto : Proto where
  request := .table (execTexts.map fun sql => (oneStmt sql, oneStmtBytes sql))
  queryReq := .table (queryTexts.map fun sql => (⟨some (oneStmt sql), true⟩, oneQueryBytes sql))
  action := .table
    ((execTexts.map fun sql => (⟨.execute, oneStmtBytes sql⟩, execEntry sql)) ++
      queryTexts.map fun sql => (⟨.query, oneQueryBytes sql⟩, queryEntry sql))

/-- No two messages of the tables share their bytes. -/
theorem tableProto_lawful : tableProto.Lawful where
  request := Codec.table_lawful (by decide)
  queryReq := Codec.table_lawful (by decide)
  action := Codec.table_lawful (by decide)

end DistSql
