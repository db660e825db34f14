import DistSql.Text

/-!
# A One-Table Driver

A driver small enough to be evaluated: the database is the column of a single table
`foo(id INTEGER)` with byte-sized entries, and the file that holds it is that column.
It understands the transaction-control texts, one insertion of a constant, one of a
random value, a deletion, and a few queries, and answers them as SQLite does: a new row
gets the id after the last one, a deletion leaves the last inserted id to be read, and a
query leaves both counts. Every other text is a syntax error.
-/

namespace Sqlite

/-- The statements of the texts that `byteTable` understands. -/
def byteTableSplit (text : String) : List Cmd :=
  if text = "BEGIN" then [.begin false]
  else if text = "COMMIT" then [.commit]
  else if text = "ROLLBACK" then [.rollback]
  else if text = "SAVEPOINT a" then [.savepoint "a"]
  else if text = "SELECT 1; DELETE FROM foo" then [.plain "SELECT 1", .plain "DELETE FROM foo"]
  else [.plain text]

/-- The texts of `byteTable` that read, and those that write. -/
def byteTableCompile (sql : String) (own : Settings) : Except String (Settings × Bool) :=
  if sql = "SELECT * FROM foo" ∨ sql = "SELECT 1" ∨ sql = "SELECT x'01'" then .ok (own, true)
  else if sql = "INSERT INTO foo VALUES(1)" ∨ sql = "INSERT INTO foo VALUES(random())" ∨
      sql = "DELETE FROM foo" then .ok (own, false)
  else .error "syntax error"

/-- The settings after an insertion into the table. -/
def byteTableInserted (own : Settings) (rows : List UInt8) : Settings :=
  { own with result := ⟨.ok (.ofNat (rows.length + 1)), .ok 1⟩ }

/-- What the texts of `byteTable` do to the table. -/
def byteTableExec (random : UInt8) (sql : String) (own : Settings) (rows : List UInt8) :
    Effect (List UInt8) :=
  if sql = "INSERT INTO foo VALUES(1)" then .ok (rows ++ [1]) (byteTableInserted own rows)
  else if sql = "INSERT INTO foo VALUES(random())" then
    .ok (rows ++ [random]) (byteTableInserted own rows)
  else if sql = "DELETE FROM foo" then
    .ok [] { own with result := ⟨own.result.lastInsertId, .ok (.ofNat rows.length)⟩ }
  else .ok rows own

/-- What the queries of `byteTable` answer. The column of an expression has no declared
type. -/
def byteTableQuery (sql : String) (rows : List UInt8) : Cursor :=
  if sql = "SELECT * FROM foo" then
    ⟨.ok ["INTEGER"], .ok ["id"], rows.map fun b => .ok [.int64 (.ofNat b.toNat)], none, false,
      false⟩
  else if sql = "SELECT x'01'" then
    ⟨.ok [""], .ok ["x'01'"], [.ok [.bytes [1]]], none, false, false⟩
  else if sql = "SELECT 1" then ⟨.ok [""], .ok ["1"], [.ok [.int64 1]], none, false, false⟩
  else ⟨.ok [], .ok [], [], none, false, false⟩

/-- The one-table driver. -/
def byteTable : Driver (List UInt8) UInt8 where
  empty := []
  image rows := rows
  ofImage b := b
  split := byteTableSplit
  trails _ := false
  bind _ args _ := .ok args
  compile sql own _ := byteTableCompile sql own
  tempOnly _ _ _ := false
  exec random sql _ own rows := byteTableExec random sql own rows
  query _ sql _ own rows := ⟨byteTableQuery sql rows, own⟩

/-- A text whose second row cannot be computed. -/
def overflowText : String :=
  "SELECT abs(v) FROM (SELECT 1 AS v UNION ALL SELECT -9223372036854775808)"

/-- The one-table driver next to a table `event(at DATETIME)`, which holds the first
second of the year 10000; its texts also include one that fails after a row. -/
def eventTable : Driver (List UInt8) UInt8 :=
  { byteTable with
    compile := fun sql own _ =>
      if sql = overflowText ∨ sql = "SELECT at FROM event" then .ok (own, true)
      else byteTableCompile sql own
    query := fun _ sql _ own rows =>
      ⟨if sql = overflowText then
          ⟨.ok [""], .ok ["abs(v)"], [.ok [.int64 1]], some "integer overflow", false, false⟩
        else if sql = "SELECT at FROM event" then
          ⟨.ok ["DATETIME"], .ok ["at"], [.ok [.time ⟨10000, 0, "10000-01-01T00:00:00Z"⟩]], none,
            false, false⟩
        else byteTableQuery sql rows, own⟩ }

/-- The file of the one-table driver denotes the table it was written for. -/
theorem byteTable_lawfulImage : byteTable.LawfulImage := ⟨fun _ => rfl, rfl⟩

/-- The rows of the one-table driver have one cell per column. -/
theorem byteTable_lawfulRows : byteTable.LawfulRows := by
  intro e sql args own rows
  simp only [byteTable, byteTableQuery]
  split
  · refine ⟨_, _, rfl, rfl, fun row hrow => ?_⟩
    obtain ⟨b, -, hb⟩ := List.mem_map.mp hrow
    rw [← Except.ok.inj hb]
    rfl
  split
  · exact ⟨_, _, rfl, rfl, fun row hrow => by rw [Except.ok.inj (List.mem_singleton.mp hrow)]; rfl⟩
  split
  · exact ⟨_, _, rfl, rfl, fun row hrow => by rw [Except.ok.inj (List.mem_singleton.mp hrow)]; rfl⟩
  · exact ⟨_, _, rfl, rfl, fun row hrow => absurd hrow List.not_mem_nil⟩

/-- The rows of the driver with events have one cell per column. -/
theorem eventTable_lawfulRows : eventTable.LawfulRows := by
  intro e sql args own rows
  simp only [eventTable]
  split
  · exact ⟨_, _, rfl, rfl, fun row hrow => by rw [Except.ok.inj (List.mem_singleton.mp hrow)]; rfl⟩
  split
  · exact ⟨_, _, rfl, rfl, fun row hrow => by rw [Except.ok.inj (List.mem_singleton.mp hrow)]; rfl⟩
  · exact byteTable_lawfulRows e sql args own rows

/-- What the texts of the one-table driver do never fails. -/
theorem byteTableExec_ok (random : UInt8) (sql : String) (own : Settings) (rows : List UInt8) :
    ∃ rows' own', byteTableExec random sql own rows = .ok rows' own' := by
  rw [byteTableExec]
  split
  · exact ⟨_, _, rfl⟩
  split
  · exact ⟨_, _, rfl⟩
  split <;> exact ⟨_, _, rfl⟩

/-- Compiling a text of the one-table driver leaves the settings alone. -/
theorem byteTableCompile_fst {sql : String} {own own' : Settings} {ro : Bool}
    (h : byteTableCompile sql own = .ok (own', ro)) : own' = own := by
  rw [byteTableCompile] at h
  split at h
  · exact (Prod.mk.inj (Except.ok.inj h)).1.symm
  split at h
  · exact (Prod.mk.inj (Except.ok.inj h)).1.symm
  · simp at h

/-- The errors of the one-table driver have texts. -/
theorem byteTable_lawfulErrors : byteTable.LawfulErrors := by
  refine ⟨?_, by simp [byteTable], ?_, ?_, ?_⟩
  · intro sql own d m h
    simp only [byteTable, byteTableCompile] at h
    split at h
    · simp at h
    split at h
    · simp at h
    · rw [← Except.error.inj h]
      decide
  · intro e sql args own d own' m h
    obtain ⟨rows', own'', hok⟩ := byteTableExec_ok e sql own d
    exact absurd (hok.symm.trans h) (by simp)
  · intro e sql args own d own' m h
    obtain ⟨rows', own'', hok⟩ := byteTableExec_ok e sql own d
    exact absurd (hok.symm.trans h) (by simp)
  · intro e sql args own d m h
    simp only [byteTable, byteTableQuery] at h
    split at h
    · simp at h
    split at h
    · simp at h
    split at h <;> simp at h

/-- The errors of the driver with events have texts. -/
theorem eventTable_lawfulErrors : eventTable.LawfulErrors := by
  refine ⟨fun sql own d m h => ?_, byteTable_lawfulErrors.bind, byteTable_lawfulErrors.fail,
    byteTable_lawfulErrors.failRollback, fun e sql args own d m h => ?_⟩
  · simp only [eventTable] at h
    split at h
    · simp at h
    · exact byteTable_lawfulErrors.compile sql own d m h
  · simp only [eventTable] at h
    split at h
    · rw [← Option.some.inj h]
      decide
    split at h
    · simp at h
    · exact byteTable_lawfulErrors.query e sql args own d m h

/-- The insertion of a constant does not read the clock or the random source. -/
theorem byteTable_insert_localFree : LocalFree byteTable "INSERT INTO foo VALUES(1)" := by
  intro c hc sql hsql e e' args own d
  have hc' : c = .plain "INSERT INTO foo VALUES(1)" := List.mem_singleton.mp hc
  obtain rfl : sql = "INSERT INTO foo VALUES(1)" := by
    rw [hc'] at hsql
    exact (Option.some.inj hsql).symm
  rfl

end Sqlite
