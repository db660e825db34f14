import Mathlib.Data.List.Basic
import Mathlib.Data.Option.Basic

/-!
# SQLite Sessions

One connection to a SQLite database, as a Go program sees it through `database/sql`
and its driver. The contents of a database are an arbitrary type `D`, and what a
plain statement does to them is a parameter (`Driver`); what is fixed here is the
part that the transaction-control texts share with the Go-level transaction object:
the **session**, that is the published database together with the hidden state of
the connection. Besides its transaction a connection has **settings** of its own, which
outlive every statement: its TEMP tables, what PRAGMAs have set, and what the last
statement left to be read (`Settings`).

* A connection outside a transaction publishes every plain statement at once
  (autocommit).
* `BEGIN` and an outermost `SAVEPOINT` open a transaction. The first statement that
  touches the database takes a snapshot; later statements of the transaction work on
  it, and nobody else sees the work before `COMMIT` (or the `RELEASE` of an outermost
  savepoint) publishes it.
* A statement fails alone, except for the conflict clauses and the errors that roll back
  the whole transaction; a statement that reads can meet with such an error too.
* A statement need not come to an end.

The texts that run on a session are the subject of `DistSql.Text`.
-/

namespace Sqlite

/-! ### Values, cells and statements -/

/-- An IEEE double, by its bit pattern. -/
abbrev Float64 := UInt64

/-- A value bound to a statement parameter. -/
inductive Value
  | int (i : Int64)
  | double (d : Float64)
  | bool (b : Bool)
  | bytes (y : List UInt8)
  | text (s : String)
  deriving DecidableEq, Repr

/-- A bound argument; the empty name binds by position. -/
structure NamedArg where
  name : String
  value : Value
  deriving DecidableEq, Repr

/-- A `time.Time`: its year, the hours of its offset from UTC, and its RFC 3339 text. -/
structure Time where
  year : Int
  zoneHour : ℕ
  rfc3339 : String
  deriving DecidableEq, Repr

/-- The time has a text by RFC 3339: a year of four digits, and an offset of less than a
day. -/
def Time.Strict (t : Time) : Prop := (0 ≤ t.year ∧ t.year ≤ 9999) ∧ t.zoneHour < 24

instance (t : Time) : Decidable t.Strict := inferInstanceAs (Decidable (_ ∧ _))

/-- `Time.MarshalText`: the RFC 3339 text, when the time has one. -/
def Time.marshalText (t : Time) : Except String String :=
  if 0 ≤ t.year ∧ t.year ≤ 9999 then
    if t.zoneHour < 24 then .ok t.rfc3339
    else .error "Time.MarshalText: timezone hour outside of range [0,23]"
  else .error "Time.MarshalText: year outside of range [0,9999]"

/-- A time marshals exactly when it has a text by RFC 3339. -/
theorem Time.marshalText_eq (t : Time) :
    (t.Strict ∧ t.marshalText = .ok t.rfc3339) ∨ ¬t.Strict ∧ ∃ m, t.marshalText = .error m := by
  by_cases hyear : 0 ≤ t.year ∧ t.year ≤ 9999
  · by_cases hzone : t.zoneHour < 24
    · exact .inl ⟨⟨hyear, hzone⟩, by simp [Time.marshalText, hyear, hzone]⟩
    · exact .inr ⟨fun h => hzone h.2, by simp [Time.marshalText, hyear, hzone]⟩
  · exact .inr ⟨fun h => hyear h.1, by simp [Time.marshalText, hyear]⟩

/-- A cell of a result row, as scanned into an empty interface. The driver delivers
the first seven kinds; the last two stand for every other dynamic type. -/
inductive Cell
  | null
  | int64 (i : Int64)
  | float64 (d : Float64)
  | bool (b : Bool)
  | string (s : String)
  | bytes (y : List UInt8)
  | time (t : Time)
  | int (i : Int)
  | other (goType : String) (repr : String)
  deriving DecidableEq, Repr

/-- One statement of a SQL text: a transaction-control command, an `ATTACH`, or a plain
one. -/
inductive Cmd
  | begin (immediate : Bool)
  | commit
  | rollback
  | savepoint (name : String)
  | release (name : String)
  | rollbackTo (name : String)
  | attach (sql : String)
  | plain (sql : String)
  deriving DecidableEq, Repr

/-- The command opens a transaction when there is none. -/
def Cmd.opens : Cmd → Bool
  | begin _ | savepoint _ => true
  | _ => false

/-- The command ends the transaction that `BEGIN` opened. -/
def Cmd.ends : Cmd → Bool
  | commit | rollback => true
  | _ => false

/-- The command attaches a database. -/
def Cmd.attaches : Cmd → Bool
  | attach _ => true
  | _ => false

/-- The text of a command that the library runs, which is every one but transaction
control. -/
def Cmd.sql? : Cmd → Option String
  | attach sql | plain sql => some sql
  | _ => none

/-- The result of an executed statement; either count may fail to be read. -/
structure Result where
  lastInsertId : Except String Int64
  rowsAffected : Except String Int64
  deriving Repr

/-- The result of a statement that touches no row. -/
def Result.zero : Result := ⟨.ok 0, .ok 0⟩

/-- What SQLite keeps with a connection besides its transaction: the last inserted id and
the last count of changed rows, which the driver reads off after every statement; whether
the connection keeps its locks (`PRAGMA locking_mode = EXCLUSIVE`); its TEMP tables; and its
other settings, with the databases that are attached to it. Only the library looks into the
last two. -/
structure Settings where
  result : Result
  exclusive : Bool
  temp : List UInt8
  flags : List UInt8
  deriving Repr

/-- The settings of a new connection. -/
def Settings.initial : Settings := ⟨.zero, false, [], []⟩

/-- What a statement does: to the database it runs on, and to the settings of its
connection. It succeeds, fails alone, fails and rolls back, or does not come to an end. -/
inductive Effect (D : Type)
  | ok (db : D) (own : Settings)
  | fail (own : Settings) (msg : String)
  | failRollback (own : Settings) (msg : String)
  | never

/-- Why a call has no result: it returns an error, or it does not return. -/
inductive Halt
  | msg (text : String)
  | never
  deriving DecidableEq, Repr

/-- The rows of a query: the declared column types, the column names, the rows in
order (each scanned, or failing to scan), the error after which stepping stopped, and
whether that error rolled the transaction back. An endless query goes on forever after
the listed rows, and none of its further rows makes a reader stop. -/
structure Cursor where
  columnTypes : Except String (List String)
  columns : Except String (List String)
  rows : List (Except String (List Cell))
  err : Option String
  endless : Bool := false
  rollback : Bool := false

/-- The rows of a statement of the library, and the settings that it leaves. -/
structure Answer extends Cursor where
  own : Settings

/-- The cursor of a statement that returns no rows. -/
def Cursor.ofResult : Except Halt Result → Cursor
  | .ok _ => ⟨.ok [], .ok [], [], none, false, false⟩
  | .error (.msg m) => ⟨.ok [], .ok [], [], some m, false, false⟩
  | .error .never => ⟨.ok [], .ok [], [], none, true, false⟩

/-- The cursor of a text that ends in a comment or an empty statement: stepping a
statement that is not there never reports that it is done, and the driver delivers rows
without columns for as long as it is asked. -/
def Cursor.blank : Cursor := ⟨.ok [], .ok [], [], none, true, false⟩

/-- The driver and the library under it. `D` is the type of databases, `E` the type
of what the local clock and random source produce for one statement, and of everything
else in which two runs of one statement may differ. -/
structure Driver (D E : Type) where
  /-- The database of a new file. -/
  empty : D
  /-- The bytes of the file that holds a database. -/
  image : D → List UInt8
  /-- The database that the bytes of a file denote. -/
  ofImage : List UInt8 → D
  /-- The statements of a text, in order. -/
  split : String → List Cmd
  /-- Whether a comment or an empty statement follows the last statement of a text. -/
  trails : String → Bool
  /-- The arguments of the statement with the given number in a text. -/
  bind : String → List NamedArg → ℕ → Except String (List NamedArg)
  /-- Compile a plain statement: an error, or whether it is read-only, with the settings
  that it leaves. There are PRAGMAs that take effect here. -/
  compile : String → Settings → D → Except String (Settings × Bool)
  /-- Whether a statement writes nothing but TEMP tables. -/
  tempOnly : String → Settings → D → Bool
  /-- Execute a statement. -/
  exec : E → String → List NamedArg → Settings → D → Effect D
  /-- The columns of a plain statement, and the rows it delivers. -/
  query : E → String → List NamedArg → Settings → D → Answer

/-- What the file format promises: a file denotes the database it was written for,
and the file of the empty database has no bytes. -/
structure Driver.LawfulImage {D E : Type} (drv : Driver D E) : Prop where
  ofImage_image : ∀ d, drv.ofImage (drv.image d) = d
  image_empty : drv.image drv.empty = []

/-- What the rows of a statement promise: open rows know their columns, and every row
has one cell per column. -/
def Driver.LawfulRows {D E : Type} (drv : Driver D E) : Prop :=
  ∀ e sql args own d, ∃ types cols,
    (drv.query e sql args own d).columnTypes = .ok types ∧
      (drv.query e sql args own d).columns = .ok cols ∧
      ∀ row, .ok row ∈ (drv.query e sql args own d).rows → row.length = types.length

/-- What the errors of the library promise: none of them has an empty text. -/
structure Driver.LawfulErrors {D E : Type} (drv : Driver D E) : Prop where
  compile : ∀ sql own d m, drv.compile sql own d = .error m → m ≠ ""
  bind : ∀ text args j m, drv.bind text args j = .error m → m ≠ ""
  fail : ∀ e sql args own d own' m, drv.exec e sql args own d = .fail own' m → m ≠ ""
  failRollback : ∀ e sql args own d own' m,
    drv.exec e sql args own d = .failRollback own' m → m ≠ ""
  query : ∀ e sql args own d m, (drv.query e sql args own d).err = some m → m ≠ ""

/-! ### Connections and sessions -/

/-- What a transaction sees: the database at its first access, its own work on it,
and whether it changed anything. -/
structure View (D : Type) where
  snap : D
  work : D
  wrote : Bool

/-- A savepoint: its name, the work at it (`none` before the first access), and the TEMP
tables at it. -/
structure Save (D : Type) where
  name : String
  work : Option D
  temp : List UInt8

/-- An open transaction: its view (`none` before its first access), its savepoints,
innermost first, whether its outermost savepoint opened it, and the TEMP tables when it
began. -/
structure Tx (D : Type) where
  view : Option (View D)
  saves : List (Save D)
  bySavepoint : Bool
  temp : List UInt8

/-- The transaction of a plain `BEGIN`, which touches nothing yet. -/
def Tx.deferred {D : Type} (temp : List UInt8) : Tx D := ⟨none, [], false, temp⟩

/-- A pooled connection: whether a write can reach the database through it (it was
opened for writing, or a database was attached to it since), its open transaction, and
its settings. -/
structure Conn (D : Type) where
  canWrite : Bool
  tx : Option (Tx D)
  settings : Settings

/-- A connection that was just opened, read-only or for writing. -/
def Conn.fresh {D : Type} (readOnly : Bool) : Conn D := ⟨!readOnly, none, .initial⟩

/-- The connection holds a shared lock: it has read inside an open transaction, or it
keeps the lock of its last access for itself. -/
def Conn.holdsShared {D : Type} (c : Conn D) : Bool :=
  c.settings.exclusive || match c.tx with
    | some t => t.view.isSome
    | none => false

/-- A **session**: the published database and one connection to it. -/
structure Session (D : Type) where
  db : D
  conn : Conn D

section Sessions

variable {D : Type}

/-- The view of a transaction, taken now if it has none yet. -/
def Tx.current (t : Tx D) (db : D) : View D := t.view.getD ⟨db, db, false⟩

/-- The database after the transaction is committed. -/
def Tx.publish (t : Tx D) (db : D) : D :=
  match t.view with
  | some v => if v.wrote then v.work else db
  | none => db

namespace Session

/-- The connection is outside any transaction. -/
def Idle (s : Session D) : Prop := s.conn.tx = none

/-- The database a statement on this connection works on. -/
def see (s : Session D) : D :=
  match s.conn.tx with
  | some t => (t.current s.db).work
  | none => s.db

/-- Replace the open transaction. -/
def setTx (s : Session D) (t : Option (Tx D)) : Session D :=
  { s with conn := { s.conn with tx := t } }

/-- Replace the settings of the connection. -/
def keep (s : Session D) (own : Settings) : Session D :=
  { s with conn := { s.conn with settings := own } }

/-- Open a transaction by a plain `BEGIN`. -/
def opened (s : Session D) : Session D := s.setTx (some (.deferred s.conn.settings.temp))

/-- Roll back the open transaction, if there is one, and the work on TEMP tables in it. -/
def undo (s : Session D) : Session D :=
  { s with
    conn :=
      { s.conn with
        tx := none
        settings :=
          { s.conn.settings with
            temp := match s.conn.tx with
              | some t => t.temp
              | none => s.conn.settings.temp } } }

/-- A statement accesses the database without changing it. -/
def touch (s : Session D) : Session D :=
  match s.conn.tx with
  | some t => s.setTx (some { t with view := some (t.current s.db) })
  | none => s

/-- A statement changes the database: the work of the transaction, or at once. -/
def write (s : Session D) (d : D) : Session D :=
  match s.conn.tx with
  | some t =>
      s.setTx (some { t with view := some { t.current s.db with work := d, wrote := true } })
  | none => { s with db := d }

/-- Commit the open transaction. -/
def commit (s : Session D) (t : Tx D) : Session D :=
  { s.setTx none with db := t.publish s.db }

@[simp] theorem setTx_tx (s : Session D) (t : Option (Tx D)) : (s.setTx t).conn.tx = t := rfl

@[simp] theorem setTx_db (s : Session D) (t : Option (Tx D)) : (s.setTx t).db = s.db := rfl

@[simp] theorem setTx_canWrite (s : Session D) (t : Option (Tx D)) :
    (s.setTx t).conn.canWrite = s.conn.canWrite := rfl

@[simp] theorem setTx_settings (s : Session D) (t : Option (Tx D)) :
    (s.setTx t).conn.settings = s.conn.settings := rfl

@[simp] theorem keep_db (s : Session D) (own : Settings) : (s.keep own).db = s.db := rfl

@[simp] theorem keep_tx (s : Session D) (own : Settings) :
    (s.keep own).conn.tx = s.conn.tx := rfl

@[simp] theorem keep_canWrite (s : Session D) (own : Settings) :
    (s.keep own).conn.canWrite = s.conn.canWrite := rfl

@[simp] theorem keep_settings (s : Session D) (own : Settings) :
    (s.keep own).conn.settings = own := rfl

@[simp] theorem keep_see (s : Session D) (own : Settings) : (s.keep own).see = s.see := rfl

/-- To keep the settings is to change nothing. -/
@[simp] theorem keep_self (s : Session D) : s.keep s.conn.settings = s := rfl

@[simp] theorem undo_db (s : Session D) : s.undo.db = s.db := rfl

@[simp] theorem undo_tx (s : Session D) : s.undo.conn.tx = none := rfl

@[simp] theorem undo_canWrite (s : Session D) : s.undo.conn.canWrite = s.conn.canWrite := rfl

@[simp] theorem commit_tx (s : Session D) (t : Tx D) : (s.commit t).conn.tx = none := rfl

@[simp] theorem touch_db (s : Session D) : s.touch.db = s.db := by
  rw [touch]
  split <;> rfl

@[simp] theorem touch_canWrite (s : Session D) :
    s.touch.conn.canWrite = s.conn.canWrite := by
  rw [touch]
  split <;> rfl

@[simp] theorem touch_settings (s : Session D) :
    s.touch.conn.settings = s.conn.settings := by
  rw [touch]
  split <;> rfl

@[simp] theorem write_canWrite (s : Session D) (d : D) :
    (s.write d).conn.canWrite = s.conn.canWrite := by
  rw [write]
  split <;> rfl

@[simp] theorem write_settings (s : Session D) (d : D) :
    (s.write d).conn.settings = s.conn.settings := by
  rw [write]
  split <;> rfl

/-- Outside a transaction a read leaves no trace on the connection. -/
theorem touch_idle {s : Session D} (h : s.Idle) : s.touch = s := by
  rw [touch, h]

/-- Outside a transaction a write is published at once. -/
theorem write_idle {s : Session D} (h : s.Idle) (d : D) : s.write d = { s with db := d } := by
  rw [write, h]

end Session

end Sessions

end Sqlite
