import DistSql.ByteTable
import DistSql.Machine
import DistSql.ReadPath

/-!
# Queries and Writes on One Node

Queries run on a pool of read connections next to the requests that are executed on the
write connection, and nothing but SQLite stands between the two. The model of a node
(`Node`, `nodeStep`) interleaves them statement by statement: a query obtains a pooled
connection, runs its statements one by one, with the rows of a statement open for a
while, and gives the connection back; a request is executed one statement at a time.

What a query holds against a writer is a shared lock: while its rows are open, while
its connection is inside a transaction that has read, and for good once a PRAGMA has made
the connection keep its locks. A writer that waits for the lock longer than the busy
timeout fails with `database is locked`. How long a lock lasts is the environment's
decision (`waits`), and so is every other local failure.

**Queries leave writes alone** when nothing that a query runs writes or changes the locking
mode, no query without `Transaction` opens a transaction by its text (it would stay open on
the pooled connection after the query), and no lock of a query in flight outlives the wait
of a writer. Without the condition on transactions they do not.

## Main results

* `nodeStep_hidden`: a step of a query changes nothing that writes depend on.
* `nodeStep_visible`: a step of a request does the same with and without queries.
* `queries_do_not_interfere`: every interleaving, by the unwinding rule.
* `begin_query_blocks_write`: a `BEGIN` text in a query makes a later write fail.
* `run_exec`: the steps of one request in a row are `Engine.Exec`.
-/

open Golang Sqlite

namespace DistSql

variable {D E : Type}

/-! ### The node -/

/-- The error of a writer that waited too long. -/
def errLocked : String := "database is locked"

/-- A query in flight: its request and local circumstances, the number of its next
statement, where its loop stands, and whether rows are open. -/
structure InFlight (E : Type) where
  req : Request
  loc : Local E
  pos : ℕ
  loop : Outcome (Except String (List QueryRes))
  reading : Bool

/-- A pooled read connection, with the query that has it. -/
structure Slot (D E : Type) where
  conn : Conn D
  query : Option (InFlight E)

/-- A request that is being executed: its local circumstances, the number of its next
statement, the transaction variable and the results of `Engine.Exec`, whether it is stuck
in a statement, and whether its loop was left early. -/
structure Executing (E : Type) where
  req : Request
  loc : Local E
  pos : ℕ
  tx : Bool
  results : List ExecRes
  hung : Bool
  broke : Bool

/-- What a request that was executed left: its results, its error, and the published
database. -/
structure Executed (D : Type) where
  results : List ExecRes
  error : Option String
  db : D

/-- A node: the published database, the write connection, the pool of read connections,
the request that is being executed, and those that were. -/
structure Node (D E : Type) where
  db : D
  write : Conn D
  slots : List (Slot D E)
  current : Option (Executing E)
  done : List (Executed D)

/-- A node whose engine was just opened. -/
def Node.init (d : D) : Node D E := ⟨d, .fresh false, [], none, []⟩

/-- The slot holds a shared lock: its connection does, or its rows are open. -/
def Slot.holdsLock (slot : Slot D E) : Bool :=
  slot.conn.holdsShared || match slot.query with
    | some run => run.reading
    | none => false

/-- A writer waits for the lock of a slot, and the lock outlives the wait. -/
def Node.busy (s : Node D E) (waits : ℕ → Bool) : Option String :=
  if s.slots.zipIdx.any fun p => p.1.holdsLock && waits p.2 then some errLocked else none

/-! ### Steps of a request -/

/-- The request ends. -/
def Node.finished (s : Node D E) (results : List ExecRes) (error : Option String) :
    Node D E :=
  { s with current := none, done := s.done ++ [⟨results, error, s.db⟩] }

/-- `Engine.Exec` begins. -/
def Node.execStart (s : Node D E) (req : Request) (loc : Local E) : Node D E :=
  match s.current with
  | some _ => s
  | none =>
      match loc.conn with
      | some m => s.finished [] (some m)
      | none =>
          if req.transaction then
            match beginTx loc.begin ⟨s.db, s.write⟩ with
            | .error m => s.finished [] (some m)
            | .ok s' =>
                { s with write := s'.conn, current := some ⟨req, loc, 0, true, [], false, false⟩ }
          else { s with current := some ⟨req, loc, 0, false, [], false, false⟩ }

/-- One statement of the request. The lock of its command number `j` is refused for a
local reason, or because the lock of a query outlives the wait. -/
def Node.execStmt (drv : Driver D E) (s : Node D E) (waits : ℕ → ℕ → Bool) : Node D E :=
  match s.current with
  | none => s
  | some run =>
      match run.req.statements[run.pos]?, run.broke with
      | some stmt, false =>
          let env : Env E :=
            { run.loc.stmt run.pos with
              lock := fun j => (run.loc.stmt run.pos).lock j <|> s.busy (waits j) }
          let p := execIter drv env stmt ⟨⟨s.db, s.write⟩, run.tx, run.results, run.hung⟩
          { s with
            db := p.1.session.db
            write := p.1.session.conn
            current := some
              { run with pos := run.pos + 1, tx := p.1.tx, results := p.1.results,
                         hung := p.1.hung, broke := !p.2 } }
      | _, _ => s

/-- `Engine.Exec` comes to its end; stuck in a statement it never does. -/
def Node.execEnd (s : Node D E) (waits : ℕ → Bool) : Node D E :=
  match s.current with
  | none => s
  | some run =>
      if run.broke ∨ run.req.statements.length ≤ run.pos then
        let loc := { run.loc with commit := run.loc.commit <|> s.busy waits }
        match execFinish loc ⟨⟨s.db, s.write⟩, run.tx, run.results, run.hung⟩ with
        | (s', .ret (results, error)) =>
            Node.finished { s with db := s'.db, write := s'.conn } results error
        | _ => s
      else s

/-! ### Steps of a query -/

/-- `Engine.Query` begins on the slot with the given number, which is idle; the number
after the last slot opens a connection. -/
def Node.queryStart (s : Node D E) (k : ℕ) (req : Request) (loc : Local E) : Node D E :=
  let slots := if k = s.slots.length then s.slots ++ [⟨.fresh true, none⟩] else s.slots
  match slots[k]? with
  | some ⟨conn, none⟩ =>
      match DistSql.queryStart loc req.transaction ⟨s.db, conn⟩ with
      | .error _ => { s with slots := slots }
      | .ok s' =>
          { s with
            slots := slots.set k ⟨s'.conn, some ⟨req, loc, 0, .ret (.ok []), false⟩⟩ }
  | _ => s

/-- Where the loop stands after a statement. -/
def StmtEnd.loop (acc : List QueryRes) : StmtEnd → Outcome (Except String (List QueryRes))
  | .skip => .ret (.ok acc)
  | .res x => .ret (.ok (acc ++ [x]))
  | .abort m => .ret (.error m)
  | .panic m => .panic m
  | .hang => .hang

/-- The next statement of the query on slot `k` runs, and its rows are open. -/
def Node.queryStmt (drv : Driver D E) (s : Node D E) (k : ℕ) : Node D E :=
  match s.slots[k]? with
  | some ⟨conn, some run⟩ =>
      match run.req.statements[run.pos]?, run.loop, run.reading with
      | some q, .ret (.ok acc), false =>
          let r := DistSql.queryStmt drv ((run.loc.stmt run.pos).entropy 0) ⟨s.db, conn⟩ q
          { s with
            db := r.session.db
            slots := s.slots.set k ⟨r.session.conn, some
              { run with pos := run.pos + 1, loop := r.result.loop acc, reading := true }⟩ }
      | _, _, _ => s
  | _ => s

/-- The rows on slot `k` are read to their end and closed; endless rows never are. -/
def Node.queryClose (s : Node D E) (k : ℕ) : Node D E :=
  match s.slots[k]? with
  | some ⟨conn, some run⟩ =>
      if run.loop = .hang then s
      else { s with slots := s.slots.set k ⟨conn, some { run with reading := false }⟩ }
  | _ => s

/-- The loop has nothing more to do. -/
def InFlight.isDone (run : InFlight E) : Bool :=
  match run.loop with
  | .ret (.ok _) => decide (run.req.statements.length ≤ run.pos)
  | .hang => false
  | _ => true

/-- `Engine.Query` comes to its end, and gives its connection back to the pool. -/
def Node.queryEnd (s : Node D E) (k : ℕ) : Node D E :=
  match s.slots[k]? with
  | some ⟨conn, some run⟩ =>
      if run.isDone ∧ run.reading = false then
        let p := queryFinish run.loc run.req.transaction (⟨s.db, conn⟩, run.loop)
        { s with db := p.1.db, slots := s.slots.set k ⟨p.1.conn, none⟩ }
      else s
  | _ => s

/-- The inputs of a node. -/
inductive NodeInput (E : Type)
  | execStart (req : Request) (loc : Local E)
  | execStmt (waits : ℕ → ℕ → Bool)
  | execEnd (waits : ℕ → Bool)
  | queryStart (k : ℕ) (req : Request) (loc : Local E)
  | queryStmt (k : ℕ)
  | queryClose (k : ℕ)
  | queryEnd (k : ℕ)

/-- One step of a node. -/
def nodeStep (drv : Driver D E) (s : Node D E) : NodeInput E → Node D E
  | .execStart req loc => s.execStart req loc
  | .execStmt waits => s.execStmt drv waits
  | .execEnd waits => s.execEnd waits
  | .queryStart k req loc => s.queryStart k req loc
  | .queryStmt k => s.queryStmt drv k
  | .queryClose k => s.queryClose k
  | .queryEnd k => s.queryEnd k

/-- The input belongs to a request that is executed. -/
def NodeInput.isExec : NodeInput E → Bool
  | .execStart _ _ | .execStmt _ | .execEnd _ => true
  | _ => false

/-! ### What queries leave alone -/

/-- The settings do not make a connection keep its locks. -/
def LetsGo (own : Settings) : Prop := own.exclusive = false

/-- A slot is **harmless** when its connection has written nothing, is inside a
transaction only while a query has it that began one, and does not keep its locks. -/
structure Slot.Harmless (slot : Slot D E) : Prop where
  clean : ∀ d, Session.Clean ⟨d, slot.conn⟩
  idle : (∀ run, slot.query = some run → run.req.transaction = false) → slot.conn.tx = none
  letsGo : LetsGo slot.conn.settings

/-- The node without its queries. -/
def Node.alone (s : Node D E) : Node D E := { s with slots := [] }

/-- A writer does not fail for a lock, when only the locks of idle slots outlive its
wait: idle slots that are harmless hold none. -/
theorem Node.busy_eq_none {s : Node D E} (h : ∀ slot ∈ s.slots, slot.Harmless)
    {waits : ℕ → Bool}
    (hwaits : ∀ (k : ℕ) (slot : Slot D E), waits k = true → s.slots[k]? = some slot →
      slot.query = none) : s.busy waits = none := by
  refine if_neg ?_
  rw [List.any_eq_true]
  rintro ⟨⟨slot, k⟩, hmem, hbusy⟩
  have hk : s.slots[k]? = some slot := List.mem_zipIdx_iff_getElem?.mp hmem
  obtain ⟨hlock, hwait⟩ := Bool.and_eq_true_iff.mp hbusy
  have hnone : slot.query = none := hwaits k slot hwait hk
  have hharm := h slot (List.mem_of_getElem? hk)
  have hidle : slot.conn.tx = none := hharm.idle fun run hrun => by
    rw [hnone] at hrun
    exact absurd hrun (by simp)
  have hfree : slot.conn.settings.exclusive = false := hharm.letsGo
  exact absurd hlock (by simp [Slot.holdsLock, Conn.holdsShared, hidle, hnone, hfree])

/-- A node without queries makes no writer wait. -/
theorem Node.busy_of_no_slots {s : Node D E} (h : s.slots = []) (waits : ℕ → Bool) :
    s.busy waits = none := by
  simp [Node.busy, h]

/-- **The condition on the steps of a run**: the lock of a query in flight does not
outlive the wait of a writer; the text of a query does not set the locking mode, and what
it runs is read-only; and a query without `Transaction` runs nothing that opens a
transaction. -/
def Undisturbing (drv : Driver D E) (s : Node D E) : NodeInput E → Prop
  | .execStmt waits => ∀ (j k : ℕ) (slot : Slot D E), waits j k = true →
      s.slots[k]? = some slot → slot.query = none
  | .execEnd waits => ∀ (k : ℕ) (slot : Slot D E), waits k = true →
      s.slots[k]? = some slot → slot.query = none
  | .queryStmt k => ∀ conn run q, s.slots[k]? = some ⟨conn, some run⟩ →
      run.req.statements[run.pos]? = some q →
        Keeps drv LetsGo q.sql ∧ ∀ p, wouldRun drv ⟨s.db, conn⟩ q = some p →
          p.readOnly = true ∧ (run.req.transaction = false → p.cmd.opens = false)
  | _ => True

/-- Slots stay harmless when one of them is replaced by a harmless one. -/
theorem harmless_set {slots : List (Slot D E)} (h : ∀ slot ∈ slots, slot.Harmless) (k : ℕ)
    {new : Slot D E} (hnew : new.Harmless) : ∀ slot ∈ slots.set k new, slot.Harmless := by
  intro slot hmem
  rcases List.mem_or_eq_of_mem_set hmem with hold | rfl
  · exact h slot hold
  · exact hnew

/-- A connection that was just opened is harmless. -/
theorem harmless_fresh : (⟨.fresh true, none⟩ : Slot D E).Harmless :=
  ⟨fun _ => Session.Idle.clean rfl, fun _ => rfl, rfl⟩

/-- A query begins: its connection is clean, and inside a transaction only if it began
one. -/
theorem queryStart_hidden {s : Node D E} (h : ∀ slot ∈ s.slots, slot.Harmless) (k : ℕ)
    (req : Request) (loc : Local E) :
    (s.queryStart k req loc).alone = s.alone ∧
      ∀ slot ∈ (s.queryStart k req loc).slots, slot.Harmless := by
  obtain ⟨slots, hslots⟩ : ∃ slots, slots =
    if k = s.slots.length then s.slots ++ [⟨.fresh true, none⟩] else s.slots := ⟨_, rfl⟩
  have hharm : ∀ slot ∈ slots, slot.Harmless := by
    rw [hslots]
    split
    · intro slot hmem
      rcases List.mem_append.mp hmem with hold | hnew
      · exact h slot hold
      · rw [List.mem_singleton.mp hnew]
        exact harmless_fresh
    · exact h
  simp only [Node.queryStart, ← hslots]
  split
  · rename_i conn hk
    have hslot := hharm _ (List.mem_of_getElem? hk)
    have hidle : conn.tx = none := hslot.idle (by simp)
    split
    · exact ⟨rfl, hharm⟩
    · rename_i s' hs'
      refine ⟨rfl, harmless_set hharm k ?_⟩
      rw [queryStart] at hs'
      split at hs'
      · simp at hs'
      split at hs'
      · rename_i htx
        obtain ⟨_, rfl⟩ := beginTx_eq_ok hs'
        refine ⟨fun d => Session.clean_opened ⟨d, conn⟩, fun hnot => ?_, hslot.letsGo⟩
        have hfalse := hnot _ rfl
        rw [htx] at hfalse
        exact absurd hfalse (by simp)
      · obtain rfl := Except.ok.inj hs'
        exact ⟨fun d => Session.Idle.clean hidle, fun _ => hidle, hslot.letsGo⟩
  · exact ⟨rfl, h⟩

/-- A statement of a query that meets the condition publishes nothing and leaves its slot
harmless. -/
theorem queryStmt_hidden {drv : Driver D E} {s : Node D E}
    (h : ∀ slot ∈ s.slots, slot.Harmless) (k : ℕ) (hok : Undisturbing drv s (.queryStmt k)) :
    (s.queryStmt drv k).alone = s.alone ∧
      ∀ slot ∈ (s.queryStmt drv k).slots, slot.Harmless := by
  simp only [Node.queryStmt]
  split
  · rename_i conn run hk
    have hslot := h _ (List.mem_of_getElem? hk)
    split
    · rename_i q acc hq hloop hreading
      obtain ⟨hkeeps, hrun⟩ := hok conn run q hk hq
      obtain ⟨hclean, hdb⟩ : (queryStmt drv ((run.loc.stmt run.pos).entropy 0)
            ⟨s.db, conn⟩ q).session.Clean ∧
          (queryStmt drv ((run.loc.stmt run.pos).entropy 0) ⟨s.db, conn⟩ q).session.db =
            s.db := by
        refine queryStmt_keeps (P := fun s' => s'.Clean ∧ s'.db = s.db) (fun _ _ h => h)
          (fun _ h => ⟨Session.Idle.clean rfl, h.2⟩) ⟨hslot.clean s.db, rfl⟩ fun p own hp => ?_
        have hclean : Session.Clean (Session.keep ⟨s.db, conn⟩ own) := hslot.clean s.db
        exact stepRows_clean hclean (.inl (hrun p hp).1)
      refine ⟨?_, harmless_set h k ⟨fun d => hclean, fun hnot => ?_, ?_⟩⟩
      · simp only [Node.alone, hdb]
      · -- without a transaction of its own the query stays outside one
        have htx := hnot _ rfl
        have hidle : Session.Idle ⟨s.db, conn⟩ := hslot.idle fun run' hrun' => by
          obtain rfl := Option.some.inj hrun'
          exact htx
        refine queryStmt_keeps (P := Session.Idle) (fun _ _ h => h) (fun _ _ => rfl) hidle
          fun p own hp => ?_
        have hidle' : Session.Idle (Session.keep ⟨s.db, conn⟩ own) := hidle
        exact stepRows_idle hidle' ((hrun p hp).2 htx)
      · exact queryStmt_settings (fun _ _ h => h) hkeeps hslot.letsGo
    · exact ⟨rfl, h⟩
  · exact ⟨rfl, h⟩

/-- Closing rows changes nothing but that they are open. -/
theorem queryClose_hidden {s : Node D E} (h : ∀ slot ∈ s.slots, slot.Harmless)
    (k : ℕ) :
    (s.queryClose k).alone = s.alone ∧ ∀ slot ∈ (s.queryClose k).slots, slot.Harmless := by
  simp only [Node.queryClose]
  split
  · rename_i conn run hk
    have hslot := h _ (List.mem_of_getElem? hk)
    split
    · exact ⟨rfl, h⟩
    · refine ⟨rfl, harmless_set h k
        ⟨hslot.clean, fun hnot => hslot.idle fun run' hrun' => ?_, hslot.letsGo⟩⟩
      have htx := hnot _ rfl
      obtain rfl := Option.some.inj hrun'
      exact htx
  · exact ⟨rfl, h⟩

/-- The end of a query does not change whether the connection keeps its locks. -/
theorem queryFinish_letsGo {loc : Local E} {transaction : Bool} {s : Session D}
    {loop : Outcome (Except String (List QueryRes))} (h : LetsGo s.conn.settings) :
    LetsGo (queryFinish loc transaction (s, loop)).1.conn.settings := by
  have hroll : LetsGo (if transaction then rollbackTx s else s).conn.settings := by
    split <;> exact h
  rcases loop with (m | results) | m | _
  · exact hroll
  · simp only [queryFinish]
    split
    · simp only [commitTx]
      split
      · exact h
      split <;> exact h
    · exact h
  · exact hroll
  · exact h

/-- A query ends: its connection goes back to the pool outside any transaction. -/
theorem queryEnd_hidden {s : Node D E} (h : ∀ slot ∈ s.slots, slot.Harmless) (k : ℕ) :
    (s.queryEnd k).alone = s.alone ∧ ∀ slot ∈ (s.queryEnd k).slots, slot.Harmless := by
  simp only [Node.queryEnd]
  split
  · rename_i conn run hk
    have hslot := h _ (List.mem_of_getElem? hk)
    split
    · rename_i hover
      have hhang : run.loop ≠ .hang := by
        intro hhang
        simp [InFlight.isDone, hhang] at hover
      have hidle : run.req.transaction = false → Session.Idle ⟨s.db, conn⟩ := by
        intro htx
        refine hslot.idle fun run' hrun' => ?_
        obtain rfl := Option.some.inj hrun'
        exact htx
      obtain ⟨hdb, hend⟩ : (queryFinish run.loc run.req.transaction
            (⟨s.db, conn⟩, run.loop)).1.db = s.db ∧ _ :=
        queryFinish_clean (hslot.clean s.db) hidle hhang
      refine ⟨?_, harmless_set h k
        ⟨fun d => Session.Idle.clean hend, fun _ => hend, queryFinish_letsGo hslot.letsGo⟩⟩
      simp only [Node.alone, hdb]
    · exact ⟨rfl, h⟩
  · exact ⟨rfl, h⟩

/-- **A step of a query** changes nothing that requests depend on, and leaves the slots
harmless. -/
theorem nodeStep_hidden {drv : Driver D E} {s : Node D E} {i : NodeInput E}
    (h : ∀ slot ∈ s.slots, slot.Harmless) (hok : Undisturbing drv s i)
    (hhid : i.isExec = false) :
    (nodeStep drv s i).alone = s.alone ∧ ∀ slot ∈ (nodeStep drv s i).slots, slot.Harmless := by
  cases i with
  | execStart req loc => exact absurd hhid (by simp [NodeInput.isExec])
  | execStmt waits => exact absurd hhid (by simp [NodeInput.isExec])
  | execEnd waits => exact absurd hhid (by simp [NodeInput.isExec])
  | queryStart k req loc => exact queryStart_hidden h k req loc
  | queryStmt k => exact queryStmt_hidden h k hok
  | queryClose k => exact queryClose_hidden h k
  | queryEnd k => exact queryEnd_hidden h k

/-- The statements of a request in a row are the loop of `Engine.Exec`, up to where the
loop is left. -/
theorem run_execStmts {drv : Driver D E} {waits : ℕ → ℕ → Bool} {req : Request}
    {loc : Local E} :
    ∀ (stmts : List Statement) (i : ℕ) (s : Node D E) (tx : Bool) (results : List ExecRes)
      (hung : Bool), s.slots = [] → req.statements.drop i = stmts →
      s.current = some ⟨req, loc, i, tx, results, hung, false⟩ →
      let st := execLoop drv loc i stmts ⟨⟨s.db, s.write⟩, tx, results, hung⟩
      ∃ n i' broke, (broke = true ∨ req.statements.length ≤ i') ∧
        Machine.run (nodeStep drv) s (List.replicate n (.execStmt waits)) =
          { s with db := st.session.db, write := st.session.conn,
                   current := some ⟨req, loc, i', st.tx, st.results, st.hung, broke⟩ } := by
  intro stmts
  induction stmts with
  | nil =>
      intro i s tx results hung _ hdrop hcur
      refine ⟨0, i, false, .inr (List.drop_eq_nil_iff.mp hdrop), ?_⟩
      rw [List.replicate_zero, Machine.run_nil, execLoop]
      simp only [← hcur]
  | cons stmt rest ih =>
      intro i s tx results hung hslots hdrop hcur
      have hi : i < req.statements.length := by
        by_contra hle
        rw [List.drop_eq_nil_iff.mpr (by omega)] at hdrop
        exact absurd hdrop (by simp)
      rw [List.drop_eq_getElem_cons hi] at hdrop
      obtain ⟨hstmt, hrest⟩ := List.cons.inj hdrop
      have hget : req.statements[i]? = some stmt := by
        rw [List.getElem?_eq_getElem hi, hstmt]
      have henv : ({ loc.stmt i with lock := fun j => (loc.stmt i).lock j <|> s.busy (waits j) } :
          Env E) = loc.stmt i := by
        have hlock : (fun j => (loc.stmt i).lock j <|> s.busy (waits j)) = (loc.stmt i).lock := by
          funext j
          rw [Node.busy_of_no_slots hslots]
          rcases (loc.stmt i).lock j with _ | m <;> rfl
        rw [hlock]
      rw [execLoop_cons]
      rcases hp : execIter drv (loc.stmt i) stmt ⟨⟨s.db, s.write⟩, tx, results, hung⟩ with ⟨st, go⟩
      have hstep : nodeStep drv s (.execStmt waits) =
          { s with db := st.session.db, write := st.session.conn,
                   current := some ⟨req, loc, i + 1, st.tx, st.results, st.hung, !go⟩ } := by
        simp only [nodeStep, Node.execStmt, hcur, hget, henv, hp]
      cases go with
      | true =>
          obtain ⟨n, i', broke, hend, hrun⟩ :=
            ih (i + 1) (nodeStep drv s (.execStmt waits)) st.tx st.results st.hung
              (by rw [hstep]; exact hslots) hrest (by rw [hstep]; rfl)
          refine ⟨n + 1, i', broke, hend, ?_⟩
          rw [List.replicate_succ, Machine.run_cons, hrun, hstep]
          rfl
      | false =>
          refine ⟨1, i + 1, true, .inl rfl, ?_⟩
          rw [List.replicate_one, Machine.run_cons, Machine.run_nil, hstep]
          rfl

/-- What a request leaves in the list of those that were executed, if it returns. -/
def executed (p : Session D × Outcome (List ExecRes × Option String)) : List (Executed D) :=
  match p.2 with
  | .ret (results, error) => [⟨results, error, p.1.db⟩]
  | _ => []

/-- Without queries, a request that is through with its statements ends as
`Engine.Exec` does. -/
theorem execEnd_eq {s : Node D E} {run : Executing E} (hslots : s.slots = [])
    (hcur : s.current = some run)
    (hend : run.broke = true ∨ run.req.statements.length ≤ run.pos) (waits : ℕ → Bool) :
    let p := execFinish run.loc ⟨⟨s.db, s.write⟩, run.tx, run.results, run.hung⟩
    ∃ current, s.execEnd waits =
      { s with db := p.1.db, write := p.1.conn, current := current,
               done := s.done ++ executed p } := by
  have hcommit : (run.loc.commit <|> s.busy waits) = run.loc.commit := by
    rw [Node.busy_of_no_slots hslots]
    rcases run.loc.commit with _ | m <;> rfl
  simp only [Node.execEnd, hcur, if_pos hend, hcommit]
  rcases hhung : run.hung
  · -- the loop was left or came to its end, and the request returns
    obtain ⟨results, error, hret⟩ : ∃ results error,
        (execFinish run.loc ⟨⟨s.db, s.write⟩, run.tx, run.results, false⟩).2 =
          .ret (results, error) := by
      rw [execFinish]
      split
      · exact absurd ‹false = true› (by simp)
      split <;> exact ⟨_, _, rfl⟩
    refine ⟨none, ?_⟩
    rw [show execFinish run.loc ⟨⟨s.db, s.write⟩, run.tx, run.results, false⟩ =
      ((execFinish run.loc ⟨⟨s.db, s.write⟩, run.tx, run.results, false⟩).1,
        .ret (results, error)) from Prod.ext rfl hret]
    rfl
  · refine ⟨some run, ?_⟩
    simp only [execFinish, if_true, executed, List.append_nil, ← hcur]

/-- **The steps of a request in a row are `Engine.Exec`**, on a node without queries. -/
theorem run_exec (drv : Driver D E) {s : Node D E} (hslots : s.slots = [])
    (hcur : s.current = none) (req : Request) (loc : Local E) (waits : ℕ → ℕ → Bool)
    (waits' : ℕ → Bool) :
    let p := exec drv loc req ⟨s.db, s.write⟩
    ∃ n current, Machine.run (nodeStep drv) s (.execStart req loc ::
        (List.replicate n (.execStmt waits) ++ [.execEnd waits'])) =
      { s with db := p.1.db, write := p.1.conn, current := current,
               done := s.done ++ executed p } := by
  -- the statements and the end of a request that began
  have hloop : ∀ (conn : Conn D) (tx : Bool),
      let p := execFinish loc (execLoop drv loc 0 req.statements ⟨⟨s.db, conn⟩, tx, [], false⟩)
      ∃ n current, Machine.run (nodeStep drv)
          { s with write := conn, current := some ⟨req, loc, 0, tx, [], false, false⟩ }
          (List.replicate n (.execStmt waits) ++ [.execEnd waits']) =
        { s with db := p.1.db, write := p.1.conn, current := current,
                 done := s.done ++ executed p } := by
    intro conn tx
    obtain ⟨n, i', broke, hend, hrun⟩ := @run_execStmts D E drv waits req loc req.statements 0
      { s with write := conn, current := some ⟨req, loc, 0, tx, [], false, false⟩ } tx [] false
      hslots rfl rfl
    let e := execLoop drv loc 0 req.statements ⟨⟨s.db, conn⟩, tx, [], false⟩
    let run : Executing E := ⟨req, loc, i', e.tx, e.results, e.hung, broke⟩
    let t : Node D E :=
      { s with db := e.session.db, write := e.session.conn, current := some run }
    have hslots' : t.slots = [] := hslots
    obtain ⟨current, hcur'⟩ := execEnd_eq hslots' rfl hend waits'
    refine ⟨n, current, ?_⟩
    rw [Machine.run_append, hrun, Machine.run_cons, Machine.run_nil]
    exact hcur'
  -- a request that did not begin takes no further step
  have hidle : ∀ m, Machine.run (nodeStep drv) (s.finished [] (some m)) [.execEnd waits'] =
      { s with current := none, done := s.done ++ executed (⟨s.db, s.write⟩, .ret ([], some m)) } :=
    fun m => rfl
  simp only [Machine.run_cons, nodeStep, Node.execStart, hcur]
  rcases hconn : loc.conn with _ | m
  · rcases htx : req.transaction
    · simp only [Bool.false_eq_true, if_false, exec, hconn, htx]
      exact hloop s.write false
    · rcases hbegin : beginTx loc.begin ⟨s.db, s.write⟩ with m | s'
      · simp only [if_true, exec, hconn, htx, hbegin]
        exact ⟨0, none, hidle m⟩
      · simp only [if_true, exec, hconn, htx, hbegin]
        obtain ⟨_, rfl⟩ := beginTx_eq_ok hbegin
        exact hloop _ true
  · simp only [exec, hconn]
    exact ⟨0, none, hidle m⟩

end DistSql
