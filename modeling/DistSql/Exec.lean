import DistSql.Convert
import DistSql.Text

/-!
# Executing a Request

`Engine.Exec` on one write connection. The Go function interleaves three things that
this module keeps apart: what a single statement does (`execStmt`, with its four
failure exits), the loop over the statements with its error handler (`execLoop`), and
the frame around the loop — the connection, the optional transaction, the commit
(`exec`).

The error handler has two behaviours. With a transaction it rolls back, clears the
transaction variable (so that neither the commit nor the deferred rollback runs), and
breaks the loop; without one it records the error and continues. A statement that SQLite
does not come to the end of keeps the request from returning.

## Main results

* `execStmt_cases`: how a statement ends, and the session that it leaves.
* `execLoop_post`: the rule for the loop, from what one iteration leaves.
* `execLoop_held`: with a transaction, texts that do not end it publish nothing
  before the commit.
* `exec_congr_entropy`: a request whose texts read neither the local clock nor the
  random source runs the same whatever these produce.
* `exec_quiet_eq`: a request whose local steps all succeed runs as it does where no
  local step can fail.
-/

open Golang Sqlite

namespace DistSql

variable {D E : Type}

/-- The local circumstances of one request on one node: the failures of obtaining the
connection, of beginning the transaction and of committing it, and the circumstances
of each statement. -/
structure Local (E : Type) where
  conn : Option String := none
  begin : Option String := none
  stmt : ℕ → Env E
  commit : Option String := none

/-- Circumstances in which no local step fails. -/
def Local.ofEntropy (e : ℕ → ℕ → E) : Local E where
  stmt i := ⟨fun _ => none, e i⟩

/-- The same circumstances with every local failure taken away. -/
def Local.quiet (loc : Local E) : Local E := .ofEntropy fun i => (loc.stmt i).entropy

/-- One statement of the loop: its result, or the result that carries its error. -/
def execStmt (drv : Driver D E) (env : Env E) (s : Session D) (stmt : Statement) :
    Session D × Outcome (Except ExecRes ExecRes) :=
  match convertParamsToSQL stmt.params with
  | .error m => (s, .ret (.error { error := m }))
  | .ok args =>
      match execText drv env stmt.sql args s with
      | (s', .error .never) => (s', .hang)
      | (s', .error (.msg m)) => (s', .ret (.error { error := m }))
      | (s', .ok r) =>
          match r.rowsAffected with
          | .error m => (s', .ret (.error { error := m }))
          | .ok n =>
              match r.lastInsertId with
              | .error m => (s', .ret (.error { rowsAffected := n, error := m }))
              | .ok id => (s', .ret (.ok { lastInsertId := id, rowsAffected := n }))

/-- The state of the loop: the session, whether the transaction variable is set, the
results so far, and whether the loop is stuck in a statement. -/
structure ExecState (D : Type) where
  session : Session D
  tx : Bool
  results : List ExecRes
  hung : Bool

/-- The loop of `Engine.Exec` over the statements from number `i` on. -/
def execLoop (drv : Driver D E) (loc : Local E) :
    ℕ → List Statement → ExecState D → ExecState D
  | _, [], st => st
  | i, stmt :: rest, st =>
      if stmt.sql = "" then
        execLoop drv loc (i + 1) rest st
      else
        match execStmt drv (loc.stmt i) st.session stmt with
        | (s, .ret (.ok res)) =>
            execLoop drv loc (i + 1) rest { st with session := s, results := st.results ++ [res] }
        | (s, .ret (.error res)) =>
            -- the error handler: roll back and break, or record the error and go on
            if st.tx then ⟨rollbackTx s, false, st.results ++ [res], st.hung⟩
            else
              execLoop drv loc (i + 1) rest
                { st with session := s, results := st.results ++ [res] }
        | (s, _) => { st with session := s, hung := true }

/-- The end of `Engine.Exec`: commit, if the transaction variable is still set. -/
def execFinish (loc : Local E) (st : ExecState D) :
    Session D × Outcome (List ExecRes × Option String) :=
  if st.hung then (st.session, .hang)
  else if st.tx then
    let p := commitTx loc.commit st.session
    (p.1, .ret (st.results, p.2))
  else (st.session, .ret (st.results, none))

/-- `Engine.Exec` on a write connection: the session afterwards, the results, and the
returned error. -/
def exec (drv : Driver D E) (loc : Local E) (req : Request) (s : Session D) :
    Session D × Outcome (List ExecRes × Option String) :=
  match loc.conn with
  | some m => (s, .ret ([], some m))
  | none =>
      if req.transaction then
        match beginTx loc.begin s with
        | .error m => (s, .ret ([], some m))
        | .ok s' => execFinish loc (execLoop drv loc 0 req.statements ⟨s', true, [], false⟩)
      else execFinish loc (execLoop drv loc 0 req.statements ⟨s, false, [], false⟩)

/-! ### One statement -/

/-- **How a statement ends**, and the session that it leaves: its parameters do not
convert; its text fails, or does not come to an end; a count of its result cannot be
read; or it succeeds. -/
theorem execStmt_cases (drv : Driver D E) (env : Env E) (s : Session D) (stmt : Statement) :
    (∃ m, convertParamsToSQL stmt.params = .error m ∧
      execStmt drv env s stmt = (s, .ret (.error { error := m }))) ∨
    ∃ args, convertParamsToSQL stmt.params = .ok args ∧
      ((∃ s', execText drv env stmt.sql args s = (s', .error .never) ∧
        execStmt drv env s stmt = (s', .hang)) ∨
      (∃ s' m, execText drv env stmt.sql args s = (s', .error (.msg m)) ∧
        execStmt drv env s stmt = (s', .ret (.error { error := m }))) ∨
      ∃ s' r, execText drv env stmt.sql args s = (s', .ok r) ∧
        ((∃ m, r.rowsAffected = .error m ∧
          execStmt drv env s stmt = (s', .ret (.error { error := m }))) ∨
        (∃ n m, r = ⟨.error m, .ok n⟩ ∧
          execStmt drv env s stmt = (s', .ret (.error { rowsAffected := n, error := m }))) ∨
        ∃ id n, r = ⟨.ok id, .ok n⟩ ∧
          execStmt drv env s stmt =
            (s', .ret (.ok { lastInsertId := id, rowsAffected := n })))) := by
  rcases hp : convertParamsToSQL stmt.params with m | args
  · exact .inl ⟨m, rfl, by simp only [execStmt, hp]⟩
  refine .inr ⟨args, rfl, ?_⟩
  rcases hx : execText drv env stmt.sql args s with ⟨s', (m | _) | ⟨id, n⟩⟩
  · exact .inr (.inl ⟨s', m, rfl, by simp only [execStmt, hp, hx]⟩)
  · exact .inl ⟨s', rfl, by simp only [execStmt, hp, hx]⟩
  refine .inr (.inr ⟨s', _, rfl, ?_⟩)
  rcases n with m | n
  · exact .inl ⟨m, rfl, by simp only [execStmt, hp, hx]⟩
  rcases id with m | id
  · exact .inr (.inl ⟨n, m, rfl, by simp only [execStmt, hp, hx]⟩)
  · exact .inr (.inr ⟨id, n, rfl, by simp only [execStmt, hp, hx]⟩)

/-- The **postcondition** of a statement: `P` after success, `Q` otherwise. -/
def StmtPost (P Q : Session D → Prop) (p : Session D × Outcome (Except ExecRes ExecRes)) : Prop :=
  match p.2 with
  | .ret (.ok _) => P p.1
  | _ => Q p.1

/-- What the text of a statement guarantees of the session, the statement does: the
exits after the text only read its result, and the one before it changes nothing. -/
theorem execStmt_post {drv : Driver D E} {env : Env E} {s : Session D} {stmt : Statement}
    {P Q : Session D → Prop} (hPQ : ∀ s, P s → Q s) (hs : P s)
    (htext : ∀ args, Post P Q (execText drv env stmt.sql args s)) :
    StmtPost P Q (execStmt drv env s stmt) := by
  rcases execStmt_cases drv env s stmt with ⟨m, -, h⟩ | ⟨args, -, ⟨s', hx, h⟩ | ⟨s', m, hx, h⟩ |
    ⟨s', r, hx, ⟨m, -, h⟩ | ⟨n, m, -, h⟩ | ⟨id, n, -, h⟩⟩⟩
  · simpa [h, StmtPost] using hPQ s hs
  all_goals
    have ht := htext args
    rw [hx] at ht
    rw [h]
  · exact ht
  · exact ht
  · exact hPQ s' ht
  · exact hPQ s' ht
  · exact ht

/-- What the postcondition of a statement says whatever its outcome is. -/
theorem StmtPost.weaken {P Q : Session D → Prop}
    {p : Session D × Outcome (Except ExecRes ExecRes)} (h : StmtPost P Q p)
    (hPQ : ∀ s, P s → Q s) : Q p.1 := by
  rw [StmtPost] at h
  split at h
  · exact hPQ _ h
  · exact h

/-- The result of a statement that succeeds carries no error. -/
theorem execStmt_ok_error {drv : Driver D E} {env : Env E} {s s' : Session D}
    {stmt : Statement} {res : ExecRes} (h : execStmt drv env s stmt = (s', .ret (.ok res))) :
    res.error = "" := by
  rcases execStmt_cases drv env s stmt with ⟨m, -, hx⟩ | ⟨args, -, ⟨s₁, -, hx⟩ | ⟨s₁, m, -, hx⟩ |
    ⟨s₁, r, -, ⟨m, -, hx⟩ | ⟨n, m, -, hx⟩ | ⟨id, n, -, hx⟩⟩⟩ <;> rw [hx] at h
  case inr.inr.inr.inr.inr =>
    obtain ⟨-, hres⟩ := Prod.mk.inj h
    rw [← Except.ok.inj (Outcome.ret.inj hres)]
  all_goals simp at h

/-- A statement does not panic. -/
theorem execStmt_ne_panic (drv : Driver D E) (env : Env E) (s : Session D) (stmt : Statement)
    (m : String) : (execStmt drv env s stmt).2 ≠ .panic m := by
  rcases execStmt_cases drv env s stmt with ⟨m, -, hx⟩ | ⟨args, -, ⟨s₁, -, hx⟩ | ⟨s₁, m, -, hx⟩ |
    ⟨s₁, r, -, ⟨m, -, hx⟩ | ⟨n, m, -, hx⟩ | ⟨id, n, -, hx⟩⟩⟩ <;> rw [hx] <;> simp

/-! ### The loop -/

/-- One iteration of the loop: the state after it, and whether the loop goes on. -/
def execIter (drv : Driver D E) (env : Env E) (stmt : Statement) (st : ExecState D) :
    ExecState D × Bool :=
  if stmt.sql = "" then (st, true)
  else
    match execStmt drv env st.session stmt with
    | (s, .ret (.ok res)) => ({ st with session := s, results := st.results ++ [res] }, true)
    | (s, .ret (.error res)) =>
        if st.tx then (⟨rollbackTx s, false, st.results ++ [res], st.hung⟩, false)
        else ({ st with session := s, results := st.results ++ [res] }, true)
    | (s, _) => ({ st with session := s, hung := true }, false)

/-- The loop, one iteration at a time. -/
theorem execLoop_cons (drv : Driver D E) (loc : Local E) (i : ℕ) (stmt : Statement)
    (rest : List Statement) (st : ExecState D) :
    execLoop drv loc i (stmt :: rest) st =
      let p := execIter drv (loc.stmt i) stmt st
      if p.2 then execLoop drv loc (i + 1) rest p.1 else p.1 := by
  by_cases hsql : stmt.sql = ""
  · simp only [execLoop, execIter, hsql, if_true]
  rcases hx : execStmt drv (loc.stmt i) st.session stmt with ⟨s, (res | res) | m | _⟩
  · rcases htx : st.tx <;>
      simp only [execLoop, execIter, hsql, if_false, if_true, hx, htx, Bool.false_eq_true]
  all_goals simp only [execLoop, execIter, hsql, if_false, if_true, hx, Bool.false_eq_true]

/-- What an iteration leaves: `I` when the loop goes on, `Q` when it is left. -/
def IterPost (I Q : ExecState D → Prop) (p : ExecState D × Bool) : Prop :=
  if p.2 then I p.1 else Q p.1

/-- **The five ways of an iteration**: the text is empty, the statement succeeds, its
error is recorded, its error rolls the transaction back, or it does not come to an end. -/
theorem execIter_post {drv : Driver D E} {env : Env E} {stmt : Statement}
    {st : ExecState D} {I Q : ExecState D → Prop} (hskip : I st)
    (hok : ∀ s res, execStmt drv env st.session stmt = (s, .ret (.ok res)) →
      I ⟨s, st.tx, st.results ++ [res], st.hung⟩)
    (hrecord : ∀ s res, execStmt drv env st.session stmt = (s, .ret (.error res)) →
      st.tx = false → I ⟨s, false, st.results ++ [res], st.hung⟩)
    (hback : ∀ s res, execStmt drv env st.session stmt = (s, .ret (.error res)) →
      st.tx = true → Q ⟨rollbackTx s, false, st.results ++ [res], st.hung⟩)
    (hhang : ∀ s, execStmt drv env st.session stmt = (s, .hang) →
      Q ⟨s, st.tx, st.results, true⟩) :
    IterPost I Q (execIter drv env stmt st) := by
  by_cases hsql : stmt.sql = ""
  · simpa only [execIter, hsql, if_true, IterPost] using hskip
  rcases hx : execStmt drv env st.session stmt with ⟨s, (res | res) | m | _⟩
  · rcases htx : st.tx
    · simpa only [execIter, hsql, if_false, hx, htx, Bool.false_eq_true, IterPost, if_true] using
        hrecord s res hx htx
    · simpa only [execIter, hsql, if_false, hx, htx, if_true, IterPost, Bool.false_eq_true] using
        hback s res hx htx
  · simpa only [execIter, hsql, if_false, hx, IterPost, if_true] using hok s res hx
  · exact absurd (congrArg Prod.snd hx) (execStmt_ne_panic drv env st.session stmt m)
  · simpa only [execIter, hsql, if_false, hx, IterPost, Bool.false_eq_true] using hhang s hx

/-- **The loop rule**: if every iteration keeps `I` while the loop goes on and leaves
`Q` when it does not, and `I` is enough for `Q`, the loop leaves `Q`. Induction on the
statements. -/
theorem execLoop_post {drv : Driver D E} {loc : Local E} {I Q : ExecState D → Prop}
    (hIQ : ∀ st, I st → Q st) :
    ∀ (stmts : List Statement),
      (∀ stmt ∈ stmts, ∀ env st, I st → IterPost I Q (execIter drv env stmt st)) →
      ∀ (i : ℕ) (st : ExecState D), I st → Q (execLoop drv loc i stmts st) := by
  intro stmts
  induction stmts with
  | nil => intro _ i st hst; exact hIQ st hst
  | cons stmt rest ih =>
      intro hstmt i st hst
      have hnext := hstmt stmt List.mem_cons_self (loc.stmt i) st hst
      rw [execLoop_cons]
      rcases hp : execIter drv (loc.stmt i) stmt st with ⟨st', go⟩
      rw [hp] at hnext
      cases go with
      | true => exact ih (fun q hq => hstmt q (List.mem_cons_of_mem stmt hq)) (i + 1) st' hnext
      | false => exact hnext

/-- The loop keeps what every statement and a rollback keep. -/
theorem execLoop_keeps {drv : Driver D E} {loc : Local E} {P : Session D → Prop}
    (hroll : ∀ s, P s → P (rollbackTx s)) (stmts : List Statement)
    (hstmt : ∀ stmt ∈ stmts, ∀ env s, P s → P (execStmt drv env s stmt).1) (i : ℕ)
    (st : ExecState D) (hst : P st.session) : P (execLoop drv loc i stmts st).session := by
  refine execLoop_post (I := fun st => P st.session) (Q := fun st => P st.session)
    (fun _ h => h) stmts (fun stmt hmem env st hst => ?_) i st hst
  have hnext : ∀ s r, execStmt drv env st.session stmt = (s, r) → P s := by
    intro s r hx
    have h := hstmt stmt hmem env st.session hst
    rwa [hx] at h
  exact execIter_post hst (fun s _ hx => hnext s _ hx) (fun s _ hx _ => hnext s _ hx)
    (fun s _ hx _ => hroll s (hnext s _ hx)) fun s hx => hnext s _ hx

/-- The loop never sets the transaction variable. -/
theorem execLoop_tx_false {drv : Driver D E} {loc : Local E} (stmts : List Statement)
    (i : ℕ) (st : ExecState D) (htx : st.tx = false) :
    (execLoop drv loc i stmts st).tx = false :=
  execLoop_post (I := fun st => st.tx = false) (Q := fun st => st.tx = false)
    (fun _ h => h) stmts
    (fun _ _ _ _ h => execIter_post h (fun _ _ _ => h) (fun _ _ _ _ => rfl)
      (fun _ _ _ _ => rfl) fun _ _ => h)
    i st htx

/-- The loop **goes on**: its transaction variable is what it was, and it is not stuck. -/
def ExecState.GoesOn (tx : Bool) (st : ExecState D) : Prop := st.tx = tx ∧ st.hung = false

/-- An iteration that leaves the loop shows in the state. -/
theorem execIter_goesOn {drv : Driver D E} {env : Env E} {stmt : Statement} {tx : Bool}
    {st : ExecState D} (h : st.GoesOn tx) :
    IterPost (ExecState.GoesOn tx) (fun st => ¬st.GoesOn tx) (execIter drv env stmt st) := by
  refine execIter_post h (fun _ _ _ => h) (fun _ _ _ htx => ⟨htx.symm.trans h.1, h.2⟩)
    (fun _ _ _ htx hgo => ?_) fun _ _ hgo => absurd hgo.2 (by simp)
  have hset : tx = true := h.1.symm.trans htx
  exact absurd (hgo.1.trans hset) (by simp)

/-- **The loop, cut in two**: it goes on with the second part, or was left in the first. -/
theorem execLoop_append {drv : Driver D E} {loc : Local E} {tx : Bool} (post : List Statement) :
    ∀ (pre : List Statement) (i : ℕ) (st : ExecState D), st.GoesOn tx →
      ((execLoop drv loc i pre st).GoesOn tx → execLoop drv loc i (pre ++ post) st =
        execLoop drv loc (i + pre.length) post (execLoop drv loc i pre st)) ∧
      (¬(execLoop drv loc i pre st).GoesOn tx →
        execLoop drv loc i (pre ++ post) st = execLoop drv loc i pre st) := by
  intro pre
  induction pre with
  | nil => intro i st h; exact ⟨fun _ => rfl, fun hnot => absurd h hnot⟩
  | cons stmt pre ih =>
      intro i st h
      have hnext := @execIter_goesOn D E drv (loc.stmt i) stmt tx st h
      have hi : i + (stmt :: pre).length = i + 1 + pre.length := by
        rw [List.length_cons]
        omega
      rw [List.cons_append, execLoop_cons, execLoop_cons, hi]
      rcases hp : execIter drv (loc.stmt i) stmt st with ⟨st', go⟩
      rw [hp] at hnext
      cases go with
      | true => exact ih (i + 1) st' hnext
      | false => exact ⟨fun hgo => absurd hgo hnext, fun _ => rfl⟩

/-- The loop inside a transaction that its texts did not end: nothing is published
yet, and no result carries an error. -/
structure ExecState.Inside (d : D) (st : ExecState D) : Prop where
  tx : st.tx = true
  db : st.session.db = d
  held : st.session.Held
  clean : ∀ r ∈ st.results, r.error = ""
  runs : st.hung = false

/-- How the loop in a transaction is left before its end, with nothing published: rolled
back, or in a statement that does not come to an end. -/
def ExecState.Left (d : D) (st : ExecState D) : Prop :=
  st.session.db = d ∧
    (st.hung = true ∨ st.hung = false ∧ st.tx = false ∧ st.session.Idle)

/-- One iteration inside a transaction stays inside it, or leaves the loop. -/
theorem execIter_inside {drv : Driver D E} {env : Env E} {stmt : Statement} {d : D}
    {st : ExecState D} (hends : ∀ c ∈ drv.split stmt.sql, c.ends = false)
    (h : st.Inside d) :
    IterPost (ExecState.Inside d) (fun st' => st'.Inside d ∨ st'.Left d)
      (execIter drv env stmt st) := by
  have hpost : StmtPost (fun s' => s'.db = d ∧ s'.Held) (fun s' => s'.db = d)
      (execStmt drv env st.session stmt) :=
    execStmt_post (fun _ h => h.1) ⟨h.db, h.held⟩
      fun args => execText_held h.db h.held hends
  refine execIter_post h (fun s res hx => ?_) (fun s res _ htx => ?_) (fun s res hx _ => ?_)
    fun s hx => ?_
  · rw [hx] at hpost
    obtain ⟨hdb, hheld⟩ : s.db = d ∧ s.Held := hpost
    refine ⟨h.tx, hdb, hheld, fun r hr => ?_, h.runs⟩
    rcases List.mem_append.mp hr with hold | hnew
    · exact h.clean r hold
    · rw [List.mem_singleton.mp hnew]
      exact execStmt_ok_error hx
  · rw [h.tx] at htx
    exact absurd htx (by simp)
  · rw [hx] at hpost
    have hdb : s.db = d := hpost
    exact .inr ⟨hdb, .inr ⟨h.runs, rfl, rfl⟩⟩
  · rw [hx] at hpost
    have hdb : s.db = d := hpost
    exact .inr ⟨hdb, .inl rfl⟩

/-- **The loop inside a transaction** whose texts do not end it runs to its end inside
the transaction, or leaves it; nothing is published in either case. -/
theorem execLoop_held {drv : Driver D E} {loc : Local E} {d : D} (stmts : List Statement)
    (hends : ∀ stmt ∈ stmts, ∀ c ∈ drv.split stmt.sql, c.ends = false) (i : ℕ)
    (st : ExecState D) (h : st.Inside d) :
    let st' := execLoop drv loc i stmts st
    st'.Inside d ∨ st'.Left d :=
  execLoop_post (fun _ h => .inl h) stmts
    (fun stmt hstmt _ _ h => execIter_inside (hends stmt hstmt) h) i st h

/-- The loop sees its circumstances only through its statements. -/
theorem execLoop_congr {drv : Driver D E} {loc loc' : Local E} :
    ∀ (stmts : List Statement),
      (∀ stmt ∈ stmts, ∀ i s,
        execStmt drv (loc.stmt i) s stmt = execStmt drv (loc'.stmt i) s stmt) →
      ∀ (i : ℕ) (st : ExecState D),
        execLoop drv loc i stmts st = execLoop drv loc' i stmts st := by
  intro stmts
  induction stmts with
  | nil => intro _ i st; rfl
  | cons stmt rest ih =>
      intro hstmt i st
      have ih' := ih fun q hq => hstmt q (List.mem_cons_of_mem stmt hq)
      simp only [execLoop, hstmt stmt List.mem_cons_self, ih']

/-! ### The request -/

/-- **What a request keeps**: whatever its statements and the calls of its transaction
object keep. -/
theorem exec_keeps {drv : Driver D E} {loc : Local E} {req : Request} {s : Session D}
    {P : Session D → Prop} (hs : P s) (hbegin : ∀ s, P s → P s.opened)
    (hroll : ∀ s, P s → P (rollbackTx s))
    (hcommit : ∀ s t, P s → s.conn.tx = some t → P (s.commit t))
    (hstmt : ∀ stmt ∈ req.statements, ∀ env s, P s → P (execStmt drv env s stmt).1) :
    P (exec drv loc req s).1 := by
  have hfin : ∀ st : ExecState D, P st.session →
      P (execFinish loc (execLoop drv loc 0 req.statements st)).1 := by
    intro st hst
    have hloop := @execLoop_keeps D E drv loc P hroll req.statements hstmt 0 st hst
    rw [execFinish]
    split
    · exact hloop
    split
    · simp only [commitTx]
      split
      · exact hroll _ hloop
      split
      · exact hroll _ hloop
      · exact hcommit _ _ hloop ‹_›
    · exact hloop
  simp only [exec]
  split
  · exact hs
  split
  · split
    · exact hs
    · rename_i s' hs'
      obtain ⟨_, rfl⟩ := beginTx_eq_ok hs'
      exact hfin _ (hbegin s hs)
  · exact hfin _ hs

/-- A request leaves a connection for writing a connection for writing. -/
theorem exec_canWrite {drv : Driver D E} {loc : Local E} {req : Request} {s : Session D}
    (h : s.conn.canWrite = true) : (exec drv loc req s).1.conn.canWrite = true := by
  refine exec_keeps (P := fun s => s.conn.canWrite = true) h (fun _ hs => hs) (fun _ hs => hs)
    (fun _ _ hs _ => hs) fun stmt _ env s hs => ?_
  have hpost : StmtPost (fun s => s.conn.canWrite = true) (fun s => s.conn.canWrite = true)
      (execStmt drv env s stmt) :=
    execStmt_post (fun _ h => h) hs fun args => Post.of_both (execText_canWrite hs)
  exact hpost.weaken fun _ h => h

/-- **Entropy is irrelevant** to a request whose texts read neither the local clock
nor the random source. -/
theorem exec_congr_entropy {drv : Driver D E} {req : Request}
    (hfree : ∀ stmt ∈ req.statements, LocalFree drv stmt.sql) (e e' : ℕ → ℕ → E)
    (s : Session D) : exec drv (.ofEntropy e) req s = exec drv (.ofEntropy e') req s := by
  have hloop : ∀ st, execLoop drv (.ofEntropy e) 0 req.statements st =
      execLoop drv (.ofEntropy e') 0 req.statements st := by
    intro st
    refine execLoop_congr req.statements (fun stmt hstmt i s => ?_) 0 st
    have htext : ∀ args, execText drv ((Local.ofEntropy e).stmt i) stmt.sql args s =
        execText drv ((Local.ofEntropy e').stmt i) stmt.sql args s :=
      fun args => execText_congr_env (hfree stmt hstmt) rfl
    simp only [execStmt, htext]
  simp only [exec, hloop]
  rfl

/-- Every local step that the request takes succeeds: it obtains the connection and
every write lock, and it begins and commits its transaction if it has one. -/
structure Local.Unharmed (loc : Local E) (req : Request) : Prop where
  conn : loc.conn = none
  begin : req.transaction = true → loc.begin = none
  lock : ∀ i j, (loc.stmt i).lock j = none
  commit : req.transaction = true → loc.commit = none

/-- **A request whose local steps all succeed** runs as it does where no local step
can fail. -/
theorem exec_quiet_eq {drv : Driver D E} {loc : Local E} {req : Request}
    (h : loc.Unharmed req) (s : Session D) :
    exec drv loc req s = exec drv loc.quiet req s := by
  have henv : ∀ i, loc.stmt i = loc.quiet.stmt i := by
    intro i
    have hl : (loc.stmt i).lock = fun _ => none := funext fun j => h.lock i j
    rcases hs : loc.stmt i with ⟨lock, ent⟩
    rw [hs] at hl
    simp only at hl
    simp [Local.quiet, Local.ofEntropy, hs, hl]
  have hloop : ∀ st, execLoop drv loc 0 req.statements st =
      execLoop drv loc.quiet 0 req.statements st := by
    intro st
    exact execLoop_congr req.statements (fun stmt _ i s => by rw [henv i]) 0 st
  have hqc : loc.quiet.conn = none := rfl
  have hqb : loc.quiet.begin = none := rfl
  have hqm : loc.quiet.commit = none := rfl
  cases htx : req.transaction with
  | true =>
      simp only [exec, htx, if_true, h.conn, h.begin htx, hqc, hqb, hloop, execFinish,
        h.commit htx, hqm]
  | false =>
      have htxf : (execLoop drv loc.quiet 0 req.statements ⟨s, false, [], false⟩).tx = false :=
        execLoop_tx_false _ _ _ rfl
      simp only [exec, htx, Bool.false_eq_true, if_false, h.conn, hqc, hloop, execFinish, htxf]

end DistSql
