import DistSql.ByteTable
import DistSql.Exec
import DistSql.Lower

/-!
# Answering a Query

`Engine.Query` on one read connection. For every statement the code first prepares the
text and refuses it unless the prepared statement is read-only, then runs it and
converts its rows; a row that cannot be scanned or converted ends the whole request.
Around the loop stand the connection and the optional transaction.

The check and the run do not look at the same thing. `Prepare` compiles the first
statement of the text and reports on that one; `QueryContext` works through the whole
text and leaves its last statement to be run. A text whose first statement reads and
whose last one writes passes the check and is run.

Each statement reports what it ran (`StmtRun.ran`), so that "nothing of the text was
run" can be said.

## Main results

* `queryStmt_ran`: what a statement that passes the check runs.
* `query_guard_iff`: the check keeps its promise exactly when no text starts with a
  read-only statement and ends with another one.
* `delete_passes_check`: such a text.
-/

open Golang Sqlite

namespace DistSql

variable {D E : Type}

/-- The error of a statement that does not pass the read-only check. -/
def errChange : String := "tried to change the database in a query operation"

/-- How one statement of a query ends: skipped, with a result, by ending the request
with an error, in a panic, or never. -/
inductive StmtEnd
  | skip
  | res (r : QueryRes)
  | abort (msg : String)
  | panic (msg : String)
  | hang
  deriving DecidableEq, Repr

/-- One statement of a query: the session afterwards, the commands that were run, and
how it ended. -/
structure StmtRun (D : Type) where
  session : Session D
  ran : List Cmd
  result : StmtEnd

/-- The row loop: scan and convert every row. -/
def readRows (types : List String) :
    List (Except String (List Cell)) → List Values → Outcome (Except String (List Values))
  | [], acc => .ret (.ok acc)
  | .error m :: _, _ => .ret (.error m)
  | .ok row :: rest, acc =>
      (convertToProto types row).okThen fun prs => readRows types rest (acc ++ [⟨prs⟩])

/-- The end of a statement whose rows are open: read them, then look at the error of
the cursor. The rows that were read stay in a result that carries that error. -/
def readCursor (types cols : List String) (cur : Cursor) : StmtEnd :=
  match readRows types cur.rows [] with
  | .panic m => .panic m
  | .hang => .hang
  | .ret (.error m) => .abort m
  | .ret (.ok values) =>
      if cur.endless then .hang
      else
        match cur.err with
        | some m => .res { values := values, error := m }
        | none => .res { columns := cols, types := types, values := values }

/-- The session after the rows of a statement were read: the error that ended them may
have rolled the transaction back. A reader that did not come to their end met with no such
error. -/
def afterRows (s : Session D) (cur : Cursor) : StmtEnd → Session D
  | .res _ => if cur.rollback then s.undo else s
  | _ => s

/-- Run the statement that `QueryContext` left, and read its rows. It only runs once
the types and names of its columns are known. -/
def runQuery (drv : Driver D E) (e : E) (s : Session D) (last : Option Prepared) : StmtRun D :=
  let p := stepRows drv e s last
  match p.2.columnTypes with
  | .error m => ⟨s, [], .res { error := m }⟩
  | .ok types =>
      match p.2.columns with
      | .error m => ⟨s, [], .res { error := m }⟩
      | .ok cols =>
          let r := readCursor (types.map toLower) cols p.2
          ⟨afterRows p.1 p.2 r, (last.map Prepared.cmd).toList, r⟩

/-- One statement of the loop of `Engine.Query`. -/
def queryStmt (drv : Driver D E) (e : E) (s : Session D) (q : Statement) : StmtRun D :=
  if q.sql = "" then ⟨s, [], .skip⟩
  else
    match prepareFirst drv s q.sql with
    | (s₁, .error m) => ⟨s₁, [], .res { error := m }⟩
    | (s₁, .ok false) => ⟨s₁, [], .res { error := errChange }⟩
    | (s₁, .ok true) =>
        match convertParamsToSQL q.params with
        | .error m => ⟨s₁, [], .res { error := m }⟩
        | .ok params =>
            match queryContext drv s₁ q.sql params with
            | (s₂, .error m) => ⟨s₂, [], .res { error := m }⟩
            | (s₂, .ok last) => runQuery drv e s₂ last

/-- The loop of `Engine.Query` from statement number `i` on: the session, and the
results or the error that ended the request. -/
def queryLoop (drv : Driver D E) (loc : Local E) :
    ℕ → List Statement → Session D → List QueryRes →
      Session D × Outcome (Except String (List QueryRes))
  | _, [], s, acc => (s, .ret (.ok acc))
  | i, q :: rest, s, acc =>
      let r := queryStmt drv ((loc.stmt i).entropy 0) s q
      match r.result with
      | .skip => queryLoop drv loc (i + 1) rest r.session acc
      | .res x => queryLoop drv loc (i + 1) rest r.session (acc ++ [x])
      | .abort m => (r.session, .ret (.error m))
      | .panic m => (r.session, .panic m)
      | .hang => (r.session, .hang)

/-- The start of `Engine.Query`: obtain the connection, and begin the transaction if
there is one. -/
def queryStart (loc : Local E) (transaction : Bool) (s : Session D) :
    Except String (Session D) :=
  match loc.conn with
  | some m => .error m
  | none => if transaction then beginTx loc.begin s else .ok s

/-- The end of `Engine.Query`: the commit after the loop, and the deferred rollback
after an early return or a panic. -/
def queryFinish (loc : Local E) (transaction : Bool)
    (p : Session D × Outcome (Except String (List QueryRes))) :
    Session D × Outcome (List QueryRes × Option String) :=
  let rolled := if transaction then rollbackTx p.1 else p.1
  match p.2 with
  | .panic m => (rolled, .panic m)
  | .hang => (p.1, .hang)
  | .ret (.error m) => (rolled, .ret ([], some m))
  | .ret (.ok results) =>
      if transaction then
        let c := commitTx loc.commit p.1
        (c.1, .ret (results, c.2))
      else (p.1, .ret (results, none))

/-- `Engine.Query` on a read connection: the session afterwards, and the results with
the returned error. -/
def query (drv : Driver D E) (loc : Local E) (req : Request) (s : Session D) :
    Session D × Outcome (List QueryRes × Option String) :=
  match queryStart loc req.transaction s with
  | .error m => (s, .ret ([], some m))
  | .ok s' => queryFinish loc req.transaction (queryLoop drv loc 0 req.statements s' [])

/-! ### The statements that a query reaches -/

/-- The request **reaches** its statement number `i`, which is `q`, in the session `s'`
and with the results `acc` so far. -/
structure Reached (drv : Driver D E) (loc : Local E) (req : Request) (s : Session D)
    (i : ℕ) (q : Statement) (s' : Session D) (acc : List QueryRes) : Prop where
  isStmt : req.statements[i]? = some q
  loop : ∃ s₀, queryStart loc req.transaction s = .ok s₀ ∧
    queryLoop drv loc 0 (req.statements.take i) s₀ [] = (s', .ret (.ok acc))

/-- The results with which the loop goes on after a statement that ended so, if it
does. -/
def StmtEnd.goesOn (acc : List QueryRes) : StmtEnd → Option (List QueryRes)
  | .skip => some acc
  | .res x => some (acc ++ [x])
  | _ => none

/-- A statement after which the loop goes on. -/
theorem queryLoop_goesOn {drv : Driver D E} {loc : Local E} {i : ℕ} {q : Statement}
    {s : Session D} {acc acc' : List QueryRes} (rest : List Statement)
    (h : (queryStmt drv ((loc.stmt i).entropy 0) s q).result.goesOn acc = some acc') :
    queryLoop drv loc i (q :: rest) s acc =
      queryLoop drv loc (i + 1) rest (queryStmt drv ((loc.stmt i).entropy 0) s q).session
        acc' := by
  rcases hr : (queryStmt drv ((loc.stmt i).entropy 0) s q).result with _ | x | m | m | _ <;>
    rw [hr] at h <;> simp only [StmtEnd.goesOn, Option.some.injEq, reduceCtorEq] at h <;>
    simp only [queryLoop, hr, h]

/-- A statement after which it does not. -/
theorem queryLoop_stops {drv : Driver D E} {loc : Local E} {i : ℕ} {q : Statement}
    {s : Session D} {acc : List QueryRes} (rest : List Statement)
    (h : (queryStmt drv ((loc.stmt i).entropy 0) s q).result.goesOn acc = none)
    (s' : Session D) (acc' : List QueryRes) :
    queryLoop drv loc i (q :: rest) s acc ≠ (s', .ret (.ok acc')) := by
  rcases hr : (queryStmt drv ((loc.stmt i).entropy 0) s q).result with _ | x | m | m | _ <;>
    rw [hr] at h <;> simp [StmtEnd.goesOn] at h <;> simp [queryLoop, hr]

/-- The loop over a list of statements, cut where the first part came through. -/
theorem queryLoop_append {drv : Driver D E} {loc : Local E} (post : List Statement)
    {s' : Session D} {acc' : List QueryRes} :
    ∀ (pre : List Statement) (i : ℕ) (s : Session D) (acc : List QueryRes),
      queryLoop drv loc i pre s acc = (s', .ret (.ok acc')) →
        queryLoop drv loc i (pre ++ post) s acc =
          queryLoop drv loc (i + pre.length) post s' acc' := by
  intro pre
  induction pre with
  | nil =>
      intro i s acc h
      obtain ⟨rfl, hacc⟩ := Prod.mk.inj h
      rw [Except.ok.inj (Outcome.ret.inj hacc)]
      rfl
  | cons q pre ih =>
      intro i s acc h
      have hi : i + (q :: pre).length = i + 1 + pre.length := by
        rw [List.length_cons]
        omega
      rcases hr : (queryStmt drv ((loc.stmt i).entropy 0) s q).result.goesOn acc with _ | acc₁
      · exact absurd h (queryLoop_stops pre hr _ _)
      · rw [queryLoop_goesOn pre hr] at h
        rw [List.cons_append, hi, queryLoop_goesOn (pre ++ post) hr]
        exact ih _ _ _ h

/-- A loop that came through came through its first part. -/
theorem queryLoop_append_ok {drv : Driver D E} {loc : Local E} (post : List Statement)
    {s' : Session D} {results : List QueryRes} :
    ∀ (pre : List Statement) (i : ℕ) (s : Session D) (acc : List QueryRes),
      queryLoop drv loc i (pre ++ post) s acc = (s', .ret (.ok results)) →
        ∃ s₁ acc₁, queryLoop drv loc i pre s acc = (s₁, .ret (.ok acc₁)) ∧
          queryLoop drv loc (i + pre.length) post s₁ acc₁ = (s', .ret (.ok results)) := by
  intro pre
  induction pre with
  | nil => intro i s acc h; exact ⟨s, acc, rfl, h⟩
  | cons q pre ih =>
      intro i s acc h
      have hi : i + (q :: pre).length = i + 1 + pre.length := by
        rw [List.length_cons]
        omega
      rcases hr : (queryStmt drv ((loc.stmt i).entropy 0) s q).result.goesOn acc with _ | acc₁
      · exact absurd h (queryLoop_stops (pre ++ post) hr _ _)
      · rw [List.cons_append, queryLoop_goesOn (pre ++ post) hr] at h
        rw [queryLoop_goesOn pre hr, hi]
        exact ih _ _ _ h

/-- The loop only ever appends to the results. -/
theorem queryLoop_results {drv : Driver D E} {loc : Local E} :
    ∀ (stmts : List Statement) (i : ℕ) (s s' : Session D) (acc results : List QueryRes),
      queryLoop drv loc i stmts s acc = (s', .ret (.ok results)) → acc <+: results := by
  intro stmts
  induction stmts with
  | nil =>
      intro i s s' acc results h
      obtain ⟨-, hacc⟩ := Prod.mk.inj h
      obtain rfl := Except.ok.inj (Outcome.ret.inj hacc)
      exact List.prefix_rfl
  | cons q rest ih =>
      intro i s s' acc results h
      rcases hr : (queryStmt drv ((loc.stmt i).entropy 0) s q).result.goesOn acc with _ | acc₁
      · exact absurd h (queryLoop_stops rest hr _ _)
      have hacc : acc <+: acc₁ := by
        rcases hres : (queryStmt drv ((loc.stmt i).entropy 0) s q).result with
          _ | x | m | m | _ <;> rw [hres] at hr <;>
          simp only [StmtEnd.goesOn, Option.some.injEq, reduceCtorEq] at hr
        · obtain rfl := hr
          exact List.prefix_rfl
        · rw [← hr]
          exact List.prefix_append acc [x]
      rw [queryLoop_goesOn rest hr] at h
      exact hacc.trans (ih _ _ _ _ _ h)

/-- The loop from a reached statement on is the loop of the whole request. -/
theorem Reached.queryLoop_eq {drv : Driver D E} {loc : Local E} {req : Request}
    {s s' : Session D} {i : ℕ} {q : Statement} {acc : List QueryRes}
    (h : Reached drv loc req s i q s' acc) :
    ∃ s₀, queryStart loc req.transaction s = .ok s₀ ∧
      queryLoop drv loc 0 req.statements s₀ [] =
        queryLoop drv loc i (q :: req.statements.drop (i + 1)) s' acc := by
  obtain ⟨s₀, hstart, hloop⟩ := h.loop
  obtain ⟨hlt, hq⟩ := List.getElem?_eq_some_iff.mp h.isStmt
  have hsplit : req.statements.take i ++ q :: req.statements.drop (i + 1) = req.statements := by
    rw [← hq, List.getElem_cons_drop, List.take_append_drop]
  have hlen : 0 + (req.statements.take i).length = i := by
    rw [List.length_take]
    omega
  have happ := queryLoop_append (q :: req.statements.drop (i + 1)) _ _ _ _ hloop
  rw [hsplit, hlen] at happ
  exact ⟨s₀, hstart, happ⟩

/-! ### The read-only check -/

/-- The statement that `QueryContext` would run from the text: the last one, when the
parameters convert and every statement of the text compiles and binds. The empty text
is skipped. -/
def wouldRun (drv : Driver D E) (s : Session D) (q : Statement) : Option Prepared :=
  if q.sql = "" then none
  else
    match convertParamsToSQL q.params with
    | .error _ => none
    | .ok params =>
        match queryContext drv (prepareFirst drv s q.sql).1 q.sql params with
        | (_, .error _) => none
        | (_, .ok last) => last

/-- **The promise of the read-only check**: where a text that the request reaches would
run a statement that is not read-only, none of the text is run, and its result is the
error of the check. -/
def GuardHolds (drv : Driver D E) (loc : Local E) (req : Request) (s : Session D) : Prop :=
  ∀ i q s' acc, Reached drv loc req s i q s' acc →
    ∀ p, wouldRun drv s' q = some p → p.readOnly = false →
      (queryStmt drv ((loc.stmt i).entropy 0) s' q).ran = [] ∧
        ∀ results err, (query drv loc req s).2 = .ret (results, err) → results ≠ [] →
          results[acc.length]? = some { error := errChange }

/-- What a statement comes to before anything is run: the error that it is refused with,
or what `QueryContext` leaves of it. -/
def accept (drv : Driver D E) (s : Session D) (q : Statement) :
    Session D × Except String (Option Prepared) :=
  match prepareFirst drv s q.sql with
  | (s₁, .error m) => (s₁, .error m)
  | (s₁, .ok false) => (s₁, .error errChange)
  | (s₁, .ok true) =>
      match convertParamsToSQL q.params with
      | .error m => (s₁, .error m)
      | .ok params => queryContext drv s₁ q.sql params

/-- **One statement of a query** is skipped, refused, or run. -/
theorem queryStmt_eq (drv : Driver D E) (e : E) (s : Session D) (q : Statement) :
    queryStmt drv e s q =
      if q.sql = "" then ⟨s, [], .skip⟩
      else
        match accept drv s q with
        | (s', .error m) => ⟨s', [], .res { error := m }⟩
        | (s', .ok last) => runQuery drv e s' last := by
  rw [queryStmt, accept]
  rcases prepareFirst drv s q.sql with ⟨s₁, m | ro⟩
  · rfl
  rcases ro with _ | _
  · rfl
  rcases convertParamsToSQL q.params with m | params <;> rfl

/-- A statement that is run passed the check, and is left by `QueryContext`. -/
theorem accept_eq_ok {drv : Driver D E} {s s' : Session D} {q : Statement}
    {last : Option Prepared} (h : accept drv s q = (s', .ok last)) :
    ∃ s₁, prepareFirst drv s q.sql = (s₁, .ok true) ∧
      ∃ params, convertParamsToSQL q.params = .ok params ∧
        queryContext drv s₁ q.sql params = (s', .ok last) := by
  rw [accept] at h
  rcases hf : prepareFirst drv s q.sql with ⟨s₁, m | ro⟩
  · simp [hf] at h
  rcases ro with _ | _
  · simp [hf] at h
  rcases hp : convertParamsToSQL q.params with m | params
  · simp [hf, hp] at h
  · simp only [hf, hp] at h
    exact ⟨s₁, rfl, params, rfl, h⟩

/-- What is left of a statement is what its text would run. -/
theorem wouldRun_of_accept {drv : Driver D E} {s s' : Session D} {q : Statement}
    {last : Option Prepared} (hsql : q.sql ≠ "") (h : accept drv s q = (s', .ok last)) :
    wouldRun drv s q = last := by
  obtain ⟨s₁, hf, params, hp, hq⟩ := accept_eq_ok h
  simp only [wouldRun, hsql, if_false, hp, hf, hq]

/-- **What a text would run**, taken apart: its parameters convert, and `QueryContext`
leaves it. -/
theorem wouldRun_eq_some {drv : Driver D E} {s : Session D} {q : Statement} {p : Prepared}
    (h : wouldRun drv s q = some p) :
    q.sql ≠ "" ∧ ∃ params s', convertParamsToSQL q.params = .ok params ∧
      queryContext drv (prepareFirst drv s q.sql).1 q.sql params = (s', .ok (some p)) := by
  by_cases hsql : q.sql = ""
  · simp [wouldRun, hsql] at h
  rcases hp : convertParamsToSQL q.params with m | params
  · simp [wouldRun, hp] at h
  rcases hq : queryContext drv (prepareFirst drv s q.sql).1 q.sql params with ⟨s', m | last⟩
  · simp [wouldRun, hp, hq] at h
  simp only [wouldRun, hsql, if_false, hp, hq] at h
  rw [h] at hq
  exact ⟨hsql, params, s', rfl, hq⟩

/-- Where `prepareAll` comes through, the first statement it started from compiled. -/
theorem prepareAll_first {drv : Driver D E} {s s' : Session D} {text : String}
    {args : List NamedArg} {c : Cmd} {cs : List Cmd} {j : ℕ} {last l : Option Prepared}
    (h : prepareAll drv text args j (c :: cs) s last = (s', .ok l)) :
    ∃ b, (prepare drv s c).2 = .ok b := by
  rcases hp : prepare drv s c with ⟨s₁, m | b⟩
  · simp [prepareAll, hp] at h
  · exact ⟨b, rfl⟩

/-- A text that would run a statement starts with one that compiles. -/
theorem wouldRun_compiles {drv : Driver D E} {s : Session D} {q : Statement} {p : Prepared}
    (h : wouldRun drv s q = some p) : ∃ b, (prepareFirst drv s q.sql).2 = .ok b := by
  obtain ⟨-, params, s', -, hq⟩ := wouldRun_eq_some h
  rw [queryContext] at hq
  rcases hsplit : drv.split q.sql with _ | ⟨c₀, cs⟩
  · exact ⟨true, by rw [prepareFirst, hsplit]⟩
  have hfirst : prepareFirst drv s q.sql = prepare drv s c₀ := by rw [prepareFirst, hsplit]
  rw [hfirst, hsplit] at hq
  rcases hc : (prepare drv s c₀).2 with m | b
  · -- what does not compile the first time does not compile the second time
    rw [prepare_error_fst hc] at hq
    obtain ⟨b, hb⟩ := prepareAll_first hq
    exact absurd (hc.symm.trans hb) (by simp)
  · exact ⟨b, by rw [hfirst, hc]⟩

/-- What `prepareAll` leaves is one of the statements it went through, or what it was
given. -/
theorem prepareAll_mem {drv : Driver D E} {text : String} {args : List NamedArg}
    {p : Prepared} {s' : Session D} :
    ∀ (cs : List Cmd) (j : ℕ) (s : Session D) (last : Option Prepared),
      prepareAll drv text args j cs s last = (s', .ok (some p)) →
        p.cmd ∈ cs ∨ last = some p := by
  intro cs
  induction cs with
  | nil =>
      intro j s last h
      obtain ⟨-, hlast⟩ := Prod.mk.inj h
      have hlast' := Except.ok.inj hlast
      split at hlast'
      · exact absurd hlast' (by simp)
      · exact .inr hlast'
  | cons c cs ih =>
      intro j s last h
      rcases hp : prepare drv s c with ⟨s₁, m | b⟩
      · simp [prepareAll, hp] at h
      rcases hb : drv.bind text args j with m | a
      · simp [prepareAll, hp, hb] at h
      simp only [prepareAll, hp, hb] at h
      rcases ih _ _ _ h with hmem | hlast
      · exact .inl (List.mem_cons_of_mem c hmem)
      · rw [← Option.some.inj hlast]
        exact .inl List.mem_cons_self

/-- A statement that a text would run is one of its statements. -/
theorem wouldRun_mem {drv : Driver D E} {s : Session D} {q : Statement} {p : Prepared}
    (h : wouldRun drv s q = some p) : p.cmd ∈ drv.split q.sql := by
  obtain ⟨-, params, s', -, hq⟩ := wouldRun_eq_some h
  rcases prepareAll_mem _ _ _ _ hq with hmem | hnone
  · exact hmem
  · exact absurd hnone (by simp)

/-- Open rows know their columns. -/
theorem stepRows_columns {drv : Driver D E} (hrows : drv.LawfulRows) (e : E)
    (s : Session D) (last : Option Prepared) :
    ∃ types cols, (stepRows drv e s last).2.columnTypes = .ok types ∧
      (stepRows drv e s last).2.columns = .ok cols ∧
      ∀ row, .ok row ∈ (stepRows drv e s last).2.rows → row.length = types.length := by
  have hres : ∀ r : Except Halt Result, ∃ types cols,
      (Cursor.ofResult r).columnTypes = .ok types ∧ (Cursor.ofResult r).columns = .ok cols ∧
        ∀ row, .ok row ∈ (Cursor.ofResult r).rows → row.length = types.length := by
    intro r
    rcases r with (m | _) | r <;> exact ⟨[], [], rfl, rfl, by simp [Cursor.ofResult]⟩
  rcases last with _ | ⟨c, ro, args⟩
  · exact ⟨[], [], rfl, rfl, by simp [stepRows, Cursor.blank]⟩
  cases c with
  | plain sql =>
      obtain ⟨types, cols, htypes, hcols, hlen⟩ := hrows e sql args s.conn.settings s.see
      refine ⟨types, cols, ?_⟩
      simp only [stepRows]
      split
      · exact ⟨htypes, hcols, hlen⟩
      split
      · exact ⟨htypes, hcols, hlen⟩
      · exact ⟨htypes, hcols, by simp⟩
      · exact ⟨htypes, hcols, by simp⟩
  | _ => exact hres _

/-- **What a statement runs that passes the check**: what its text would run, whether it
is read-only or not. -/
theorem queryStmt_ran {drv : Driver D E} (hrows : drv.LawfulRows) {e : E} {s : Session D}
    {q : Statement} {p : Prepared} (hfirst : (prepareFirst drv s q.sql).2 = .ok true)
    (hp : wouldRun drv s q = some p) : (queryStmt drv e s q).ran = [p.cmd] := by
  obtain ⟨hsql, params, s', hparams, hq⟩ := wouldRun_eq_some hp
  obtain ⟨types, cols, htypes, hcols, -⟩ := stepRows_columns hrows e s' (some p)
  rcases hf : prepareFirst drv s q.sql with ⟨s₁, r⟩
  rw [hf] at hfirst hq
  obtain rfl : r = .ok true := hfirst
  simp only [queryStmt, hsql, if_false, hf, hparams, hq, runQuery, htypes, hcols,
    Option.map_some, Option.toList_some]

/-- A statement that does not pass the check runs nothing, and its result is the error
of the check. -/
theorem queryStmt_refused {drv : Driver D E} {e : E} {s : Session D} {q : Statement}
    (hsql : q.sql ≠ "") (hfirst : (prepareFirst drv s q.sql).2 = .ok false) :
    (queryStmt drv e s q).ran = [] ∧
      (queryStmt drv e s q).result = .res { error := errChange } := by
  rcases hf : prepareFirst drv s q.sql with ⟨s₁, r⟩
  rw [hf] at hfirst
  obtain rfl : r = .ok false := hfirst
  simp only [queryStmt, hsql, if_false, hf]
  exact ⟨trivial, trivial⟩

/-- How a request answers whose loop came through, ended early, or panicked. -/
theorem query_answer (drv : Driver D E) {loc : Local E} {req : Request} {s s₀ : Session D}
    (hstart : queryStart loc req.transaction s = .ok s₀) :
    match (queryLoop drv loc 0 req.statements s₀ []).2 with
    | .panic m => (query drv loc req s).2 = .panic m
    | .hang => (query drv loc req s).2 = .hang
    | .ret (.error m) => (query drv loc req s).2 = .ret ([], some m)
    | .ret (.ok results) => ∃ err, (query drv loc req s).2 = .ret (results, err) := by
  rw [query, hstart]
  simp only [queryFinish]
  rcases (queryLoop drv loc 0 req.statements s₀ []).2 with (m | results) | m | _
  · rfl
  · simp only
    split <;> exact ⟨_, rfl⟩
  · rfl
  · rfl

/-- The result of a reached statement stands at the place after the results before it,
if the loop comes through. -/
theorem Reached.result_of_loop {drv : Driver D E} {loc : Local E} {req : Request}
    {s s' s₀ s₁ : Session D} {i : ℕ} {q : Statement} {acc results : List QueryRes}
    {x : QueryRes} (h : Reached drv loc req s i q s' acc)
    (hx : (queryStmt drv ((loc.stmt i).entropy 0) s' q).result = .res x)
    (hstart : queryStart loc req.transaction s = .ok s₀)
    (hl : queryLoop drv loc 0 req.statements s₀ [] = (s₁, .ret (.ok results))) :
    results[acc.length]? = some x := by
  obtain ⟨s₂, hs₂, hloop⟩ := h.queryLoop_eq
  rw [hstart] at hs₂
  obtain rfl := Except.ok.inj hs₂
  have hgo : (queryStmt drv ((loc.stmt i).entropy 0) s' q).result.goesOn acc =
      some (acc ++ [x]) := by
    rw [hx]
    rfl
  rw [queryLoop_goesOn _ hgo] at hloop
  have hpre : acc ++ [x] <+: results := queryLoop_results _ _ _ _ _ _ (hloop.symm.trans hl)
  have hat := List.prefix_iff_getElem?.mp hpre acc.length (by simp)
  rw [hat, List.getElem_concat_length rfl]

/-- The results of a request that returned any are those of a loop that came through. -/
theorem query_results {drv : Driver D E} {loc : Local E} {req : Request} {s : Session D}
    {results : List QueryRes} {err : Option String}
    (hq : (query drv loc req s).2 = .ret (results, err)) (hne : results ≠ []) :
    ∃ s₀ s₁, queryStart loc req.transaction s = .ok s₀ ∧
      queryLoop drv loc 0 req.statements s₀ [] = (s₁, .ret (.ok results)) := by
  rcases hstart : queryStart loc req.transaction s with m | s₀
  · simp only [query, hstart, Outcome.ret.injEq, Prod.mk.injEq] at hq
    exact absurd hq.1.symm hne
  have hans := query_answer drv hstart
  rcases hl : queryLoop drv loc 0 req.statements s₀ [] with ⟨s₁, (m | rs) | m | _⟩
  · -- the request ended early, and has no results
    simp only [hl, hq, Outcome.ret.injEq, Prod.mk.injEq] at hans
    exact absurd hans.1 hne
  · simp only [hl, hq, Outcome.ret.injEq, Prod.mk.injEq] at hans
    obtain ⟨_, rfl, -⟩ := hans
    exact ⟨s₀, s₁, rfl, hl⟩
  · simp [hl, hq] at hans
  · simp [hl, hq] at hans

/-- The result of a reached statement stands in the answer of the request at the place
after the results before it. -/
theorem Reached.result_at {drv : Driver D E} {loc : Local E} {req : Request}
    {s s' : Session D} {i : ℕ} {q : Statement} {acc : List QueryRes} {x : QueryRes}
    (h : Reached drv loc req s i q s' acc)
    (hx : (queryStmt drv ((loc.stmt i).entropy 0) s' q).result = .res x)
    {results : List QueryRes} {err : Option String}
    (hq : (query drv loc req s).2 = .ret (results, err)) (hne : results ≠ []) :
    results[acc.length]? = some x := by
  obtain ⟨s₀, s₁, hstart, hl⟩ := query_results hq hne
  exact h.result_of_loop hx hstart hl

/-- **When the read-only check keeps its promise**: exactly when every text that is
reached and starts with a read-only statement would also run a read-only one. -/
theorem query_guard_iff {drv : Driver D E} (hrows : drv.LawfulRows) (loc : Local E)
    (req : Request) (s : Session D) :
    GuardHolds drv loc req s ↔
      ∀ i q s' acc, Reached drv loc req s i q s' acc →
        (prepareFirst drv s' q.sql).2 = .ok true →
          ∀ p, wouldRun drv s' q = some p → p.readOnly = true := by
  constructor
  · intro hguard i q s' acc hreach hfirst p hp
    by_contra hro
    have hran := (hguard i q s' acc hreach p hp (by simpa using hro)).1
    rw [queryStmt_ran hrows hfirst hp] at hran
    exact absurd hran (by simp)
  · intro hcond i q s' acc hreach p hp hro
    have hsql := (wouldRun_eq_some hp).1
    obtain ⟨b, hfirst⟩ := wouldRun_compiles hp
    have hb : b = false := by
      rcases b with _ | _
      · rfl
      · exact absurd (hcond i q s' acc hreach hfirst p hp) (by simp [hro])
    rw [hb] at hfirst
    obtain ⟨hran, hres⟩ := queryStmt_refused (e := (loc.stmt i).entropy 0) hsql hfirst
    exact ⟨hran, fun results err hq hne => hreach.result_at hres hq hne⟩

/-- The check at work on the one-table driver: a deletion on its own is refused. -/
theorem query_guard_delete :
    GuardHolds byteTable (.ofEntropy fun _ _ => 0) ⟨false, [⟨"DELETE FROM foo", []⟩]⟩
      ⟨[1], .fresh true⟩ := by
  refine (query_guard_iff byteTable_lawfulRows _ _ _).mpr ?_
  intro i q s' acc hreach hfirst
  have hq : q = ⟨"DELETE FROM foo", []⟩ := by
    have hmem := List.mem_of_getElem? hreach.isStmt
    exact List.mem_singleton.mp hmem
  rw [hq] at hfirst
  exact absurd hfirst (by simp [prepareFirst, byteTable, byteTableSplit, prepare, byteTableCompile])

/-- **A deletion passes the check** when a read-only statement stands before it in the
text. It is run, and what stops it is that the connection was opened read-only. -/
theorem delete_passes_check :
    (¬GuardHolds byteTable (.ofEntropy fun _ _ => 0)
      ⟨false, [⟨"SELECT 1; DELETE FROM foo", []⟩]⟩ ⟨[1], .fresh true⟩) ∧
      (query byteTable (.ofEntropy fun _ _ => 0)
        ⟨false, [⟨"SELECT 1; DELETE FROM foo", []⟩]⟩ ⟨[1], .fresh true⟩).2 =
          .ret ([{ error := errReadOnly }], none) := by
  refine ⟨?_, rfl⟩
  intro hguard
  have hreach : Reached byteTable (.ofEntropy fun _ _ => 0)
      ⟨false, [⟨"SELECT 1; DELETE FROM foo", []⟩]⟩ ⟨[1], .fresh true⟩ 0
      ⟨"SELECT 1; DELETE FROM foo", []⟩ ⟨[1], .fresh true⟩ [] :=
    ⟨rfl, ⟨[1], .fresh true⟩, rfl, rfl⟩
  have hran := (hguard _ _ _ _ hreach ⟨.plain "DELETE FROM foo", false, []⟩ (by decide) rfl).1
  exact absurd hran (by decide)

end DistSql
