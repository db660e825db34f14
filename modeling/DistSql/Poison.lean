import DistSql.Fsm
import DistSql.Wire

/-!
# Poison Entries

An entry that a replica cannot apply is **poison**: a panic takes down every replica
that applies it and comes back with every replay, and an entry whose application never
ends stops the state machine for good.

An executed request is poison exactly when it reaches a statement that SQLite does not
come to the end of, such as an insertion from a recursion without end (`Endless`). A query
is poison exactly when one of the statements it reaches is **stuck**: the first thing that
stops the conversion of its rows is a byte string under a string-typed column (where
`convertToProto` writes through a nil pointer), or nothing stops it and the rows never
end. The rows of a text that ends in a comment never do.

## Main results

* `exec_returns_iff`: an executed request comes back exactly when no statement that it
  reaches goes on without end.
* `readRows_stops`: how the row loop ends, by what its rows stop at.
* `queryLoop_returns_iff`: the loop over the statements comes back exactly when every
  statement it reaches does.
* `applyAction_digests_iff`: when an entry is not poison.
* `blob_query_is_poison`: an entry that is.
-/

open Golang Sqlite

namespace DistSql

variable {D E : Type}

/-! ### Statements without end -/

/-- The library does not come to the end of the command: it is handed the statement, which
was not refused before, and does not return. -/
def RunsOn (drv : Driver D E) (lock : Option String) (e : E) (ro : Bool)
    (args : List NamedArg) (s : Session D) : Cmd → Prop
  | .plain sql =>
      (ro = true ∨ drv.tempOnly sql s.conn.settings s.see = true ∨
        s.conn.canWrite = true ∧ lock = none) ∧
      drv.exec e sql args s.conn.settings s.see = .never
  | .attach sql => drv.exec e sql args s.conn.settings s.see = .never
  | _ => False

/-- A plain statement does not come to an end exactly when the library does not. -/
theorem runPlain_never_iff {drv : Driver D E} {lock : Option String} {e : E} {ro : Bool}
    {args : List NamedArg} {s : Session D} {sql : String} :
    (runPlain drv lock e ro args s sql).2 = .error .never ↔
      RunsOn drv lock e ro args s (.plain sql) := by
  rw [runPlain.eq_def, RunsOn]
  by_cases hread : (ro || drv.tempOnly sql s.conn.settings s.see) = true
  · have hhanded : ro = true ∨ drv.tempOnly sql s.conn.settings s.see = true ∨
        s.conn.canWrite = true ∧ lock = none := by
      rcases Bool.or_eq_true_iff.mp hread with h | h
      · exact .inl h
      · exact .inr (.inl h)
    rw [if_pos hread, and_iff_right hhanded]
    rcases drv.exec e sql args s.conn.settings s.see with _ | _ | _ | _ <;> simp
  obtain ⟨hro, htemp⟩ := Bool.or_eq_false_iff.mp (Bool.eq_false_iff.mpr hread)
  rw [if_neg hread]
  by_cases hw : s.conn.canWrite = true
  · rcases lock with _ | m
    · simp only [hw, Bool.not_true, Bool.false_eq_true, if_false, true_and, or_true]
      rcases drv.exec e sql args s.conn.settings s.see with _ | _ | _ | _ <;> simp
    · simp [hw, hro, htemp]
  · simp [hw, hro, htemp]

/-- A command does not come to an end exactly when the library does not. -/
theorem runCmd_never_iff {drv : Driver D E} {lock : Option String} {e : E} {ro : Bool}
    {args : List NamedArg} {s : Session D} {c : Cmd} :
    (runCmd drv lock e ro args s c).2 = .error .never ↔ RunsOn drv lock e ro args s c := by
  have hcommit : ∀ t, (commitLocked lock s t).2 ≠ .error .never := by
    intro t
    cases lock <;> simp [commitLocked]
  cases c with
  | plain sql => exact runPlain_never_iff
  | attach sql =>
      have hplain := @runPlain_never_iff D E drv lock e true args s sql
      simp only [RunsOn, true_or, true_and] at hplain
      simp only [RunsOn, ← hplain, runCmd]
      split <;> rename_i hr <;> rw [hr]
  | begin imm =>
      simp only [runCmd, RunsOn, iff_false]
      split
      · simp
      split
      · split <;> simp
      · simp
  | commit =>
      simp only [runCmd, RunsOn, iff_false]
      split
      · simp
      · exact hcommit _
  | rollback =>
      simp only [runCmd, RunsOn, iff_false]
      split <;> simp
  | savepoint name =>
      simp only [runCmd, RunsOn, iff_false]
      split <;> simp
  | release name =>
      simp only [runCmd, RunsOn, iff_false]
      split
      · simp
      split
      · simp
      split
      · exact hcommit _
      · simp
  | rollbackTo name =>
      simp only [runCmd, RunsOn, iff_false]
      split
      · simp
      split <;> simp

/-- The statement number `j` of a text runs on, in the session that the statements before
it leave: it compiles and binds, and the library does not come to its end. -/
def RunsOnAt (drv : Driver D E) (env : Env E) (text : String) (args : List NamedArg)
    (s : Session D) (j : ℕ) (c : Cmd) : Prop :=
  ∃ s₁ ro a, prepare drv s c = (s₁, .ok ro) ∧ drv.bind text args j = .ok a ∧
    RunsOn drv (env.lock j) (env.entropy j) ro a s₁ c

/-- The statements of a text do not come to an end exactly when one of them that they
reach runs on. Induction on the statements. -/
theorem runCmds_never_iff {drv : Driver D E} {env : Env E} {text : String}
    {args : List NamedArg} :
    ∀ (cs : List Cmd) (j : ℕ) (s : Session D) (r : Result),
      (runCmds drv env text args j cs s r).2 = .error .never ↔
        ∃ k c s' r', cs[k]? = some c ∧
          runCmds drv env text args j (cs.take k) s r = (s', .ok r') ∧
          RunsOnAt drv env text args s' (j + k) c := by
  intro cs
  induction cs with
  | nil => intro j s r; simp [runCmds]
  | cons c cs ih =>
      intro j s r
      -- where the first statement does not let the text go on, only that one is reached
      have hstop : (∀ rest s' r', runCmds drv env text args j (c :: rest) s r ≠ (s', .ok r')) →
          ((runCmds drv env text args j (c :: cs) s r).2 = .error .never ↔
            RunsOnAt drv env text args s j c) →
          ((runCmds drv env text args j (c :: cs) s r).2 = .error .never ↔
            ∃ k c' s' r', (c :: cs)[k]? = some c' ∧
              runCmds drv env text args j ((c :: cs).take k) s r = (s', .ok r') ∧
              RunsOnAt drv env text args s' (j + k) c') := by
        intro hne hiff
        rw [hiff]
        constructor
        · intro h
          exact ⟨0, c, s, r, rfl, rfl, h⟩
        · rintro ⟨k, c', s', r', hc', hreach, h⟩
          rcases k with _ | k
          · obtain rfl := Option.some.inj hc'
            obtain ⟨rfl, -⟩ := Prod.mk.inj hreach
            exact h
          · exact absurd hreach (hne _ _ _)
      rcases hp : prepare drv s c with ⟨s₁, m | ro⟩
      · refine hstop (fun rest s' r' => by simp [runCmds, hp]) ?_
        simp [runCmds, hp, RunsOnAt]
      rcases hb : drv.bind text args j with m | a
      · refine hstop (fun rest s' r' => by simp [runCmds, hp, hb]) ?_
        simp [runCmds, hp, hb, RunsOnAt]
      have hat : RunsOnAt drv env text args s j c ↔
          (runCmd drv (env.lock j) (env.entropy j) ro a s₁ c).2 = .error .never := by
        rw [runCmd_never_iff]
        constructor
        · rintro ⟨s₂, ro', a', hp', hb', h⟩
          obtain ⟨rfl, hro⟩ := Prod.mk.inj (hp.symm.trans hp')
          obtain rfl := Except.ok.inj hro
          obtain rfl := Except.ok.inj (hb.symm.trans hb')
          exact h
        · intro h
          exact ⟨s₁, ro, a, hp, hb, h⟩
      rcases hr : runCmd drv (env.lock j) (env.entropy j) ro a s₁ c with ⟨s₂, stop | r₂⟩
      · refine hstop (fun rest s' r' => by simp [runCmds, hp, hb, hr]) ?_
        rw [hat, hr]
        simp [runCmds, hp, hb, hr]
      · have hgo : ∀ rest, runCmds drv env text args j (c :: rest) s r =
            runCmds drv env text args (j + 1) rest s₂ r₂ := by
          intro rest
          simp only [runCmds, hp, hb, hr]
        have hi : ∀ k, j + (k + 1) = j + 1 + k := by omega
        rw [hgo, ih]
        constructor
        · rintro ⟨k, c', s', r', hc', hreach, h⟩
          refine ⟨k + 1, c', s', r', hc', ?_, by rwa [hi]⟩
          rw [List.take_succ_cons, hgo]
          exact hreach
        · rintro ⟨k, c', s', r', hc', hreach, h⟩
          rcases k with _ | k
          · obtain rfl := Option.some.inj hc'
            obtain ⟨rfl, -⟩ := Prod.mk.inj hreach
            rw [Nat.add_zero, hat, hr] at h
            exact absurd h (by simp)
          · rw [List.take_succ_cons, hgo] at hreach
            exact ⟨k, c', s', r', hc', hreach, by rwa [hi] at h⟩

/-- The statement is **endless** in a session: its parameters convert, and its text
reaches a statement that the library does not come to the end of. -/
def Endless (drv : Driver D E) (env : Env E) (s : Session D) (stmt : Statement) : Prop :=
  stmt.sql ≠ "" ∧ ∃ args, convertParamsToSQL stmt.params = .ok args ∧
    ∃ j c s' r, (drv.split stmt.sql)[j]? = some c ∧
      runCmds drv env stmt.sql args 0 ((drv.split stmt.sql).take j) s .zero = (s', .ok r) ∧
      RunsOnAt drv env stmt.sql args s' j c

/-- **A statement hangs** exactly when it is endless. -/
theorem execStmt_hang_iff {drv : Driver D E} {env : Env E} {s : Session D} {stmt : Statement}
    (hsql : stmt.sql ≠ "") :
    (execStmt drv env s stmt).2 = .hang ↔ Endless drv env s stmt := by
  have hhang : (execStmt drv env s stmt).2 = .hang ↔
      ∃ args, convertParamsToSQL stmt.params = .ok args ∧
        (execText drv env stmt.sql args s).2 = .error .never := by
    rcases execStmt_cases drv env s stmt with ⟨m, hp, h⟩ | ⟨args, hp, ⟨s', hx, h⟩ |
      ⟨s', m, hx, h⟩ | ⟨s', r, hx, ⟨m, -, h⟩ | ⟨n, m, -, h⟩ | ⟨id, n, -, h⟩⟩⟩
    · simp [h, hp]
    all_goals simp [h, hp, hx]
  rw [hhang, Endless, and_iff_right hsql]
  refine exists_congr fun args => and_congr_right fun _ => ?_
  rw [execText, runCmds_never_iff]
  simp only [Nat.zero_add]

/-- The loop of `Engine.Exec` gets stuck exactly when it reaches a statement that hangs:
the statements before it left the transaction variable as it was. Induction on the
statements. -/
theorem execLoop_hung_iff {drv : Driver D E} {loc : Local E} :
    ∀ (stmts : List Statement) (i : ℕ) (st : ExecState D), st.hung = false →
      ((execLoop drv loc i stmts st).hung = true ↔
        ∃ k stmt st', stmts[k]? = some stmt ∧ execLoop drv loc i (stmts.take k) st = st' ∧
          st'.tx = st.tx ∧ st'.hung = false ∧
          Endless drv (loc.stmt (i + k)) st'.session stmt) := by
  intro stmts
  induction stmts with
  | nil => intro i st h; simp [execLoop, h]
  | cons stmt rest ih =>
      intro i st hst
      have hi : ∀ k, i + (k + 1) = i + 1 + k := by omega
      -- an iteration after which the loop goes on reached no endless statement
      have hgo : ∀ st₁, execIter drv (loc.stmt i) stmt st = (st₁, true) → st₁.tx = st.tx →
          st₁.hung = false → ¬Endless drv (loc.stmt i) st.session stmt →
          ((execLoop drv loc i (stmt :: rest) st).hung = true ↔
            ∃ k stmt' st', (stmt :: rest)[k]? = some stmt' ∧
              execLoop drv loc i ((stmt :: rest).take k) st = st' ∧ st'.tx = st.tx ∧
              st'.hung = false ∧ Endless drv (loc.stmt (i + k)) st'.session stmt') := by
        intro st₁ hiter htx hhung hnot
        have hnext : ∀ rest, execLoop drv loc i (stmt :: rest) st =
            execLoop drv loc (i + 1) rest st₁ := by
          intro rest
          rw [execLoop_cons, hiter]
          rfl
        rw [hnext, ih (i + 1) st₁ hhung]
        constructor
        · rintro ⟨k, stmt', st', hk, hreach, htx', hhung', hend⟩
          refine ⟨k + 1, stmt', st', hk, ?_, htx'.trans htx, hhung', by rwa [hi]⟩
          rw [List.take_succ_cons, hnext]
          exact hreach
        · rintro ⟨k, stmt', st', hk, hreach, htx', hhung', hend⟩
          rcases k with _ | k
          · obtain rfl := Option.some.inj hk
            obtain rfl : st = st' := hreach
            exact absurd hend hnot
          · rw [List.take_succ_cons, hnext] at hreach
            exact ⟨k, stmt', st', hk, hreach, htx'.trans htx.symm, hhung', by rwa [hi] at hend⟩
      by_cases hsql : stmt.sql = ""
      · exact hgo st (by simp [execIter, hsql]) rfl hst fun h => h.1 hsql
      have hend := @execStmt_hang_iff D E drv (loc.stmt i) st.session stmt hsql
      rcases hx : execStmt drv (loc.stmt i) st.session stmt with ⟨s, (res | res) | m | _⟩
      · have hnot : ¬Endless drv (loc.stmt i) st.session stmt := by
          rw [← hend, hx]
          simp
        rcases htx : st.tx
        · exact htx ▸ hgo ⟨s, false, st.results ++ [res], st.hung⟩
            (by simp [execIter, hsql, hx, htx]) htx.symm hst hnot
        · -- the error handler left the loop, and cleared the transaction variable
          have hleft : ∀ rest, execLoop drv loc i (stmt :: rest) st =
              ⟨rollbackTx s, false, st.results ++ [res], st.hung⟩ := by
            intro rest
            simp only [execLoop, hsql, if_false, hx, htx, if_true]
          rw [hleft]
          refine iff_of_false (by simp [hst]) ?_
          rintro ⟨k, stmt', st', hk, hreach, htx', -, hend'⟩
          rcases k with _ | k
          · obtain rfl := Option.some.inj hk
            obtain rfl : st = st' := hreach
            exact hnot hend'
          · rw [List.take_succ_cons, hleft] at hreach
            rw [← hreach] at htx'
            exact absurd htx' (by simp)
      · exact hgo ⟨s, st.tx, st.results ++ [res], st.hung⟩ (by simp [execIter, hsql, hx]) rfl hst
          (by rw [← hend, hx]; simp)
      · exact absurd (congrArg Prod.snd hx) (execStmt_ne_panic _ _ _ _ m)
      · -- the statement hangs
        have hstuck : (execLoop drv loc i (stmt :: rest) st).hung = true := by
          simp only [execLoop, hsql, if_false, hx]
        refine iff_of_true hstuck ⟨0, stmt, st, rfl, rfl, rfl, hst, ?_⟩
        rw [Nat.add_zero, ← hend, hx]

/-- The executed request **reaches** its statement number `i`, which is `stmt`, in the
session `s'`. `Engine.Exec` starts as `Engine.Query` does. -/
structure ExecReached (drv : Driver D E) (loc : Local E) (req : Request) (s : Session D)
    (i : ℕ) (stmt : Statement) (s' : Session D) : Prop where
  isStmt : req.statements[i]? = some stmt
  loop : ∃ s₀ results, queryStart loc req.transaction s = .ok s₀ ∧
    execLoop drv loc 0 (req.statements.take i) ⟨s₀, req.transaction, [], false⟩ =
      ⟨s', req.transaction, results, false⟩

/-- `Engine.Exec`, from its start to its end. -/
theorem exec_eq (drv : Driver D E) (loc : Local E) (req : Request) (s : Session D) :
    exec drv loc req s =
      match queryStart loc req.transaction s with
      | .error m => (s, .ret ([], some m))
      | .ok s₀ =>
          execFinish loc (execLoop drv loc 0 req.statements ⟨s₀, req.transaction, [], false⟩) := by
  rw [exec, queryStart]
  rcases loc.conn with _ | m
  · rcases htx : req.transaction
    · rfl
    · rcases beginTx loc.begin s with m | s' <;> rfl
  · rfl

/-- **An executed request comes back** exactly when no statement that it reaches is
endless. -/
theorem exec_returns_iff {drv : Driver D E} {loc : Local E} {req : Request} {s : Session D} :
    (exec drv loc req s).2.Returns ↔
      ∀ i stmt s', ExecReached drv loc req s i stmt s' →
        ¬Endless drv (loc.stmt i) s' stmt := by
  rw [exec_eq]
  rcases hstart : queryStart loc req.transaction s with m | s₀
  · simp only [Outcome.returns_ret, true_iff]
    intro i stmt s' hreach
    obtain ⟨s₀, _, hs₀, -⟩ := hreach.loop
    rw [hstart] at hs₀
    exact absurd hs₀ (by simp)
  obtain ⟨st, hst⟩ : ∃ st,
    st = execLoop drv loc 0 req.statements ⟨s₀, req.transaction, [], false⟩ := ⟨_, rfl⟩
  have hret : (execFinish loc st).2.Returns ↔ ¬st.hung = true := by
    rw [execFinish]
    split
    · simp_all
    split <;> simp_all
  simp only
  rw [← hst, hret, hst, execLoop_hung_iff _ _ _ rfl]
  simp only [Nat.zero_add, not_exists, not_and]
  constructor
  · intro h i stmt s' hreach
    obtain ⟨s₁, results, hs₁, hloop⟩ := hreach.loop
    rw [hstart] at hs₁
    obtain rfl := Except.ok.inj hs₁
    exact h i stmt _ hreach.isStmt hloop rfl rfl
  · intro h i stmt st' hk hloop htx hhung
    obtain ⟨s', tx, results, hung⟩ := st'
    obtain rfl : tx = req.transaction := htx
    obtain rfl : hung = false := hhung
    exact h i stmt s' ⟨hk, s₀, results, hstart, hloop⟩

/-! ### Rows -/

/-- What the row loop stops at: nothing, a row that fails to scan, or a cell that stops
the conversion of its row. -/
def rowsStop (types : List String) :
    List (Except String (List Cell)) → Option (Option (String × Cell))
  | [] => none
  | .error _ :: _ => some none
  | .ok row :: rest =>
      match firstStop (types.zip row) with
      | some p => some (some p)
      | none => rowsStop types rest

/-- The reader of these rows never gets to their end: they stop it at a byte string
under a string-typed column, or do not stop it and are endless. -/
def stuck (types : List String) (cur : Cursor) : Bool :=
  match rowsStop types cur.rows with
  | some (some p) => blobInText p.1 p.2
  | some none => false
  | none => cur.endless

/-- **How the row loop ends**, by what its rows stop at. Induction on the rows; a row
that converts leaves the decision to the rows after it. -/
theorem readRows_stops {types : List String} :
    ∀ (rows : List (Except String (List Cell))) (acc : List Values),
      (∀ row, .ok row ∈ rows → row.length = types.length) →
      match rowsStop types rows with
      | none => ∃ values, readRows types rows acc = .ret (.ok values)
      | some none => ∃ m, readRows types rows acc = .ret (.error m)
      | some (some p) => StopsAs (some p) (readRows types rows acc) := by
  intro rows
  induction rows with
  | nil => intro acc _; exact ⟨acc, rfl⟩
  | cons r rest ih =>
      intro acc hlen
      rcases r with m | row
      · exact ⟨m, rfl⟩
      have hrow := convertToProto_stops (hlen row List.mem_cons_self)
      have hrest := fun acc => ih acc fun row' h => hlen row' (List.mem_cons_of_mem _ h)
      rcases hf : firstStop (types.zip row) with _ | p
      · rw [hf] at hrow
        obtain ⟨prs, hprs⟩ := hrow
        simp only [rowsStop, hf, readRows, hprs, Outcome.ret_ok_okThen]
        exact hrest _
      · rw [hf] at hrow
        simp only [rowsStop, hf, readRows]
        exact hrow.stopped _

/-- The statement came to an end. -/
def StmtEnd.Returns : StmtEnd → Prop
  | .panic _ | .hang => False
  | _ => True

/-- **Reading a cursor** comes to an end exactly when the cursor is not stuck. -/
theorem readCursor_returns_iff {types cols : List String} {cur : Cursor}
    (hlen : ∀ row, .ok row ∈ cur.rows → row.length = types.length) :
    (readCursor types cols cur).Returns ↔ stuck types cur = false := by
  have hstop := readRows_stops cur.rows [] hlen
  rcases hr : rowsStop types cur.rows with _ | _ | p
  · -- every row converts
    rw [hr] at hstop
    obtain ⟨values, hvalues⟩ := hstop
    rcases hend : cur.endless
    · rcases herr : cur.err with _ | m <;>
        simp [readCursor, hvalues, hend, herr, stuck, hr, StmtEnd.Returns]
    · simp [readCursor, hvalues, hend, stuck, hr, StmtEnd.Returns]
  · -- a row fails to scan
    rw [hr] at hstop
    obtain ⟨m, hm⟩ := hstop
    simp [readCursor, hm, stuck, hr, StmtEnd.Returns]
  · rw [hr] at hstop
    by_cases hb : blobInText p.1 p.2 = true
    · obtain ⟨m, hm⟩ : ∃ m, readRows types cur.rows [] = .panic m := by
        simpa only [StopsAs, if_pos hb] using hstop
      simp [readCursor, hm, stuck, hr, hb, StmtEnd.Returns]
    · obtain ⟨m, hm⟩ : ∃ m, readRows types cur.rows [] = .ret (.error m) := by
        simpa only [StopsAs, if_neg hb] using hstop
      simp [readCursor, hm, stuck, hr, hb, StmtEnd.Returns]

/-! ### Statements -/

/-- The rows that a statement of a query opens in a session: those of the command that
`QueryContext` leaves, if the text passes the check and `QueryContext` succeeds. -/
def openRows (drv : Driver D E) (e : E) (s : Session D) (q : Statement) : Option Cursor :=
  if q.sql = "" then none
  else
    match prepareFirst drv s q.sql, convertParamsToSQL q.params with
    | (s₁, .ok true), .ok params =>
        match queryContext drv s₁ q.sql params with
        | (s₂, .ok last) => some (stepRows drv e s₂ last).2
        | (_, .error _) => none
    | _, _ => none

/-- A statement opens the rows of what is left of it. -/
theorem openRows_eq (drv : Driver D E) (e : E) (s : Session D) (q : Statement) :
    openRows drv e s q =
      if q.sql = "" then none
      else
        match accept drv s q with
        | (_, .error _) => none
        | (s', .ok last) => some (stepRows drv e s' last).2 := by
  rw [openRows, accept]
  rcases prepareFirst drv s q.sql with ⟨s₁, m | ro⟩
  · rfl
  rcases ro with _ | _
  · rfl
  rcases convertParamsToSQL q.params with m | params
  · rfl
  · simp only
    rcases queryContext drv s₁ q.sql params with ⟨s₂, m | last⟩ <;> rfl

/-- **How a statement ends**, by the rows that it opens: an empty text is skipped; a
statement that is refused has a result with nothing but an error; any other one ends as
the reading of its rows does. -/
theorem queryStmt_cases {drv : Driver D E} (hrows : drv.LawfulRows) (e : E) (s : Session D)
    (q : Statement) :
    (q.sql = "" ∧ openRows drv e s q = none ∧ (queryStmt drv e s q).session = s ∧
        (queryStmt drv e s q).result = .skip) ∨
      q.sql ≠ "" ∧
        ((∃ s' m, accept drv s q = (s', .error m) ∧ openRows drv e s q = none ∧
          (queryStmt drv e s q).session = s' ∧
          (queryStmt drv e s q).result = .res { error := m }) ∨
        ∃ s' last types cols, accept drv s q = (s', .ok last) ∧
          openRows drv e s q = some (stepRows drv e s' last).2 ∧
          (stepRows drv e s' last).2.columnTypes = .ok types ∧
          (stepRows drv e s' last).2.columns = .ok cols ∧
          (∀ row, .ok row ∈ (stepRows drv e s' last).2.rows →
            row.length = (types.map toLower).length) ∧
          (queryStmt drv e s q).session =
            afterRows (stepRows drv e s' last).1 (stepRows drv e s' last).2
              (queryStmt drv e s q).result ∧
          (queryStmt drv e s q).result =
            readCursor (types.map toLower) cols (stepRows drv e s' last).2) := by
  by_cases hsql : q.sql = ""
  · exact .inl ⟨hsql, by simp [openRows, hsql], by simp [queryStmt, hsql],
      by simp [queryStmt, hsql]⟩
  refine .inr ⟨hsql, ?_⟩
  rcases ha : accept drv s q with ⟨s', m | last⟩
  · exact .inl ⟨s', m, rfl, by simp [openRows_eq, hsql, ha], by simp [queryStmt_eq, hsql, ha],
      by simp [queryStmt_eq, hsql, ha]⟩
  obtain ⟨types, cols, htypes, hcols, hlen⟩ := stepRows_columns hrows e s' last
  refine .inr ⟨s', last, types, cols, rfl, by simp [openRows_eq, hsql, ha], htypes, hcols,
    fun row hrow => ?_, ?_, ?_⟩
  · rw [List.length_map]
    exact hlen row hrow
  · simp only [queryStmt_eq, hsql, if_false, ha, runQuery, htypes, hcols]
  · simp only [queryStmt_eq, hsql, if_false, ha, runQuery, htypes, hcols]

/-- The statement opens rows that its reader never gets to the end of. -/
def Stuck (drv : Driver D E) (e : E) (s : Session D) (q : Statement) : Prop :=
  ∃ cur types, openRows drv e s q = some cur ∧ cur.columnTypes = .ok types ∧
    stuck (types.map toLower) cur = true

/-- **A statement comes to an end** exactly when it is not stuck. -/
theorem queryStmt_returns_iff {drv : Driver D E} (hrows : drv.LawfulRows) {e : E}
    {s : Session D} {q : Statement} :
    (queryStmt drv e s q).result.Returns ↔ ¬Stuck drv e s q := by
  rcases queryStmt_cases hrows e s q with
    ⟨-, hopen, -, hres⟩ | ⟨-, ⟨s', m, -, hopen, -, hres⟩ |
      ⟨s', last, types, cols, -, hopen, htypes, -, hlen, -, hres⟩⟩
  · simp [hres, Stuck, hopen, StmtEnd.Returns]
  · simp [hres, Stuck, hopen, StmtEnd.Returns]
  -- the statement runs, and ends as the reading of its rows does
  have hstuck : Stuck drv e s q ↔ stuck (types.map toLower) (stepRows drv e s' last).2 = true := by
    rw [Stuck, hopen]
    constructor
    · rintro ⟨cur, types', hcur, htypes', h⟩
      obtain rfl := Option.some.inj hcur
      rw [htypes] at htypes'
      rw [Except.ok.inj htypes']
      exact h
    · intro h
      exact ⟨_, types, rfl, htypes, h⟩
  rw [hres, readCursor_returns_iff hlen, hstuck, Bool.not_eq_true]

/-! ### Requests -/

/-- After a statement that comes to an end, the loop goes on or returns. -/
theorem queryLoop_returns_of_stops {drv : Driver D E} {loc : Local E} {i : ℕ}
    {q : Statement} {s : Session D} {acc : List QueryRes} (rest : List Statement)
    (h : (queryStmt drv ((loc.stmt i).entropy 0) s q).result.goesOn acc = none) :
    (queryLoop drv loc i (q :: rest) s acc).2.Returns ↔
      (queryStmt drv ((loc.stmt i).entropy 0) s q).result.Returns := by
  rcases hr : (queryStmt drv ((loc.stmt i).entropy 0) s q).result with _ | x | m | m | _ <;>
    rw [hr] at h <;> simp [StmtEnd.goesOn] at h <;> simp [queryLoop, hr, StmtEnd.Returns]

/-- A statement after which the loop goes on has come to an end. -/
theorem StmtEnd.returns_of_goesOn {r : StmtEnd} {acc acc' : List QueryRes}
    (h : r.goesOn acc = some acc') : r.Returns := by
  cases r with
  | skip => trivial
  | res x => trivial
  | abort m => trivial
  | panic m => simp [StmtEnd.goesOn] at h
  | hang => simp [StmtEnd.goesOn] at h

/-- **The loop comes back** exactly when every statement that it reaches does.
Induction on the statements. -/
theorem queryLoop_returns_iff {drv : Driver D E} {loc : Local E} :
    ∀ (stmts : List Statement) (i : ℕ) (s : Session D) (acc : List QueryRes),
      (queryLoop drv loc i stmts s acc).2.Returns ↔
        ∀ k q s' acc', stmts[k]? = some q →
          queryLoop drv loc i (stmts.take k) s acc = (s', .ret (.ok acc')) →
            (queryStmt drv ((loc.stmt (i + k)).entropy 0) s' q).result.Returns := by
  intro stmts
  induction stmts with
  | nil => intro i s acc; simp [queryLoop]
  | cons q rest ih =>
      intro i s acc
      rcases hr : (queryStmt drv ((loc.stmt i).entropy 0) s q).result.goesOn acc with _ | acc₁
      · -- only the first statement is reached
        rw [queryLoop_returns_of_stops rest hr]
        constructor
        · intro h k q' s' acc' hq hreach
          rcases k with _ | k
          · obtain ⟨rfl, -⟩ := Prod.mk.inj hreach
            obtain rfl := Option.some.inj hq
            exact h
          · exact absurd hreach (queryLoop_stops (rest.take k) hr _ _)
        · intro h
          exact h 0 q s acc rfl rfl
      · rw [queryLoop_goesOn rest hr, ih]
        have hi : ∀ k, i + (k + 1) = i + 1 + k := by omega
        constructor
        · intro h k q' s' acc' hq hreach
          rcases k with _ | k
          · obtain ⟨rfl, -⟩ := Prod.mk.inj hreach
            obtain rfl := Option.some.inj hq
            exact StmtEnd.returns_of_goesOn hr
          · rw [List.take_succ_cons, queryLoop_goesOn (rest.take k) hr] at hreach
            rw [hi]
            exact h k q' s' acc' hq hreach
        · intro h k q' s' acc' hq hreach
          rw [← hi]
          refine h (k + 1) q' s' acc' hq ?_
          rw [List.take_succ_cons, queryLoop_goesOn (rest.take k) hr]
          exact hreach

/-- **A request comes back** exactly when no statement that it reaches is stuck. -/
theorem query_returns_iff {drv : Driver D E} (hrows : drv.LawfulRows) {loc : Local E}
    {req : Request} {s : Session D} :
    (query drv loc req s).2.Returns ↔
      ∀ i q s' acc, Reached drv loc req s i q s' acc →
        ¬Stuck drv ((loc.stmt i).entropy 0) s' q := by
  rcases hstart : queryStart loc req.transaction s with m | s₀
  · simp only [query, hstart, Outcome.returns_ret, true_iff]
    intro i q s' acc hreach
    obtain ⟨s₀, hs₀, -⟩ := hreach.loop
    rw [hstart] at hs₀
    exact absurd hs₀ (by simp)
  have hret : (query drv loc req s).2.Returns ↔
      (queryLoop drv loc 0 req.statements s₀ []).2.Returns := by
    have hans := query_answer drv hstart
    rcases hl : (queryLoop drv loc 0 req.statements s₀ []).2 with (m | results) | m | _
    · rw [hl] at hans
      simp [hans]
    · rw [hl] at hans
      obtain ⟨err, herr⟩ := hans
      simp [herr]
    · rw [hl] at hans
      simp [hans]
    · rw [hl] at hans
      simp [hans]
  rw [hret, queryLoop_returns_iff]
  constructor
  · intro h i q s' acc hreach
    obtain ⟨s₁, hs₁, hloop⟩ := hreach.loop
    rw [hstart] at hs₁
    obtain rfl := Except.ok.inj hs₁
    have hi := h i q s' acc hreach.isStmt hloop
    rw [Nat.zero_add] at hi
    exact (queryStmt_returns_iff hrows).mp hi
  · intro h i q s' acc hq hloop
    rw [Nat.zero_add]
    exact (queryStmt_returns_iff hrows).mpr (h i q s' acc ⟨hq, s₀, hstart, hloop⟩)

/-! ### Entries -/

/-- A replica **digests** the entry `b` of a proposal: it decodes to what was proposed,
and applying it returns the kind of response that the proposer asserts. -/
def Digests (pr : Proto) (drv : Driver D E) (loc : Local E) (eng : Engine D)
    (b : List UInt8) (p : Proposal) : Prop :=
  DecodesTo pr b p ∧
    match p with
    | .exec _ => ∃ res err, (applyAction pr drv loc b eng).2 = .ret (.exec res err)
    | .query _ => ∃ res err, (applyAction pr drv loc b eng).2 = .ret (.query res err)

/-- The proposal has nothing in it that a replica chokes on: none of the statements that
an executed request reaches is endless, and none of those that a query reaches is stuck. -/
def Digestible (drv : Driver D E) (loc : Local E) (eng : Engine D) : Proposal → Prop
  | .exec req => ∀ i stmt s', ExecReached drv loc req ⟨eng.db, eng.write⟩ i stmt s' →
      ¬Endless drv (loc.stmt i) s' stmt
  | .query q => ∀ req, q.request = some req →
      ∀ i stmt s' acc, Reached drv loc req ⟨eng.db, eng.read⟩ i stmt s' acc →
        ¬Stuck drv ((loc.stmt i).entropy 0) s' stmt

/-- **When an entry is not poison**: the entry of a proposal is digested, in whatever
state the replica is, exactly when none of the statements that it reaches is endless, or
stuck. -/
theorem applyAction_digests_iff {pr : Proto} (hpr : pr.Lawful) {drv : Driver D E}
    (hrows : drv.LawfulRows) (loc : Local E) (eng : Engine D) {p : Proposal}
    (hreq : ∀ q, p = .query q → q.request ≠ none) {b : List UInt8}
    (hb : p.encode pr = .ok b) : Digests pr drv loc eng b p ↔ Digestible drv loc eng p := by
  have hdec := decodesTo_encode hpr hb
  have happ := applyAction_of_decodesTo hdec drv loc eng
  cases p with
  | exec req =>
      have hdig : Digestible drv loc eng (.exec req) ↔
          (exec drv loc req ⟨eng.db, eng.write⟩).2.Returns := exec_returns_iff.symm
      rw [hdig]
      constructor
      · rintro ⟨-, res, err, h⟩
        rw [happ] at h
        simp only [Engine.take, Engine.exec] at h
        obtain ⟨r, hr, -⟩ := Outcome.bind_eq_ret_iff.mp h
        rw [hr]
        trivial
      · intro h
        obtain ⟨r, hr⟩ := Outcome.returns_iff_exists.mp h
        refine ⟨hdec, r.1, r.2, ?_⟩
        rw [happ]
        simp only [Engine.take, Engine.exec, hr, Outcome.ret_bind]
  | query q =>
      obtain ⟨req, hq⟩ := Option.ne_none_iff_exists'.mp (hreq q rfl)
      have hdig : Digestible drv loc eng (.query q) ↔
          (query drv loc req ⟨eng.db, eng.read⟩).2.Returns := by
        rw [query_returns_iff hrows]
        simp only [Digestible, hq, Option.some.injEq, forall_eq']
      rw [hdig]
      constructor
      · rintro ⟨-, res, err, h⟩
        rw [happ] at h
        simp only [Engine.take, Engine.query, hq] at h
        obtain ⟨r, hr, -⟩ := Outcome.bind_eq_ret_iff.mp h
        rw [hr]
        trivial
      · intro h
        obtain ⟨r, hr⟩ := Outcome.returns_iff_exists.mp h
        refine ⟨hdec, r.1, r.2, ?_⟩
        rw [happ]
        simp only [Engine.take, Engine.query, hq, hr, Outcome.ret_bind]

/-- The rule at work: the query of the whole table is not poison, since its only column
is an integer. -/
theorem select_digested :
    Digests tableProto byteTable (.ofEntropy fun _ _ => 0) (.fresh [7])
      (queryEntry "SELECT * FROM foo")
      (.query ⟨some (oneStmt "SELECT * FROM foo"), true⟩) := by
  refine (applyAction_digests_iff tableProto_lawful byteTable_lawfulRows _ _
    (by simp) (by decide)).mpr ?_
  intro req hreq i stmt s' acc hreach
  obtain rfl := Option.some.inj hreq
  rcases i with _ | i
  · obtain rfl : ⟨"SELECT * FROM foo", []⟩ = stmt := Option.some.inj hreach.isStmt
    obtain ⟨s₀, hs₀, hloop⟩ := hreach.loop
    obtain rfl : (⟨[7], .fresh true⟩ : Session (List UInt8)) = s₀ := Except.ok.inj hs₀
    obtain ⟨rfl, -⟩ := Prod.mk.inj hloop
    rintro ⟨cur, types, hcur, htypes, hstuck⟩
    obtain rfl : (⟨.ok ["INTEGER"], .ok ["id"], [.ok [.int64 7]], none, false, false⟩ : Cursor) =
      cur := Option.some.inj hcur
    obtain rfl : ["INTEGER"] = types := Except.ok.inj htypes
    exact absurd hstuck (by decide)
  · exact absurd hreach.isStmt (by simp [oneStmt])

/-- **A poison entry**: the strong query of a byte string, whose column has no declared
type. Every replica that applies it panics. -/
theorem blob_query_is_poison :
    Proposal.encode tableProto (.query ⟨some (oneStmt "SELECT x'01'"), true⟩) =
        .ok (queryEntry "SELECT x'01'") ∧
      (applyAction tableProto byteTable (.ofEntropy fun _ _ => 0)
        (queryEntry "SELECT x'01'") (.fresh [])).2 = .panic nilDereference ∧
      ¬Digests tableProto byteTable (.ofEntropy fun _ _ => 0) (.fresh [])
        (queryEntry "SELECT x'01'")
        (.query ⟨some (oneStmt "SELECT x'01'"), true⟩) := by
  have hpanic : (applyAction tableProto byteTable (.ofEntropy fun _ _ => 0)
      (queryEntry "SELECT x'01'") (.fresh [])).2 = .panic nilDereference := by
    decide
  refine ⟨by decide, hpanic, ?_⟩
  rintro ⟨-, res, err, h⟩
  rw [hpanic] at h
  exact absurd h (by simp)

end DistSql
