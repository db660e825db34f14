import DistSql.Session

/-!
# Running SQL Texts on a Session

The driver calls by which a Go program runs a text of any number of statements.

* `execText` is the writing call: it prepares, binds and runs the statements of the
  text one by one and stops at the first failure, keeping what ran before it. A statement
  that does not come to an end stops it too (`Halt.never`): the call does not return.
* `prepareFirst`, `queryContext` and `stepRows` are the calls of the reading path:
  the first compiles only the first statement of the text, the second prepares and
  binds all of them, and the third runs the last one.
* `beginTx`, `commitTx` and `rollbackTx` are the Go-level transaction object; they
  send `BEGIN`, `COMMIT` and `ROLLBACK` over the same connection as the texts do.

Local circumstances enter through `Env`: whether the write lock for a command is
granted, and what the clock and random source produce for it.

## Main results

* `execText_rule`: the rule of pre- and postconditions for texts — what every
  successful command keeps, and what a failing command leaves behind.
* `runPlain_cases`: what a plain statement leaves of a session.
* `runCmd_idle`: outside a transaction only an opening command opens one.
* `runCmd_held`: inside a transaction that was begun, a command other than `COMMIT`
  and `ROLLBACK` publishes nothing, and ends the transaction only by failing.
* `runCmd_settings`: what the effect of a statement keeps of the settings, its command keeps.
* `execText_congr_env`: a text whose plain statements do not read the local clock or
  random source runs the same whatever these produce.
-/

namespace Sqlite

variable {D E : Type}

/-- The local circumstances of one text, command by command: the refusal of the
write lock, and the product of the clock and random source. -/
structure Env (E : Type) where
  lock : ℕ → Option String
  entropy : ℕ → E

/-! ### Commands -/

/-- The error of `BEGIN` inside a transaction. -/
def errNested : String := "cannot start a transaction within a transaction"

/-- The error of `COMMIT` outside a transaction. -/
def errNoCommit : String := "cannot commit - no transaction is active"

/-- The error of `ROLLBACK` outside a transaction. -/
def errNoRollback : String := "cannot rollback - no transaction is active"

/-- The error of a write through a connection that was opened read-only. -/
def errReadOnly : String := "attempt to write a readonly database"

/-- The error of naming a savepoint that is not open. -/
def errNoSavepoint (name : String) : String := "no such savepoint: " ++ name

/-- Compile one statement: the session afterwards, and an error or whether the statement
is read-only. `ATTACH` and transaction control count as read-only, except for a `BEGIN`
that takes the write lock. -/
def prepare (drv : Driver D E) (s : Session D) : Cmd → Session D × Except String Bool
  | .plain sql =>
      match drv.compile sql s.conn.settings s.see with
      | .error m => (s, .error m)
      | .ok (own, readOnly) => (s.keep own, .ok readOnly)
  | .begin immediate => (s, .ok !immediate)
  | _ => (s, .ok true)

/-- Commit the open transaction, if the lock is granted; else it stays open. -/
def commitLocked (lock : Option String) (s : Session D) (t : Tx D) :
    Session D × Except Halt Result :=
  match lock with
  | some m => (s, .error (.msg m))
  | none => (s.commit t, .ok s.conn.settings.result)

/-- Run a plain statement. One that is read-only, or writes nothing but TEMP tables, only
touches the database; any other one needs a connection that can write, and the write
lock. The result is what the connection has to be read off afterwards. -/
def runPlain (drv : Driver D E) (lock : Option String) (e : E) (readOnly : Bool)
    (args : List NamedArg) (s : Session D) (sql : String) :
    Session D × Except Halt Result :=
  if readOnly || drv.tempOnly sql s.conn.settings s.see then
    match drv.exec e sql args s.conn.settings s.see with
    | .ok _ own => (s.touch.keep own, .ok own.result)
    | .fail own m => (s.touch.keep own, .error (.msg m))
    | .failRollback own m => ((s.keep own).undo, .error (.msg m))
    | .never => (s.touch, .error .never)
  else if !s.conn.canWrite then
    (s, .error (.msg errReadOnly))
  else
    match lock with
    | some m => (s, .error (.msg m))
    | none =>
        match drv.exec e sql args s.conn.settings s.see with
        | .ok d own => ((s.write d).keep own, .ok own.result)
        | .fail own m => (s.touch.keep own, .error (.msg m))
        | .failRollback own m => ((s.keep own).undo, .error (.msg m))
        | .never => (s.touch, .error .never)

/-- Run one statement that was prepared and bound. Transaction control leaves to be read
off what the statement before it left. -/
def runCmd (drv : Driver D E) (lock : Option String) (e : E) (readOnly : Bool)
    (args : List NamedArg) (s : Session D) : Cmd → Session D × Except Halt Result
  | .begin immediate =>
      match s.conn.tx with
      | some _ => (s, .error (.msg errNested))
      | none =>
          if immediate then
            match lock with
            | some m => (s, .error (.msg m))
            | none =>
                (s.setTx (some ⟨some ⟨s.db, s.db, false⟩, [], false, s.conn.settings.temp⟩),
                  .ok s.conn.settings.result)
          else (s.opened, .ok s.conn.settings.result)
  | .commit =>
      match s.conn.tx with
      | none => (s, .error (.msg errNoCommit))
      | some t => commitLocked lock s t
  | .rollback =>
      match s.conn.tx with
      | none => (s, .error (.msg errNoRollback))
      | some _ => (s.undo, .ok s.conn.settings.result)
  | .savepoint name =>
      let temp := s.conn.settings.temp
      match s.conn.tx with
      | none =>
          (s.setTx (some ⟨none, [⟨name, none, temp⟩], true, temp⟩), .ok s.conn.settings.result)
      | some t =>
          (s.setTx (some { t with saves := ⟨name, t.view.map View.work, temp⟩ :: t.saves }),
            .ok s.conn.settings.result)
  | .release name =>
      match s.conn.tx with
      | none => (s, .error (.msg (errNoSavepoint name)))
      | some t =>
          match t.saves.dropWhile fun p => p.name != name with
          | [] => (s, .error (.msg (errNoSavepoint name)))
          | _ :: rest =>
              if rest.isEmpty && t.bySavepoint then commitLocked lock s t
              else (s.setTx (some { t with saves := rest }), .ok s.conn.settings.result)
  | .rollbackTo name =>
      match s.conn.tx with
      | none => (s, .error (.msg (errNoSavepoint name)))
      | some t =>
          match t.saves.dropWhile fun p => p.name != name with
          | [] => (s, .error (.msg (errNoSavepoint name)))
          | p :: rest =>
              let view := t.view.map fun v => { v with work := p.work.getD v.snap }
              ((s.keep { s.conn.settings with temp := p.temp }).setTx
                (some { t with view := view, saves := p :: rest }),
                .ok s.conn.settings.result)
  | .attach sql =>
      -- what is attached may be the database itself, opened for writing
      match runPlain drv lock e true args s sql with
      | (s', .ok r) => ({ s' with conn := { s'.conn with canWrite := true } }, .ok r)
      | (s', .error stop) => (s', .error stop)
  | .plain sql => runPlain drv lock e readOnly args s sql

/-- Run the statements of a text from number `j` on, with the result of the last one
so far; the first failure ends the text. -/
def runCmds (drv : Driver D E) (env : Env E) (text : String) (args : List NamedArg) :
    ℕ → List Cmd → Session D → Result → Session D × Except Halt Result
  | _, [], s, r => (s, .ok r)
  | j, c :: cs, s, _ =>
      match prepare drv s c with
      | (s₁, .error m) => (s₁, .error (.msg m))
      | (s₁, .ok readOnly) =>
          match drv.bind text args j with
          | .error m => (s₁, .error (.msg m))
          | .ok a =>
              match runCmd drv (env.lock j) (env.entropy j) readOnly a s₁ c with
              | (s', .error stop) => (s', .error stop)
              | (s', .ok r) => runCmds drv env text args (j + 1) cs s' r

/-- `ExecContext`: run all statements of a text. A comment or an empty statement at its
end is passed over, and a text without statements has a result of its own. -/
def execText (drv : Driver D E) (env : Env E) (text : String) (args : List NamedArg)
    (s : Session D) : Session D × Except Halt Result :=
  runCmds drv env text args 0 (drv.split text) s .zero

/-! ### The Go-level transaction object -/

/-- `Conn.BeginTx`: send `BEGIN`. -/
def beginTx (fault : Option String) (s : Session D) : Except String (Session D) :=
  match fault with
  | some m => .error m
  | none =>
      match s.conn.tx with
      | some _ => .error errNested
      | none => .ok s.opened

/-- A transaction begins on an idle connection, and changes nothing else. -/
theorem beginTx_eq_ok {fault : Option String} {s s' : Session D}
    (h : beginTx fault s = .ok s') : s.Idle ∧ s' = s.opened := by
  simp only [beginTx] at h
  split at h
  · simp at h
  split at h
  · simp at h
  · rename_i hidle
    exact ⟨hidle, (Except.ok.inj h).symm⟩

/-- `Tx.Rollback`: send `ROLLBACK`; its error is of no interest to the caller. -/
def rollbackTx (s : Session D) : Session D := s.undo

/-- `Tx.Commit`: send `COMMIT`; the driver cleans up with a `ROLLBACK` when that
fails. -/
def commitTx (fault : Option String) (s : Session D) : Session D × Option String :=
  match s.conn.tx with
  | none => (rollbackTx s, some errNoCommit)
  | some t =>
      match fault with
      | some m => (rollbackTx s, some m)
      | none => (s.commit t, none)

/-! ### The reading path -/

/-- `SQLiteConn.Prepare` and `Readonly`: compile the first statement of a text and
report on it. A text without statements is read-only. -/
def prepareFirst (drv : Driver D E) (s : Session D) (text : String) :
    Session D × Except String Bool :=
  match drv.split text with
  | [] => (s, .ok true)
  | c :: _ => prepare drv s c

/-- A statement that is ready to be run: the command, whether it was found to be
read-only, and its arguments. -/
structure Prepared where
  cmd : Cmd
  readOnly : Bool
  args : List NamedArg
  deriving DecidableEq, Repr

/-- Prepare and bind the statements of a text from number `j` on, keeping the last. A
comment or an empty statement at the end of the text takes the place of the last
statement. -/
def prepareAll (drv : Driver D E) (text : String) (args : List NamedArg) :
    ℕ → List Cmd → Session D → Option Prepared → Session D × Except String (Option Prepared)
  | _, [], s, last => (s, .ok (if drv.trails text then none else last))
  | j, c :: cs, s, _ =>
      match prepare drv s c with
      | (s', .error m) => (s', .error m)
      | (s', .ok readOnly) =>
          match drv.bind text args j with
          | .error m => (s', .error m)
          | .ok a => prepareAll drv text args (j + 1) cs s' (some ⟨c, readOnly, a⟩)

/-- `QueryContext`: work through all statements of a text; only the last one is left
to be run. -/
def queryContext (drv : Driver D E) (s : Session D) (text : String)
    (args : List NamedArg) : Session D × Except String (Option Prepared) :=
  prepareAll drv text args 0 (drv.split text) s none

/-- Read the rows of the statement that `QueryContext` left. `ATTACH` and transaction
control run for their effect; a plain statement that writes delivers its rows only after
the write succeeded. -/
def stepRows (drv : Driver D E) (e : E) (s : Session D) :
    Option Prepared → Session D × Cursor
  | none => (s, .blank)
  | some ⟨.plain sql, readOnly, args⟩ =>
      let ans := drv.query e sql args s.conn.settings s.see
      if readOnly || drv.tempOnly sql s.conn.settings s.see then
        (s.touch.keep ans.own, ans.toCursor)
      else
        match runPlain drv none e false args s sql with
        | (s', .ok _) => (s', { ans.toCursor with rollback := false })
        | (s', .error (.msg m)) =>
            (s', ⟨ans.columnTypes, ans.columns, [], some m, false, false⟩)
        | (s', .error .never) => (s', ⟨ans.columnTypes, ans.columns, [], none, true, false⟩)
  | some ⟨c, _, args⟩ =>
      let p := runCmd drv none e true args s c
      (p.1, .ofResult p.2)

/-! ### The rule for texts -/

/-- The **postcondition** of a call on a session: `P` after success, `Q` after
failure. -/
def Post {ε α : Type} (P Q : Session D → Prop) (p : Session D × Except ε α) : Prop :=
  match p.2 with
  | .ok _ => P p.1
  | .error _ => Q p.1

/-- A postcondition that does not look at the outcome. -/
theorem Post.of_both {ε α : Type} {P : Session D → Prop} {p : Session D × Except ε α}
    (h : P p.1) : Post P P p := by
  rcases hp : p.2 with m | r <;> simpa [Post, hp] using h

/-- What a postcondition says whatever the outcome is. -/
theorem Post.weaken {ε α : Type} {P Q : Session D → Prop} {p : Session D × Except ε α}
    (h : Post P Q p) (hPQ : ∀ s, P s → Q s) : Q p.1 := by
  rcases hp : p.2 with m | r
  · simpa [Post, hp] using h
  · exact hPQ _ (by simpa [Post, hp] using h)

/-- The rule for the statements of a text from number `j` on; induction on the
statements that are left. -/
theorem runCmds_rule {drv : Driver D E} {env : Env E} {text : String}
    {args : List NamedArg} {P Q : Session D → Prop} (hPQ : ∀ s, P s → Q s) :
    ∀ (cs : List Cmd),
      (∀ c ∈ cs, ∀ s, P s → P (prepare drv s c).1) →
      (∀ c ∈ cs, ∀ lock e ro a s, P s → Post P Q (runCmd drv lock e ro a s c)) →
      ∀ (j : ℕ) (s : Session D) (r : Result), P s →
        Post P Q (runCmds drv env text args j cs s r) := by
  intro cs
  induction cs with
  | nil => intro _ _ j s r hs; exact hs
  | cons c cs ih =>
      intro hprep hcmd j s r hs
      have hs₁ : P (prepare drv s c).1 := hprep c List.mem_cons_self s hs
      rcases hp : prepare drv s c with ⟨s₁, m | ro⟩
      · rw [hp] at hs₁
        simpa [runCmds, hp, Post] using hPQ s₁ hs₁
      rw [hp] at hs₁
      rcases hb : drv.bind text args j with m | a
      · simpa [runCmds, hp, hb, Post] using hPQ s₁ hs₁
      have hc := hcmd c List.mem_cons_self (env.lock j) (env.entropy j) ro a s₁ hs₁
      rcases hr : runCmd drv (env.lock j) (env.entropy j) ro a s₁ c with ⟨s', m | r'⟩
      · simpa [runCmds, hp, hb, hr, Post] using hc
      · have hs' : P s' := by simpa [hr, Post] using hc
        have hrest := ih (fun c' hc' => hprep c' (List.mem_cons_of_mem c hc'))
          (fun c' hc' => hcmd c' (List.mem_cons_of_mem c hc')) (j + 1) s' r' hs'
        simpa [runCmds, hp, hb, hr] using hrest

/-- **The rule of pre- and postconditions for texts**: if compiling a command of the text
keeps `P`, and running it keeps `P` when it succeeds and leaves `Q` when it does not, so
does the text. -/
theorem execText_rule {drv : Driver D E} {env : Env E} {text : String}
    {args : List NamedArg} {P Q : Session D → Prop} (hPQ : ∀ s, P s → Q s)
    (hprep : ∀ c ∈ drv.split text, ∀ s, P s → P (prepare drv s c).1)
    (hcmd : ∀ c ∈ drv.split text, ∀ lock e ro a s, P s →
      Post P Q (runCmd drv lock e ro a s c))
    {s : Session D} (hs : P s) : Post P Q (execText drv env text args s) :=
  runCmds_rule hPQ _ hprep hcmd 0 s .zero hs

/-- Compiling a statement changes nothing but the settings of the connection. -/
theorem prepare_fst (drv : Driver D E) (s : Session D) (c : Cmd) :
    ∃ own, (prepare drv s c).1 = s.keep own := by
  cases c with
  | plain sql =>
      rcases hc : drv.compile sql s.conn.settings s.see with m | ⟨own, ro⟩
      · exact ⟨s.conn.settings, by simp only [prepare, hc, Session.keep_self]⟩
      · exact ⟨own, by simp only [prepare, hc]⟩
  | _ => exact ⟨s.conn.settings, rfl⟩

/-- A statement that does not compile changes nothing. -/
theorem prepare_error_fst {drv : Driver D E} {s : Session D} {c : Cmd} {m : String}
    (h : (prepare drv s c).2 = .error m) : (prepare drv s c).1 = s := by
  cases c with
  | plain sql =>
      rcases hc : drv.compile sql s.conn.settings s.see with m | ⟨own, ro⟩
      · simp only [prepare, hc]
      · simp [prepare, hc] at h
  | _ => rfl

/-- What does not depend on the settings survives the compiling of a statement. -/
theorem prepare_keeps {drv : Driver D E} {P : Session D → Prop}
    (hP : ∀ s own, P s → P (s.keep own)) (c : Cmd) (s : Session D) (hs : P s) :
    P (prepare drv s c).1 := by
  obtain ⟨own, h⟩ := prepare_fst drv s c
  rw [h]
  exact hP s own hs

/-! ### Plain statements -/

/-- **What a plain statement leaves** of a session: it has touched the database; it has
rolled back, and failed; it was refused; or it has written, which takes a connection that
can write. -/
theorem runPlain_cases (drv : Driver D E) (lock : Option String) (e : E) (ro : Bool)
    (args : List NamedArg) (s : Session D) (sql : String) :
    (∃ own, (runPlain drv lock e ro args s sql).1 = s.touch.keep own) ∨
      (∃ own m, runPlain drv lock e ro args s sql = ((s.keep own).undo, .error (.msg m))) ∨
      (∃ m, runPlain drv lock e ro args s sql = (s, .error (.msg m))) ∨
      ∃ d own, runPlain drv lock e ro args s sql = ((s.write d).keep own, .ok own.result) ∧
        ro = false ∧ s.conn.canWrite = true := by
  rw [runPlain.eq_def]
  split
  · split
    · exact .inl ⟨_, rfl⟩
    · exact .inl ⟨_, rfl⟩
    · exact .inr (.inl ⟨_, _, rfl⟩)
    · exact .inl ⟨s.touch.conn.settings, rfl⟩
  rename_i hread
  obtain ⟨hro, -⟩ := Bool.or_eq_false_iff.mp (Bool.eq_false_iff.mpr hread)
  split
  · exact .inr (.inr (.inl ⟨_, rfl⟩))
  rename_i hcan
  have hw : s.conn.canWrite = true := by simpa using hcan
  split
  · exact .inr (.inr (.inl ⟨_, rfl⟩))
  split
  · exact .inr (.inr (.inr ⟨_, _, rfl, hro, hw⟩))
  · exact .inl ⟨_, rfl⟩
  · exact .inr (.inl ⟨_, _, rfl⟩)
  · exact .inl ⟨s.touch.conn.settings, rfl⟩

/-! ### Connections for writing -/

/-- A statement does not change what a connection was opened for. -/
theorem runPlain_canWrite {drv : Driver D E} {lock : Option String} {e : E} {ro : Bool}
    {args : List NamedArg} {s : Session D} {sql : String} {b : Bool}
    (h : s.conn.canWrite = b) : (runPlain drv lock e ro args s sql).1.conn.canWrite = b := by
  rcases runPlain_cases drv lock e ro args s sql with
    ⟨own, hp⟩ | ⟨own, m, hp⟩ | ⟨m, hp⟩ | ⟨d, own, hp, -⟩
  · rw [hp, Session.keep_canWrite, Session.touch_canWrite, h]
  · rw [hp]
    exact h
  · rw [hp]
    exact h
  · rw [hp, Session.keep_canWrite, Session.write_canWrite, h]

/-- A command leaves a connection for writing a connection for writing, and only `ATTACH`
turns another one into such. -/
theorem runCmd_canWrite {drv : Driver D E} {lock : Option String} {e : E} {ro : Bool}
    {args : List NamedArg} {s : Session D} {c : Cmd} {b : Bool} (h : s.conn.canWrite = b)
    (hc : c.attaches = true → b = true) :
    (runCmd drv lock e ro args s c).1.conn.canWrite = b := by
  have hcommit : ∀ t, (commitLocked lock s t).1.conn.canWrite = b := by
    intro t
    cases lock <;> exact h
  cases c with
  | plain sql => exact runPlain_canWrite h
  | attach sql =>
      have hplain : (runPlain drv lock e true args s sql).1.conn.canWrite = b :=
        runPlain_canWrite h
      simp only [runCmd]
      split
      · exact (hc rfl).symm
      · rename_i hr
        rwa [hr] at hplain
  | begin imm =>
      simp only [runCmd]
      split
      · exact h
      split
      · split <;> exact h
      · exact h
  | commit =>
      simp only [runCmd]
      split
      · exact h
      · exact hcommit _
  | rollback =>
      simp only [runCmd]
      split <;> exact h
  | savepoint name =>
      simp only [runCmd]
      split <;> exact h
  | release name =>
      simp only [runCmd]
      split
      · exact h
      split
      · exact h
      split
      · exact hcommit _
      · exact h
  | rollbackTo name =>
      simp only [runCmd]
      split
      · exact h
      split <;> exact h

/-- A text leaves a connection for writing a connection for writing. -/
theorem execText_canWrite {drv : Driver D E} {env : Env E} {text : String}
    {args : List NamedArg} {s : Session D} (h : s.conn.canWrite = true) :
    (execText drv env text args s).1.conn.canWrite = true := by
  have hrule : Post (fun s => s.conn.canWrite = true) (fun s => s.conn.canWrite = true)
      (execText drv env text args s) :=
    execText_rule (fun _ hs => hs) (fun c _ => prepare_keeps (fun _ _ hs => hs) c)
      (fun _ _ _ _ _ _ _ hs => Post.of_both (runCmd_canWrite hs fun _ => rfl)) h
  exact hrule.weaken fun _ hs => hs

/-! ### Commands outside a transaction -/

/-- Outside a transaction a plain statement leaves the connection outside one. -/
theorem runPlain_idle {drv : Driver D E} {lock : Option String} {e : E} {ro : Bool}
    {args : List NamedArg} {s : Session D} {sql : String} (h : s.Idle) :
    (runPlain drv lock e ro args s sql).1.Idle := by
  rcases runPlain_cases drv lock e ro args s sql with
    ⟨own, hp⟩ | ⟨own, m, hp⟩ | ⟨m, hp⟩ | ⟨d, own, hp, -⟩
  · rw [hp, Session.touch_idle h]
    exact h
  · rw [hp]
    rfl
  · rw [hp]
    exact h
  · rw [hp, Session.write_idle h]
    exact h

/-- Outside a transaction only an opening command opens one. -/
theorem runCmd_idle {drv : Driver D E} {lock : Option String} {e : E} {ro : Bool}
    {args : List NamedArg} {s : Session D} {c : Cmd} (h : s.Idle) (hc : c.opens = false) :
    (runCmd drv lock e ro args s c).1.Idle := by
  have hs : s.conn.tx = none := h
  cases c with
  | begin _ => simp [Cmd.opens] at hc
  | savepoint _ => simp [Cmd.opens] at hc
  | commit => simpa only [runCmd, hs] using h
  | rollback => simpa only [runCmd, hs] using h
  | release _ => simpa only [runCmd, hs] using h
  | rollbackTo _ => simpa only [runCmd, hs] using h
  | attach sql =>
      have hplain : (runPlain drv lock e true args s sql).1.Idle := runPlain_idle h
      simp only [runCmd]
      split <;> rename_i hr <;> rw [hr] at hplain <;> exact hplain
  | plain sql => exact runPlain_idle h

/-- A text without opening commands, run outside a transaction, leaves the
connection outside one. -/
theorem execText_idle {drv : Driver D E} {env : Env E} {text : String}
    {args : List NamedArg} {s : Session D} (h : s.Idle)
    (htext : ∀ c ∈ drv.split text, c.opens = false) :
    (execText drv env text args s).1.Idle := by
  have hrule : Post Session.Idle Session.Idle (execText drv env text args s) :=
    execText_rule (fun _ hs => hs) (fun c _ => prepare_keeps (fun _ _ hs => hs) c)
      (fun c hc _ _ _ _ _ hs => Post.of_both (runCmd_idle hs (htext c hc))) h
  exact hrule.weaken fun _ hs => hs

/-- A commit of the Go-level transaction object leaves no transaction open. -/
theorem commitTx_idle (fault : Option String) (s : Session D) :
    (commitTx fault s).1.Idle := by
  rcases ht : s.conn.tx with _ | t
  · simp only [commitTx, ht]
    rfl
  · rcases fault with _ | m <;> simp only [commitTx, ht] <;> rfl

/-! ### Commands inside a begun transaction -/

/-- The connection is inside a transaction that a `BEGIN` opened. -/
def Session.Held (s : Session D) : Prop :=
  ∃ t, s.conn.tx = some t ∧ t.bySavepoint = false

/-- A `BEGIN` puts the connection inside a transaction. -/
theorem Session.held_opened (s : Session D) : s.opened.Held := ⟨_, rfl, rfl⟩

/-- Inside a transaction a plain statement publishes nothing, and leaves the
transaction only by failing. -/
theorem runPlain_held {drv : Driver D E} {lock : Option String} {e : E} {ro : Bool}
    {args : List NamedArg} {s : Session D} {sql : String} {d : D} (hd : s.db = d)
    (h : s.Held) :
    Post (fun s' => s'.db = d ∧ s'.Held) (fun s' => s'.db = d)
      (runPlain drv lock e ro args s sql) := by
  obtain ⟨t, ht, hsp⟩ := h
  rcases runPlain_cases drv lock e ro args s sql with
    ⟨own, hp⟩ | ⟨own, m, hp⟩ | ⟨m, hp⟩ | ⟨d', own, hp, -⟩
  · have htouch : (s.touch.keep own).db = d ∧ (s.touch.keep own).Held := by
      refine ⟨by rw [Session.keep_db, Session.touch_db, hd], ?_⟩
      exact ⟨{ t with view := some (t.current s.db) }, by simp [Session.touch, ht], hsp⟩
    rw [← hp] at htouch
    rcases hr : (runPlain drv lock e ro args s sql).2 with m | r
    · simpa [Post, hr] using htouch.1
    · simpa [Post, hr] using htouch
  · rw [hp]
    exact hd
  · rw [hp]
    exact hd
  · rw [hp]
    refine ⟨?_, ?_⟩
    · simpa [Session.write, ht] using hd
    · rw [Session.write, ht]
      exact ⟨_, rfl, hsp⟩

/-- **Inside a begun transaction** a command other than `COMMIT` and `ROLLBACK`
publishes nothing, and leaves the transaction only by failing. -/
theorem runCmd_held {drv : Driver D E} {lock : Option String} {e : E} {ro : Bool}
    {args : List NamedArg} {s : Session D} {c : Cmd} {d : D} (hd : s.db = d) (h : s.Held)
    (hc : c.ends = false) :
    Post (fun s' => s'.db = d ∧ s'.Held) (fun s' => s'.db = d)
      (runCmd drv lock e ro args s c) := by
  have hheld := h
  obtain ⟨t, ht, hsp⟩ := h
  cases c with
  | commit => simp [Cmd.ends] at hc
  | rollback => simp [Cmd.ends] at hc
  | begin imm => simpa only [runCmd, ht, Post] using hd
  | savepoint name =>
      simp only [runCmd, ht, Post]
      exact ⟨hd, _, rfl, hsp⟩
  | release name =>
      simp only [runCmd, ht, hsp, Bool.and_false, Bool.false_eq_true, if_false]
      split
      · exact hd
      · exact ⟨hd, _, rfl, rfl⟩
  | rollbackTo name =>
      simp only [runCmd, ht]
      split
      · exact hd
      · exact ⟨hd, _, rfl, hsp⟩
  | attach sql =>
      have hplain : Post (fun s' => s'.db = d ∧ s'.Held) (fun s' => s'.db = d)
          (runPlain drv lock e true args s sql) := runPlain_held hd hheld
      simp only [runCmd]
      split <;> rename_i hr <;> rw [hr] at hplain <;> exact hplain
  | plain sql => exact runPlain_held hd hheld

/-- A text without `COMMIT` and `ROLLBACK`, run inside a begun transaction, publishes
nothing, and leaves the transaction only by failing. -/
theorem execText_held {drv : Driver D E} {env : Env E} {text : String}
    {args : List NamedArg} {s : Session D} {d : D} (hd : s.db = d) (h : s.Held)
    (htext : ∀ c ∈ drv.split text, c.ends = false) :
    Post (fun s' => s'.db = d ∧ s'.Held) (fun s' => s'.db = d)
      (execText drv env text args s) :=
  execText_rule (fun _ hs => hs.1) (fun c _ => prepare_keeps (fun _ _ hs => hs) c)
    (fun c hc _ _ _ _ _ hs => runCmd_held hs.1 hs.2 (htext c hc)) ⟨hd, h⟩

/-! ### What a command keeps of the settings -/

/-- The settings that a statement leaves, if it comes to an end. -/
def Effect.own? : Effect D → Option Settings
  | .ok _ own | .fail own _ | .failRollback own _ => some own
  | .never => none

section Settings

variable {drv : Driver D E} {S : Settings → Prop}

-- the property does not look at TEMP tables, which a rollback restores
variable (htemp : ∀ own temp, S own → S { own with temp := temp })

include htemp

/-- A rollback keeps what does not look at TEMP tables. -/
theorem undo_settings {s : Session D} (hs : S s.conn.settings) : S s.undo.conn.settings :=
  htemp _ _ hs

/-- Executing a statement keeps what its effect keeps. -/
theorem runPlain_settings {lock : Option String} {e : E} {ro : Bool} {args : List NamedArg}
    {s : Session D} {sql : String} (hs : S s.conn.settings)
    (h : ∀ own, (drv.exec e sql args s.conn.settings s.see).own? = some own → S own) :
    S (runPlain drv lock e ro args s sql).1.conn.settings := by
  have htouch : S s.touch.conn.settings := by rwa [Session.touch_settings]
  have hundo : ∀ own, S own → S (s.keep own).undo.conn.settings :=
    fun own hown => undo_settings htemp (s := s.keep own) hown
  rw [runPlain.eq_def]
  rcases hx : drv.exec e sql args s.conn.settings s.see with ⟨d, own⟩ | ⟨own, m⟩ | ⟨own, m⟩ | _ <;>
    rw [hx] at h
  · split
    · exact h own rfl
    split
    · exact hs
    split
    · exact hs
    · exact h own rfl
  · split
    · exact h own rfl
    split
    · exact hs
    split
    · exact hs
    · exact h own rfl
  · split
    · exact hundo own (h own rfl)
    split
    · exact hs
    split
    · exact hs
    · exact hundo own (h own rfl)
  · split
    · exact htouch
    split
    · exact hs
    split
    · exact hs
    · exact htouch

/-- A command keeps what its effect keeps. -/
theorem runCmd_settings {lock : Option String} {e : E} {ro : Bool} {args : List NamedArg}
    {s : Session D} {c : Cmd} (hs : S s.conn.settings)
    (h : ∀ sql, c.sql? = some sql →
      ∀ own, (drv.exec e sql args s.conn.settings s.see).own? = some own → S own) :
    S (runCmd drv lock e ro args s c).1.conn.settings := by
  have hcommit : ∀ t, S (commitLocked lock s t).1.conn.settings := by
    intro t
    cases lock <;> exact hs
  cases c with
  | plain sql => exact runPlain_settings htemp hs (h sql rfl)
  | attach sql =>
      have hplain : S (runPlain drv lock e true args s sql).1.conn.settings :=
        runPlain_settings htemp hs (h sql rfl)
      simp only [runCmd]
      split <;> rename_i hr <;> rw [hr] at hplain <;> exact hplain
  | begin imm =>
      simp only [runCmd]
      split
      · exact hs
      split
      · split <;> exact hs
      · exact hs
  | commit =>
      simp only [runCmd]
      split
      · exact hs
      · exact hcommit _
  | rollback =>
      simp only [runCmd]
      split
      · exact hs
      · exact undo_settings htemp hs
  | savepoint name =>
      simp only [runCmd]
      split <;> exact hs
  | release name =>
      simp only [runCmd]
      split
      · exact hs
      split
      · exact hs
      split
      · exact hcommit _
      · exact hs
  | rollbackTo name =>
      simp only [runCmd]
      split
      · exact hs
      split
      · exact hs
      · exact htemp _ _ hs

end Settings

/-! ### Texts that do not read the clock or the random source -/

/-- The statements of the text do not depend on what the local clock and random source
produce. -/
def LocalFree (drv : Driver D E) (text : String) : Prop :=
  ∀ c ∈ drv.split text, ∀ sql, c.sql? = some sql →
    ∀ e e' args own d, drv.exec e sql args own d = drv.exec e' sql args own d

/-- A command of a text that does not read the local clock or random source runs the
same whatever these produce. -/
theorem runCmd_congr_entropy {drv : Driver D E} {lock : Option String} {e e' : E}
    {ro : Bool} {args : List NamedArg} {s : Session D} {c : Cmd}
    (hc : ∀ sql, c.sql? = some sql →
      ∀ args own d, drv.exec e sql args own d = drv.exec e' sql args own d) :
    runCmd drv lock e ro args s c = runCmd drv lock e' ro args s c := by
  cases c with
  | plain sql => simp only [runCmd, runPlain, hc sql rfl]
  | attach sql => simp only [runCmd, runPlain, hc sql rfl]
  | _ => rfl

/-- **Texts that do not read the local clock or random source** run the same in
environments that grant the same locks. -/
theorem execText_congr_env {drv : Driver D E} {env env' : Env E} {text : String}
    {args : List NamedArg} {s : Session D} (hfree : LocalFree drv text)
    (hlock : env.lock = env'.lock) :
    execText drv env text args s = execText drv env' text args s := by
  have key : ∀ (cs : List Cmd), (∀ c ∈ cs, c ∈ drv.split text) →
      ∀ (j : ℕ) (s : Session D) (r : Result),
        runCmds drv env text args j cs s r = runCmds drv env' text args j cs s r := by
    intro cs
    induction cs with
    | nil => intro _ j s r; rfl
    | cons c cs ih =>
        intro hmem j s r
        have hc : ∀ a s ro, runCmd drv (env.lock j) (env.entropy j) ro a s c =
            runCmd drv (env'.lock j) (env'.entropy j) ro a s c := by
          intro a s ro
          rw [hlock]
          refine runCmd_congr_entropy fun sql hsql args own d => ?_
          exact hfree c (hmem c List.mem_cons_self) sql hsql _ _ _ _ _
        have ih' := ih fun c' hc' => hmem c' (List.mem_cons_of_mem c hc')
        simp only [runCmds, hc, ih']
  exact key _ (fun _ hc => hc) 0 s .zero

end Sqlite
