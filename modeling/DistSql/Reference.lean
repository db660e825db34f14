import DistSql.Boundary
import DistSql.Loop

/-!
# The Reference Semantics of Executing a Request

What a client may expect of `Engine.Exec`, said without sessions, transactions and the code
of the engine. A statement is a function on databases: it yields a new database and a
result, or fails. What the function is the driver says, statement by statement of the text
(`textEffect`); as the library keeps the last inserted id and other settings with the
connection, they are part of what a statement finds and leaves (`Ground`).

A request with `Transaction` is the **composition** of its statements, up to the first
one that fails (`inOrder`), and takes effect as a whole or not at all; a request without
is a sequence of statements **each on its own** (`eachAlone`), where a failing one is
skipped. Empty texts are left out of both.

The code reaches the first through a transaction on a connection: the statements work on
a view that nobody else sees, and what the view holds is what the statements make of the
database one after the other (`Working`). That a statement is a function at all is an
assumption on its text (`Functional`): it has no transaction control in it, it comes to an
end, and it changes nothing when it fails.

## Main results

* `execText_atRest`, `execText_working`: what a text does on a connection outside and inside
  a transaction is what the driver says of databases.
* `execLoop_eachAlone`, `execLoop_inOrder`: the loop of `Engine.Exec` in its two modes.
* `exec_refines`: `Engine.Exec` refines the reference semantics, along every sequence of
  requests.
-/

open Golang Sqlite

namespace DistSql

variable {D E : Type}

/-! ### Texts as functions on databases -/

/-- What a statement finds and leaves: a database, and the settings of a connection. -/
structure Ground (D : Type) where
  own : Settings
  db : D

/-- What one plain statement does: one that writes more than TEMP tables needs the lock. -/
def sqlEffect (drv : Driver D E) (lock : Option String) (e : E) (readOnly : Bool)
    (args : List NamedArg) (sql : String) (g : Ground D) : Ground D × Except Halt Result :=
  let reads := readOnly || drv.tempOnly sql g.own g.db
  match if reads then none else lock with
  | some m => (g, .error (.msg m))
  | none =>
      match drv.exec e sql args g.own g.db with
      | .ok d own => (⟨own, if reads then g.db else d⟩, .ok own.result)
      | .fail own m => (⟨own, g.db⟩, .error (.msg m))
      | .failRollback own m => (⟨own, g.db⟩, .error (.msg m))
      | .never => (g, .error .never)

/-- **What a text does**: its plain statements, from number `j` on, one after the other. -/
def textEffect (drv : Driver D E) (env : Env E) (text : String) (args : List NamedArg) :
    ℕ → List String → Ground D → Result → Ground D × Except Halt Result
  | _, [], g, r => (g, .ok r)
  | j, sql :: rest, g, _ =>
      match drv.compile sql g.own g.db with
      | .error m => (g, .error (.msg m))
      | .ok (own, readOnly) =>
          match drv.bind text args j with
          | .error m => (⟨own, g.db⟩, .error (.msg m))
          | .ok a =>
              match sqlEffect drv (env.lock j) (env.entropy j) readOnly a sql ⟨own, g.db⟩ with
              | (g', .error stop) => (g', .error stop)
              | (g', .ok r) => textEffect drv env text args (j + 1) rest g' r

/-- The plain statements of a text. -/
def sqls (drv : Driver D E) (text : String) : List String :=
  (drv.split text).filterMap Cmd.sql?

/-- The text is a **function on databases**, with a result or a failure that changes
nothing: all of its statements are plain, it comes to an end, and a failure leaves the
database as it was. -/
structure Functional (drv : Driver D E) (text : String) : Prop where
  plain : drv.split text = (sqls drv text).map .plain
  returns : ∀ env args g,
    (textEffect drv env text args 0 (sqls drv text) g .zero).2 ≠ .error .never
  unchanged : ∀ env args g stop,
    (textEffect drv env text args 0 (sqls drv text) g .zero).2 = .error stop →
      (textEffect drv env text args 0 (sqls drv text) g .zero).1.db = g.db

/-! ### The reference semantics -/

/-- The text of an error. -/
def Halt.text : Halt → String
  | .msg m => m
  | .never => ""

/-- The counts that are reported of a statement. -/
def counts (r : Result) : ExecRes :=
  { lastInsertId := r.lastInsertId.toOption.getD 0
    rowsAffected := r.rowsAffected.toOption.getD 0 }

/-- **What a statement does**: with its parameters bound, its text makes a new database and
reports its counts, or fails with an error. -/
def effect (drv : Driver D E) (env : Env E) (stmt : Statement) (g : Ground D) :
    Ground D × Except String ExecRes :=
  match convertParamsToSQL stmt.params with
  | .error m => (g, .error m)
  | .ok args =>
      match textEffect drv env stmt.sql args 0 (sqls drv stmt.sql) g .zero with
      | (g', .error stop) => (g', .error (Halt.text stop))
      | (g', .ok r) => (g', .ok (counts r))

/-- The statements of a request that have a text, with their local circumstances. -/
def nonEmpty (loc : Local E) : ℕ → List Statement → List (Statement × Env E)
  | _, [] => []
  | i, stmt :: rest =>
      if stmt.sql = "" then nonEmpty loc (i + 1) rest
      else (stmt, loc.stmt i) :: nonEmpty loc (i + 1) rest

/-- **The composition of statements**, up to the first one that fails: the database and
the results, or the results before the failure and its text. -/
def inOrder (drv : Driver D E) :
    List (Statement × Env E) → Ground D → Except (List ExecRes × String) (D × List ExecRes)
  | [], g => .ok (g.db, [])
  | p :: rest, g =>
      match effect drv p.2 p.1 g with
      | (_, .error m) => .error ([], m)
      | (g', .ok res) =>
          match inOrder drv rest g' with
          | .error (results, m) => .error (res :: results, m)
          | .ok (d, results) => .ok (d, res :: results)

/-- **Statements each on their own**: the database that the succeeding ones make, and what
came of each statement. A failing one leaves the database as it is. -/
def eachAlone (drv : Driver D E) :
    List (Statement × Env E) → Ground D → Ground D × List (Except String ExecRes)
  | [], g => (g, [])
  | p :: rest, g =>
      match effect drv p.2 p.1 g with
      | (g', .error m) =>
          let next := eachAlone drv rest ⟨g'.own, g.db⟩
          (next.1, .error m :: next.2)
      | (g', .ok res) =>
          let next := eachAlone drv rest g'
          (next.1, .ok res :: next.2)

/-- The result that says what came of a statement. -/
def reported : Except String ExecRes → ExecRes
  | .ok res => res
  | .error m => { error := m }

/-- Every local failure of a lock has a text. -/
def Env.Speaks (env : Env E) : Prop := ∀ j m, env.lock j = some m → m ≠ ""

/-- A statement that succeeds has a result without an error. -/
theorem effect_ok_error {drv : Driver D E} {env : Env E} {stmt : Statement} {g g' : Ground D}
    {res : ExecRes} (h : effect drv env stmt g = (g', .ok res)) : res.error = "" := by
  rw [effect] at h
  split at h
  · simp at h
  split at h
  · simp at h
  · obtain ⟨-, hres⟩ := Prod.mk.inj h
    rw [← Except.ok.inj hres]
    rfl

/-- A statement that fails leaves the database as it is. -/
theorem effect_unchanged {drv : Driver D E} {env : Env E} {stmt : Statement}
    (hstmt : Functional drv stmt.sql) {g g' : Ground D} {m : String}
    (h : effect drv env stmt g = (g', .error m)) : g'.db = g.db := by
  rcases hp : convertParamsToSQL stmt.params with m' | args
  · simp only [effect, hp] at h
    rw [(Prod.mk.inj h).1]
  have hsame := hstmt.unchanged env args g
  rcases hx : textEffect drv env stmt.sql args 0 (sqls drv stmt.sql) g .zero with
    ⟨g₁, stop | r⟩ <;> rw [hx] at hsame <;> simp only [effect, hp, hx] at h
  · rw [← (Prod.mk.inj h).1]
    exact hsame stop rfl
  · simp at h

section Errors

variable {drv : Driver D E} (herrs : drv.LawfulErrors)

include herrs

/-- The error of a statement of a text has a text. -/
theorem sqlEffect_error {lock : Option String} (hlock : ∀ m, lock = some m → m ≠ "") {e : E}
    {ro : Bool} {args : List NamedArg} {sql : String} {g : Ground D} {m : String}
    (h : (sqlEffect drv lock e ro args sql g).2 = .error (.msg m)) : m ≠ "" := by
  rw [sqlEffect] at h
  split at h
  · rename_i m' hm'
    obtain rfl : m' = m := Halt.msg.inj (Except.error.inj h)
    split at hm'
    · simp at hm'
    · exact hlock _ hm'
  split at h
  · simp at h
  · obtain rfl := Halt.msg.inj (Except.error.inj h)
    exact herrs.fail _ _ _ _ _ _ _ ‹_›
  · obtain rfl := Halt.msg.inj (Except.error.inj h)
    exact herrs.failRollback _ _ _ _ _ _ _ ‹_›
  · simp at h

/-- The error of a text has a text; induction on its statements. -/
theorem textEffect_error {env : Env E} (henv : Env.Speaks env) {text : String}
    {args : List NamedArg} {m : String} :
    ∀ (sqls : List String) (j : ℕ) (g : Ground D) (r : Result),
      (textEffect drv env text args j sqls g r).2 = .error (.msg m) → m ≠ "" := by
  intro sqls
  induction sqls with
  | nil => intro j g r h; simp [textEffect] at h
  | cons sql rest ih =>
      intro j g r h
      rcases hc : drv.compile sql g.own g.db with m' | ⟨own, ro⟩
      · simp only [textEffect, hc, Except.error.injEq, Halt.msg.injEq] at h
        rw [← h]
        exact herrs.compile _ _ _ _ hc
      rcases hb : drv.bind text args j with m' | a
      · simp only [textEffect, hc, hb, Except.error.injEq, Halt.msg.injEq] at h
        rw [← h]
        exact herrs.bind _ _ _ _ hb
      rcases hx : sqlEffect drv (env.lock j) (env.entropy j) ro a sql ⟨own, g.db⟩ with
        ⟨g', stop | r'⟩ <;> simp only [textEffect, hc, hb, hx] at h
      · refine @sqlEffect_error D E drv herrs (env.lock j) (henv j) (env.entropy j) ro a sql
          ⟨own, g.db⟩ m ?_
        rw [hx, h]
      · exact ih _ _ _ h

/-- **The error of a statement has a text.** -/
theorem effect_error {env : Env E} (henv : Env.Speaks env) {stmt : Statement}
    (hstmt : Functional drv stmt.sql) {g : Ground D} {m : String}
    (h : (effect drv env stmt g).2 = .error m) : m ≠ "" := by
  rcases hp : convertParamsToSQL stmt.params with m' | args
  · simp only [effect, hp, Except.error.injEq] at h
    rw [← h]
    exact convertParamsToSQL_error hp
  rcases hx : textEffect drv env stmt.sql args 0 (sqls drv stmt.sql) g .zero with
    ⟨g', (m' | _) | r⟩ <;> simp only [effect, hp, hx] at h
  · obtain rfl : m' = m := Except.error.inj h
    exact textEffect_error herrs henv (sqls drv stmt.sql) 0 g .zero (congrArg Prod.snd hx)
  · exact absurd (congrArg Prod.snd hx) (hstmt.returns env args g)
  · simp at h

end Errors

/-- The texts of the statements are functions on databases, and the failures of their locks
have texts. -/
def AllFunctional (drv : Driver D E) (ps : List (Statement × Env E)) : Prop :=
  ∀ p ∈ ps, Functional drv p.1.sql ∧ Env.Speaks p.2

/-- Statements of a request whose texts are functions. -/
theorem allFunctional_nonEmpty {drv : Driver D E} {loc : Local E} {stmts : List Statement}
    (hall : ∀ stmt ∈ stmts, Functional drv stmt.sql) (hspeaks : ∀ i, Env.Speaks (loc.stmt i))
    (i : ℕ) : AllFunctional drv (nonEmpty loc i stmts) := by
  induction stmts generalizing i with
  | nil => intro p hp; exact absurd hp List.not_mem_nil
  | cons stmt rest ih =>
      have ih' := ih (fun q hq => hall q (List.mem_cons_of_mem stmt hq)) (i + 1)
      rw [nonEmpty]
      split
      · exact ih'
      · intro p hp
        rcases List.mem_cons.mp hp with rfl | hp
        · exact ⟨hall stmt List.mem_cons_self, hspeaks i⟩
        · exact ih' p hp

/-- A composition that comes through has one result per statement, none of them with an
error. -/
theorem inOrder_ok {drv : Driver D E} {ps : List (Statement × Env E)} {g : Ground D} {d' : D}
    {results : List ExecRes} (h : inOrder drv ps g = .ok (d', results)) :
    results.length = ps.length ∧ ∀ r ∈ results, r.error = "" := by
  induction ps generalizing g results with
  | nil =>
      obtain ⟨-, rfl⟩ := Prod.mk.inj (Except.ok.inj h)
      exact ⟨rfl, by simp⟩
  | cons p rest ih =>
      rcases he : effect drv p.2 p.1 g with ⟨g₁, m | res⟩
      · simp [inOrder, he] at h
      rcases hr : inOrder drv rest g₁ with m | ⟨d₂, rs⟩
      · simp [inOrder, he, hr] at h
      simp only [inOrder, he, hr, Except.ok.injEq, Prod.mk.injEq] at h
      obtain ⟨rfl, rfl⟩ := h
      obtain ⟨hlen, hall⟩ := ih hr
      refine ⟨by rw [List.length_cons, List.length_cons, hlen], ?_⟩
      intro r hmem
      rcases List.mem_cons.mp hmem with rfl | hmem
      · exact effect_ok_error he
      · exact hall r hmem

/-- The results before a failure carry no error, and the failure does. -/
theorem inOrder_error {drv : Driver D E} (herrs : drv.LawfulErrors)
    {ps : List (Statement × Env E)} (hps : AllFunctional drv ps) {g : Ground D}
    {results : List ExecRes} {m : String} (h : inOrder drv ps g = .error (results, m)) :
    (∀ r ∈ results, r.error = "") ∧ m ≠ "" := by
  induction ps generalizing g results with
  | nil => simp [inOrder] at h
  | cons p rest ih =>
      rcases he : effect drv p.2 p.1 g with ⟨g₁, m' | res⟩
      · simp only [inOrder, he, Except.error.injEq, Prod.mk.injEq] at h
        obtain ⟨rfl, rfl⟩ := h
        obtain ⟨hfun, henv⟩ := hps p List.mem_cons_self
        exact ⟨by simp, effect_error herrs henv hfun (congrArg Prod.snd he)⟩
      rcases hr : inOrder drv rest g₁ with ⟨rs, m'⟩ | ⟨d₂, rs⟩
      · simp only [inOrder, he, hr, Except.error.injEq, Prod.mk.injEq] at h
        obtain ⟨rfl, rfl⟩ := h
        obtain ⟨hall, hm⟩ := ih (fun q hq => hps q (List.mem_cons_of_mem p hq)) hr
        refine ⟨?_, hm⟩
        intro r hmem
        rcases List.mem_cons.mp hmem with rfl | hmem
        · exact effect_ok_error he
        · exact hall r hmem
      · simp [inOrder, he, hr] at h

/-- There is one result per statement, which carries an error exactly where the statement
failed. -/
theorem eachAlone_reported {drv : Driver D E} (herrs : drv.LawfulErrors)
    {ps : List (Statement × Env E)} (hps : AllFunctional drv ps) (g : Ground D) :
    (eachAlone drv ps g).2.length = ps.length ∧
      ∀ x ∈ (eachAlone drv ps g).2, (reported x).error = "" ↔ ∃ res, x = .ok res := by
  induction ps generalizing g with
  | nil => exact ⟨rfl, by simp [eachAlone]⟩
  | cons p rest ih =>
      have ih' := ih fun q hq => hps q (List.mem_cons_of_mem p hq)
      rcases he : effect drv p.2 p.1 g with ⟨g', m | res⟩
      · obtain ⟨hlen, hall⟩ := ih' ⟨g'.own, g.db⟩
        obtain ⟨hfun, henv⟩ := hps p List.mem_cons_self
        have hm := effect_error herrs henv hfun (congrArg Prod.snd he)
        simp only [eachAlone, he]
        refine ⟨by simp only [List.length_cons, hlen], fun x hx => ?_⟩
        rcases List.mem_cons.mp hx with rfl | hx
        · exact iff_of_false hm (by simp)
        · exact hall x hx
      · obtain ⟨hlen, hall⟩ := ih' g'
        simp only [eachAlone, he]
        refine ⟨by simp only [List.length_cons, hlen], fun x hx => ?_⟩
        rcases List.mem_cons.mp hx with rfl | hx
        · exact iff_of_true (effect_ok_error he) ⟨res, rfl⟩
        · exact hall x hx

/-! ### Texts on connections -/

/-- The session of a connection at rest on a database. -/
def Ground.session (g : Ground D) : Session D := ⟨g.db, ⟨true, none, g.own⟩⟩

/-- A connection that was opened for writing and is outside any transaction. -/
theorem session_of_rest {s : Session D} (hw : s.conn.canWrite = true) (hi : s.Idle) :
    s = Ground.session ⟨s.conn.settings, s.db⟩ := by
  obtain ⟨d, ⟨w, t, own⟩⟩ := s
  obtain rfl : w = true := hw
  obtain rfl : t = none := hi
  rfl

/-- A plain statement outside a transaction. -/
theorem runPlain_atRest (drv : Driver D E) (lock : Option String) (e : E) (ro : Bool)
    (args : List NamedArg) (sql : String) (g : Ground D) :
    runPlain drv lock e ro args g.session sql =
      ((sqlEffect drv lock e ro args sql g).1.session,
        (sqlEffect drv lock e ro args sql g).2) := by
  have hsee : g.session.see = g.db := rfl
  have hown : g.session.conn.settings = g.own := rfl
  have hcan : g.session.conn.canWrite = true := rfl
  simp only [runPlain, sqlEffect, hsee, hown, hcan, Bool.not_true, Bool.false_eq_true, if_false]
  rcases hr : ro || drv.tempOnly sql g.own g.db
  · rcases lock with _ | m
    · rcases drv.exec e sql args g.own g.db with _ | _ | _ | _ <;> rfl
    · rfl
  · rcases drv.exec e sql args g.own g.db with _ | _ | _ | _ <;> rfl

/-- **A text outside a transaction** does what the driver says of the database. -/
theorem execText_atRest {drv : Driver D E} {text : String}
    (hplain : drv.split text = (sqls drv text).map .plain) (env : Env E) (args : List NamedArg)
    (g : Ground D) :
    execText drv env text args g.session =
      ((textEffect drv env text args 0 (sqls drv text) g .zero).1.session,
        (textEffect drv env text args 0 (sqls drv text) g .zero).2) := by
  have key : ∀ (l : List String) (j : ℕ) (g : Ground D) (r : Result),
      runCmds drv env text args j (l.map .plain) g.session r =
        ((textEffect drv env text args j l g r).1.session,
          (textEffect drv env text args j l g r).2) := by
    intro l
    induction l with
    | nil => intro j g r; rfl
    | cons sql rest ih =>
        intro j g r
        have hprep : prepare drv g.session (.plain sql) =
            match drv.compile sql g.own g.db with
            | .error m => (g.session, .error m)
            | .ok (own, readOnly) => (Ground.session ⟨own, g.db⟩, .ok readOnly) := by
          simp only [prepare]
          rfl
        rcases hc : drv.compile sql g.own g.db with m | ⟨own, ro⟩ <;> rw [hc] at hprep
        · simp only [List.map_cons, runCmds, hprep, textEffect, hc]
        rcases hb : drv.bind text args j with m | a
        · simp only [List.map_cons, runCmds, hprep, hb, textEffect, hc]
        have hrun := runPlain_atRest drv (env.lock j) (env.entropy j) ro a sql ⟨own, g.db⟩
        rcases hx : sqlEffect drv (env.lock j) (env.entropy j) ro a sql ⟨own, g.db⟩ with
          ⟨g', stop | r'⟩ <;> rw [hx] at hrun
        · simp only [List.map_cons, runCmds, hprep, hb, runCmd, hrun, textEffect, hc, hx]
        · simp only [List.map_cons, runCmds, hprep, hb, runCmd, hrun, textEffect, hc, hx, ih]
  rw [execText, hplain]
  exact key _ 0 g .zero

/-- The connection **works** inside a transaction: the published database is `d₀`, and the
database of the ground is both what its statements see and what a commit publishes. -/
structure Working (d₀ : D) (g : Ground D) (s : Session D) : Prop where
  db : s.db = d₀
  canWrite : s.conn.canWrite = true
  own : s.conn.settings = g.own
  tx : ∃ t, s.conn.tx = some t ∧ t.bySavepoint = false ∧ t.publish d₀ = g.db ∧
    (t.current d₀).work = g.db

namespace Working

variable {d₀ : D} {g : Ground D} {s : Session D}

/-- The connection is inside a transaction that a `BEGIN` opened. -/
theorem held (h : Working d₀ g s) : s.Held := by
  obtain ⟨t, ht, hsp, -, -⟩ := h.tx
  exact ⟨t, ht, hsp⟩

/-- The statements see what the transaction works on. -/
theorem see (h : Working d₀ g s) : s.see = g.db := by
  obtain ⟨t, ht, -, -, hwork⟩ := h.tx
  rw [Session.see, ht, h.db]
  exact hwork

/-- Other settings, on the same work. -/
theorem keep (h : Working d₀ g s) (own : Settings) : Working d₀ ⟨own, g.db⟩ (s.keep own) :=
  ⟨h.db, h.canWrite, rfl, h.tx⟩

/-- Reading changes nothing of what the transaction works on. -/
theorem touch (h : Working d₀ g s) : Working d₀ g s.touch := by
  obtain ⟨t, ht, hsp, hpub, hwork⟩ := h.tx
  have hdb := h.db
  refine ⟨by rw [Session.touch_db, hdb], by rw [Session.touch_canWrite, h.canWrite],
    by rw [Session.touch_settings, h.own], { t with view := some (t.current d₀) }, ?_, hsp,
    ?_, ?_⟩
  · simp only [Session.touch, ht, Session.setTx_tx, hdb]
  · -- a view that was taken just now holds the published database
    rcases hv : t.view with _ | v
    · simpa [Tx.publish, Tx.current, hv] using hpub
    · simpa [Tx.publish, Tx.current, hv] using hpub
  · rcases hv : t.view with _ | v
    · simpa [Tx.current, hv] using hwork
    · simpa [Tx.current, hv] using hwork

/-- Writing makes the transaction work on what was written. -/
theorem write (h : Working d₀ g s) (d : D) : Working d₀ ⟨g.own, d⟩ (s.write d) := by
  obtain ⟨t, ht, hsp, -, -⟩ := h.tx
  have hwrite : s.write d =
      s.setTx (some { t with view := some { t.current s.db with work := d, wrote := true } }) := by
    rw [Session.write, ht]
  rw [hwrite]
  exact ⟨h.db, h.canWrite, h.own, _, rfl, hsp, rfl, rfl⟩

end Working

/-- A transaction that just began works on the published database. -/
theorem working_opened (g : Ground D) : Working g.db g g.session.opened :=
  ⟨rfl, rfl, rfl, _, rfl, rfl, rfl, rfl⟩

/-- What a call does on a connection inside a transaction, against what is said of the
database: the same outcome, and after success the transaction works on the new ground. -/
structure Mirrors (d₀ : D) {α : Type} (p : Ground D × Except Halt α)
    (q : Session D × Except Halt α) : Prop where
  outcome : q.2 = p.2
  working : ∀ r, p.2 = .ok r → Working d₀ p.1 q.1

/-- A plain statement inside a transaction. -/
theorem runPlain_working {drv : Driver D E} {lock : Option String} {e : E} {ro : Bool}
    {args : List NamedArg} {s : Session D} {sql : String} {d₀ : D} {g : Ground D}
    (h : Working d₀ g s) :
    Mirrors d₀ (sqlEffect drv lock e ro args sql g) (runPlain drv lock e ro args s sql) := by
  simp only [runPlain, sqlEffect, h.see, h.own, h.canWrite, Bool.not_true, Bool.false_eq_true,
    if_false]
  rcases hr : ro || drv.tempOnly sql g.own g.db
  · rcases lock with _ | m
    · rcases drv.exec e sql args g.own g.db with ⟨d, own⟩ | ⟨own, m⟩ | ⟨own, m⟩ | _
      · exact ⟨rfl, fun _ _ => (h.write d).keep own⟩
      · exact ⟨rfl, by simp⟩
      · exact ⟨rfl, by simp⟩
      · exact ⟨rfl, by simp⟩
    · exact ⟨rfl, by simp⟩
  · rcases drv.exec e sql args g.own g.db with ⟨d, own⟩ | ⟨own, m⟩ | ⟨own, m⟩ | _
    · exact ⟨rfl, fun _ _ => h.touch.keep own⟩
    · exact ⟨rfl, by simp⟩
    · exact ⟨rfl, by simp⟩
    · exact ⟨rfl, by simp⟩

/-- **A text inside a transaction** does to the view what the driver says of the database;
induction on its statements. -/
theorem execText_working {drv : Driver D E} {text : String}
    (hplain : drv.split text = (sqls drv text).map .plain) {env : Env E}
    {args : List NamedArg} {s : Session D} {d₀ : D} {g : Ground D} (h : Working d₀ g s) :
    Mirrors d₀ (textEffect drv env text args 0 (sqls drv text) g .zero)
      (execText drv env text args s) := by
  have key : ∀ (l : List String) (j : ℕ) (s : Session D) (g : Ground D) (r : Result),
      Working d₀ g s →
        Mirrors d₀ (textEffect drv env text args j l g r)
          (runCmds drv env text args j (l.map .plain) s r) := by
    intro l
    induction l with
    | nil => intro j s g r h; exact ⟨rfl, fun _ _ => h⟩
    | cons sql rest ih =>
        intro j s g r h
        rcases hc : drv.compile sql g.own g.db with m | ⟨own, ro⟩
        · simp only [List.map_cons, runCmds, prepare, h.see, h.own, textEffect, hc]
          exact ⟨rfl, by simp⟩
        rcases hb : drv.bind text args j with m | a
        · simp only [List.map_cons, runCmds, prepare, h.see, h.own, textEffect, hc, hb]
          exact ⟨rfl, by simp⟩
        obtain ⟨hout, hok⟩ := @runPlain_working D E drv (env.lock j) (env.entropy j) ro a
          (s.keep own) sql d₀ ⟨own, g.db⟩ (h.keep own)
        rcases hx : sqlEffect drv (env.lock j) (env.entropy j) ro a sql ⟨own, g.db⟩ with
          ⟨g', stop | r'⟩
        all_goals
          rcases hq : runPlain drv (env.lock j) (env.entropy j) ro a (s.keep own) sql with ⟨s', out⟩
          rw [hx, hq] at hout
          obtain rfl := hout
        · simp only [List.map_cons, runCmds, prepare, h.see, h.own, textEffect, hc, hb, runCmd,
            hx, hq]
          exact ⟨rfl, by simp⟩
        · rw [hx, hq] at hok
          simp only [List.map_cons, runCmds, prepare, h.see, h.own, textEffect, hc, hb, runCmd,
            hx, hq]
          exact ih (j + 1) s' g' r' (hok r' rfl)
  rw [execText, hplain]
  exact key _ 0 s g .zero h

/-- Committing a view publishes what it holds, or nothing when the commit fails. -/
theorem commitTx_working {fault : Option String} {s : Session D} {d₀ : D} {g : Ground D}
    (h : Working d₀ g s) :
    (commitTx fault s).1.db = (if fault = none then g.db else d₀) ∧
      (commitTx fault s).2 = fault := by
  obtain ⟨t, ht, -, hpub, -⟩ := h.tx
  rcases fault with _ | m
  · simp only [commitTx, ht, if_true]
    refine ⟨?_, trivial⟩
    rw [← hpub, ← h.db]
    rfl
  · simp only [commitTx, ht]
    exact ⟨h.db, trivial⟩

/-! ### Statements of the loop -/

section Counted

variable {drv : Driver D E} (hcounts : drv.LawfulCounts)

include hcounts

/-- A statement of a text leaves counts that can be read. -/
theorem sqlEffect_readable {lock : Option String} {e : E} {ro : Bool} {args : List NamedArg}
    {sql : String} {g : Ground D} (hg : g.own.Readable) :
    (sqlEffect drv lock e ro args sql g).1.own.Readable ∧
      ∀ r, (sqlEffect drv lock e ro args sql g).2 = .ok r → ∃ id n, r = ⟨.ok id, .ok n⟩ := by
  rw [sqlEffect]
  split
  · exact ⟨hg, by simp⟩
  have hown := fun own => hcounts.exec e sql args g.own g.db own hg
  split <;> rename_i hx <;> rw [hx] at hown
  · exact ⟨hown _ rfl, fun r hr => Except.ok.inj hr ▸ hown _ rfl⟩
  · exact ⟨hown _ rfl, by simp⟩
  · exact ⟨hown _ rfl, by simp⟩
  · exact ⟨hg, by simp⟩

/-- So does a text; induction on its statements. -/
theorem textEffect_readable {env : Env E} {text : String} {args : List NamedArg} :
    ∀ (l : List String) (j : ℕ) (g : Ground D) (r : Result), g.own.Readable →
      (∃ id n, r = ⟨.ok id, .ok n⟩) →
        (textEffect drv env text args j l g r).1.own.Readable ∧
          ∀ r', (textEffect drv env text args j l g r).2 = .ok r' →
            ∃ id n, r' = ⟨.ok id, .ok n⟩ := by
  intro l
  induction l with
  | nil => intro j g r hg hr; exact ⟨hg, fun r' hr' => Except.ok.inj hr' ▸ hr⟩
  | cons sql rest ih =>
      intro j g r hg hr
      rcases hc : drv.compile sql g.own g.db with m | ⟨own, ro⟩
      · simp only [textEffect, hc]
        exact ⟨hg, by simp⟩
      have hown : own.Readable := hcounts.compile _ _ _ _ _ hg hc
      rcases hb : drv.bind text args j with m | a
      · simp only [textEffect, hc, hb]
        exact ⟨hown, by simp⟩
      obtain ⟨hnext, hres⟩ := @sqlEffect_readable D E drv hcounts (env.lock j) (env.entropy j) ro a
        sql ⟨own, g.db⟩ hown
      rcases hx : sqlEffect drv (env.lock j) (env.entropy j) ro a sql ⟨own, g.db⟩ with
        ⟨g', stop | r'⟩ <;> rw [hx] at hnext hres <;> simp only [textEffect, hc, hb, hx]
      · exact ⟨hnext, by simp⟩
      · exact ih (j + 1) g' r' hnext (hres r' rfl)

/-- So does a statement of a request. -/
theorem effect_readable {env : Env E} {stmt : Statement} {g : Ground D} (hg : g.own.Readable) :
    (effect drv env stmt g).1.own.Readable := by
  rcases hp : convertParamsToSQL stmt.params with m | args
  · simpa only [effect, hp] using hg
  obtain ⟨hnext, -⟩ := @textEffect_readable D E drv hcounts env stmt.sql args (sqls drv stmt.sql)
    0 g .zero hg ⟨0, 0, rfl⟩
  rcases hx : textEffect drv env stmt.sql args 0 (sqls drv stmt.sql) g .zero with ⟨g', stop | r⟩ <;>
    rw [hx] at hnext <;> simp only [effect, hp, hx]
  · exact hnext
  · exact hnext

/-- What `execStmt` makes of the outcome of a text is what the reference makes of it. -/
theorem execStmt_eq {env : Env E} {s : Session D} {stmt : Statement}
    (hstmt : Functional drv stmt.sql) {g : Ground D} (hg : g.own.Readable)
    {args : List NamedArg} (hp : convertParamsToSQL stmt.params = .ok args)
    (hout : (execText drv env stmt.sql args s).2 =
      (textEffect drv env stmt.sql args 0 (sqls drv stmt.sql) g .zero).2) :
    (execStmt drv env s stmt).1 = (execText drv env stmt.sql args s).1 ∧
      (execStmt drv env s stmt).2 =
        match (effect drv env stmt g).2 with
        | .ok res => .ret (.ok res)
        | .error m => .ret (.error { error := m }) := by
  obtain ⟨-, hread⟩ := @textEffect_readable D E drv hcounts env stmt.sql args (sqls drv stmt.sql)
    0 g .zero hg ⟨0, 0, rfl⟩
  have hreturns := hstmt.returns env args g
  rcases hx : textEffect drv env stmt.sql args 0 (sqls drv stmt.sql) g .zero with
    ⟨g', (m | _) | r⟩ <;> rw [hx] at hout hread hreturns <;>
    rcases hq : execText drv env stmt.sql args s with ⟨s', out⟩ <;> rw [hq] at hout
  · obtain rfl : out = .error (.msg m) := hout
    simp only [execStmt, effect, hp, hq, hx, Halt.text]
    exact ⟨trivial, trivial⟩
  · exact absurd rfl hreturns
  · obtain rfl : out = .ok r := hout
    obtain ⟨id, n, rfl⟩ := hread r rfl
    simp only [execStmt, effect, hp, hq, hx]
    exact ⟨trivial, rfl⟩

/-- **A statement outside a transaction** does what its effect says. -/
theorem execStmt_atRest {env : Env E} {stmt : Statement} (hstmt : Functional drv stmt.sql)
    {g : Ground D} (hg : g.own.Readable) :
    execStmt drv env g.session stmt =
      ((effect drv env stmt g).1.session,
        match (effect drv env stmt g).2 with
        | .ok res => .ret (.ok res)
        | .error m => .ret (.error { error := m })) := by
  rcases hp : convertParamsToSQL stmt.params with m | args
  · simp only [execStmt, effect, hp]
  have htext := execText_atRest hstmt.plain env args g
  obtain ⟨hsess, hout⟩ := @execStmt_eq D E drv hcounts env g.session stmt hstmt g hg args hp
    (congrArg Prod.snd htext)
  refine Prod.ext ?_ hout
  rw [hsess, htext]
  rcases hx : textEffect drv env stmt.sql args 0 (sqls drv stmt.sql) g .zero with
    ⟨g', stop | r⟩ <;> simp only [effect, hp, hx]

/-- **A statement inside a transaction** does to the view what its effect says, and
publishes nothing. -/
theorem execStmt_working {env : Env E} {stmt : Statement} {s : Session D} {d₀ : D}
    (hstmt : Functional drv stmt.sql) {g : Ground D} (hg : g.own.Readable) (h : Working d₀ g s) :
    match effect drv env stmt g with
    | (g', .ok res) => ∃ s', execStmt drv env s stmt = (s', .ret (.ok res)) ∧ Working d₀ g' s'
    | (_, .error m) =>
        ∃ s', execStmt drv env s stmt = (s', .ret (.error { error := m })) ∧ s'.db = d₀ := by
  rcases hp : convertParamsToSQL stmt.params with m | args
  · simp only [effect, execStmt, hp]
    exact ⟨s, rfl, h.db⟩
  have hends : ∀ c ∈ drv.split stmt.sql, c.ends = false := by
    intro c hc
    rw [hstmt.plain] at hc
    obtain ⟨sql, -, rfl⟩ := List.mem_map.mp hc
    rfl
  have hheld : Post (fun s' => s'.db = d₀ ∧ s'.Held) (fun s' => s'.db = d₀)
      (execText drv env stmt.sql args s) := execText_held h.db h.held hends
  have hmirror := @execText_working D E drv stmt.sql hstmt.plain env args s d₀ g h
  obtain ⟨hsess, hout⟩ := @execStmt_eq D E drv hcounts env s stmt hstmt g hg args hp
    hmirror.outcome
  rcases hx : textEffect drv env stmt.sql args 0 (sqls drv stmt.sql) g .zero with
    ⟨g', stop | r⟩ <;> rw [hx] at hmirror <;> simp only [effect, hp, hx] at hout ⊢
  · exact ⟨_, Prod.ext hsess hout, hheld.weaken fun _ hs => hs.1⟩
  · exact ⟨_, Prod.ext hsess hout, hmirror.working r rfl⟩

/-! ### The loop -/

/-- **The loop without a transaction** runs the statements each on their own. Induction
on the statements; the connection is at rest before each of them. -/
theorem execLoop_eachAlone {loc : Local E} :
    ∀ (stmts : List Statement) (i : ℕ), AllFunctional drv (nonEmpty loc i stmts) →
      ∀ (g : Ground D) (acc : List ExecRes), g.own.Readable →
        execLoop drv loc i stmts ⟨g.session, false, acc, false⟩ =
          ⟨(eachAlone drv (nonEmpty loc i stmts) g).1.session, false,
            acc ++ (eachAlone drv (nonEmpty loc i stmts) g).2.map reported, false⟩ := by
  intro stmts
  induction stmts with
  | nil => intro i _ g acc _; simp [execLoop, nonEmpty, eachAlone]
  | cons stmt rest ih =>
      intro i hall g acc hg
      by_cases hsql : stmt.sql = ""
      · simp only [nonEmpty, hsql, if_true] at hall ⊢
        simp only [execLoop, hsql, if_true]
        exact ih (i + 1) hall g acc hg
      simp only [nonEmpty, hsql, if_false] at hall ⊢
      have ih' := ih (i + 1) fun q hq => hall q (List.mem_cons_of_mem _ hq)
      have hfun := (hall (stmt, loc.stmt i) List.mem_cons_self).1
      have hnext := @effect_readable D E drv hcounts (loc.stmt i) stmt g hg
      have hstmt := @execStmt_atRest D E drv hcounts (loc.stmt i) stmt hfun g hg
      rcases he : effect drv (loc.stmt i) stmt g with ⟨g', m | res⟩ <;> rw [he] at hstmt hnext
      · have hsame : g' = ⟨g'.own, g.db⟩ := by rw [← effect_unchanged hfun he]
        simp only [execLoop, hsql, if_false, hstmt, Bool.false_eq_true, ih' g' _ hnext,
          eachAlone, he, List.append_assoc, List.map_cons, List.singleton_append, reported]
        rw [← hsame]
      · simp only [execLoop, hsql, if_false, hstmt, ih' g' _ hnext, eachAlone, he,
          List.append_assoc, List.map_cons, List.singleton_append, reported]

/-- **The loop inside a transaction** composes the statements: it ends with a view that
holds their composition, or was rolled back at the first failure. -/
theorem execLoop_inOrder {loc : Local E} {d₀ : D} :
    ∀ (stmts : List Statement) (i : ℕ), AllFunctional drv (nonEmpty loc i stmts) →
      ∀ (s : Session D) (g : Ground D) (acc : List ExecRes), g.own.Readable → Working d₀ g s →
        match inOrder drv (nonEmpty loc i stmts) g with
        | .ok (d', results) => ∃ s' own, execLoop drv loc i stmts ⟨s, true, acc, false⟩ =
            ⟨s', true, acc ++ results, false⟩ ∧ Working d₀ ⟨own, d'⟩ s'
        | .error (results, m) => ∃ s', execLoop drv loc i stmts ⟨s, true, acc, false⟩ =
            ⟨s', false, acc ++ results ++ [{ error := m }], false⟩ ∧ s'.db = d₀ ∧ s'.Idle := by
  intro stmts
  induction stmts with
  | nil =>
      intro i _ s g acc _ h
      exact ⟨s, g.own, by simp [execLoop], h⟩
  | cons stmt rest ih =>
      intro i hall s g acc hg h
      by_cases hsql : stmt.sql = ""
      · simp only [nonEmpty, hsql, if_true] at hall ⊢
        simp only [execLoop, hsql, if_true]
        exact ih (i + 1) hall s g acc hg h
      simp only [nonEmpty, hsql, if_false] at hall ⊢
      have ih' := ih (i + 1) fun q hq => hall q (List.mem_cons_of_mem _ hq)
      have hnext := @effect_readable D E drv hcounts (loc.stmt i) stmt g hg
      have hstmt := @execStmt_working D E drv hcounts (loc.stmt i) stmt s d₀
        (hall (stmt, loc.stmt i) List.mem_cons_self).1 g hg h
      rcases he : effect drv (loc.stmt i) stmt g with ⟨g', m | res⟩ <;> rw [he] at hstmt hnext
      · -- the error handler rolls back
        obtain ⟨s', hx, hdb⟩ := hstmt
        simp only [inOrder, he, execLoop, hsql, if_false, hx, if_true]
        exact ⟨rollbackTx s', by simp, hdb, rfl⟩
      · obtain ⟨s', hx, hwork⟩ := hstmt
        have hrest := ih' s' g' (acc ++ [res]) hnext hwork
        simp only [inOrder, he, execLoop, hsql, if_false, hx]
        rcases ho : inOrder drv (nonEmpty loc (i + 1) rest) g' with ⟨rs, m⟩ | ⟨d'', rs⟩
        · rw [ho] at hrest
          simpa [List.append_assoc] using hrest
        · rw [ho] at hrest
          simpa [List.append_assoc] using hrest

/-! ### The request -/

/-- A request with `Transaction` whose transaction began. -/
theorem exec_composed {loc : Local E} {req : Request} {g : Ground D}
    (hreq : AllFunctional drv (nonEmpty loc 0 req.statements)) (hg : g.own.Readable)
    (htx : req.transaction = true) (hconn : loc.conn = none) (hbegin : loc.begin = none) :
    match inOrder drv (nonEmpty loc 0 req.statements) g with
    | .ok (d', results) =>
        (exec drv loc req g.session).1.db = (if loc.commit = none then d' else g.db) ∧
          (exec drv loc req g.session).2 = .ret (results, loc.commit)
    | .error (results, m) =>
        (exec drv loc req g.session).1.db = g.db ∧
          (exec drv loc req g.session).2 = .ret (results ++ [{ error := m }], none) := by
  have hidle : g.session.conn.tx = none := rfl
  have hloop := @execLoop_inOrder D E drv hcounts loc g.db req.statements 0 hreq
    g.session.opened g [] hg (working_opened g)
  rcases ho : inOrder drv (nonEmpty loc 0 req.statements) g with ⟨results, m⟩ | ⟨d', results⟩
  · rw [ho] at hloop
    obtain ⟨s', hl, hdb, -⟩ := hloop
    simp only [exec, hconn, htx, if_true, hbegin, beginTx, hidle, hl, execFinish,
      Bool.false_eq_true, if_false]
    exact ⟨hdb, by simp⟩
  · rw [ho] at hloop
    obtain ⟨s', own, hl, hview⟩ := hloop
    obtain ⟨hdb, herr⟩ := @commitTx_working D loc.commit s' g.db ⟨own, d'⟩ hview
    simp only [exec, hconn, htx, if_true, hbegin, beginTx, hidle, hl, execFinish, herr,
      Bool.false_eq_true, if_false]
    exact ⟨hdb, by simp⟩

/-- A request without `Transaction`. -/
theorem exec_alone {loc : Local E} {req : Request} {g : Ground D}
    (hreq : AllFunctional drv (nonEmpty loc 0 req.statements)) (hg : g.own.Readable)
    (htx : req.transaction = false) (hconn : loc.conn = none) :
    exec drv loc req g.session =
      ((eachAlone drv (nonEmpty loc 0 req.statements) g).1.session,
        .ret ((eachAlone drv (nonEmpty loc 0 req.statements) g).2.map reported, none)) := by
  have hloop := @execLoop_eachAlone D E drv hcounts loc req.statements 0 hreq g [] hg
  simp only [exec, hconn, htx, Bool.false_eq_true, if_false, hloop, execFinish,
    List.nil_append]

end Counted

/-- A request that found the given ground **refines the reference semantics**: what it
left and returned is what the composition of its statements, or each of them on its own,
makes of the database. -/
structure Refines (drv : Driver D E) (loc : Local E) (req : Request) (g : Ground D)
    (after : D) (results : List ExecRes) (error : Option String) : Prop where
  /-- Without a connection or a transaction nothing happens. -/
  unopened : loc.conn ≠ none ∨ req.transaction = true ∧ loc.begin ≠ none →
    after = g.db ∧ results = []
  /-- With `Transaction`, all statements take effect or none does. -/
  composed : req.transaction = true → loc.conn = none → loc.begin = none →
    match inOrder drv (nonEmpty loc 0 req.statements) g with
    | .ok (d, rs) =>
        after = (if loc.commit = none then d else g.db) ∧ results = rs ∧
          rs.length = (nonEmpty loc 0 req.statements).length ∧ ∀ r ∈ rs, r.error = ""
    | .error (rs, m) =>
        after = g.db ∧ results = rs ++ [{ error := m }] ∧ (∀ r ∈ rs, r.error = "") ∧ m ≠ ""
  /-- Without `Transaction`, each statement takes effect on its own. -/
  alone : req.transaction = false → loc.conn = none →
    let p := eachAlone drv (nonEmpty loc 0 req.statements) g
    after = p.1.db ∧ results = p.2.map reported ∧
      p.2.length = (nonEmpty loc 0 req.statements).length ∧
      ∀ x ∈ p.2, (reported x).error = "" ↔ ∃ res, x = .ok res
  /-- An error is returned exactly when the connection was not obtained, or the
  transaction did not begin, or its commit failed. -/
  error_iff : error ≠ none ↔ loc.conn ≠ none ∨ req.transaction = true ∧
    (loc.begin ≠ none ∨ loc.commit ≠ none ∧
      ∃ p, inOrder drv (nonEmpty loc 0 req.statements) g = .ok p)

/-- **One request** on a connection at rest returns, and refines the reference semantics. -/
theorem exec_refines_atRest {drv : Driver D E} (hcounts : drv.LawfulCounts)
    (herrs : drv.LawfulErrors) {loc : Local E} {req : Request} {g : Ground D}
    (hreq : AllFunctional drv (nonEmpty loc 0 req.statements)) (hg : g.own.Readable) :
    ∃ after results error, exec drv loc req g.session = (after, .ret (results, error)) ∧
      Refines drv loc req g after.db results error := by
  rcases hconn : loc.conn with _ | m
  · cases htx : req.transaction with
    | false =>
        refine ⟨_, _, _, exec_alone hcounts hreq hg htx hconn, by simp [hconn, htx],
          by simp [htx], fun _ _ => ⟨rfl, rfl, eachAlone_reported herrs hreq g⟩, ?_⟩
        simp [hconn, htx]
    | true =>
        rcases hbegin : loc.begin with _ | m
        · have hcomp := exec_composed hcounts hreq hg htx hconn hbegin
          rcases ho : inOrder drv (nonEmpty loc 0 req.statements) g with
            ⟨results, m⟩ | ⟨d', results⟩ <;> rw [ho] at hcomp
          · refine ⟨_, _, _, Prod.ext rfl hcomp.2, by simp [hconn, hbegin], fun _ _ _ => ?_,
              by simp [htx], by simp [hconn, hbegin, ho]⟩
            rw [ho]
            exact ⟨hcomp.1, rfl, inOrder_error herrs hreq ho⟩
          · refine ⟨_, _, _, Prod.ext rfl hcomp.2, by simp [hconn, hbegin], fun _ _ _ => ?_,
              by simp [htx], by simp [hconn, hbegin, htx, ho]⟩
            rw [ho]
            exact ⟨hcomp.1, rfl, inOrder_ok ho⟩
        · refine ⟨g.session, [], some m, ?_, fun _ => ⟨rfl, rfl⟩, by simp [hbegin],
            by simp [htx], by simp [htx, hbegin]⟩
          simp only [exec, hconn, htx, if_true, hbegin, beginTx]
  · refine ⟨g.session, [], some m, ?_, fun _ => ⟨rfl, rfl⟩, by simp [hconn], by simp [hconn],
      by simp [hconn]⟩
    simp only [exec, hconn]

/-! ### Sequences of requests -/

/-- One request of a sequence, in its local circumstances. -/
def requestStep (drv : Driver D E) (s : Session D) (p : Request × Local E) : Session D :=
  (exec drv p.2 p.1 s).1

/-- A text keeps the counts readable. -/
theorem execText_readable {drv : Driver D E} (hcounts : drv.LawfulCounts) {text : String}
    {env : Env E} {args : List NamedArg} {s : Session D} (hs : s.conn.settings.Readable) :
    (execText drv env text args s).1.conn.settings.Readable := by
  have hrule : Post (fun s => s.conn.settings.Readable) (fun s => s.conn.settings.Readable)
      (execText drv env text args s) := by
    refine execText_rule (fun _ hs => hs) ?_ ?_ hs
    · intro c _ s hs
      cases c with
      | plain sql =>
          rcases hc : drv.compile sql s.conn.settings s.see with m | ⟨own, ro⟩ <;>
            simp only [prepare, hc]
          · exact hs
          · exact hcounts.compile _ _ _ _ _ hs hc
      | _ => exact hs
    · intro c _ lock e ro a s hs
      refine Post.of_both (runCmd_settings (fun _ _ h => h) hs fun sql _ own => ?_)
      exact hcounts.exec _ _ _ _ _ own hs
  exact hrule.weaken fun _ hs => hs

/-- A request whose texts are functions gives a connection at rest back at rest. -/
theorem requestStep_atRest {drv : Driver D E} (hcounts : drv.LawfulCounts)
    (herrs : drv.LawfulErrors) {s : Session D} {p : Request × Local E} (hs : AtRest s)
    (hall : ∀ stmt ∈ p.1.statements, Functional drv stmt.sql)
    (hspeaks : ∀ i, Env.Speaks (p.2.stmt i)) : AtRest (requestStep drv s p) := by
  have hplain : ∀ stmt ∈ p.1.statements, ∀ c ∈ drv.split stmt.sql,
      c.opens = false ∧ c.ends = false := by
    intro stmt hstmt c hc
    rw [(hall stmt hstmt).plain] at hc
    obtain ⟨sql, -, rfl⟩ := List.mem_map.mp hc
    exact ⟨rfl, rfl⟩
  refine ⟨exec_canWrite hs.canWrite, ?_, ?_⟩
  · cases htx : p.1.transaction with
    | false => exact exec_auto_idle htx hs.idle fun stmt hstmt c hc => (hplain stmt hstmt c hc).1
    | true =>
        have hsess := session_of_rest hs.canWrite hs.idle
        obtain ⟨after, results, error, hexec, -⟩ := @exec_refines_atRest D E drv hcounts herrs p.2
          p.1 ⟨s.conn.settings, s.db⟩ (allFunctional_nonEmpty hall hspeaks 0) hs.readable
        rw [← hsess] at hexec
        have hafter := (exec_tx_atomic htx hs.idle
          (fun stmt hstmt c hc => (hplain stmt hstmt c hc).2) hexec).1
        rw [requestStep, hexec]
        exact hafter
  · refine exec_keeps (P := fun s => s.conn.settings.Readable) hs.readable (fun _ h => h)
      (fun _ h => h) (fun _ _ h _ => h) fun stmt _ env s h => ?_
    have hpost : StmtPost (fun s => s.conn.settings.Readable) (fun s => s.conn.settings.Readable)
        (execStmt drv env s stmt) :=
      execStmt_post (fun _ h => h) h fun args =>
        Post.of_both (execText_readable hcounts h)
    exact hpost.weaken fun _ h => h

/-- **`Engine.Exec` refines its reference semantics**: along every sequence of requests
whose texts are functions on databases, in all local circumstances whose failures have
texts, each request returns, does to the database what the composition of its statements, or
each of them on its own, does, and returns the results of that. The connection is at rest
before each request, by induction on the requests before it. -/
theorem exec_refines {drv : Driver D E} (hcounts : drv.LawfulCounts) (herrs : drv.LawfulErrors)
    (d : D) (reqs : List (Request × Local E))
    (hreqs : ∀ p ∈ reqs, (∀ stmt ∈ p.1.statements, Functional drv stmt.sql) ∧
      ∀ i, Env.Speaks (p.2.stmt i)) :
    ∀ n p, reqs[n]? = some p →
      let before := Machine.run (requestStep drv) ⟨d, .fresh false⟩ (reqs.take n)
      ∃ after results error, exec drv p.2 p.1 before = (after, .ret (results, error)) ∧
        Refines drv p.2 p.1 ⟨before.conn.settings, before.db⟩ after.db results error := by
  intro n p hp before
  have hsteps : Machine.Steps (requestStep drv)
      (fun _ p => (∀ stmt ∈ p.1.statements, Functional drv stmt.sql) ∧
        ∀ i, Env.Speaks (p.2.stmt i)) ⟨d, .fresh false⟩ reqs :=
    .of_forall fun p hp _ => hreqs p hp
  have hbefore : AtRest before :=
    Machine.run_invariant AtRest
      (fun _ _ hs hp => requestStep_atRest hcounts herrs hs hp.1 hp.2) (hsteps.take n)
      ⟨rfl, rfl, 0, 0, rfl⟩
  obtain ⟨hall, hspeaks⟩ := hreqs p (List.mem_of_getElem? hp)
  have href := @exec_refines_atRest D E drv hcounts herrs p.2 p.1
    ⟨before.conn.settings, before.db⟩ (allFunctional_nonEmpty hall hspeaks 0) hbefore.readable
  rwa [← session_of_rest hbefore.canWrite hbefore.idle] at href

/-- The insertion of a constant is a function on tables. -/
theorem byteTable_insert_functional : Functional byteTable "INSERT INTO foo VALUES(1)" := by
  have hsqls : sqls byteTable "INSERT INTO foo VALUES(1)" = ["INSERT INTO foo VALUES(1)"] := by
    decide
  have heff : ∀ (env : Env UInt8) args (g : Ground (List UInt8)),
      textEffect byteTable env "INSERT INTO foo VALUES(1)" args 0
          ["INSERT INTO foo VALUES(1)"] g .zero =
        match env.lock 0 with
        | some m => (g, .error (.msg m))
        | none => (⟨byteTableInserted g.own g.db, g.db ++ [1]⟩,
            .ok (byteTableInserted g.own g.db).result) := by
    intro env args g
    rcases hl : env.lock 0 with _ | m <;>
      simp [textEffect, byteTable, byteTableCompile, sqlEffect, hl, byteTableExec]
  refine ⟨by decide, fun env args g => ?_, fun env args g stop h => ?_⟩
  · rw [hsqls, heff]
    split <;> simp
  · rw [hsqls, heff] at h ⊢
    split at h
    · rfl
    · simp at h

/-- The rule at work: an insertion on its own, and then a transaction of two insertions,
the second of which has a parameter without a value. -/
theorem exec_refines_insert :
    ∃ after results error,
      exec byteTable (.ofEntropy fun _ _ => 0)
          ⟨true, [⟨"INSERT INTO foo VALUES(1)", []⟩,
            ⟨"INSERT INTO foo VALUES(1)", [⟨none, ""⟩]⟩]⟩
          ⟨[1], ⟨true, none, byteTableInserted .initial []⟩⟩ = (after, .ret (results, error)) ∧
        Refines byteTable (.ofEntropy fun _ _ => 0)
          ⟨true, [⟨"INSERT INTO foo VALUES(1)", []⟩,
            ⟨"INSERT INTO foo VALUES(1)", [⟨none, ""⟩]⟩]⟩
          ⟨byteTableInserted .initial [], [1]⟩ after.db results error := by
  refine exec_refines byteTable_lawfulCounts byteTable_lawfulErrors []
    [(⟨false, [⟨"INSERT INTO foo VALUES(1)", []⟩]⟩, .ofEntropy fun _ _ => 0),
      (⟨true, [⟨"INSERT INTO foo VALUES(1)", []⟩, ⟨"INSERT INTO foo VALUES(1)", [⟨none, ""⟩]⟩]⟩,
        .ofEntropy fun _ _ => 0)] ?_ 1 _ rfl
  intro p hp
  have hall : ∀ stmt ∈ p.1.statements, stmt.sql = "INSERT INTO foo VALUES(1)" := by
    intro stmt hstmt
    simp only [List.mem_cons, List.not_mem_nil, or_false] at hp
    rcases hp with rfl | rfl
    · rw [List.mem_singleton.mp hstmt]
    · simp only [List.mem_cons, List.not_mem_nil, or_false] at hstmt
      rcases hstmt with rfl | rfl <;> rfl
  refine ⟨fun stmt hstmt => ?_, fun i j m hm => ?_⟩
  · rw [hall stmt hstmt]
    exact byteTable_insert_functional
  · simp only [List.mem_cons, List.not_mem_nil, or_false] at hp
    rcases hp with rfl | rfl <;> exact absurd hm (by simp [Local.ofEntropy])

end DistSql
