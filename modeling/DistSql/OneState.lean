import DistSql.Answers
import DistSql.Interference

/-!
# Transactional Queries Read One State

A query with `Transaction` reads inside one SQLite transaction, which sees the state of
its first read, whatever is committed in the meantime. All its successful results are
then the answers of **one committed state**.

The transaction is only there as long as nothing ends it. The texts `COMMIT` and
`ROLLBACK` count as read-only and pass the check of `Engine.Query`, and a read can fail with
an error after which SQLite rolls back by itself; the statements that follow then read
another state. As long as no statement of the query ends the transaction in either way,
none of them writes, and none changes the settings of the connection, the promise holds in
every interleaving.

## Main results

* `slot_cases`: what a step of a node can do to a pooled connection and its query.
* `queryStmt_inside`: a statement inside a transaction that has seen one state.
* `transaction_reads_one_state`: all results of a transactional query are answers of one
  committed state, in every interleaving.
* `commit_query_reads_two_states`: a query that commits in its middle reads two.
* `run_query`: the steps of one query in a row are `Engine.Query`.
-/

open Golang Sqlite

namespace Sqlite

variable {D E : Type}

/-! ### Transactions that have seen one state -/

/-- The transaction has **seen one state**, if any: it was opened by `BEGIN`, its work and
the work at each of its savepoints are the database at its first access, and the TEMP
tables at each of its savepoints are the given ones. -/
structure Tx.OneView (temp : List UInt8) (t : Tx D) : Prop where
  byBegin : t.bySavepoint = false
  work : ∀ v, t.view = some v → v.work = v.snap
  unread : t.view = none → ∀ p ∈ t.saves, p.work = none
  saved : ∀ v, t.view = some v → ∀ p ∈ t.saves, p.work = none ∨ p.work = some v.snap
  temps : ∀ p ∈ t.saves, p.temp = temp

/-- From one transaction to a later state of it: the state it has seen stays, and the
first state that it sees is `d`. -/
structure Tx.Follows (d : D) (t t' : Tx D) : Prop where
  seen : ∀ v, t.view = some v → ∃ v', t'.view = some v' ∧ v'.snap = v.snap
  first : t.view = none → ∀ v', t'.view = some v' → v'.snap = d

/-- A transaction follows itself. -/
theorem Tx.Follows.refl (d : D) (t : Tx D) : t.Follows d t :=
  ⟨fun v hv => ⟨v, hv, rfl⟩, fun hnone v' hv' => absurd (hnone.symm.trans hv') (by simp)⟩

/-- The transaction of a plain `BEGIN` has seen nothing. -/
theorem Tx.deferred_oneView (temp temp' : List UInt8) :
    (Tx.deferred temp' : Tx D).OneView temp :=
  ⟨rfl, by simp [Tx.deferred], by simp [Tx.deferred], by simp [Tx.deferred],
    by simp [Tx.deferred]⟩

/-- What a session sees inside such a transaction. -/
theorem Tx.OneView.see {s : Session D} {temp : List UInt8} {t : Tx D} (h : t.OneView temp)
    (ht : s.conn.tx = some t) :
    (t.view = none → s.see = s.db) ∧ ∀ v, t.view = some v → s.see = v.snap := by
  refine ⟨fun hnone => ?_, fun v hv => ?_⟩
  · simp [Session.see, ht, Tx.current, hnone]
  · simp [Session.see, ht, Tx.current, hv, h.work v hv]

/-- Access keeps a transaction to one state, which is now taken. -/
theorem touch_inside {s : Session D} {temp : List UInt8} {t : Tx D} (ht : s.conn.tx = some t)
    (h : t.OneView temp) :
    ∃ t', s.touch.conn.tx = some t' ∧ t'.OneView temp ∧ t.Follows s.db t' ∧ t'.view ≠ none := by
  refine ⟨{ t with view := some (t.current s.db) }, by simp [Session.touch, ht], ?_, ?_, by simp⟩
  · rcases hv : t.view with _ | v
    · refine ⟨h.byBegin, ?_, by simp, fun v' _ p hp => .inl (h.unread hv p hp), h.temps⟩
      intro v' hv'
      obtain rfl : (⟨s.db, s.db, false⟩ : View D) = v' := by simpa [Tx.current, hv] using hv'
      rfl
    · refine ⟨h.byBegin, ?_, by simp, ?_, h.temps⟩
      · intro v' hv'
        obtain rfl : v = v' := by simpa [Tx.current, hv] using hv'
        exact h.work v hv
      · intro v' hv' p hp
        obtain rfl : v = v' := by simpa [Tx.current, hv] using hv'
        exact h.saved v hv p hp
  · rcases hv : t.view with _ | v
    · refine ⟨by simp [hv], fun _ v' hv' => ?_⟩
      obtain rfl : (⟨s.db, s.db, false⟩ : View D) = v' := by simpa [Tx.current, hv] using hv'
      rfl
    · refine ⟨fun v' hv' => ⟨v, by simp [Tx.current, hv], ?_⟩, fun hnone => ?_⟩
      · rw [Option.some.inj (hv.symm.trans hv')]
      · exact absurd (hnone.symm.trans hv) (by simp)

/-- **Transaction control inside a transaction** that does not end it keeps it to one
state, does not look at the database, and leaves the settings alone. -/
theorem runCmd_inside {drv : Driver D E} {e : E} {args : List NamedArg} {s : Session D}
    {t : Tx D} (ht : s.conn.tx = some t) (h : t.OneView s.conn.settings.temp) {c : Cmd}
    (hends : c.ends = false) (hsql : c.sql? = none) :
    ∃ t', (runCmd drv none e true args s c).1.conn.tx = some t' ∧
      t'.OneView s.conn.settings.temp ∧ t.Follows s.db t' ∧
      (runCmd drv none e true args s c).1.conn.settings = s.conn.settings := by
  have hsame : ∃ t', s.conn.tx = some t' ∧ t'.OneView s.conn.settings.temp ∧
      t.Follows s.db t' ∧ s.conn.settings = s.conn.settings :=
    ⟨t, ht, h, .refl s.db t, rfl⟩
  -- the savepoints from one with the given name on are among the savepoints
  have hdrop : ∀ {name p rest}, t.saves.dropWhile (fun p => p.name != name) = p :: rest →
      p ∈ t.saves ∧ ∀ p' ∈ rest, p' ∈ t.saves := by
    intro name p rest hd
    have hsuf := List.dropWhile_suffix (l := t.saves) fun p => p.name != name
    rw [hd] at hsuf
    exact ⟨hsuf.subset List.mem_cons_self, fun p' hp' => hsuf.subset (List.mem_cons_of_mem p hp')⟩
  cases c with
  | plain sql => exact absurd hsql (by simp [Cmd.sql?])
  | attach sql => exact absurd hsql (by simp [Cmd.sql?])
  | commit => exact absurd hends (by simp [Cmd.ends])
  | rollback => exact absurd hends (by simp [Cmd.ends])
  | begin imm => simpa only [runCmd, ht] using hsame
  | savepoint name =>
      refine ⟨{ t with saves := ⟨name, t.view.map View.work, s.conn.settings.temp⟩ :: t.saves },
        by simp [runCmd, ht], ?_,
        ⟨fun v hv => ⟨v, hv, rfl⟩, fun hnone v' hv' => absurd (hnone.symm.trans hv') (by simp)⟩,
        by simp [runCmd, ht]⟩
      refine ⟨h.byBegin, h.work, fun hnone p hp => ?_, fun v hv p hp => ?_, fun p hp => ?_⟩
      · rcases List.mem_cons.mp hp with rfl | hold
        · have hview : t.view = none := hnone
          simp [hview]
        · exact h.unread hnone p hold
      · have hview : t.view = some v := hv
        rcases List.mem_cons.mp hp with rfl | hold
        · exact .inr (by simp [hview, h.work v hview])
        · exact h.saved v hview p hold
      · rcases List.mem_cons.mp hp with rfl | hold
        · rfl
        · exact h.temps p hold
  | release name =>
      rcases hd : t.saves.dropWhile fun p => p.name != name with _ | ⟨p, rest⟩
      · simpa only [runCmd, ht, hd] using hsame
      · refine ⟨{ t with saves := rest }, by simp [runCmd, ht, hd, h.byBegin], ?_,
          ⟨fun v hv => ⟨v, hv, rfl⟩, fun hnone v' hv' => absurd (hnone.symm.trans hv') (by simp)⟩,
          by simp [runCmd, ht, hd, h.byBegin]⟩
        exact ⟨h.byBegin, h.work, fun hnone p' hp' => h.unread hnone p' ((hdrop hd).2 p' hp'),
          fun v hv p' hp' => h.saved v hv p' ((hdrop hd).2 p' hp'),
          fun p' hp' => h.temps p' ((hdrop hd).2 p' hp')⟩
  | rollbackTo name =>
      rcases hd : t.saves.dropWhile fun p => p.name != name with _ | ⟨p, rest⟩
      · simpa only [runCmd, ht, hd] using hsame
      · refine ⟨{ t with view := t.view.map fun v => { v with work := p.work.getD v.snap },
                         saves := p :: rest }, by simp [runCmd, ht, hd], ?_, ?_, ?_⟩
        · refine ⟨h.byBegin, ?_, ?_, ?_, ?_⟩
          · intro v' hv'
            obtain ⟨v, hv, rfl⟩ := Option.map_eq_some_iff.mp hv'
            rcases h.saved v hv p (hdrop hd).1 with hp | hp <;> simp [hp]
          · intro hnone p' hp'
            have hview : t.view = none := by simpa using hnone
            rcases List.mem_cons.mp hp' with rfl | hold
            · exact h.unread hview p' (hdrop hd).1
            · exact h.unread hview p' ((hdrop hd).2 p' hold)
          · intro v' hv' p' hp'
            obtain ⟨v, hv, rfl⟩ := Option.map_eq_some_iff.mp hv'
            rcases List.mem_cons.mp hp' with rfl | hold
            · exact h.saved v hv p' (hdrop hd).1
            · exact h.saved v hv p' ((hdrop hd).2 p' hold)
          · intro p' hp'
            rcases List.mem_cons.mp hp' with rfl | hold
            · exact h.temps p' (hdrop hd).1
            · exact h.temps p' ((hdrop hd).2 p' hold)
        · refine ⟨fun v hv => ⟨{ v with work := p.work.getD v.snap }, by simp [hv], rfl⟩, ?_⟩
          intro hnone v' hv'
          simp [hnone] at hv'
        · simp [runCmd, ht, hd, h.temps p (hdrop hd).1]

end Sqlite

namespace DistSql

variable {D E : Type}

/-! ### Correct answers -/

/-- The answer to a text that leaves no plain statement to run, which is empty. -/
def BlankAnswer (drv : Driver D E) (q : Statement) (r : QueryRes) : Prop :=
  (∀ sql, (drv.split q.sql).getLast? ≠ some (.plain sql)) ∧ r = {}

/-- The result is the **correct answer** to the statement against the database `d`: the
empty one if its text leaves nothing to be read, else that of a connection to `d` with the
given settings. -/
def CorrectAt (drv : Driver D E) (e : E) (own : Settings) (d : D) (q : Statement)
    (r : QueryRes) : Prop :=
  BlankAnswer drv q r ∨ answerTo drv e own d q = .res r

/-- What `prepareAll` leaves is the last of the statements. -/
theorem prepareAll_getLast {drv : Driver D E} {text : String} {args : List NamedArg}
    {p : Prepared} {s' : Session D} :
    ∀ (cs : List Cmd) (j : ℕ) (s : Session D) (last : Option Prepared),
      prepareAll drv text args j cs s last = (s', .ok (some p)) →
        some p.cmd = cs.getLast?.or (last.map Prepared.cmd) := by
  intro cs
  induction cs with
  | nil =>
      intro j s last h
      have hlast := Except.ok.inj (Prod.mk.inj h).2
      split at hlast
      · exact absurd hlast (by simp)
      · rw [hlast]
        rfl
  | cons c cs ih =>
      intro j s last h
      rcases hp : prepare drv s c with ⟨s₁, m | b⟩
      · simp [prepareAll, hp] at h
      rcases hb : drv.bind text args j with m | a
      · simp [prepareAll, hp, hb] at h
      simp only [prepareAll, hp, hb] at h
      rw [ih _ _ _ h, List.getLast?_cons]
      rcases cs.getLast? with _ | c' <;> rfl

/-- What is left of a statement is the last statement of its text. -/
theorem accept_getLast {drv : Driver D E} {s s' : Session D} {q : Statement} {p : Prepared}
    (h : accept drv s q = (s', .ok (some p))) : (drv.split q.sql).getLast? = some p.cmd := by
  obtain ⟨s₁, -, params, -, hq⟩ := accept_eq_ok h
  rw [prepareAll_getLast _ _ _ _ hq, Option.map_none, Option.or_none]

/-- A statement of a query **stays inside** the transaction: its text leaves the settings
alone, its rows do not end with an error that rolls back, and what it runs neither ends the
transaction nor attaches a database, and is read-only or cannot write. -/
structure StmtInside (drv : Driver D E) (e : E) (s : Session D) (q : Statement) : Prop where
  settings : KeepsReading drv (· = s.conn.settings) q.sql
  goesOn : ∀ cur, openRows drv e s q = some cur → cur.rollback = false
  runs : ∀ p, wouldRun drv s q = some p → p.cmd.ends = false ∧ p.cmd.attaches = false ∧
    (p.readOnly = true ∨ s.conn.canWrite = false)

/-- Compiling a statement that stays inside leaves the session as it is. -/
theorem StmtInside.accept_fst_eq {drv : Driver D E} {e : E} {s : Session D} {q : Statement}
    (h : StmtInside drv e s q) : (accept drv s q).1 = s := by
  obtain ⟨own, hown⟩ := accept_fst drv s q
  have hset : (accept drv s q).1.conn.settings = s.conn.settings :=
    accept_settings h.settings rfl
  rw [hown, Session.keep_settings] at hset
  rw [hown, hset, Session.keep_self]

/-- **The ways of a statement that stays inside**: nothing of it runs, or what runs is refused,
and its result carries an error; it is transaction control; or it is a read, and its result is
the answer of what the session sees. -/
theorem StmtInside.cases {drv : Driver D E} (hrows : drv.LawfulRows)
    (herrs : drv.LawfulErrors) {e : E} {s : Session D} {q : Statement}
    (hok : StmtInside drv e s q) :
    ((queryStmt drv e s q).session = s ∧
        ∀ r, (queryStmt drv e s q).result = .res r → r.error ≠ "") ∨
      (∃ p, wouldRun drv s q = some p ∧ p.cmd.sql? = none ∧
        (queryStmt drv e s q).session = (runCmd drv none e true p.args s p.cmd).1 ∧
        ∀ r, (queryStmt drv e s q).result = .res r → r.error = "" →
          BlankAnswer drv q r ∧ ∃ res, (runCmd drv none e true p.args s p.cmd).2 = .ok res) ∨
      ((queryStmt drv e s q).session = s.touch ∧
        (queryStmt drv e s q).result = answerTo drv e s.conn.settings s.see q) := by
  have hsame := hok.accept_fst_eq
  rcases queryStmt_cases hrows e s q with ⟨-, -, hsess, hres⟩ | ⟨hsql, ⟨s', m, hm, -, hsess, hres⟩ |
      ⟨s', last, types, cols, ha, hopen, htypes, hcols, -, hsess, hres⟩⟩
  · exact .inl ⟨hsess, fun r hr => absurd (hres.symm.trans hr) (by simp)⟩
  · rw [hm] at hsame
    obtain rfl : s' = s := hsame
    refine .inl ⟨hsess, fun r hr => ?_⟩
    obtain rfl := StmtEnd.res.inj (hres.symm.trans hr)
    exact accept_error herrs (congrArg Prod.snd hm)
  rw [ha] at hsame
  obtain rfl : s' = s := hsame
  have hback : (stepRows drv e s' last).2.rollback = false := hok.goesOn _ hopen
  have hafter : (queryStmt drv e s' q).session = (stepRows drv e s' last).1 := by
    rw [hsess, afterRows.eq_def, hback]
    split <;> rfl
  rw [hafter]
  rcases last with _ | ⟨c, ro, args⟩
  · -- the text has nothing to run, and its rows do not end
    refine .inl ⟨rfl, fun r hr => ?_⟩
    exact absurd (hres.symm.trans hr) (by simp [stepRows, Cursor.blank, readCursor, readRows])
  have hwould : wouldRun drv s' q = some ⟨c, ro, args⟩ := wouldRun_of_accept hsql ha
  obtain ⟨-, hattach, hro⟩ := hok.runs _ hwould
  rcases hcmd : c.sql? with _ | sql
  · -- transaction control
    have hstep : stepRows drv e s' (some ⟨c, ro, args⟩) =
        ((runCmd drv none e true args s' c).1,
          .ofResult (runCmd drv none e true args s' c).2) := by
      cases c with
      | plain sql => exact absurd hcmd (by simp [Cmd.sql?])
      | _ => rfl
    rw [hstep] at hres htypes hcols ⊢
    refine .inr (.inl ⟨_, hwould, hcmd, rfl, fun r hr hempty => ⟨⟨fun sql hlast => ?_, ?_⟩, ?_⟩⟩)
    · obtain rfl : c = .plain sql := Option.some.inj ((accept_getLast ha).symm.trans hlast)
      exact absurd hcmd (by simp [Cmd.sql?])
    all_goals
      rcases hp : (runCmd drv none e true args s' c).2 with (m | _) | res <;>
        rw [hp] at htypes hcols hres
      · obtain rfl := StmtEnd.res.inj (hres.symm.trans hr)
        exact absurd hempty (runCmd_error herrs hp)
      · exact absurd (hres.symm.trans hr) (by simp [Cursor.ofResult, readCursor, readRows])
    · obtain rfl : [] = types := Except.ok.inj htypes
      obtain rfl : [] = cols := Except.ok.inj hcols
      exact (StmtEnd.res.inj (hres.symm.trans hr)).symm
    · exact ⟨res, rfl⟩
  obtain rfl : c = .plain sql := by
    cases c with
    | plain sql' => rw [Option.some.inj hcmd]
    | attach sql' => exact absurd hattach (by simp [Cmd.attaches])
    | _ => exact absurd hcmd (by simp [Cmd.sql?])
  rcases hread : ro || drv.tempOnly sql s'.conn.settings s'.see
  · -- a write on a connection that cannot write
    obtain ⟨hfalse, htemp⟩ := Bool.or_eq_false_iff.mp hread
    have hw : s'.conn.canWrite = false := hro.resolve_left (by simp [hfalse])
    have hrun : runPlain drv none e false args s' sql = (s', .error (.msg errReadOnly)) := by
      rw [runPlain.eq_def]
      simp [hw, htemp]
    simp only [stepRows, hread, Bool.false_eq_true, if_false, hrun] at hres ⊢
    refine .inl ⟨trivial, fun r hr => ?_⟩
    obtain rfl := StmtEnd.res.inj (hres.symm.trans hr)
    exact fun hempty => absurd hempty (by decide)
  · -- a read
    have hown : (drv.query e sql args s'.conn.settings s'.see).own = s'.conn.settings :=
      hok.settings.query sql (wouldRun_mem hwould) _ _ _ _ rfl
    refine .inr (.inr ⟨?_, queryStmt_answer fun s₁ p hp => ?_⟩)
    · simp only [stepRows, hread, if_true, hown]
      rw [← s'.touch_settings, Session.keep_self]
    · obtain ⟨rfl, hlast⟩ := Prod.mk.inj (ha.symm.trans hp)
      obtain rfl := Option.some.inj (Except.ok.inj hlast)
      exact .inr ⟨sql, rfl, hread⟩

/-- What a statement leaves of a transaction that has seen one state: it has seen no other,
the settings are the same, and a result without an error is empty, or the answer of what
the transaction sees, which it now has seen. -/
def LeavesOneView (drv : Driver D E) (e : E) (s : Session D) (q : Statement) (t : Tx D)
    (s' : Session D) : Prop :=
  ∃ t', s'.conn.tx = some t' ∧ t'.OneView s.conn.settings.temp ∧ t.Follows s.db t' ∧
    s'.conn.settings = s.conn.settings ∧
    ∀ r, (queryStmt drv e s q).result = .res r → r.error = "" →
      BlankAnswer drv q r ∨
        (t'.view ≠ none ∧ answerTo drv e s.conn.settings s.see q = .res r)

/-- **A statement inside a transaction that has seen one state**, which stays inside it,
keeps it to one state. -/
theorem queryStmt_inside {drv : Driver D E} (hrows : drv.LawfulRows)
    (herrs : drv.LawfulErrors) {e : E} {s : Session D} {q : Statement} {t : Tx D}
    (ht : s.conn.tx = some t) (h : t.OneView s.conn.settings.temp)
    (hok : StmtInside drv e s q) : LeavesOneView drv e s q t (queryStmt drv e s q).session := by
  rcases hok.cases hrows herrs with ⟨hsess, herr⟩ | ⟨p, hwould, hcmd, hsess, hres⟩ | ⟨hsess, hres⟩
  · rw [hsess]
    exact ⟨t, ht, h, .refl _ _, rfl, fun r hr hempty => absurd hempty (herr r hr)⟩
  · obtain ⟨t', ht', hone, hfollows, hset⟩ := @runCmd_inside D E drv e p.args s t ht h p.cmd
      (hok.runs p hwould).1 hcmd
    rw [hsess]
    exact ⟨t', ht', hone, hfollows, hset, fun r hr hempty => .inl (hres r hr hempty).1⟩
  · -- the state is taken now, if it was not before
    obtain ⟨t', ht', hone, hfollows, hview⟩ := touch_inside ht h
    rw [hsess]
    exact ⟨t', ht', hone, hfollows, s.touch_settings,
      fun r hr _ => .inr ⟨hview, hres.symm.trans hr⟩⟩

/-- Outside a transaction, transaction control that opens none fails. -/
theorem runCmd_outside {drv : Driver D E} {e : E} {args : List NamedArg} {s : Session D}
    (hidle : s.conn.tx = none) {c : Cmd} (hopens : c.opens = false) (hsql : c.sql? = none) :
    ∃ m, runCmd drv none e true args s c = (s, .error (.msg m)) := by
  cases c with
  | plain sql => exact absurd hsql (by simp [Cmd.sql?])
  | attach sql => exact absurd hsql (by simp [Cmd.sql?])
  | begin imm => exact absurd hopens (by simp [Cmd.opens])
  | savepoint name => exact absurd hopens (by simp [Cmd.opens])
  | commit => exact ⟨errNoCommit, by simp only [runCmd, hidle]⟩
  | rollback => exact ⟨errNoRollback, by simp only [runCmd, hidle]⟩
  | release name => exact ⟨errNoSavepoint name, by simp only [runCmd, hidle]⟩
  | rollbackTo name => exact ⟨errNoSavepoint name, by simp only [runCmd, hidle]⟩

/-- **A statement outside a transaction**, which opens none and would stay inside one, leaves
the session as it is, and a result without an error is the answer of the database. -/
theorem queryStmt_outside {drv : Driver D E} (hrows : drv.LawfulRows)
    (herrs : drv.LawfulErrors) {e : E} {s : Session D} {q : Statement}
    (hidle : s.conn.tx = none) (hok : StmtInside drv e s q)
    (hopens : ∀ p, wouldRun drv s q = some p → p.cmd.opens = false) :
    (queryStmt drv e s q).session = s ∧
      ∀ r, (queryStmt drv e s q).result = .res r → r.error = "" →
        answerTo drv e s.conn.settings s.db q = .res r := by
  rcases hok.cases hrows herrs with ⟨hsess, herr⟩ | ⟨p, hwould, hcmd, hsess, hres⟩ | ⟨hsess, hres⟩
  · exact ⟨hsess, fun r hr hempty => absurd hempty (herr r hr)⟩
  · obtain ⟨m, hm⟩ := @runCmd_outside D E drv e p.args s hidle p.cmd (hopens p hwould) hcmd
    rw [hm] at hsess
    refine ⟨hsess, fun r hr hempty => ?_⟩
    obtain ⟨-, res, hok⟩ := hres r hr hempty
    rw [hm] at hok
    cases hok
  · have hsee : s.see = s.db := by simp only [Session.see, hidle]
    rw [Session.touch_idle hidle] at hsess
    rw [hsee] at hres
    exact ⟨hsess, fun r hr _ => hres.symm.trans hr⟩

/-! ### Queries in flight -/

/-- A request leaves the pool alone. -/
theorem nodeStep_exec_slots {drv : Driver D E} {s : Node D E} {i : NodeInput E}
    (h : i.isExec = true) : (nodeStep drv s i).slots = s.slots := by
  cases i with
  | execStart req loc =>
      simp only [nodeStep, Node.execStart]
      split
      · rfl
      split
      · rfl
      split
      · split <;> rfl
      · rfl
  | execStmt waits =>
      simp only [nodeStep, Node.execStmt]
      split
      · rfl
      split <;> rfl
  | execEnd waits =>
      simp only [nodeStep, Node.execEnd]
      split
      · rfl
      split
      · split <;> rfl
      · rfl
  | queryStart k req loc => exact absurd h (by simp [NodeInput.isExec])
  | queryStmt k => exact absurd h (by simp [NodeInput.isExec])
  | queryClose k => exact absurd h (by simp [NodeInput.isExec])
  | queryEnd k => exact absurd h (by simp [NodeInput.isExec])

/-- A replaced entry of a list, looked up. -/
theorem getElem?_set_cases {α : Type} {l : List α} {j k : ℕ} {a b : α}
    (h : (l.set j a)[k]? = some b) : (j = k ∧ a = b) ∨ (j ≠ k ∧ l[k]? = some b) := by
  by_cases hjk : j = k
  · subst hjk
    obtain ⟨hlt, hget⟩ := List.getElem?_eq_some_iff.mp h
    exact .inl ⟨rfl, by simpa using hget⟩
  · exact .inr ⟨hjk, by rwa [List.getElem?_set_ne hjk] at h⟩

/-- **What a step can do to a query in flight**, by where the query was before: it was
there; it begins on a slot that had none; it runs its next statement; or its rows are
closed. -/
theorem slot_cases {drv : Driver D E} {s : Node D E} {i : NodeInput E} {k : ℕ} {conn : Conn D}
    {run : InFlight E} (h : (nodeStep drv s i).slots[k]? = some ⟨conn, some run⟩) :
    s.slots[k]? = some ⟨conn, some run⟩ ∨
      (∃ conn₀ req loc s', i = .queryStart k req loc ∧
        (∀ conn' run', s.slots[k]? ≠ some ⟨conn', some run'⟩) ∧
        queryStart loc req.transaction ⟨s.db, conn₀⟩ = .ok s' ∧ conn = s'.conn ∧
        run = ⟨req, loc, 0, .ret (.ok []), false⟩) ∨
      (∃ conn₀ run₀ q acc, i = .queryStmt k ∧ s.slots[k]? = some ⟨conn₀, some run₀⟩ ∧
        run₀.req.statements[run₀.pos]? = some q ∧ run₀.loop = .ret (.ok acc) ∧
        conn = (queryStmt drv ((run₀.loc.stmt run₀.pos).entropy 0) ⟨s.db, conn₀⟩ q).session.conn ∧
        run = { run₀ with
          pos := run₀.pos + 1
          loop := (queryStmt drv ((run₀.loc.stmt run₀.pos).entropy 0) ⟨s.db, conn₀⟩
            q).result.loop acc
          reading := true }) ∨
      ∃ run₀, s.slots[k]? = some ⟨conn, some run₀⟩ ∧ run = { run₀ with reading := false } := by
  by_cases hexec : i.isExec = true
  · rw [nodeStep_exec_slots hexec] at h
    exact .inl h
  cases i with
  | execStart req loc => exact absurd rfl hexec
  | execStmt waits => exact absurd rfl hexec
  | execEnd waits => exact absurd rfl hexec
  | queryStart j req loc =>
      -- the pool with a new connection has the queries of the pool
      obtain ⟨slots, hslots⟩ : ∃ slots, slots =
        if j = s.slots.length then s.slots ++ [⟨.fresh true, none⟩] else s.slots := ⟨_, rfl⟩
      have hold : slots[k]? = some ⟨conn, some run⟩ → s.slots[k]? = some ⟨conn, some run⟩ := by
        intro hk
        rw [hslots] at hk
        split at hk
        · rcases Nat.lt_or_ge k s.slots.length with hlt | hge
          · rwa [List.getElem?_append_left hlt] at hk
          · rw [List.getElem?_append_right hge] at hk
            have hmem := List.mem_singleton.mp (List.mem_of_getElem? hk)
            exact absurd hmem (by simp)
        · exact hk
      -- a slot that is idle in it had no query
      have hfree : ∀ conn₀, slots[j]? = some ⟨conn₀, none⟩ →
          ∀ conn' run', s.slots[j]? ≠ some ⟨conn', some run'⟩ := by
        intro conn₀ hj conn' run' hbusy
        have hlt : j < s.slots.length := (List.getElem?_eq_some_iff.mp hbusy).1
        rw [hslots, if_neg (Nat.ne_of_lt hlt), hbusy] at hj
        exact absurd (Slot.mk.inj (Option.some.inj hj)).2 (by simp)
      simp only [nodeStep, Node.queryStart, ← hslots] at h
      split at h
      · rename_i conn₀ hj
        split at h
        · exact .inl (hold h)
        · rename_i s' hs'
          rcases getElem?_set_cases h with ⟨rfl, hnew⟩ | ⟨-, hk⟩
          · obtain ⟨rfl, hrun⟩ := Slot.mk.inj hnew
            exact .inr (.inl ⟨conn₀, req, loc, s', rfl, hfree conn₀ hj, hs', rfl,
              (Option.some.inj hrun).symm⟩)
          · exact .inl (hold hk)
      · exact .inl h
  | queryStmt j =>
      simp only [nodeStep, Node.queryStmt] at h
      split at h
      · rename_i conn₀ run₀ hj
        split at h
        · rename_i q acc hq hloop _
          rcases getElem?_set_cases h with ⟨rfl, hnew⟩ | ⟨-, hk⟩
          · obtain ⟨rfl, hrun⟩ := Slot.mk.inj hnew
            exact .inr (.inr (.inl ⟨conn₀, run₀, q, acc, rfl, hj, hq, hloop, rfl,
              (Option.some.inj hrun).symm⟩))
          · exact .inl hk
        · exact .inl h
      · exact .inl h
  | queryClose j =>
      simp only [nodeStep, Node.queryClose] at h
      split at h
      · rename_i conn₀ run₀ hj
        split at h
        · exact .inl h
        rcases getElem?_set_cases h with ⟨rfl, hnew⟩ | ⟨-, hk⟩
        · obtain ⟨rfl, hrun⟩ := Slot.mk.inj hnew
          exact .inr (.inr (.inr ⟨run₀, hj, (Option.some.inj hrun).symm⟩))
        · exact .inl hk
      · exact .inl h
  | queryEnd j =>
      simp only [nodeStep, Node.queryEnd] at h
      split at h
      · split at h
        · rcases getElem?_set_cases h with ⟨-, hnew⟩ | ⟨-, hk⟩
          · exact absurd (Slot.mk.inj hnew).2 (by simp)
          · exact .inl hk
        · exact .inl h
      · exact .inl h

/-! ### One committed state -/

/-- The database `d` was **published** at some point of the run. -/
def Published (drv : Driver D E) (d₀ : D) (inputs : List (NodeInput E)) (d : D) : Prop :=
  ∃ n ≤ inputs.length, (Machine.run (nodeStep drv) (.init d₀) (inputs.take n)).db = d

/-- What was published stays so when the run goes on. -/
theorem Published.snoc {drv : Driver D E} {d₀ d : D} {inputs : List (NodeInput E)}
    (h : Published drv d₀ inputs d) (i : NodeInput E) : Published drv d₀ (inputs ++ [i]) d := by
  obtain ⟨n, hn, hd⟩ := h
  refine ⟨n, by rw [List.length_append]; omega, ?_⟩
  rwa [List.take_append_of_le_length hn]

/-- The statements among the first `pos` of a request that have a result, with their
numbers. -/
def asked (req : Request) (pos : ℕ) : List (Statement × ℕ) :=
  (req.statements.take pos).zipIdx.filter fun p => p.1.sql ≠ ""

/-- The next statement is asked for unless its text is empty. -/
theorem asked_succ {req : Request} {pos : ℕ} {q : Statement}
    (h : req.statements[pos]? = some q) :
    asked req (pos + 1) = asked req pos ++ if q.sql = "" then [] else [(q, pos)] := by
  have hlen : pos < req.statements.length := (List.getElem?_eq_some_iff.mp h).1
  rw [asked, List.take_add_one, h, Option.toList_some, List.zipIdx_append, List.filter_append,
    List.length_take, Nat.min_eq_left (by omega), asked]
  split <;> simp_all

/-- The results so far are **answers of `d`**: every one of them that has no error is the
correct answer to its statement against `d`. -/
def AnswersAt (drv : Driver D E) (run : InFlight E) (own : Settings) (d : D)
    (acc : List QueryRes) : Prop :=
  List.Forall₂
    (fun p r => r.error = "" → CorrectAt drv ((run.loc.stmt p.2).entropy 0) own d p.1 r)
    (asked run.req run.pos) acc

/-- **The transactional query on slot `k` reads one state**: there is one committed
database against which all its results without an error are the correct answers, under the
settings of its connection. -/
def ReadsOneState (drv : Driver D E) (d₀ : D) (inputs : List (NodeInput E)) (k : ℕ) : Prop :=
  ∀ conn run acc,
    (Machine.run (nodeStep drv) (.init d₀) inputs).slots[k]? = some ⟨conn, some run⟩ →
    run.req.transaction = true → run.loop = .ret (.ok acc) →
      ∃ d, Published drv d₀ inputs d ∧ AnswersAt drv run conn.settings d acc

/-- **The condition on the steps of a run**: every statement of a transactional query on
slot `k` stays inside the transaction. -/
def StaysInside (drv : Driver D E) (k : ℕ) (s : Node D E) : NodeInput E → Prop
  | .queryStmt j => j = k → ∀ conn run q, s.slots[k]? = some ⟨conn, some run⟩ →
      run.req.transaction = true → run.req.statements[run.pos]? = some q →
        StmtInside drv ((run.loc.stmt run.pos).entropy 0) ⟨s.db, conn⟩ q
  | _ => True

/-- What holds of a transactional query between two steps: its transaction has seen one
state, if any. A state that it has seen is one of those that were published, and the results
are answers of it; before it has seen one, they are answers of every state. -/
def InsideOneState (drv : Driver D E) (published : D → Prop) (conn : Conn D)
    (run : InFlight E) (acc : List QueryRes) : Prop :=
  ∃ t, conn.tx = some t ∧ t.OneView conn.settings.temp ∧
    (t.view = none → ∀ d, AnswersAt drv run conn.settings d acc) ∧
    ∀ v, t.view = some v → published v.snap ∧ AnswersAt drv run conn.settings v.snap acc

/-- More states may be published. -/
theorem InsideOneState.mono {drv : Driver D E} {published published' : D → Prop} {conn : Conn D}
    {run : InFlight E} {acc : List QueryRes} (h : InsideOneState drv published conn run acc)
    (hmono : ∀ d, published d → published' d) : InsideOneState drv published' conn run acc := by
  obtain ⟨t, ht, hone, hunread, hread⟩ := h
  exact ⟨t, ht, hone, hunread, fun v hv => ⟨hmono _ (hread v hv).1, (hread v hv).2⟩⟩

/-- A transactional query that begins has seen nothing. -/
theorem insideOneState_begin (drv : Driver D E) (published : D → Prop) {s s' : Session D}
    {req : Request} {loc : Local E} (htx : req.transaction = true)
    (hstart : queryStart loc req.transaction s = .ok s') :
    InsideOneState drv published s'.conn ⟨req, loc, 0, .ret (.ok []), false⟩ [] := by
  rw [queryStart, htx] at hstart
  split at hstart
  · exact absurd hstart (by simp)
  obtain ⟨-, rfl⟩ := beginTx_eq_ok hstart
  exact ⟨_, rfl, Tx.deferred_oneView _ _, fun _ d => .nil, by simp [Tx.deferred]⟩

/-- **One state for all results**, when some state was published. -/
theorem InsideOneState.exists_answersAt {drv : Driver D E} {published : D → Prop}
    {conn : Conn D} {run : InFlight E} {acc : List QueryRes}
    (h : InsideOneState drv published conn run acc) {d₀ : D} (hd₀ : published d₀) :
    ∃ d, published d ∧ AnswersAt drv run conn.settings d acc := by
  obtain ⟨t, -, -, hunread, hread⟩ := h
  rcases hv : t.view with _ | v
  · exact ⟨d₀, hd₀, hunread hv d₀⟩
  · exact ⟨v.snap, hread v hv⟩

/-- The loop goes on after a statement without a result, or with one. -/
theorem StmtEnd.loop_eq_ok {r : StmtEnd} {acc acc' : List QueryRes}
    (h : r.loop acc = .ret (.ok acc')) :
    (r = .skip ∧ acc = acc') ∨ ∃ x, r = .res x ∧ acc ++ [x] = acc' := by
  cases r with
  | skip => exact .inl ⟨rfl, Except.ok.inj (Outcome.ret.inj h)⟩
  | res x => exact .inr ⟨x, rfl, Except.ok.inj (Outcome.ret.inj h)⟩
  | abort m => exact absurd h (by simp [StmtEnd.loop])
  | panic m => exact absurd h (by simp [StmtEnd.loop])
  | hang => exact absurd h (by simp [StmtEnd.loop])

/-- The answers after one more statement. -/
theorem AnswersAt.next {drv : Driver D E} {run : InFlight E} {own : Settings} {d : D}
    {acc : List QueryRes} (h : AnswersAt drv run own d acc) {q : Statement}
    (hq : run.req.statements[run.pos]? = some q)
    {r : StmtEnd} (hskip : r = .skip ↔ q.sql = "") {loop : Outcome (Except String (List QueryRes))}
    (hloop : loop = r.loop acc) {reading : Bool} {acc' : List QueryRes}
    (hacc : loop = .ret (.ok acc'))
    (hr : ∀ x, r = .res x → x.error = "" →
      CorrectAt drv ((run.loc.stmt run.pos).entropy 0) own d q x) :
    AnswersAt drv { run with pos := run.pos + 1, loop := loop, reading := reading } own d
      acc' := by
  rw [AnswersAt, asked_succ hq]
  rw [hloop] at hacc
  rcases StmtEnd.loop_eq_ok hacc with ⟨rfl, rfl⟩ | ⟨x, rfl, rfl⟩
  · rw [if_pos (hskip.mp rfl), List.append_nil]
    exact h
  · rw [if_neg fun hsql => absurd (hskip.mpr hsql) (by simp)]
    exact List.rel_append h (.cons (hr x rfl) .nil)

/-- **The step of a statement**: a query inside one state stays inside it. -/
theorem queryStmt_insideOneState {drv : Driver D E} (hrows : drv.LawfulRows)
    (herrs : drv.LawfulErrors) {published : D → Prop} {s : Node D E} (hs : published s.db)
    {conn : Conn D} {run : InFlight E} {acc : List QueryRes}
    (hin : InsideOneState drv published conn run acc) {q : Statement}
    (hq : run.req.statements[run.pos]? = some q)
    (hok : StmtInside drv ((run.loc.stmt run.pos).entropy 0) ⟨s.db, conn⟩ q)
    {acc' : List QueryRes}
    (hacc : (queryStmt drv ((run.loc.stmt run.pos).entropy 0) ⟨s.db, conn⟩ q).result.loop acc =
      .ret (.ok acc')) :
    InsideOneState drv published
      (queryStmt drv ((run.loc.stmt run.pos).entropy 0) ⟨s.db, conn⟩ q).session.conn
      { run with
        pos := run.pos + 1
        loop := (queryStmt drv ((run.loc.stmt run.pos).entropy 0) ⟨s.db, conn⟩ q).result.loop acc
        reading := true } acc' := by
  obtain ⟨t, ht, hone, hunread, hread⟩ := hin
  have hskip := queryStmt_skip_iff hrows ((run.loc.stmt run.pos).entropy 0) ⟨s.db, conn⟩ q
  obtain ⟨hseeNone, hseeSome⟩ := hone.see (s := ⟨s.db, conn⟩) ht
  obtain ⟨t', ht', hone', hfollows, hset, hres⟩ :=
    queryStmt_inside hrows herrs (e := (run.loc.stmt run.pos).entropy 0) (s := ⟨s.db, conn⟩)
      ht hone hok
  rw [InsideOneState, hset]
  refine ⟨t', ht', hone', fun hnone d => ?_, fun v' hv' => ?_⟩
  · -- nothing was read, before or now
    have hview : t.view = none := by
      rcases hv : t.view with _ | v
      · rfl
      · obtain ⟨v', hv', -⟩ := hfollows.seen v hv
        exact absurd (hnone.symm.trans hv') (by simp)
    refine (hunread hview d).next hq hskip rfl hacc fun x hx hempty => .inl ?_
    rcases hres x hx hempty with hblank | ⟨hsome, -⟩
    · exact hblank
    · exact absurd hnone hsome
  rcases hv : t.view with _ | v
  · -- the first read takes the published state
    have hsnap : v'.snap = s.db := hfollows.first hv v' hv'
    rw [hsnap]
    refine ⟨hs, (hunread hv s.db).next hq hskip rfl hacc fun x hx hempty => ?_⟩
    rcases hres x hx hempty with hblank | ⟨-, hans⟩
    · exact .inl hblank
    · rw [hseeNone hv] at hans
      exact .inr hans
  · -- a later one sees the state of the first
    obtain ⟨w, hw, hsnap⟩ := hfollows.seen v hv
    obtain rfl : w = v' := Option.some.inj (hw.symm.trans hv')
    rw [hsnap]
    refine ⟨(hread v hv).1, (hread v hv).2.next hq hskip rfl hacc fun x hx hempty => ?_⟩
    rcases hres x hx hempty with hblank | ⟨-, hans⟩
    · exact .inl hblank
    · rw [hseeSome v hv] at hans
      exact .inr hans

/-- **A transactional query reads one state**, in every interleaving with any number of
writes and other queries in which its statements stay inside its transaction. -/
theorem transaction_reads_one_state {drv : Driver D E} (hrows : drv.LawfulRows)
    (herrs : drv.LawfulErrors) (d₀ : D) (k : ℕ) (inputs : List (NodeInput E))
    (hok : Machine.Steps (nodeStep drv) (StaysInside drv k) (.init d₀) inputs) :
    ReadsOneState drv d₀ inputs k := by
  have hinv := @Machine.run_invariant_past _ _ (nodeStep drv) (StaysInside drv k)
    (fun past s => Published drv d₀ past s.db ∧
      s = Machine.run (nodeStep drv) (.init d₀) past ∧
      ∀ conn run acc, s.slots[k]? = some ⟨conn, some run⟩ → run.req.transaction = true →
        run.loop = .ret (.ok acc) → InsideOneState drv (Published drv d₀ past) conn run acc)
    (fun past s i hs hi => ?_) (.init d₀) [] inputs hok
    ⟨⟨0, Nat.le_refl _, rfl⟩, rfl, by simp [Node.init]⟩
  · rw [List.nil_append] at hinv
    intro conn run acc hslot htx hacc
    exact (hinv.2.2 conn run acc hslot htx hacc).exists_answersAt ⟨0, Nat.zero_le _, rfl⟩
  · obtain ⟨hpub, hrun, hslots⟩ := hs
    have hrun' : nodeStep drv s i = Machine.run (nodeStep drv) (.init d₀) (past ++ [i]) := by
      rw [Machine.run_append, ← hrun]
      rfl
    have hmono : ∀ {conn run acc}, InsideOneState drv (Published drv d₀ past) conn run acc →
        InsideOneState drv (Published drv d₀ (past ++ [i])) conn run acc :=
      fun h => h.mono fun _ hd => hd.snoc i
    refine ⟨⟨(past ++ [i]).length, Nat.le_refl _, by rw [List.take_length, ← hrun']⟩, hrun', ?_⟩
    intro conn run acc hslot htx hacc
    rcases slot_cases hslot with hold | ⟨conn₀, req, loc, s', -, -, hstart, rfl, rfl⟩ |
      ⟨conn₀, run₀, q, acc₀, rfl, hold, hq, hloop, rfl, rfl⟩ | ⟨run₀, hold, rfl⟩
    · exact hmono (hslots conn run acc hold htx hacc)
    · -- the query begins
      obtain rfl : [] = acc := Except.ok.inj (Outcome.ret.inj hacc)
      exact insideOneState_begin drv _ htx hstart
    · exact hmono (queryStmt_insideOneState hrows herrs hpub (hslots conn₀ run₀ acc₀ hold htx hloop)
        hq (hi rfl conn₀ run₀ q hold htx hq) hacc)
    · exact hmono (hslots conn run₀ acc hold htx hacc)

/-- The texts of the driver with events leave the settings alone when they are read. -/
theorem eventTable_keepsReading (S : Settings → Prop) (text : String) :
    KeepsReading eventTable S text := by
  refine ⟨fun sql _ own d own' ro hown h => ?_, fun sql _ e args own d hown => hown⟩
  simp only [eventTable] at h
  split at h
  · exact (Prod.mk.inj (Except.ok.inj h)).1 ▸ hown
  · rw [byteTableCompile_fst h]
    exact hown

/-- The rule at work: the insertion is committed between the two reads of the query. -/
theorem transaction_reads_one_state_insert :
    ReadsOneState eventTable [7]
      [.queryStart 0 ⟨true, [⟨"SELECT * FROM foo", []⟩, ⟨"SELECT * FROM foo", []⟩]⟩
          (.ofEntropy fun _ _ => 0),
        .queryStmt 0, .queryClose 0,
        .execStart ⟨false, [⟨"INSERT INTO foo VALUES(1)", []⟩]⟩ (.ofEntropy fun _ _ => 0),
        .execStmt fun _ _ => false, .execEnd fun _ => false, .queryStmt 0, .queryClose 0] 0 := by
  refine transaction_reads_one_state eventTable_lawfulRows eventTable_lawfulErrors _ _ _
    ⟨trivial, ?_, trivial, trivial, trivial, trivial, ?_, trivial, trivial⟩
  all_goals
    intro _ conn run q hk _ hq
    obtain ⟨rfl, hrun⟩ := Slot.mk.inj (Option.some.inj hk)
    obtain rfl := Option.some.inj hrun
    obtain rfl : (⟨"SELECT * FROM foo", []⟩ : Statement) = q := Option.some.inj hq
    refine ⟨eventTable_keepsReading _ _, fun cur hcur => ?_, fun p hp => ?_⟩
    · rw [← Option.some.inj hcur]
      rfl
    · obtain rfl : (⟨.plain "SELECT * FROM foo", true, []⟩ : Prepared) = p := Option.some.inj hp
      exact ⟨rfl, rfl, .inl rfl⟩

/-- The inputs of a transactional query that commits after its first read and begins
anew before its second, with an insertion in between. -/
def commitQuery : List (NodeInput UInt8) :=
  [.queryStart 0 ⟨true, [⟨"SELECT * FROM foo", []⟩, ⟨"COMMIT", []⟩, ⟨"BEGIN", []⟩,
      ⟨"SELECT * FROM foo", []⟩]⟩ (.ofEntropy fun _ _ => 0),
    .queryStmt 0, .queryClose 0, .queryStmt 0, .queryClose 0,
    .execStart ⟨false, [⟨"INSERT INTO foo VALUES(1)", []⟩]⟩ (.ofEntropy fun _ _ => 0),
    .execStmt fun _ _ => false, .execEnd fun _ => false,
    .queryStmt 0, .queryClose 0, .queryStmt 0, .queryClose 0]

/-- The result of reading the whole table. -/
def tableRows (rows : List UInt8) : QueryRes :=
  { columns := ["id"], types := ["integer"]
    values := rows.map fun b => ⟨[some ⟨some (.i (.ofNat b.toNat)), ""⟩]⟩ }

/-- **A query that commits in its middle reads two states**: every one of its texts passes
the check, none of its results has an error, and neither does the query; but its two
reads of the table differ. -/
theorem commit_query_reads_two_states :
    (∃ conn run, (Machine.run (nodeStep byteTable) (.init [7]) commitQuery).slots[0]? =
        some ⟨conn, some run⟩ ∧ run.req.transaction = true ∧
        (queryFinish run.loc true (⟨[7, 1], conn⟩, run.loop)).2 =
          .ret ([tableRows [7], {}, {}, tableRows [7, 1]], none)) ∧
      ¬ReadsOneState byteTable [7] commitQuery 0 := by
  refine ⟨⟨_, _, rfl, rfl, rfl⟩, fun hone => ?_⟩
  obtain ⟨d, -, hans⟩ := hone _ _ [tableRows [7], {}, {}, tableRows [7, 1]] rfl rfl rfl
  have hall : List.Forall₂ (fun p r => r.error = "" → CorrectAt byteTable 0 .initial d p.1 r)
      [((⟨"SELECT * FROM foo", []⟩ : Statement), 0), (⟨"COMMIT", []⟩, 1), (⟨"BEGIN", []⟩, 2),
        (⟨"SELECT * FROM foo", []⟩, 3)]
      [tableRows [7], {}, {}, tableRows [7, 1]] := hans
  simp only [List.forall₂_cons, List.Forall₂.nil, and_true] at hall
  obtain ⟨hfirst, -, -, hlast⟩ := hall
  have hplain : ∀ r, CorrectAt byteTable 0 .initial d ⟨"SELECT * FROM foo", []⟩ r →
      answerTo byteTable 0 .initial d ⟨"SELECT * FROM foo", []⟩ = .res r := by
    rintro r (⟨hblank, -⟩ | h)
    · exact absurd rfl (hblank "SELECT * FROM foo")
    · exact h
  have heq := StmtEnd.res.inj ((hplain _ (hfirst rfl)).symm.trans (hplain _ (hlast rfl)))
  exact absurd heq (by decide)

/-! ### Steps in a row -/

/-- The steps of `n` statements of the query on slot `k`. -/
def readSteps (k : ℕ) : ℕ → List (NodeInput E)
  | 0 => []
  | n + 1 => .queryStmt k :: .queryClose k :: readSteps k n

/-- A slot after it was replaced. -/
theorem getElem?_set_slot {l : List (Slot D E)} {k : ℕ} {a : Slot D E} (h : l[k]? = some a)
    (b : Slot D E) : (l.set k b)[k]? = some b := by
  have hlt : k < l.length := (List.getElem?_eq_some_iff.mp h).1
  rw [List.getElem?_set_self hlt]

/-- Closing the rows leaves the connection and the loop alone. -/
theorem queryClose_slot {s : Node D E} {k : ℕ} {conn : Conn D} {run : InFlight E}
    (h : s.slots[k]? = some ⟨conn, some run⟩) :
    (s.queryClose k).db = s.db ∧ ∃ reading, (run.loop ≠ .hang → reading = false) ∧
      (s.queryClose k).slots[k]? = some ⟨conn, some { run with reading := reading }⟩ := by
  simp only [Node.queryClose, h]
  split
  · rename_i hhang
    exact ⟨rfl, run.reading, fun hne => absurd hhang hne, h⟩
  · exact ⟨rfl, false, fun _ => rfl, getElem?_set_slot h _⟩

/-- A query whose loop was left takes no further statement. -/
theorem run_readSteps_left {drv : Driver D E} {k : ℕ} {conn : Conn D}
    {loop : Outcome (Except String (List QueryRes))} (hleft : ∀ acc, loop ≠ .ret (.ok acc)) :
    ∀ (n : ℕ) (s : Node D E) (run : InFlight E), s.slots[k]? = some ⟨conn, some run⟩ →
      run.loop = loop →
        (Machine.run (nodeStep drv) s (readSteps k n)).db = s.db ∧
          ∃ run', (Machine.run (nodeStep drv) s (readSteps k n)).slots[k]? =
            some ⟨conn, some run'⟩ ∧ run'.loop = loop := by
  intro n
  induction n with
  | zero => intro s run h hloop; exact ⟨rfl, run, h, hloop⟩
  | succ n ih =>
      intro s run h hloop
      have hstmt : nodeStep drv s (.queryStmt k) = s := by
        simp only [nodeStep, Node.queryStmt, h, hloop]
        split
        · exact absurd rfl (hleft _)
        · rfl
      obtain ⟨hdb, reading, -, hslot⟩ := queryClose_slot h
      obtain ⟨hdb', run', hrun', hloop'⟩ := ih (s.queryClose k) _ hslot hloop
      rw [readSteps, Machine.run_cons, hstmt, Machine.run_cons]
      exact ⟨hdb'.trans hdb, run', hrun', hloop'⟩

/-- The statements of a query in a row are the loop of `Engine.Query`. -/
theorem run_readSteps {drv : Driver D E} {k : ℕ} {req : Request} {loc : Local E} :
    ∀ (stmts : List Statement) (i : ℕ) (s : Node D E) (conn : Conn D) (acc : List QueryRes),
      req.statements.drop i = stmts →
      s.slots[k]? = some ⟨conn, some ⟨req, loc, i, .ret (.ok acc), false⟩⟩ →
        (Machine.run (nodeStep drv) s (readSteps k stmts.length)).db =
            (queryLoop drv loc i stmts ⟨s.db, conn⟩ acc).1.db ∧
          ∃ run, (Machine.run (nodeStep drv) s (readSteps k stmts.length)).slots[k]? =
              some ⟨(queryLoop drv loc i stmts ⟨s.db, conn⟩ acc).1.conn, some run⟩ ∧
            run.loop = (queryLoop drv loc i stmts ⟨s.db, conn⟩ acc).2 := by
  intro stmts
  induction stmts with
  | nil => intro i s conn acc _ h; exact ⟨rfl, _, h, rfl⟩
  | cons q rest ih =>
      intro i s conn acc hdrop h
      have hi : i < req.statements.length := by
        by_contra hle
        rw [List.drop_eq_nil_iff.mpr (by omega)] at hdrop
        exact absurd hdrop (by simp)
      rw [List.drop_eq_getElem_cons hi] at hdrop
      obtain ⟨hq, hrest⟩ := List.cons.inj hdrop
      have hget : req.statements[i]? = some q := by
        rw [List.getElem?_eq_getElem hi, hq]
      obtain ⟨r, hr⟩ : ∃ r, r = queryStmt drv ((loc.stmt i).entropy 0) ⟨s.db, conn⟩ q := ⟨_, rfl⟩
      -- the state after the statement
      have hstmt : nodeStep drv s (.queryStmt k) =
          { s with db := r.session.db, slots := s.slots.set k ⟨r.session.conn, some
              ⟨req, loc, i + 1, r.result.loop acc, true⟩⟩ } := by
        simp only [nodeStep, Node.queryStmt, h, hget, hr]
      have hslot : (nodeStep drv s (.queryStmt k)).slots[k]? =
          some ⟨r.session.conn, some ⟨req, loc, i + 1, r.result.loop acc, true⟩⟩ := by
        rw [hstmt]
        exact getElem?_set_slot h _
      obtain ⟨hdb, reading, hreading, hclosed⟩ := queryClose_slot hslot
      have hdb' : ((nodeStep drv s (.queryStmt k)).queryClose k).db = r.session.db := by
        rw [hdb, hstmt]
      rw [List.length_cons, readSteps, Machine.run_cons, Machine.run_cons]
      rcases hgo : r.result.goesOn acc with _ | acc'
      · -- the loop is left
        have hend : queryLoop drv loc i (q :: rest) ⟨s.db, conn⟩ acc =
            (r.session, r.result.loop acc) ∧ ∀ acc', r.result.loop acc ≠ .ret (.ok acc') := by
          rw [hr] at hgo ⊢
          rcases hres : (queryStmt drv ((loc.stmt i).entropy 0) ⟨s.db, conn⟩ q).result with
            _ | x | m | m | _ <;> rw [hres] at hgo <;>
            simp [StmtEnd.goesOn, queryLoop, hres, StmtEnd.loop] at hgo ⊢
        rw [hend.1]
        obtain ⟨hdb'', run, hrun, hloop⟩ := run_readSteps_left hend.2 rest.length _ _ hclosed rfl
        exact ⟨hdb''.trans hdb', run, hrun, hloop⟩
      · have hloop : r.result.loop acc = .ret (.ok acc') := by
          rcases StmtEnd.goesOn_eq_some hgo with ⟨hres, rfl⟩ | ⟨x, hres, rfl⟩ <;> rw [hres] <;> rfl
        have hnext : queryLoop drv loc i (q :: rest) ⟨s.db, conn⟩ acc =
            queryLoop drv loc (i + 1) rest r.session acc' := by
          rw [hr] at hgo ⊢
          exact queryLoop_goesOn rest hgo
        have hfalse : reading = false := hreading (by simp [hloop])
        simp only [hloop, hfalse] at hclosed
        have ih' := ih (i + 1) _ _ acc' hrest hclosed
        rw [hdb'] at ih'
        rw [hnext]
        exact ih'

/-- **The steps of a query in a row are `Engine.Query`**: on an idle connection of the
pool, they leave the database, the connection and the results of the loop. -/
theorem run_query (drv : Driver D E) {s : Node D E} {k : ℕ} {conn : Conn D}
    (hslot : s.slots[k]? = some ⟨conn, none⟩) {req : Request} {loc : Local E} {s₀ : Session D}
    (hstart : queryStart loc req.transaction ⟨s.db, conn⟩ = .ok s₀) :
    let p := queryLoop drv loc 0 req.statements s₀ []
    let s' := Machine.run (nodeStep drv) s
      (.queryStart k req loc :: readSteps k req.statements.length)
    query drv loc req ⟨s.db, conn⟩ = queryFinish loc req.transaction p ∧ s'.db = p.1.db ∧
      ∃ run, s'.slots[k]? = some ⟨p.1.conn, some run⟩ ∧ run.loop = p.2 := by
  have hlen : k ≠ s.slots.length := by
    have hlt : k < s.slots.length := (List.getElem?_eq_some_iff.mp hslot).1
    omega
  have hdb : s₀.db = s.db := by
    rw [queryStart] at hstart
    split at hstart
    · simp at hstart
    split at hstart
    · obtain ⟨-, rfl⟩ := beginTx_eq_ok hstart
      rfl
    · rw [← Except.ok.inj hstart]
  have hs₀ : s₀ = ⟨s.db, s₀.conn⟩ := by
    rw [← hdb]
  have hstep : nodeStep drv s (.queryStart k req loc) =
      { s with slots := s.slots.set k ⟨s₀.conn, some ⟨req, loc, 0, .ret (.ok []), false⟩⟩ } := by
    simp only [nodeStep, Node.queryStart, if_neg hlen, hslot, hstart]
  have hbegun := getElem?_set_slot hslot
    ⟨s₀.conn, some ⟨req, loc, 0, .ret (.ok []), false⟩⟩
  have hrun := @run_readSteps D E drv k req loc req.statements 0
    { s with slots := s.slots.set k ⟨s₀.conn, some ⟨req, loc, 0, .ret (.ok []), false⟩⟩ }
    s₀.conn [] rfl hbegun
  rw [← hs₀] at hrun
  refine ⟨by rw [query, hstart], ?_⟩
  rw [Machine.run_cons, hstep]
  exact hrun

end DistSql
