import DistSql.Query

/-!
# What a Query Leaves Behind

A query works on a pooled connection and hands it back. What it can leave behind is of
two kinds: a change of the published database, and an open transaction on the
connection.

A session is **clean** when its transaction, if it has one, has written nothing.
Commands that read, and all commands on a connection that cannot write, keep a session
clean and the published database as it was. What else stays with the connection are its
settings; `Keeps` says of a text that it leaves a property of them alone.

## Main results

* `stepRows_clean`: the command that a statement of a query runs.
* `query_keeps`: what every statement and the transaction object keep, a query keeps.
* `query_readOnly`: a query on a connection that cannot write publishes nothing.
* `queryStmt_settings`: what a text keeps of the settings, a statement of a query keeps.
-/

open Golang Sqlite

namespace Sqlite

variable {D E : Type}

/-- The open transaction, if there is one, has written nothing. -/
def Session.Clean (s : Session D) : Prop :=
  ∀ t v, s.conn.tx = some t → t.view = some v → v.wrote = false

/-- A connection outside a transaction is clean. -/
theorem Session.Idle.clean {s : Session D} (h : s.Idle) : s.Clean := by
  intro t v ht
  rw [h] at ht
  exact absurd ht (by simp)

/-- A transaction that has not looked at the database yet is clean. -/
theorem Session.clean_opened (s : Session D) : s.opened.Clean := by
  intro t v ht hv
  obtain rfl := Option.some.inj ht
  exact absurd hv (by simp [Tx.deferred])

/-- A clean transaction publishes nothing. -/
theorem Session.Clean.publish {s : Session D} (h : s.Clean) {t : Tx D}
    (ht : s.conn.tx = some t) : t.publish s.db = s.db := by
  rcases hv : t.view with _ | v
  · rw [Tx.publish, hv]
  · rw [Tx.publish, hv]
    simp only [h t v ht hv, Bool.false_eq_true, if_false]

/-- Reading keeps a session clean. -/
theorem Session.Clean.touch {s : Session D} (h : s.Clean) : s.touch.Clean := by
  rcases ht : s.conn.tx with _ | t
  · rw [Session.touch_idle ht]
    exact h
  · intro t' v ht' hv
    simp only [Session.touch, ht, Session.setTx_tx, Option.some.injEq] at ht'
    obtain rfl := ht'
    obtain rfl : t.current s.db = v := Option.some.inj hv
    rcases hview : t.view with _ | w
    · simp [Tx.current, hview]
    · simpa [Tx.current, hview] using h t w ht hview

/-- A plain statement that reads, or runs where nothing can be written, keeps a clean
session clean and publishes nothing. -/
theorem runPlain_clean {drv : Driver D E} {lock : Option String} {e : E} {ro : Bool}
    {args : List NamedArg} {s : Session D} {sql : String} (h : s.Clean)
    (hro : ro = true ∨ s.conn.canWrite = false) :
    (runPlain drv lock e ro args s sql).1.Clean ∧
      (runPlain drv lock e ro args s sql).1.db = s.db := by
  rcases runPlain_cases drv lock e ro args s sql with
    ⟨own, hp⟩ | ⟨own, m, hp⟩ | ⟨m, hp⟩ | ⟨d, own, -, hfalse, hw⟩
  · rw [hp]
    exact ⟨h.touch, s.touch_db⟩
  · rw [hp]
    exact ⟨Session.Idle.clean rfl, rfl⟩
  · rw [hp]
    exact ⟨h, rfl⟩
  · rcases hro with hro | hro
    · exact absurd (hfalse.symm.trans hro) (by simp)
    · exact absurd (hw.symm.trans hro) (by simp)

/-- A command keeps a clean session clean and publishes nothing, if it is not a plain
statement that can write. -/
theorem runCmd_clean {drv : Driver D E} {lock : Option String} {e : E} {ro : Bool}
    {args : List NamedArg} {s : Session D} {c : Cmd} (h : s.Clean)
    (hro : ∀ sql, c = .plain sql → ro = true ∨ s.conn.canWrite = false) :
    (runCmd drv lock e ro args s c).1.Clean ∧
      (runCmd drv lock e ro args s c).1.db = s.db := by
  have hnone : s.undo.Clean := Session.Idle.clean rfl
  have hcommit : ∀ t, s.conn.tx = some t → (commitLocked lock s t).1.Clean ∧
      (commitLocked lock s t).1.db = s.db := by
    intro t ht
    rcases lock with _ | m
    · exact ⟨Session.Idle.clean rfl, h.publish ht⟩
    · exact ⟨h, rfl⟩
  cases c with
  | plain sql => exact runPlain_clean h (hro sql rfl)
  | attach sql =>
      have hplain : (runPlain drv lock e true args s sql).1.Clean ∧
          (runPlain drv lock e true args s sql).1.db = s.db := runPlain_clean h (.inl rfl)
      simp only [runCmd]
      split <;> rename_i hr <;> rw [hr] at hplain <;> exact hplain
  | begin imm =>
      rcases ht : s.conn.tx with _ | t
      · rcases imm with _ | _
        · simpa only [runCmd, ht, Bool.false_eq_true, if_false] using
            ⟨s.clean_opened, rfl⟩
        · rcases lock with _ | m
          · simp only [runCmd, ht, if_true]
            refine ⟨?_, rfl⟩
            intro t v ht' hv
            obtain rfl := Option.some.inj ht'
            obtain rfl := Option.some.inj hv
            rfl
          · simpa only [runCmd, ht, if_true] using ⟨h, trivial⟩
      · simpa only [runCmd, ht] using ⟨h, trivial⟩
  | commit =>
      rcases ht : s.conn.tx with _ | t
      · simpa only [runCmd, ht] using ⟨h, trivial⟩
      · simpa only [runCmd, ht] using hcommit t ht
  | rollback =>
      rcases ht : s.conn.tx with _ | t
      · simpa only [runCmd, ht] using ⟨h, trivial⟩
      · simpa only [runCmd, ht] using ⟨hnone, rfl⟩
  | savepoint name =>
      rcases ht : s.conn.tx with _ | t
      · simp only [runCmd, ht]
        refine ⟨?_, rfl⟩
        intro t v ht' hv
        obtain rfl := Option.some.inj ht'
        exact absurd hv (by simp)
      · simp only [runCmd, ht]
        refine ⟨?_, rfl⟩
        intro t' v ht' hv
        obtain rfl := Option.some.inj ht'
        exact h t v ht hv
  | release name =>
      rcases ht : s.conn.tx with _ | t
      · simpa only [runCmd, ht] using ⟨h, trivial⟩
      · simp only [runCmd, ht]
        split
        · exact ⟨h, rfl⟩
        split
        · exact hcommit t ht
        · refine ⟨?_, rfl⟩
          intro t' v ht' hv
          obtain rfl := Option.some.inj ht'
          exact h t v ht hv
  | rollbackTo name =>
      rcases ht : s.conn.tx with _ | t
      · simpa only [runCmd, ht] using ⟨h, trivial⟩
      · simp only [runCmd, ht]
        split
        · exact ⟨h, rfl⟩
        · refine ⟨?_, rfl⟩
          intro t' v ht' hv
          obtain rfl := Option.some.inj ht'
          obtain ⟨w, hw, rfl⟩ := Option.map_eq_some_iff.mp hv
          exact h t w ht hw

/-- **The command of a query** keeps a clean session clean and publishes nothing, if it
is read-only or cannot write. -/
theorem stepRows_clean {drv : Driver D E} {e : E} {s : Session D} {p : Prepared} (h : s.Clean)
    (hro : p.readOnly = true ∨ s.conn.canWrite = false) :
    (stepRows drv e s (some p)).1.Clean ∧ (stepRows drv e s (some p)).1.db = s.db := by
  obtain ⟨c, ro, args⟩ := p
  cases c with
  | plain sql =>
      simp only [stepRows]
      split
      · exact ⟨h.touch, s.touch_db⟩
      rename_i hread
      obtain ⟨hfalse, -⟩ := Bool.or_eq_false_iff.mp (Bool.eq_false_iff.mpr hread)
      have hw : s.conn.canWrite = false := hro.resolve_left (by simp [hfalse])
      have hrun : (runPlain drv none e false args s sql).1.Clean ∧
          (runPlain drv none e false args s sql).1.db = s.db := runPlain_clean h (.inr hw)
      split <;> rename_i hr <;> rw [hr] at hrun <;> exact hrun
  | _ => exact runCmd_clean h (by simp)

/-- Only `ATTACH` lets the connection of a query write. -/
theorem stepRows_canWrite {drv : Driver D E} {e : E} {s : Session D} {p : Prepared}
    (h : s.conn.canWrite = false) (hp : p.cmd.attaches = false) :
    (stepRows drv e s (some p)).1.conn.canWrite = false := by
  obtain ⟨c, ro, args⟩ := p
  have hrun : ∀ ro, (runCmd drv none e ro args s c).1.conn.canWrite = false :=
    fun ro => runCmd_canWrite h fun hattach => absurd (hp.symm.trans hattach) (by simp)
  cases c with
  | plain sql =>
      simp only [stepRows]
      split
      · rw [Session.keep_canWrite, Session.touch_canWrite, h]
      · have hplain := hrun false
        simp only [runCmd] at hplain
        split <;> rename_i hr <;> rw [hr] at hplain <;> exact hplain
  | _ => exact hrun true

/-- Outside a transaction the command of a query opens one only if it is an opening
command. -/
theorem stepRows_idle {drv : Driver D E} {e : E} {s : Session D} {p : Prepared} (h : s.Idle)
    (hp : p.cmd.opens = false) : (stepRows drv e s (some p)).1.Idle := by
  obtain ⟨c, ro, args⟩ := p
  cases c with
  | plain sql =>
      have hrun : (runPlain drv none e false args s sql).1.Idle := runPlain_idle h
      simp only [stepRows]
      split
      · rw [Session.touch_idle h]
        exact h
      · split <;> rename_i hr <;> rw [hr] at hrun <;> exact hrun
  | _ => exact runCmd_idle h hp

/-! ### What a text keeps of the settings -/

/-- The statements of the text keep what `S` says of the settings of a connection, when
they are compiled and asked for their rows. -/
structure KeepsReading (drv : Driver D E) (S : Settings → Prop) (text : String) : Prop where
  compile : ∀ sql, .plain sql ∈ drv.split text → ∀ own d own' ro, S own →
    drv.compile sql own d = .ok (own', ro) → S own'
  query : ∀ sql, .plain sql ∈ drv.split text → ∀ e args own d, S own →
    S (drv.query e sql args own d).own

/-- The statements of the text **keep** what `S` says of the settings of a connection, also
when they are executed. -/
structure Keeps (drv : Driver D E) (S : Settings → Prop) (text : String) : Prop
    extends KeepsReading drv S text where
  exec : ∀ c ∈ drv.split text, ∀ sql, c.sql? = some sql → ∀ e args own d own', S own →
    (drv.exec e sql args own d).own? = some own' → S own'

section Settings

variable {drv : Driver D E} {S : Settings → Prop}

-- the property does not look at TEMP tables, which a rollback restores
variable (htemp : ∀ own temp, S own → S { own with temp := temp })

/-- Compiling a statement keeps what the text keeps. -/
theorem prepare_settings {text : String} (h : KeepsReading drv S text) {c : Cmd}
    (hc : c ∈ drv.split text) {s : Session D} (hs : S s.conn.settings) :
    S (prepare drv s c).1.conn.settings := by
  cases c with
  | plain sql =>
      rcases hp : drv.compile sql s.conn.settings s.see with m | ⟨own, ro⟩
      · simpa only [prepare, hp] using hs
      · simp only [prepare, hp]
        exact h.compile sql hc _ _ own ro hs hp
  | _ => exact hs

include htemp

/-- The rows of a statement keep what its text keeps. -/
theorem stepRows_settings {text : String} (h : Keeps drv S text) {e : E} {s : Session D}
    {p : Prepared} (hp : p.cmd ∈ drv.split text) (hs : S s.conn.settings) :
    S (stepRows drv e s (some p)).1.conn.settings := by
  obtain ⟨c, ro, args⟩ := p
  have hrun : ∀ ro, S (runCmd drv none e ro args s c).1.conn.settings :=
    fun ro => runCmd_settings htemp hs fun sql hsql own => h.exec c hp sql hsql _ _ _ _ own hs
  cases c with
  | plain sql =>
      simp only [stepRows]
      split
      · exact h.query sql hp _ _ _ _ hs
      · have hplain := hrun false
        simp only [runCmd] at hplain
        split <;> rename_i hr <;> rw [hr] at hplain <;> exact hplain
  | _ => exact hrun true

end Settings

/-- A commit of a clean transaction publishes nothing. -/
theorem commitTx_clean {fault : Option String} {s : Session D} (h : s.Clean) :
    (commitTx fault s).1.db = s.db := by
  rcases ht : s.conn.tx with _ | t
  · simp only [commitTx, ht]
    rfl
  · rcases fault with _ | m <;> simp only [commitTx, ht]
    · exact h.publish ht
    · rfl

end Sqlite

namespace DistSql

variable {D E : Type}

/-- Compiling a whole text changes nothing but the settings of the connection. Induction
on the statements. -/
theorem prepareAll_fst (drv : Driver D E) (text : String) (args : List NamedArg) :
    ∀ (cs : List Cmd) (j : ℕ) (s : Session D) (last : Option Prepared),
      ∃ own, (prepareAll drv text args j cs s last).1 = s.keep own := by
  intro cs
  induction cs with
  | nil => intro j s last; exact ⟨s.conn.settings, rfl⟩
  | cons c cs ih =>
      intro j s last
      obtain ⟨own, hown⟩ := prepare_fst drv s c
      rcases hp : prepare drv s c with ⟨s₁, m | b⟩ <;> rw [hp] at hown
      · exact ⟨own, by simp only [prepareAll, hp]; exact hown⟩
      rcases hb : drv.bind text args j with m | a
      · exact ⟨own, by simp only [prepareAll, hp, hb]; exact hown⟩
      obtain ⟨own', hown'⟩ := ih (j + 1) s₁ (some ⟨c, b, a⟩)
      refine ⟨own', ?_⟩
      simp only [prepareAll, hp, hb, hown']
      rw [show s₁ = s.keep own from hown]
      rfl

/-- So does everything that happens to a statement before it is run. -/
theorem accept_fst (drv : Driver D E) (s : Session D) (q : Statement) :
    ∃ own, (accept drv s q).1 = s.keep own := by
  obtain ⟨own, hown⟩ : ∃ own, (prepareFirst drv s q.sql).1 = s.keep own := by
    rw [prepareFirst]
    split
    · exact ⟨s.conn.settings, rfl⟩
    · exact prepare_fst drv s _
  rw [accept]
  rcases hf : prepareFirst drv s q.sql with ⟨s₁, m | ro⟩ <;> rw [hf] at hown
  · exact ⟨own, hown⟩
  rcases ro with _ | _
  · exact ⟨own, hown⟩
  rcases convertParamsToSQL q.params with m | params
  · exact ⟨own, hown⟩
  · obtain ⟨own', hown'⟩ := prepareAll_fst drv q.sql params (drv.split q.sql) 0 s₁ none
    refine ⟨own', hown'.trans ?_⟩
    rw [show s₁ = s.keep own from hown]
    rfl

/-- What does not depend on the settings, and survives a rollback, a statement keeps if
the command that its text would run does. -/
theorem queryStmt_keeps {drv : Driver D E} {e : E} {s : Session D} {q : Statement}
    {P : Session D → Prop} (hset : ∀ s own, P s → P (s.keep own))
    (hundo : ∀ s, P s → P s.undo) (hs : P s)
    (hstep : ∀ p own, wouldRun drv s q = some p →
      P (stepRows drv e (s.keep own) (some p)).1) :
    P (queryStmt drv e s q).session := by
  obtain ⟨own, hown⟩ := accept_fst drv s q
  rw [queryStmt_eq]
  split
  · exact hs
  rename_i hsql
  rcases ha : accept drv s q with ⟨s', m | last⟩ <;> rw [ha] at hown <;>
    obtain rfl : s' = s.keep own := hown
  · exact hset s own hs
  have hnext : P (stepRows drv e (s.keep own) last).1 := by
    rcases last with _ | p
    · exact hset s own hs
    · exact hstep p own (wouldRun_of_accept hsql ha)
  have hafter : ∀ cur r, P (afterRows (stepRows drv e (s.keep own) last).1 cur r) := by
    intro cur r
    rw [afterRows.eq_def]
    split
    · split
      · exact hundo _ hnext
      · exact hnext
    · exact hnext
  simp only [runQuery]
  split
  · exact hset s own hs
  split
  · exact hset s own hs
  · exact hafter _ _

/-- The loop keeps what its statements keep; induction on the statements. -/
theorem queryLoop_keeps {drv : Driver D E} {loc : Local E} {P : Session D → Prop} :
    ∀ (stmts : List Statement),
      (∀ q ∈ stmts, ∀ e s, P s → P (queryStmt drv e s q).session) →
      ∀ (i : ℕ) (s : Session D) (acc : List QueryRes), P s →
        P (queryLoop drv loc i stmts s acc).1 := by
  intro stmts
  induction stmts with
  | nil => intro _ i s acc hs; exact hs
  | cons q rest ih =>
      intro hstmt i s acc hs
      have hnext := hstmt q List.mem_cons_self ((loc.stmt i).entropy 0) s hs
      have ih' := ih fun q' hq' => hstmt q' (List.mem_cons_of_mem q hq')
      simp only [queryLoop]
      split
      · exact ih' _ _ _ hnext
      · exact ih' _ _ _ hnext
      · exact hnext
      · exact hnext
      · exact hnext

/-- **What a query keeps**: whatever its statements and the calls of its transaction
object keep. -/
theorem query_keeps {drv : Driver D E} {loc : Local E} {req : Request} {s : Session D}
    {P : Session D → Prop} (hs : P s)
    (hbegin : ∀ s, P s → P s.opened)
    (hend : ∀ s, P s → P (rollbackTx s))
    (hcommit : ∀ s t, P s → s.conn.tx = some t → P (s.commit t))
    (hstmt : ∀ q ∈ req.statements, ∀ e s, P s → P (queryStmt drv e s q).session) :
    P (query drv loc req s).1 := by
  rcases hstart : queryStart loc req.transaction s with m | s₀
  · simpa only [query, hstart] using hs
  have hs₀ : P s₀ := by
    simp only [queryStart] at hstart
    split at hstart
    · simp at hstart
    split at hstart
    · obtain ⟨_, rfl⟩ := beginTx_eq_ok hstart
      exact hbegin s hs
    · obtain rfl := Except.ok.inj hstart
      exact hs
  have hloop : P (queryLoop drv loc 0 req.statements s₀ []).1 :=
    queryLoop_keeps req.statements hstmt 0 s₀ [] hs₀
  have hrolled : P (if req.transaction then
      rollbackTx (queryLoop drv loc 0 req.statements s₀ []).1
      else (queryLoop drv loc 0 req.statements s₀ []).1) := by
    split
    · exact hend _ hloop
    · exact hloop
  simp only [query, hstart, queryFinish]
  split
  · exact hrolled
  · exact hloop
  · exact hrolled
  split
  · simp only [commitTx]
    split
    · exact hend _ hloop
    split
    · exact hend _ hloop
    · exact hcommit _ _ hloop ‹_›
  · exact hloop

/-- **The end of a query** gives back a connection outside any transaction and publishes
nothing, if the query was clean, and outside a transaction unless it has its own. -/
theorem queryFinish_clean {loc : Local E} {transaction : Bool} {s : Session D}
    {loop : Outcome (Except String (List QueryRes))} (h : s.Clean)
    (hidle : transaction = false → s.Idle) (hhang : loop ≠ .hang) :
    (queryFinish loc transaction (s, loop)).1.db = s.db ∧
      (queryFinish loc transaction (s, loop)).1.Idle := by
  cases transaction with
  | false =>
      rcases loop with (m | results) | m | _
      · exact ⟨rfl, hidle rfl⟩
      · exact ⟨rfl, hidle rfl⟩
      · exact ⟨rfl, hidle rfl⟩
      · exact absurd rfl hhang
  | true =>
      rcases loop with (m | results) | m | _
      · exact ⟨rfl, rfl⟩
      · exact ⟨commitTx_clean h, commitTx_idle _ _⟩
      · exact ⟨rfl, rfl⟩
      · exact absurd rfl hhang

/-- The session of a pooled read connection: it cannot write, and has not. -/
structure ReadOnly (s : Session D) : Prop where
  cannot : s.conn.canWrite = false
  clean : s.Clean

/-- **A query publishes nothing** on a connection that cannot write, unless one of its
texts attaches a database. -/
theorem query_readOnly {drv : Driver D E} {loc : Local E} {req : Request} {s : Session D}
    (hs : ReadOnly s)
    (hattach : ∀ q ∈ req.statements, ∀ c ∈ drv.split q.sql, c.attaches = false) :
    ReadOnly (query drv loc req s).1 ∧ (query drv loc req s).1.db = s.db := by
  refine query_keeps (P := fun s' => ReadOnly s' ∧ s'.db = s.db) ⟨hs, rfl⟩ ?_ ?_ ?_ ?_
  · rintro s₁ ⟨h, hdb⟩
    exact ⟨⟨h.cannot, s₁.clean_opened⟩, hdb⟩
  · rintro s₁ ⟨h, hdb⟩
    exact ⟨⟨h.cannot, Session.Idle.clean rfl⟩, hdb⟩
  · rintro s₁ t ⟨h, hdb⟩ ht
    exact ⟨⟨h.cannot, Session.Idle.clean rfl⟩, (h.clean.publish ht).trans hdb⟩
  · rintro q hq e s₁ ⟨h, hdb⟩
    refine queryStmt_keeps (P := fun s' => ReadOnly s' ∧ s'.db = s.db)
      (fun _ _ h => ⟨⟨h.1.cannot, h.1.clean⟩, h.2⟩)
      (fun _ h => ⟨⟨h.1.cannot, Session.Idle.clean rfl⟩, h.2⟩) ⟨h, hdb⟩ ?_
    intro p own hp
    have hclean : (s₁.keep own).Clean := h.clean
    obtain ⟨hclean', hdb'⟩ : (stepRows drv e (s₁.keep own) (some p)).1.Clean ∧
        (stepRows drv e (s₁.keep own) (some p)).1.db = s₁.db :=
      stepRows_clean hclean (.inr h.cannot)
    have hcannot : (s₁.keep own).conn.canWrite = false := h.cannot
    exact ⟨⟨stepRows_canWrite hcannot (hattach q hq _ (wouldRun_mem hp)), hclean'⟩,
      hdb'.trans hdb⟩

/-! ### What a query keeps of the settings -/

section Settings

variable {drv : Driver D E} {S : Settings → Prop}

/-- Compiling a whole text keeps what the text keeps; induction on the statements. -/
theorem prepareAll_settings {text : String} (h : KeepsReading drv S text) (args : List NamedArg) :
    ∀ (cs : List Cmd), (∀ c ∈ cs, c ∈ drv.split text) →
      ∀ (j : ℕ) (s : Session D) (last : Option Prepared), S s.conn.settings →
        S (prepareAll drv text args j cs s last).1.conn.settings := by
  intro cs
  induction cs with
  | nil => intro _ j s last hs; exact hs
  | cons c cs ih =>
      intro hmem j s last hs
      have hnext := prepare_settings h (hmem c List.mem_cons_self) hs
      rcases hp : prepare drv s c with ⟨s₁, m | b⟩ <;> rw [hp] at hnext
      · simpa only [prepareAll, hp] using hnext
      rcases hb : drv.bind text args j with m | a
      · simpa only [prepareAll, hp, hb] using hnext
      · simpa only [prepareAll, hp, hb] using
          ih (fun c' hc' => hmem c' (List.mem_cons_of_mem c hc')) (j + 1) s₁ _ hnext

/-- What happens to a statement before it is run keeps what its text keeps. -/
theorem accept_settings {q : Statement} (h : KeepsReading drv S q.sql) {s : Session D}
    (hs : S s.conn.settings) : S (accept drv s q).1.conn.settings := by
  have hfirst : S (prepareFirst drv s q.sql).1.conn.settings := by
    rcases hsplit : drv.split q.sql with _ | ⟨c, cs⟩
    · simpa only [prepareFirst, hsplit] using hs
    · simpa only [prepareFirst, hsplit] using
        prepare_settings h (by rw [hsplit]; exact List.mem_cons_self) hs
  rw [accept]
  rcases hf : prepareFirst drv s q.sql with ⟨s₁, m | ro⟩ <;> rw [hf] at hfirst
  · exact hfirst
  rcases ro with _ | _
  · exact hfirst
  rcases convertParamsToSQL q.params with m | params
  · exact hfirst
  · exact prepareAll_settings h params _ (fun _ hc => hc) 0 s₁ none hfirst

/-- **What the text of a statement keeps of the settings**, the statement keeps. -/
theorem queryStmt_settings (htemp : ∀ own temp, S own → S { own with temp := temp }) {e : E}
    {q : Statement} (h : Keeps drv S q.sql) {s : Session D} (hs : S s.conn.settings) :
    S (queryStmt drv e s q).session.conn.settings := by
  have hacc := accept_settings h.toKeepsReading hs
  rw [queryStmt_eq]
  split
  · exact hs
  rename_i hsql
  rcases ha : accept drv s q with ⟨s', m | last⟩ <;> rw [ha] at hacc
  · exact hacc
  have hnext : S (stepRows drv e s' last).1.conn.settings := by
    rcases last with _ | p
    · exact hacc
    · exact stepRows_settings htemp h (wouldRun_mem (wouldRun_of_accept hsql ha)) hacc
  have hafter : ∀ cur r, S (afterRows (stepRows drv e s' last).1 cur r).conn.settings := by
    intro cur r
    rw [afterRows.eq_def]
    split
    · split
      · exact undo_settings htemp hnext
      · exact hnext
    · exact hnext
  simp only [runQuery]
  split
  · exact hacc
  split
  · exact hacc
  · exact hafter _ _

end Settings

end DistSql
