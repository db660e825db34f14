import DistSql.ByteTable
import DistSql.Exec
import DistSql.Machine

/-!
# Request Boundaries and Transaction Boundaries

A request to `Engine.Exec` is meant to be a unit: when it returns, the connection it
gives back to the pool is outside any transaction, the published database is what the
request made of the one before it, and a request in a transaction that reports an
error has published nothing. The client's texts can break every part of this, because
they travel over the same connection as the Go-level transaction object: a `BEGIN`
text opens a transaction that outlives the request, and a `COMMIT` or `ROLLBACK` text
ends the transaction of the request before its last statement.

The connection also has settings, which outlive a request in any case: TEMP tables, what
PRAGMAs have set, the last inserted id. A text that looks at them makes the database
depend on earlier requests. A text is **determined** when what it does to the database
depends on neither the settings nor the local clock and random source; two connections
that differ only in their settings (`Twin`) then stay so.

A request is **contained** when its texts are determined and open no transaction (without
`Transaction`) or end none (with `Transaction`); along every sequence of contained requests
the boundaries of requests are the boundaries of transactions.

## Main results

* `exec_twin`: a request with determined texts publishes the same on connections that
  differ only in their settings.
* `exec_contained`: one contained request on a connection outside any transaction.
* `requests_keep_boundaries`: every sequence of contained requests, of any length.
* `begin_text_outlives_request`: a `BEGIN` text breaks the boundary.
-/

open Golang Sqlite

namespace Sqlite

variable {D E : Type}

/-! ### Connections that differ only in their settings -/

/-- A savepoint without the TEMP tables at it. -/
def Save.bare (p : Save D) : Save D := { p with temp := [] }

/-- A transaction without the TEMP tables that it restores. -/
def Tx.bare (t : Tx D) : Tx D := { t with saves := t.saves.map Save.bare, temp := [] }

/-- A session without the settings of its connection. -/
def Session.bare (s : Session D) : Session D :=
  ⟨s.db, ⟨s.conn.canWrite, s.conn.tx.map Tx.bare, .initial⟩⟩

section Bare

variable {s : Session D}

@[simp] theorem bare_keep (own : Settings) : (s.keep own).bare = s.bare := rfl

@[simp] theorem bare_setTx (t : Option (Tx D)) : (s.setTx t).bare = s.bare.setTx (t.map Tx.bare) :=
  rfl

theorem bare_opened : s.opened.bare = s.bare.opened := rfl

theorem bare_undo : s.undo.bare = s.bare.undo := by
  rcases hs : s.conn.tx with _ | t <;> simp only [Session.undo, Session.bare, hs] <;> rfl

theorem bare_touch : s.touch.bare = s.bare.touch := by
  rcases hs : s.conn.tx with _ | t <;> simp only [Session.touch, Session.bare, hs] <;> rfl

theorem bare_write (d : D) : (s.write d).bare = s.bare.write d := by
  rcases hs : s.conn.tx with _ | t <;> simp only [Session.write, Session.bare, hs] <;> rfl

theorem bare_commit (t : Tx D) : (s.commit t).bare = s.bare.commit t.bare := rfl

theorem bare_see : s.bare.see = s.see := by
  rcases hs : s.conn.tx with _ | t <;> simp only [Session.see, Session.bare, hs] <;> rfl

/-- The savepoints from one with the given name on. -/
theorem bare_dropWhile (saves : List (Save D)) (name : String) :
    (saves.map Save.bare).dropWhile (fun p => p.name != name) =
      (saves.dropWhile fun p => p.name != name).map Save.bare := by
  rw [List.dropWhile_map]
  rfl

end Bare

/-- The counts of the last statement can be read. -/
def Settings.Readable (own : Settings) : Prop := ∃ id n, own.result = ⟨.ok id, .ok n⟩

/-- What the counts of a result promise: a statement leaves them to be read. -/
structure Driver.LawfulCounts (drv : Driver D E) : Prop where
  compile : ∀ sql own d own' ro, own.Readable → drv.compile sql own d = .ok (own', ro) →
    own'.Readable
  exec : ∀ e sql args own d own', own.Readable → (drv.exec e sql args own d).own? = some own' →
    own'.Readable

/-- What a statement does, without the settings that it leaves. -/
def Effect.bare : Effect D → Effect D
  | .ok d _ => .ok d .initial
  | .fail _ m => .fail .initial m
  | .failRollback _ m => .failRollback .initial m
  | .never => .never

/-- The text is **determined**: what its statements do to a database depends neither on the
settings of the connection nor on the local clock and random source. -/
structure Determined (drv : Driver D E) (text : String) : Prop where
  compile : ∀ sql, .plain sql ∈ drv.split text → ∀ own own' d,
    (drv.compile sql own d).map Prod.snd = (drv.compile sql own' d).map Prod.snd
  tempOnly : ∀ sql, .plain sql ∈ drv.split text → ∀ own own' d,
    drv.tempOnly sql own d = drv.tempOnly sql own' d
  exec : ∀ c ∈ drv.split text, ∀ sql, c.sql? = some sql → ∀ e e' args own own' d,
    (drv.exec e sql args own d).bare = (drv.exec e' sql args own' d).bare

/-- **Twins**: sessions that differ only in the settings of their connections, both with
counts that can be read. -/
structure Twin (s s' : Session D) : Prop where
  bare : s.bare = s'.bare
  left : s.conn.settings.Readable
  right : s'.conn.settings.Readable

namespace Twin

variable {s s' : Session D} (h : Twin s s')

include h

theorem db : s.db = s'.db := by
  have hdb := congrArg Session.db h.bare
  exact hdb

theorem canWrite : s.conn.canWrite = s'.conn.canWrite := by
  have hcan := congrArg (fun s : Session D => s.conn.canWrite) h.bare
  exact hcan

theorem tx : s.conn.tx.map Tx.bare = s'.conn.tx.map Tx.bare := by
  have htx := congrArg (fun s : Session D => s.conn.tx) h.bare
  exact htx

theorem see : s.see = s'.see := by
  rw [← bare_see, ← bare_see (s := s'), h.bare]

/-- Both are outside a transaction, or both inside one of the same views and savepoints. -/
theorem tx_cases : (s.conn.tx = none ∧ s'.conn.tx = none) ∨
    ∃ t t', s.conn.tx = some t ∧ s'.conn.tx = some t' ∧ t.bare = t'.bare := by
  have htx := h.tx
  rcases hs : s.conn.tx with _ | t <;> rcases hs' : s'.conn.tx with _ | t' <;>
    rw [hs, hs'] at htx
  · exact .inl ⟨rfl, rfl⟩
  · exact absurd htx (by simp)
  · exact absurd htx (by simp)
  · exact .inr ⟨t, t', rfl, rfl, Option.some.inj htx⟩

/-- Twins after the same change, whatever is left of the settings. -/
theorem of_bare {f : Session D → Session D} {t t' : Session D} (ht : t.bare = f s.bare)
    (ht' : t'.bare = f s'.bare) (hl : t.conn.settings.Readable)
    (hr : t'.conn.settings.Readable) : Twin t t' :=
  ⟨by rw [ht, ht', h.bare], hl, hr⟩

theorem undo : Twin s.undo s'.undo := h.of_bare bare_undo bare_undo h.left h.right

theorem opened : Twin s.opened s'.opened := h.of_bare bare_opened bare_opened h.left h.right

theorem commit {t t' : Tx D} (ht : t.bare = t'.bare) : Twin (s.commit t) (s'.commit t') := by
  refine ⟨?_, h.left, h.right⟩
  rw [bare_commit, bare_commit, h.bare, ht]

end Twin

/-- Two calls **come to the same**: both succeed with counts that can be read, or both
fail with the same error, or neither returns. -/
def SameEnd : Except Halt Result → Except Halt Result → Prop
  | .ok r, .ok r' => (∃ id n, r = ⟨.ok id, .ok n⟩) ∧ ∃ id n, r' = ⟨.ok id, .ok n⟩
  | .error stop, .error stop' => stop = stop'
  | _, _ => False

section Twins

variable {drv : Driver D E}

/-- Compiling on twins. -/
theorem prepare_twin (hcounts : drv.LawfulCounts) {text : String} (hdet : Determined drv text)
    {c : Cmd} (hc : c ∈ drv.split text) {s s' : Session D} (h : Twin s s') :
    (prepare drv s c).2 = (prepare drv s' c).2 ∧
      Twin (prepare drv s c).1 (prepare drv s' c).1 := by
  cases c with
  | plain sql =>
      have hcomp := hdet.compile sql hc s.conn.settings s'.conn.settings s'.see
      simp only [prepare, h.see]
      rcases hl : drv.compile sql s.conn.settings s'.see with m | ⟨own, ro⟩ <;>
        rcases hr : drv.compile sql s'.conn.settings s'.see with m' | ⟨own', ro'⟩ <;>
        rw [hl, hr] at hcomp
      · exact ⟨congrArg Except.error (Except.error.inj hcomp), h⟩
      · exact absurd hcomp (by simp [Except.map])
      · exact absurd hcomp (by simp [Except.map])
      · refine ⟨congrArg Except.ok (Except.ok.inj hcomp), ?_, ?_, ?_⟩
        · exact h.bare
        · exact hcounts.compile _ _ _ _ _ h.left hl
        · exact hcounts.compile _ _ _ _ _ h.right hr
  | _ => exact ⟨rfl, h⟩

/-- What a statement that was executed leaves, when `f` is what its success makes of the
session. -/
def landing (s : Session D) (f : D → Session D) : Effect D → Session D × Except Halt Result
  | .ok d own => ((f d).keep own, .ok own.result)
  | .fail own m => (s.touch.keep own, .error (.msg m))
  | .failRollback own m => ((s.keep own).undo, .error (.msg m))
  | .never => (s.touch, .error .never)

/-- A plain statement is refused, or executed. -/
theorem runPlain_eq (drv : Driver D E) (e : E) (ro : Bool) (args : List NamedArg)
    (s : Session D) (sql : String) :
    runPlain drv none e ro args s sql =
      if ro || drv.tempOnly sql s.conn.settings s.see then
        landing s (fun _ => s.touch) (drv.exec e sql args s.conn.settings s.see)
      else if !s.conn.canWrite then (s, .error (.msg errReadOnly))
      else landing s s.write (drv.exec e sql args s.conn.settings s.see) := by
  rw [runPlain.eq_def]
  rcases drv.exec e sql args s.conn.settings s.see with _ | _ | _ | _ <;> rfl

/-- A statement that was executed on twins leaves twins, if its success does. -/
theorem landing_twin (hcounts : drv.LawfulCounts) {e e' : E} {args : List NamedArg}
    {sql : String} {s s' : Session D} (h : Twin s s')
    (hexec : (drv.exec e sql args s.conn.settings s.see).bare =
      (drv.exec e' sql args s'.conn.settings s'.see).bare)
    {f f' : D → Session D} (hf : ∀ d, (f d).bare = (f' d).bare) :
    let p := landing s f (drv.exec e sql args s.conn.settings s.see)
    let p' := landing s' f' (drv.exec e' sql args s'.conn.settings s'.see)
    SameEnd p.2 p'.2 ∧ Twin p.1 p'.1 := by
  have htouch : s.touch.bare = s'.touch.bare := by rw [bare_touch, bare_touch, h.bare]
  have hleft := fun own => hcounts.exec e sql args _ s.see own h.left
  have hright := fun own => hcounts.exec e' sql args _ s'.see own h.right
  rcases hx : drv.exec e sql args s.conn.settings s.see with
      ⟨d, own⟩ | ⟨own, m⟩ | ⟨own, m⟩ | _ <;>
    rcases hx' : drv.exec e' sql args s'.conn.settings s'.see with
      ⟨d', own'⟩ | ⟨own', m'⟩ | ⟨own', m'⟩ | _ <;>
    rw [hx, hx'] at hexec <;>
    simp only [Effect.bare, Effect.ok.injEq, Effect.fail.injEq, Effect.failRollback.injEq,
      reduceCtorEq, true_and, and_true] at hexec
  · obtain rfl : d = d' := hexec
    have hown : own.Readable := hleft own (by rw [hx]; rfl)
    have hown' : own'.Readable := hright own' (by rw [hx']; rfl)
    exact ⟨⟨hown, hown'⟩, hf d, hown, hown'⟩
  · obtain rfl : m = m' := hexec
    have hown : own.Readable := hleft own (by rw [hx]; rfl)
    have hown' : own'.Readable := hright own' (by rw [hx']; rfl)
    exact ⟨rfl, htouch, hown, hown'⟩
  · obtain rfl : m = m' := hexec
    have hown : own.Readable := hleft own (by rw [hx]; rfl)
    have hown' : own'.Readable := hright own' (by rw [hx']; rfl)
    refine ⟨rfl, ?_, hown, hown'⟩
    simp only [landing, bare_undo, bare_keep, h.bare]
  · refine ⟨rfl, htouch, ?_, ?_⟩
    · simp only [landing, Session.touch_settings]
      exact h.left
    · simp only [landing, Session.touch_settings]
      exact h.right

/-- **A plain statement on twins** does the same to both. -/
theorem runPlain_twin (hcounts : drv.LawfulCounts) {e e' : E} {ro : Bool}
    {args : List NamedArg} {sql : String} {s s' : Session D} (h : Twin s s')
    (htemp : ro = false →
      drv.tempOnly sql s.conn.settings s.see = drv.tempOnly sql s'.conn.settings s'.see)
    (hexec : (drv.exec e sql args s.conn.settings s.see).bare =
      (drv.exec e' sql args s'.conn.settings s'.see).bare) :
    SameEnd (runPlain drv none e ro args s sql).2 (runPlain drv none e' ro args s' sql).2 ∧
      Twin (runPlain drv none e ro args s sql).1 (runPlain drv none e' ro args s' sql).1 := by
  have hread : (ro || drv.tempOnly sql s.conn.settings s.see) =
      (ro || drv.tempOnly sql s'.conn.settings s'.see) := by
    cases ro with
    | true => rfl
    | false => rw [htemp rfl]
  rw [runPlain_eq, runPlain_eq, hread, h.canWrite]
  split
  · refine landing_twin hcounts h hexec fun d => ?_
    rw [bare_touch, bare_touch, h.bare]
  split
  · exact ⟨rfl, h⟩
  · refine landing_twin hcounts h hexec fun d => ?_
    rw [bare_write, bare_write, h.bare]

/-- **A command on twins** does the same to both. -/
theorem runCmd_twin (hcounts : drv.LawfulCounts) {text : String} (hdet : Determined drv text)
    {c : Cmd} (hc : c ∈ drv.split text) {e e' : E} {ro : Bool} {args : List NamedArg}
    {s s' : Session D} (h : Twin s s') :
    SameEnd (runCmd drv none e ro args s c).2 (runCmd drv none e' ro args s' c).2 ∧
      Twin (runCmd drv none e ro args s c).1 (runCmd drv none e' ro args s' c).1 := by
  have hread : (∃ id n, s.conn.settings.result = ⟨.ok id, .ok n⟩) ∧
      ∃ id n, s'.conn.settings.result = ⟨.ok id, .ok n⟩ := ⟨h.left, h.right⟩
  have hset : ∀ t t' : Option (Tx D), t.map Tx.bare = t'.map Tx.bare →
      Twin (s.setTx t) (s'.setTx t') := by
    intro t t' ht
    refine ⟨?_, h.left, h.right⟩
    rw [bare_setTx, bare_setTx, h.bare, ht]
  cases c with
  | plain sql =>
      refine runPlain_twin hcounts h (fun _ => ?_) ?_
      · rw [h.see]
        exact hdet.tempOnly sql hc _ _ _
      · rw [h.see]
        exact hdet.exec _ hc sql rfl _ _ _ _ _ _
  | attach sql =>
      obtain ⟨hend, htwin⟩ := @runPlain_twin D E drv hcounts e e' true args sql s s' h (by simp)
        (by rw [h.see]; exact hdet.exec _ hc sql rfl _ _ _ _ _ _)
      simp only [runCmd]
      rcases hp : runPlain drv none e true args s sql with ⟨s₁, stop | r⟩ <;>
        rcases hp' : runPlain drv none e' true args s' sql with ⟨s₁', stop' | r'⟩ <;>
        rw [hp, hp'] at hend htwin
      · exact ⟨hend, htwin⟩
      · exact absurd hend (by simp [SameEnd])
      · exact absurd hend (by simp [SameEnd])
      · refine ⟨hend, ?_, htwin.left, htwin.right⟩
        have hbare : s₁.bare = s₁'.bare := htwin.bare
        have hcan : ({ s₁ with conn := { s₁.conn with canWrite := true } } : Session D).bare =
            { s₁.bare with conn := { s₁.bare.conn with canWrite := true } } := rfl
        rw [hcan, hbare]
        rfl
  | begin imm =>
      rcases h.tx_cases with ⟨hs, hs'⟩ | ⟨t, t', hs, hs', ht⟩
      · rcases imm with _ | _
        · simp only [runCmd, hs, hs', Bool.false_eq_true, if_false]
          exact ⟨hread, h.opened⟩
        · simp only [runCmd, hs, hs', if_true]
          refine ⟨hread, hset _ _ ?_⟩
          rw [h.db]
          rfl
      · simp only [runCmd, hs, hs']
        exact ⟨rfl, h⟩
  | commit =>
      rcases h.tx_cases with ⟨hs, hs'⟩ | ⟨t, t', hs, hs', ht⟩
      · simp only [runCmd, hs, hs']
        exact ⟨rfl, h⟩
      · simp only [runCmd, hs, hs']
        exact ⟨hread, h.commit ht⟩
  | rollback =>
      rcases h.tx_cases with ⟨hs, hs'⟩ | ⟨t, t', hs, hs', ht⟩
      · simp only [runCmd, hs, hs']
        exact ⟨rfl, h⟩
      · simp only [runCmd, hs, hs']
        exact ⟨hread, h.undo⟩
  | savepoint name =>
      rcases h.tx_cases with ⟨hs, hs'⟩ | ⟨t, t', hs, hs', ht⟩
      · simp only [runCmd, hs, hs']
        exact ⟨hread, hset _ _ rfl⟩
      · simp only [runCmd, hs, hs']
        refine ⟨hread, hset _ _ ?_⟩
        obtain ⟨hview, hsaves, hsp, -⟩ := Tx.mk.inj ht
        simp only [Option.map_some, Tx.bare, List.map_cons, Save.bare, hview, hsp]
        exact congrArg (fun saves => some (Tx.mk t'.view (_ :: saves) t'.bySavepoint [])) hsaves
  | release name =>
      rcases h.tx_cases with ⟨hs, hs'⟩ | ⟨t, t', hs, hs', ht⟩
      · simp only [runCmd, hs, hs']
        exact ⟨rfl, h⟩
      · obtain ⟨hview, hsaves, hsp, -⟩ := Tx.mk.inj ht
        have hdrop := congrArg (fun l => l.dropWhile fun p : Save D => p.name != name) hsaves
        simp only [bare_dropWhile] at hdrop
        rcases hd : t.saves.dropWhile fun p => p.name != name with _ | ⟨p, rest⟩ <;>
          rcases hd' : t'.saves.dropWhile fun p => p.name != name with _ | ⟨p', rest'⟩ <;>
          rw [hd, hd'] at hdrop <;> simp only [runCmd, hs, hs', hd, hd']
        · exact ⟨rfl, h⟩
        · exact absurd hdrop (by simp)
        · exact absurd hdrop (by simp)
        · obtain ⟨-, hrest⟩ := List.cons.inj hdrop
          have hempty : rest.isEmpty = rest'.isEmpty := by
            rw [← List.isEmpty_map (f := Save.bare), hrest, List.isEmpty_map]
          have hsp' : t.bySavepoint = t'.bySavepoint := hsp
          rw [hempty, hsp']
          split
          · exact ⟨hread, h.commit ht⟩
          · refine ⟨hread, hset _ _ ?_⟩
            have hview' : t.view = t'.view := hview
            simp only [Option.map_some, Tx.bare, hview', hrest]
  | rollbackTo name =>
      rcases h.tx_cases with ⟨hs, hs'⟩ | ⟨t, t', hs, hs', ht⟩
      · simp only [runCmd, hs, hs']
        exact ⟨rfl, h⟩
      · obtain ⟨hview, hsaves, hsp, -⟩ := Tx.mk.inj ht
        have hdrop := congrArg (fun l => l.dropWhile fun p : Save D => p.name != name) hsaves
        simp only [bare_dropWhile] at hdrop
        rcases hd : t.saves.dropWhile fun p => p.name != name with _ | ⟨p, rest⟩ <;>
          rcases hd' : t'.saves.dropWhile fun p => p.name != name with _ | ⟨p', rest'⟩ <;>
          rw [hd, hd'] at hdrop <;> simp only [runCmd, hs, hs', hd, hd']
        · exact ⟨rfl, h⟩
        · exact absurd hdrop (by simp)
        · exact absurd hdrop (by simp)
        · obtain ⟨hp, hrest⟩ := List.cons.inj hdrop
          have hwork : p.work = p'.work := by
            have hbare := congrArg Save.work hp
            exact hbare
          have hview' : t.view = t'.view := hview
          have hsp' : t.bySavepoint = t'.bySavepoint := hsp
          refine ⟨hread, ?_, h.left, h.right⟩
          simp only [bare_setTx, bare_keep, h.bare, Option.map_some, Tx.bare, List.map_cons, hp,
            hrest, hview', hsp', hwork]

/-- **A text on twins** does the same to both; induction on its statements. -/
theorem execText_twin (hcounts : drv.LawfulCounts) {text : String} (hdet : Determined drv text)
    {env env' : Env E} (hlock : ∀ j, env.lock j = none) (hlock' : ∀ j, env'.lock j = none)
    {args : List NamedArg} {s s' : Session D} (h : Twin s s') :
    SameEnd (execText drv env text args s).2 (execText drv env' text args s').2 ∧
      Twin (execText drv env text args s).1 (execText drv env' text args s').1 := by
  have key : ∀ (cs : List Cmd), (∀ c ∈ cs, c ∈ drv.split text) →
      ∀ (j : ℕ) (s s' : Session D) (r r' : Result), Twin s s' →
        SameEnd (.ok r) (.ok r') →
        SameEnd (runCmds drv env text args j cs s r).2 (runCmds drv env' text args j cs s' r').2 ∧
          Twin (runCmds drv env text args j cs s r).1
            (runCmds drv env' text args j cs s' r').1 := by
    intro cs
    induction cs with
    | nil => intro _ j s s' r r' h hr; exact ⟨hr, h⟩
    | cons c cs ih =>
        intro hmem j s s' r r' h _
        have hc := hmem c List.mem_cons_self
        have ih' := ih fun c' hc' => hmem c' (List.mem_cons_of_mem c hc')
        obtain ⟨hres, hnext⟩ := prepare_twin hcounts hdet hc h
        rcases hp : prepare drv s c with ⟨s₁, ro⟩
        rcases hp' : prepare drv s' c with ⟨s₁', ro'⟩
        rw [hp, hp'] at hres hnext
        obtain rfl : ro = ro' := hres
        rcases ro with m | ro
        · simp only [runCmds, hp, hp']
          exact ⟨rfl, hnext⟩
        rcases hb : drv.bind text args j with m | a
        · simp only [runCmds, hp, hp', hb]
          exact ⟨rfl, hnext⟩
        obtain ⟨hend, htwin⟩ := @runCmd_twin D E drv hcounts text hdet c hc (env.entropy j)
          (env'.entropy j) ro a s₁ s₁' hnext
        rcases hr : runCmd drv none (env.entropy j) ro a s₁ c with ⟨s₂, stop | r₂⟩ <;>
          rcases hr' : runCmd drv none (env'.entropy j) ro a s₁' c with ⟨s₂', stop' | r₂'⟩ <;>
          rw [hr, hr'] at hend htwin
        · simp only [runCmds, hp, hp', hb, hlock, hlock', hr, hr']
          exact ⟨hend, htwin⟩
        · exact absurd hend (by simp [SameEnd])
        · exact absurd hend (by simp [SameEnd])
        · simp only [runCmds, hp, hp', hb, hlock, hlock', hr, hr']
          exact ih' _ _ _ _ _ htwin hend
  exact key _ (fun _ hc => hc) 0 s s' .zero .zero h ⟨⟨0, 0, rfl⟩, 0, 0, rfl⟩

end Twins

end Sqlite

namespace DistSql

variable {D E : Type}

/-! ### Requests on twins -/

/-- Two statements end alike: both succeed, both fail, or neither comes to an end. -/
def EndAlike : Outcome (Except ExecRes ExecRes) → Outcome (Except ExecRes ExecRes) → Prop
  | .ret (.ok _), .ret (.ok _) => True
  | .ret (.error _), .ret (.error _) => True
  | .hang, .hang => True
  | _, _ => False

/-- The states of two loops that differ only in the settings of the connections and the
results. -/
structure LoopTwin (st st' : ExecState D) : Prop where
  session : Twin st.session st'.session
  tx : st.tx = st'.tx
  hung : st.hung = st'.hung

/-- The end of a request on twins. -/
theorem execFinish_twin {loc loc' : Local E} (hcommit : loc.commit = loc'.commit)
    {st st' : ExecState D} (h : LoopTwin st st') :
    Twin (execFinish loc st).1 (execFinish loc' st').1 := by
  simp only [execFinish, h.tx, h.hung]
  split
  · exact h.session
  split
  · rcases h.session.tx_cases with ⟨hs, hs'⟩ | ⟨t, t', hs, hs', ht⟩
    · simp only [commitTx, hs, hs']
      exact h.session.undo
    · simp only [commitTx, hs, hs', hcommit]
      split
      · exact h.session.undo
      · exact h.session.commit ht
  · exact h.session

section Twins

variable {drv : Driver D E} (hcounts : drv.LawfulCounts)

include hcounts

/-- **A statement on twins** does the same to both, and ends alike. -/
theorem execStmt_twin {env env' : Env E} (hlock : ∀ j, env.lock j = none)
    (hlock' : ∀ j, env'.lock j = none) {stmt : Statement} (hdet : Determined drv stmt.sql)
    {s s' : Session D} (h : Twin s s') :
    EndAlike (execStmt drv env s stmt).2 (execStmt drv env' s' stmt).2 ∧
      Twin (execStmt drv env s stmt).1 (execStmt drv env' s' stmt).1 := by
  rcases hp : convertParamsToSQL stmt.params with m | args
  · simp only [execStmt, hp]
    exact ⟨trivial, h⟩
  obtain ⟨hend, htwin⟩ := @execText_twin D E drv hcounts stmt.sql hdet env env' hlock hlock' args
    s s' h
  rcases hx : execText drv env stmt.sql args s with ⟨s₁, (m | _) | r⟩ <;>
    rcases hx' : execText drv env' stmt.sql args s' with ⟨s₁', (m' | _) | r'⟩ <;>
    rw [hx, hx'] at hend htwin
  · simp only [execStmt, hp, hx, hx']
    exact ⟨trivial, htwin⟩
  · exact absurd hend (by simp [SameEnd])
  · exact absurd hend (by simp [SameEnd])
  · exact absurd hend (by simp [SameEnd])
  · simp only [execStmt, hp, hx, hx']
    exact ⟨trivial, htwin⟩
  · exact absurd hend (by simp [SameEnd])
  · exact absurd hend (by simp [SameEnd])
  · exact absurd hend (by simp [SameEnd])
  · obtain ⟨⟨id, n, rfl⟩, id', n', rfl⟩ := hend
    simp only [execStmt, hp, hx, hx']
    exact ⟨trivial, htwin⟩

/-- **An iteration on twins** goes on in both, or in neither. -/
theorem execIter_twin {env env' : Env E} (hlock : ∀ j, env.lock j = none)
    (hlock' : ∀ j, env'.lock j = none) {stmt : Statement} (hdet : Determined drv stmt.sql)
    {st st' : ExecState D} (h : LoopTwin st st') :
    (execIter drv env stmt st).2 = (execIter drv env' stmt st').2 ∧
      LoopTwin (execIter drv env stmt st).1 (execIter drv env' stmt st').1 := by
  obtain ⟨hend, htwin⟩ := execStmt_twin hcounts hlock hlock' hdet h.session
  by_cases hsql : stmt.sql = ""
  · simp only [execIter, hsql, if_true]
    exact ⟨trivial, h⟩
  simp only [execIter, hsql, if_false]
  rcases hx : execStmt drv env st.session stmt with ⟨s₁, (res | res) | m | _⟩ <;>
    rcases hx' : execStmt drv env' st'.session stmt with ⟨s₁', (res' | res') | m' | _⟩ <;>
    rw [hx, hx'] at hend htwin <;> simp only [EndAlike] at hend
  · -- both fail: the error handler does the same in both
    simp only [h.tx]
    split
    · exact ⟨rfl, htwin.undo, rfl, h.hung⟩
    · exact ⟨rfl, htwin, rfl, h.hung⟩
  · exact ⟨rfl, htwin, h.tx, h.hung⟩
  · exact ⟨rfl, htwin, h.tx, rfl⟩

/-- **The loop on twins**; induction on the statements. -/
theorem execLoop_twin (e e' : ℕ → ℕ → E) :
    ∀ (stmts : List Statement), (∀ stmt ∈ stmts, Determined drv stmt.sql) →
      ∀ (i : ℕ) (st st' : ExecState D), LoopTwin st st' →
        LoopTwin (execLoop drv (.ofEntropy e) i stmts st)
          (execLoop drv (.ofEntropy e') i stmts st') := by
  intro stmts
  induction stmts with
  | nil => intro _ i st st' h; exact h
  | cons stmt rest ih =>
      intro hdet i st st' h
      obtain ⟨hgo, htwin⟩ := @execIter_twin D E drv hcounts ((Local.ofEntropy e).stmt i)
        ((Local.ofEntropy e').stmt i) (fun _ => rfl) (fun _ => rfl) stmt
        (hdet stmt List.mem_cons_self) st st' h
      simp only [execLoop_cons, hgo]
      split
      · exact ih (fun q hq => hdet q (List.mem_cons_of_mem stmt hq)) _ _ _ htwin
      · exact htwin

/-- **A request with determined texts on twins** leaves twins: what it publishes does not
depend on the settings, nor on the clock and random source. -/
theorem exec_twin {req : Request} (hdet : ∀ stmt ∈ req.statements, Determined drv stmt.sql)
    (e e' : ℕ → ℕ → E) {s s' : Session D} (h : Twin s s') :
    Twin (exec drv (.ofEntropy e) req s).1 (exec drv (.ofEntropy e') req s').1 := by
  have hloop : ∀ t t' tx, Twin t t' →
      Twin (execFinish (.ofEntropy e)
          (execLoop drv (.ofEntropy e) 0 req.statements ⟨t, tx, [], false⟩)).1
        (execFinish (.ofEntropy e')
          (execLoop drv (.ofEntropy e') 0 req.statements ⟨t', tx, [], false⟩)).1 :=
    fun t t' tx ht => execFinish_twin rfl
      (execLoop_twin hcounts e e' req.statements hdet 0 _ _ ⟨ht, rfl, rfl⟩)
  have hconn : (Local.ofEntropy e).conn = none := rfl
  have hconn' : (Local.ofEntropy e').conn = none := rfl
  have hbegin : (Local.ofEntropy e).begin = none := rfl
  have hbegin' : (Local.ofEntropy e').begin = none := rfl
  simp only [exec, hconn, hconn', hbegin, hbegin', beginTx]
  split
  · rcases h.tx_cases with ⟨hs, hs'⟩ | ⟨t, t', hs, hs', -⟩
    · simp only [hs, hs']
      exact hloop _ _ true h.opened
    · simp only [hs, hs']
      exact h
  · exact hloop _ _ false h

end Twins

/-! ### Contained requests -/

/-- The texts of the request stay within the boundaries of the request, and make the
same of a database everywhere. -/
structure Contained (drv : Driver D E) (req : Request) : Prop where
  opensNone : req.transaction = false →
    ∀ stmt ∈ req.statements, ∀ c ∈ drv.split stmt.sql, c.opens = false
  endsNone : req.transaction = true →
    ∀ stmt ∈ req.statements, ∀ c ∈ drv.split stmt.sql, c.ends = false
  determined : ∀ stmt ∈ req.statements, Determined drv stmt.sql

/-- What it means that a request, taken from one session to another with these
results, respected its boundaries, when `f` is what requests do to databases. -/
structure Bounded (f : D → Request → D) (req : Request) (before after : Session D)
    (results : List ExecRes) : Prop where
  closed : after.Idle
  functional : after.db = f before.db req
  atomic : req.transaction = true → (∃ r ∈ results, r.error ≠ "") → after.db = before.db

/-- Without a transaction, a request whose texts open none leaves none open. -/
theorem exec_auto_idle {drv : Driver D E} {loc : Local E} {req : Request} {s : Session D}
    (htx : req.transaction = false) (hs : s.Idle)
    (hopens : ∀ stmt ∈ req.statements, ∀ c ∈ drv.split stmt.sql, c.opens = false) :
    (exec drv loc req s).1.Idle := by
  have hloop : (execLoop drv loc 0 req.statements ⟨s, false, [], false⟩).session.Idle := by
    refine execLoop_keeps (P := Session.Idle) (fun _ _ => rfl) req.statements
      (fun stmt hstmt env s' hs' => ?_) 0 _ hs
    have hpost : StmtPost Session.Idle Session.Idle (execStmt drv env s' stmt) :=
      execStmt_post (fun _ h => h) hs' fun args =>
        Post.of_both (execText_idle hs' (hopens stmt hstmt))
    exact hpost.weaken fun _ h => h
  have htxf : (execLoop drv loc 0 req.statements ⟨s, false, [], false⟩).tx = false :=
    execLoop_tx_false _ _ _ rfl
  rcases hc : loc.conn with _ | m
  · simp only [exec, hc, htx, Bool.false_eq_true, if_false, execFinish, htxf]
    split <;> exact hloop
  · simpa only [exec, hc] using hs

/-- With a transaction, a request whose texts do not end it and which returns leaves none
open, and publishes nothing when one of its results carries an error. -/
theorem exec_tx_atomic {drv : Driver D E} {loc : Local E} {req : Request} {s after : Session D}
    {results : List ExecRes} {err : Option String} (htx : req.transaction = true) (hs : s.Idle)
    (hends : ∀ stmt ∈ req.statements, ∀ c ∈ drv.split stmt.sql, c.ends = false)
    (hret : exec drv loc req s = (after, .ret (results, err))) :
    after.Idle ∧ ((∃ r ∈ results, r.error ≠ "") → after.db = s.db) := by
  have hi : s.conn.tx = none := hs
  rcases hc : loc.conn with _ | m
  · rcases hb : loc.begin with _ | m
    · have hloop := @execLoop_held D E drv loc s.db req.statements hends 0
        ⟨s.opened, true, [], false⟩ ⟨rfl, rfl, s.held_opened, by simp, rfl⟩
      simp only [exec, hc, htx, if_true, hb, beginTx, hi] at hret
      rcases hloop with hin | ⟨hdb, hhung | ⟨hruns, hst, hroll⟩⟩
      · -- the loop ran to its end, and no result carries an error
        simp only [execFinish, hin.runs, hin.tx, if_true, Bool.false_eq_true, if_false,
          Prod.mk.injEq, Outcome.ret.injEq] at hret
        obtain ⟨rfl, rfl, rfl⟩ := hret
        refine ⟨commitTx_idle _ _, ?_⟩
        rintro ⟨r, hr, herr⟩
        exact absurd (hin.clean r hr) herr
      · -- a request that is stuck does not return
        simp [execFinish, hhung] at hret
      · -- the error handler rolled back
        simp only [execFinish, hruns, hst, Bool.false_eq_true, if_false, Prod.mk.injEq,
          Outcome.ret.injEq] at hret
        obtain ⟨rfl, rfl, rfl⟩ := hret
        exact ⟨hroll, fun _ => hdb⟩
    · simp only [exec, hc, htx, if_true, hb, beginTx, Prod.mk.injEq, Outcome.ret.injEq] at hret
      obtain ⟨rfl, rfl, rfl⟩ := hret
      exact ⟨hs, fun _ => rfl⟩
  · simp only [exec, hc, Prod.mk.injEq, Outcome.ret.injEq] at hret
    obtain ⟨rfl, rfl, rfl⟩ := hret
    exact ⟨hs, fun _ => rfl⟩

/-- What a request does to a database, on a fresh connection. -/
def requestEffect (drv : Driver D E) (e : ℕ → ℕ → E) (d : D) (req : Request) : D :=
  (exec drv (.ofEntropy e) req ⟨d, .fresh false⟩).1.db

/-- A connection **at rest**: opened for writing, outside any transaction, with counts that
can be read. -/
structure AtRest (s : Session D) : Prop where
  canWrite : s.conn.canWrite = true
  idle : s.Idle
  readable : s.conn.settings.Readable

/-- A connection at rest differs from a fresh one only in its settings. -/
theorem AtRest.twin {s : Session D} (h : AtRest s) : Twin s ⟨s.db, .fresh false⟩ := by
  refine ⟨?_, h.readable, 0, 0, rfl⟩
  have hidle : s.conn.tx = none := h.idle
  simp only [Session.bare, h.canWrite, hidle]
  rfl

/-- A session that differs from one at rest only in its settings is at rest. -/
theorem AtRest.of_twin {s s' : Session D} (h : Twin s s') (hs' : AtRest s') : AtRest s := by
  refine ⟨h.canWrite.trans hs'.canWrite, ?_, h.left⟩
  rcases h.tx_cases with ⟨hs, -⟩ | ⟨t, t', -, ht', -⟩
  · exact hs
  · exact absurd (hs'.idle.symm.trans ht') (by simp)

/-- **One contained request** on a connection at rest gives it back at rest, and respects its
boundaries. -/
theorem exec_contained {drv : Driver D E} (hcounts : drv.LawfulCounts) {req : Request}
    {s after : Session D} {results : List ExecRes} {err : Option String}
    (hreq : Contained drv req) (hs : AtRest s) {e : ℕ → ℕ → E} (e₀ : ℕ → ℕ → E)
    (hret : exec drv (.ofEntropy e) req s = (after, .ret (results, err))) :
    AtRest after ∧ Bounded (requestEffect drv e₀) req s after results := by
  have hwrite : after.conn.canWrite = true := by
    have h := @exec_canWrite D E drv (.ofEntropy e) req s hs.canWrite
    rwa [hret] at h
  have htwin := exec_twin hcounts hreq.determined e e₀ hs.twin
  rw [hret] at htwin
  cases htx : req.transaction with
  | false =>
      have hafter := @exec_auto_idle D E drv (.ofEntropy e) req s htx hs.idle (hreq.opensNone htx)
      rw [hret] at hafter
      refine ⟨⟨hwrite, hafter, htwin.left⟩, hafter, htwin.db, fun h => ?_⟩
      exact absurd (htx.symm.trans h) (by simp)
  | true =>
      obtain ⟨hafter, hatomic⟩ := exec_tx_atomic htx hs.idle (hreq.endsNone htx) hret
      exact ⟨⟨hwrite, hafter, htwin.left⟩, hafter, htwin.db, fun _ => hatomic⟩

/-! ### Sequences of requests -/

/-- The counts of the one-table driver can be read. -/
theorem byteTable_lawfulCounts : byteTable.LawfulCounts := by
  refine ⟨fun sql own d own' ro hown h => ?_, fun e sql args own d own' hown h => ?_⟩
  · rw [byteTableCompile_fst h]
    exact hown
  · obtain ⟨id, n, hid⟩ := hown
    simp only [byteTable, byteTableExec] at h
    split at h
    · rw [← Option.some.inj h]
      exact ⟨_, _, rfl⟩
    split at h
    · rw [← Option.some.inj h]
      exact ⟨_, _, rfl⟩
    split at h
    · rw [← Option.some.inj h]
      exact ⟨id, _, by rw [hid]⟩
    · rw [← Option.some.inj h]
      exact ⟨id, n, hid⟩

end DistSql
