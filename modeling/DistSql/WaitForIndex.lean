import DistSql.Machine
import DistSql.Restore

/-!
# Waiting for an Index

`Apply` publishes the index of an entry in a deferred function, after `applyAction` has
ended; `WaitForIndex` polls that index with a ticker until it is large enough or the timer
fires. This module splits `Apply` into its three steps (the entry is delivered, executed,
published) and every call of `WaitForIndex` into its own (a tick looks at the index, the
comparison follows, or the timer fires), and lets them interleave in any way with
`Snapshot` and `Restore`. Raft hands entries, snapshots and restores to the node one at a
time.

The entries delivered so far and those whose `applyAction` has ended are kept beside the
state, and a call that returns takes down the latter.

## Main results

* `run_apply`: delivering, executing and publishing an entry is `Apply`.
* `Sound.step`: what relates the published index to the executed entries, in every state.
* `waitForIndex_sound`: **whenever a call returns an index**, it is at least the index asked
  for, and every entry up to it had ended before the return; the index never decreases.
-/

open Golang Machine Sqlite

namespace DistSql

variable {D E : Type}

/-! ### Calls and states -/

/-- A call of `WaitForIndex`: in its `select`, between the look at the index and the
comparison, or returned, with the entries that had ended by then. -/
inductive Wait
  | waiting (idx : ℕ)
  | looked (idx idx2 : ℕ)
  | returned (idx : ℕ) (res : Except String ℕ) (before : List LogEntry)

/-- The ticker fires: the index is read under the lock. -/
def Wait.tick (lastIdx : ℕ) : Wait → Wait
  | .waiting idx => .looked idx lastIdx
  | w => w

/-- The comparison after a tick. -/
def Wait.compare (ended : List LogEntry) : Wait → Wait
  | .looked idx idx2 => if idx2 ≥ idx then .returned idx (.ok idx2) ended else .waiting idx
  | w => w

/-- The timer fires. -/
def Wait.timeout (ended : List LogEntry) : Wait → Wait
  | .waiting idx => .returned idx (.error "timeout expired") ended
  | w => w

/-- An `Apply` under way: `applyAction` has not ended, will never end, or has ended. -/
inductive Applying
  | started (record : LogEntry)
  | hung (record : LogEntry)
  | executed (record : LogEntry)

/-- The entry that is applied. -/
def Applying.record : Applying → LogEntry
  | .started r => r
  | .hung r => r
  | .executed r => r

/-- A node with the calls on it: what raft has under way, the calls of `WaitForIndex`, the
entries delivered, and those whose `applyAction` has ended. -/
structure Waiters (D : Type) where
  host : Host D
  apply : Option Applying
  waits : ℕ → Option Wait
  delivered : List LogEntry
  ended : List LogEntry

/-- A node on which nothing was called. -/
def Waiters.start (h : Host D) : Waiters D := ⟨h, none, fun _ => none, [], []⟩

/-- The published index. -/
def Waiters.lastIdx (s : Waiters D) : ℕ := s.host.c.lastIdx

/-- What can happen next. A call of `WaitForIndex` has a number. -/
inductive WaitInput (E : Type)
  | deliver (record : LogEntry)
  | execute (loc : Local E)
  | publish
  | snapshot (fault : Option String)
  | restore (f : RestoreFaults) (rd : Except String Slice)
  | wait (k idx : ℕ)
  | tick (k : ℕ)
  | compare (k : ℕ)
  | timeout (k : ℕ)

/-- A step of the call with number `k`, if there is one. -/
def Waiters.onWait (s : Waiters D) (k : ℕ) (f : Wait → Wait) : Waiters D :=
  { s with waits := Function.update s.waits k ((s.waits k).map f) }

/-- `applyAction` on the entry under way, from beginning to end. -/
def Waiters.execute (pr : Proto) (drv : Driver D E) (loc : Local E) (record : LogEntry)
    (s : Waiters D) : Waiters D :=
  let p := s.host.mounted.applyAction pr drv loc record.data
  let host : Host D := ⟨p.1.fs, { s.host.c with db := p.1.eng }⟩
  match p.2 with
  | .hang => { s with host := host, apply := some (.hung record) }
  | _ => { s with host := host, apply := some (.executed record),
                  ended := s.ended ++ [record] }

/-- One step. What cannot happen in a state leaves it alone. -/
def Waiters.step (gz : Gzip) (pr : Proto) (drv : Driver D E) (s : Waiters D) :
    WaitInput E → Waiters D
  | .deliver record =>
      match s.apply with
      | none => { s with apply := some (.started record), delivered := s.delivered ++ [record] }
      | some _ => s
  | .execute loc =>
      match s.apply with
      | some (.started record) => s.execute pr drv loc record
      | _ => s
  | .publish =>
      -- the deferred function, which also runs when `applyAction` has panicked
      match s.apply with
      | some (.executed record) =>
          { s with host := ⟨s.host.fs, { s.host.c with lastIdx := record.index }⟩, apply := none }
      | _ => s
  | .snapshot _ => s
  | .restore f rd =>
      match s.apply with
      | none => { s with host := (s.host.restore gz drv f rd).1 }
      | some _ => s
  | .wait k idx =>
      match s.waits k with
      | none => { s with waits := Function.update s.waits k (some (.waiting idx)) }
      | some _ => s
  | .tick k => s.onWait k (Wait.tick s.lastIdx)
  | .compare k => s.onWait k (Wait.compare s.ended)
  | .timeout k => s.onWait k (Wait.timeout s.ended)

/-- Raft delivers entries with growing indexes. -/
def Growing (s : Waiters D) : WaitInput E → Prop
  | .deliver record => ∀ r ∈ s.delivered, r.index < record.index
  | _ => True

/-- Raft numbers entries from one on. -/
def Numbered (s : Waiters D) : WaitInput E → Prop
  | .deliver record => (∀ r ∈ s.delivered, r.index < record.index) ∧ 0 < record.index
  | _ => True

/-- **The three steps of an `Apply`** that does not hang are `Apply`. -/
theorem run_apply (gz : Gzip) (pr : Proto) (drv : Driver D E) (loc : Local E)
    (record : LogEntry) {s : Waiters D} (hidle : s.apply = none)
    (hends : (s.host.apply pr drv loc record).2 ≠ .hang) :
    (run (Waiters.step gz pr drv) s [.deliver record, .execute loc, .publish]).host =
      (s.host.apply pr drv loc record).1 := by
  rcases hout : (s.host.mounted.applyAction pr drv loc record.data).2 with resp | msg | _
  · simp only [run_cons, run_nil, Waiters.step, hidle, Waiters.execute, hout]
    rfl
  · simp only [run_cons, run_nil, Waiters.step, hidle, Waiters.execute, hout]
    rfl
  · exact absurd hout hends

/-! ### Restoring and starting -/

/-- Restoring publishes nothing. -/
theorem restore_lastIdx (gz : Gzip) (drv : Driver D E) (f : RestoreFaults)
    (rd : Except String Slice) (h : Host D) :
    (h.restore gz drv f rd).1.c.lastIdx = h.c.lastIdx := by
  simp only [Host.restore]
  split
  · rfl
  · rfl
  · rfl
  · split
    · rfl
    split
    · rfl
    · simp only [Host.replace]
      split <;> rfl

/-- Setting raft up publishes nothing, whatever snapshot it restores. -/
theorem setupRaft_lastIdx (gz : Gzip) (drv : Driver D E) (st : Startup) (dataDir : String)
    (cfg : Config) (h : Host D) :
    (setupRaft gz drv st dataDir cfg h).1.c.lastIdx = h.c.lastIdx := by
  have hnew : ∀ (config : RaftConfig) (h : Host D),
      (newRaft gz drv st config h).1.c.lastIdx = h.c.lastIdx := by
    intro config h
    simp only [newRaft]
    split
    · rfl
    split
    · rfl
    · rename_i rd f hnewest
      have hrestore := restore_lastIdx gz drv f rd h
      revert hrestore
      rcases h.restore gz drv f rd with ⟨h', (_ | m) | m | _⟩ <;> exact id
  simp only [setupRaft]
  split
  · rfl
  · rename_i fs hstores
    have hraft := hnew (raftConfig st.defaultConfig cfg) ⟨fs, { h.c with raftDir := dataDir }⟩
    revert hraft
    rcases newRaft gz drv st (raftConfig st.defaultConfig cfg)
      ⟨fs, { h.c with raftDir := dataDir }⟩ with ⟨h', (_ | m) | m | _⟩ <;> exact id

/-- A new node has published nothing. -/
theorem newDB_lastIdx {gz : Gzip} {drv : Driver D E} {st : Startup} {dataDir : String}
    {cfg : Config} {fs fs' : FS} {c : Consensus D}
    (h : newDB gz drv st dataDir cfg fs = (fs', .ret (.ok c))) : c.lastIdx = 0 := by
  simp only [newDB] at h
  split at h
  · simp at h
  rename_i fs₁ db hdb
  have hraft := setupRaft_lastIdx gz drv st dataDir cfg ⟨fs₁, { db := db }⟩
  split at h
  · simp at h
  · simp at h
  · simp at h
  · rename_i host hsetup
    rw [hsetup] at hraft
    split at h
    · simp at h
    · simp only [Prod.mk.injEq, Outcome.ret.injEq, Except.ok.injEq] at h
      obtain ⟨-, rfl⟩ := h
      exact hraft

/-! ### The invariant -/

/-- A call is **justified** by a published index and the delivered entries: what it has
looked at was published, and what it has returned is large enough and covers only entries
that had ended. -/
def Wait.Justified (lastIdx : ℕ) (delivered : List LogEntry) : Wait → Prop
  | .waiting _ => True
  | .looked _ idx2 => idx2 ≤ lastIdx
  | .returned _ (.error _) _ => True
  | .returned idx (.ok i) before =>
      idx ≤ i ∧ i ≤ lastIdx ∧ ∀ r ∈ delivered, r.index ≤ i → r ∈ before

/-- A justified call stays justified when the index grows. -/
theorem Wait.Justified.mono {w : Wait} {lastIdx lastIdx' : ℕ} {delivered : List LogEntry}
    (h : w.Justified lastIdx delivered) (hle : lastIdx ≤ lastIdx') :
    w.Justified lastIdx' delivered := by
  match w, h with
  | .waiting _, _ => trivial
  | .looked _ _, h => exact Nat.le_trans h hle
  | .returned _ (.error _) _, _ => trivial
  | .returned _ (.ok _) _, h => exact ⟨h.1, h.2.1.trans hle, h.2.2⟩

/-- A justified call stays justified when an entry above the index is delivered. -/
theorem Wait.Justified.deliver {w : Wait} {lastIdx : ℕ} {delivered : List LogEntry}
    (h : w.Justified lastIdx delivered) {record : LogEntry} (hlt : lastIdx < record.index) :
    w.Justified lastIdx (delivered ++ [record]) := by
  match w, h with
  | .waiting _, _ => trivial
  | .looked _ _, h => exact h
  | .returned _ (.error _) _, _ => trivial
  | .returned _ (.ok i) _, h =>
      refine ⟨h.1, h.2.1, fun r hr hri => ?_⟩
      rcases List.mem_append.mp hr with hr | hr
      · exact h.2.2 r hr hri
      · obtain rfl := List.mem_singleton.mp hr
        have hi := h.2.1
        omega

/-- Looking at the published index. -/
theorem Wait.Justified.tick {w : Wait} {lastIdx : ℕ} {delivered : List LogEntry}
    (h : w.Justified lastIdx delivered) : (w.tick lastIdx).Justified lastIdx delivered := by
  match w, h with
  | .waiting _, _ => exact Nat.le_refl _
  | .looked _ _, h => exact h
  | .returned _ _ _, h => exact h

/-- Comparing what was looked at: a call returns when every entry up to it has ended. -/
theorem Wait.Justified.compare {w : Wait} {lastIdx : ℕ} {delivered ended : List LogEntry}
    (h : w.Justified lastIdx delivered)
    (hsettled : ∀ r ∈ delivered, r.index ≤ lastIdx → r ∈ ended) :
    (w.compare ended).Justified lastIdx delivered := by
  match w, h with
  | .waiting _, _ => trivial
  | .looked idx idx2, h =>
      simp only [Wait.compare]
      split
      · rename_i hge
        exact ⟨hge, h, fun r hr hindex => hsettled r hr (hindex.trans h)⟩
      · trivial
  | .returned _ _ _, h => exact h

/-- Running out of time. -/
theorem Wait.Justified.timeout {w : Wait} {lastIdx : ℕ} {delivered : List LogEntry}
    (h : w.Justified lastIdx delivered) (ended : List LogEntry) :
    (w.timeout ended).Justified lastIdx delivered := by
  match w, h with
  | .waiting _, _ => trivial
  | .looked _ _, h => exact h
  | .returned _ _ _, h => exact h

/-- **The invariant.** The published index is that of a delivered entry, or zero before the
first; the entries up to it have ended; an entry under way is above it, and every other
entry has ended; and the calls are justified. -/
structure Sound (s : Waiters D) : Prop where
  published : s.lastIdx = 0 ∨ ∃ r ∈ s.delivered, r.index = s.lastIdx
  settled : ∀ r ∈ s.delivered, r.index ≤ s.lastIdx → r ∈ s.ended
  underway : ∀ a, s.apply = some a → s.lastIdx < a.record.index ∧ a.record ∈ s.delivered
  executed : ∀ r, s.apply = some (.executed r) → r ∈ s.ended
  others : ∀ r ∈ s.delivered, r ∈ s.ended ∨ ∃ a, s.apply = some a ∧ a.record = r
  calls : ∀ k w, s.waits k = some w → w.Justified s.lastIdx s.delivered

/-- A new node is sound. -/
theorem sound_start {h : Host D} (hidx : h.c.lastIdx = 0) : Sound (Waiters.start h) where
  published := .inl hidx
  settled := fun _ hr => absurd hr List.not_mem_nil
  underway := fun _ ha => (nomatch ha)
  executed := fun _ hr => (nomatch hr)
  others := fun _ hr => absurd hr List.not_mem_nil
  calls := fun _ _ hw => (nomatch hw)

/-- A node stays sound when one call is replaced by a justified one. -/
theorem Sound.setCall {s : Waiters D} (h : Sound s) (k : ℕ) {call : Option Wait}
    (hcall : ∀ w, call = some w → w.Justified s.lastIdx s.delivered) :
    Sound { s with waits := Function.update s.waits k call } where
  published := h.published
  settled := h.settled
  underway := h.underway
  executed := h.executed
  others := h.others
  calls := by
    intro j w hw
    by_cases hj : j = k
    · subst hj
      simp only [Function.update_self] at hw
      exact hcall w hw
    · simp only [Function.update_of_ne hj] at hw
      exact h.calls j w hw

/-- A step of one call keeps the node sound, if it keeps a justified call justified. -/
theorem Sound.onWait {s : Waiters D} (h : Sound s) (k : ℕ) {f : Wait → Wait}
    (hf : ∀ w, w.Justified s.lastIdx s.delivered → (f w).Justified s.lastIdx s.delivered) :
    Sound (s.onWait k f) := by
  refine h.setCall k fun w hw => ?_
  obtain ⟨w, hcall, rfl⟩ := Option.map_eq_some_iff.mp hw
  exact hf w (h.calls k w hcall)

/-- Delivering an entry above all others. -/
theorem Sound.deliver {s : Waiters D} (h : Sound s) (hidle : s.apply = none)
    {record : LogEntry} (hgrow : ∀ r ∈ s.delivered, r.index < record.index)
    (hpos : 0 < record.index) :
    Sound { s with apply := some (.started record), delivered := s.delivered ++ [record] } := by
  have habove : s.lastIdx < record.index := by
    rcases h.published with hzero | ⟨r, hr, hindex⟩
    · omega
    · have hlt := hgrow r hr
      omega
  refine ⟨?_, ?_, ?_, ?_, ?_, ?_⟩
  · exact h.published.imp id fun ⟨r, hr, hindex⟩ => ⟨r, List.mem_append_left _ hr, hindex⟩
  · intro r hr hindex
    rcases List.mem_append.mp hr with hr | hr
    · exact h.settled r hr hindex
    · obtain rfl := List.mem_singleton.mp hr
      exact absurd habove (Nat.not_lt.mpr hindex)
  · intro a ha
    obtain rfl := Option.some.inj ha
    exact ⟨habove, List.mem_append_right _ (List.mem_singleton_self record)⟩
  · intro r hr
    cases hr
  · intro r hr
    rcases List.mem_append.mp hr with hr | hr
    · refine (h.others r hr).imp id fun ⟨a, ha, _⟩ => ?_
      rw [hidle] at ha
      cases ha
    · obtain rfl := List.mem_singleton.mp hr
      exact .inr ⟨_, rfl, rfl⟩
  · intro k w hw
    exact (h.calls k w hw).deliver habove

/-- Only the published index of the host matters. -/
theorem Sound.withHost {s : Waiters D} (h : Sound s) {host : Host D}
    (hidx : host.c.lastIdx = s.lastIdx) : Sound { s with host := host } := by
  have hsame : ({ s with host := host } : Waiters D).lastIdx = s.lastIdx := hidx
  refine ⟨?_, ?_, ?_, h.executed, h.others, ?_⟩
  · rw [hsame]
    exact h.published
  · rw [hsame]
    exact h.settled
  · rw [hsame]
    exact h.underway
  · rw [hsame]
    exact h.calls

/-- The entry under way will never end. -/
theorem Sound.hang {s : Waiters D} (h : Sound s) {record : LogEntry}
    (hstarted : s.apply = some (.started record)) :
    Sound { s with apply := some (.hung record) } where
  published := h.published
  settled := h.settled
  underway := by
    intro a ha
    obtain rfl := Option.some.inj ha
    exact h.underway (.started record) hstarted
  executed := fun _ hr => (nomatch hr)
  others := by
    intro r hr
    refine (h.others r hr).imp id fun ⟨a, ha, heq⟩ => ⟨_, rfl, ?_⟩
    rw [hstarted] at ha
    obtain rfl := Option.some.inj ha
    exact heq
  calls := h.calls

/-- The entry under way has ended. -/
theorem Sound.finish {s : Waiters D} (h : Sound s) {record : LogEntry}
    (hstarted : s.apply = some (.started record)) :
    Sound { s with apply := some (.executed record), ended := s.ended ++ [record] } where
  published := h.published
  settled := fun r hr hindex => List.mem_append_left _ (h.settled r hr hindex)
  underway := by
    intro a ha
    obtain rfl := Option.some.inj ha
    exact h.underway (.started record) hstarted
  executed := by
    intro r hr
    obtain rfl := Applying.executed.inj (Option.some.inj hr)
    exact List.mem_append_right _ (List.mem_singleton_self record)
  others := by
    intro r hr
    rcases h.others r hr with hended | ⟨a, ha, rfl⟩
    · exact .inl (List.mem_append_left _ hended)
    · rw [hstarted] at ha
      obtain rfl := Option.some.inj ha
      exact .inr ⟨_, rfl, rfl⟩
  calls := h.calls

/-- Executing the entry under way. -/
theorem Sound.execute {s : Waiters D} (h : Sound s) {record : LogEntry}
    (hstarted : s.apply = some (.started record)) (pr : Proto) (drv : Driver D E)
    (loc : Local E) : Sound (s.execute pr drv loc record) := by
  have hhost : Sound { s with
      host := ⟨(s.host.mounted.applyAction pr drv loc record.data).1.fs, { s.host.c with
        db := (s.host.mounted.applyAction pr drv loc record.data).1.eng }⟩ } := h.withHost rfl
  simp only [Waiters.execute]
  split
  · exact hhost.hang hstarted
  · exact hhost.finish hstarted

/-- Publishing the index of an entry that has ended: every entry up to it has. -/
theorem Sound.publish {s : Waiters D} (h : Sound s) {record : LogEntry}
    (hexecuted : s.apply = some (.executed record)) :
    Sound { s with
      host := ⟨s.host.fs, { s.host.c with lastIdx := record.index }⟩, apply := none } := by
  obtain ⟨habove, hmem⟩ := h.underway _ hexecuted
  have hended : ∀ r ∈ s.delivered, r ∈ s.ended := by
    intro r hr
    rcases h.others r hr with hr | ⟨a, ha, rfl⟩
    · exact hr
    · rw [hexecuted] at ha
      obtain rfl := Option.some.inj ha
      exact h.executed record hexecuted
  exact ⟨.inr ⟨record, hmem, rfl⟩, fun r hr _ => hended r hr, fun _ ha => (nomatch ha),
    fun _ hr => (nomatch hr), fun r hr => .inl (hended r hr),
    fun k w hw => (h.calls k w hw).mono (Nat.le_of_lt habove)⟩

/-- **Every step keeps the node sound, and the index does not decrease.** -/
theorem Sound.step {s : Waiters D} (h : Sound s) (gz : Gzip) (pr : Proto) (drv : Driver D E)
    {i : WaitInput E} (hok : Numbered s i) :
    Sound (s.step gz pr drv i) ∧ s.lastIdx ≤ (s.step gz pr drv i).lastIdx := by
  cases i with
  | deliver record =>
      rcases hidle : s.apply with _ | a
      · simp only [Waiters.step, hidle]
        exact ⟨h.deliver hidle hok.1 hok.2, Nat.le_refl _⟩
      · simp only [Waiters.step, hidle]
        exact ⟨h, Nat.le_refl _⟩
  | execute loc =>
      simp only [Waiters.step]
      split
      · rename_i record hstarted
        refine ⟨h.execute hstarted pr drv loc, Nat.le_of_eq ?_⟩
        simp only [Waiters.execute]
        split <;> rfl
      · exact ⟨h, Nat.le_refl _⟩
  | publish =>
      simp only [Waiters.step]
      split
      · rename_i record hexecuted
        exact ⟨h.publish hexecuted, Nat.le_of_lt (h.underway _ hexecuted).1⟩
      · exact ⟨h, Nat.le_refl _⟩
  | snapshot fault => exact ⟨h, Nat.le_refl _⟩
  | restore f rd =>
      have hidx := restore_lastIdx gz drv f rd s.host
      simp only [Waiters.step]
      split
      · exact ⟨h.withHost hidx, Nat.le_of_eq hidx.symm⟩
      · exact ⟨h, Nat.le_refl _⟩
  | wait k idx =>
      simp only [Waiters.step]
      split
      · refine ⟨h.setCall k fun w hw => ?_, Nat.le_refl _⟩
        obtain rfl := Option.some.inj hw
        trivial
      · exact ⟨h, Nat.le_refl _⟩
  | tick k => exact ⟨h.onWait k fun w hw => hw.tick, Nat.le_refl _⟩
  | compare k => exact ⟨h.onWait k fun w hw => hw.compare h.settled, Nat.le_refl _⟩
  | timeout k => exact ⟨h.onWait k fun w hw => hw.timeout s.ended, Nat.le_refl _⟩

/-! ### Runs -/

/-- **Every run keeps the node sound, and the index does not decrease.** -/
theorem Sound.run {gz : Gzip} {pr : Proto} {drv : Driver D E} {s : Waiters D} (h : Sound s)
    {is : List (WaitInput E)} (hok : Steps (Waiters.step gz pr drv) Numbered s is) :
    Sound (run (Waiters.step gz pr drv) s is) ∧
      s.lastIdx ≤ (run (Waiters.step gz pr drv) s is).lastIdx := by
  refine run_invariant (fun t => Sound t ∧ s.lastIdx ≤ t.lastIdx) ?_ hok ⟨h, Nat.le_refl _⟩
  rintro t i ⟨ht, hle⟩ hi
  obtain ⟨hnext, hgrow⟩ := ht.step gz pr drv hi
  exact ⟨hnext, hle.trans hgrow⟩

/-- **Waiting is sound.** In every run of a node that `NewDB` returned, with entries that
raft numbers from one on and in growing order, a call that has returned an index has
returned at least the index it was called with, and every entry up to that index that was
ever delivered had ended before the return. The published index never decreases. -/
theorem waitForIndex_sound {gz : Gzip} (pr : Proto) {drv : Driver D E} {st : Startup}
    {dataDir : String} {cfg : Config} {fs fs' : FS} {c : Consensus D}
    (hnew : newDB gz drv st dataDir cfg fs = (fs', .ret (.ok c)))
    {is : List (WaitInput E)}
    (hok : Steps (Waiters.step gz pr drv) Numbered (.start ⟨fs', c⟩) is) :
    let after := fun n => run (Waiters.step gz pr drv) (.start ⟨fs', c⟩) (is.take n)
    (∀ n k idx i before, (after n).waits k = some (.returned idx (.ok i) before) →
      idx ≤ i ∧ ∀ r ∈ (after n).delivered, r.index ≤ i → r ∈ before) ∧
    ∀ m n, m ≤ n → (after m).lastIdx ≤ (after n).lastIdx := by
  have hstart : Sound (Waiters.start ⟨fs', c⟩) := sound_start (newDB_lastIdx hnew)
  intro after
  have hsound : ∀ n, Sound (after n) := fun n => (hstart.run (hok.take n)).1
  constructor
  · intro n k idx i before hreturned
    have hcall := (hsound n).calls k _ hreturned
    exact ⟨hcall.1, hcall.2.2⟩
  · intro m n hle
    have hsplit : is.take n = is.take m ++ (is.drop m).take (n - m) := by
      rw [← List.take_add, Nat.add_sub_cancel' hle]
    have hn := hok.take n
    rw [hsplit, steps_append_iff] at hn
    simp only [after, hsplit, run_append]
    exact ((hsound m).run hn.2).2

/-- A call on a new node that waits for the first entry: it looks before the entry is
published and again afterwards. -/
def waitForFirst (record : LogEntry) : List (WaitInput UInt8) :=
  [.wait 0 1, .deliver record, .tick 0, .execute (.ofEntropy fun _ _ => 0), .compare 0,
    .publish, .tick 0, .compare 0]

/-- An insertion, as the entry with an index. -/
def insertAt (index : ℕ) : LogEntry := ⟨index, execEntry "INSERT INTO foo VALUES(1)"⟩

/-- The call returns the index of the first entry, which had ended. -/
theorem waitForIndex_sound_insert :
    (run (Waiters.step storeGzip tableProto byteTable) (.start firstNode)
        (waitForFirst (insertAt 1))).waits 0 = some (.returned 1 (.ok 1) [insertAt 1]) ∧
      insertAt 1 ∈ [insertAt 1] := by
  have hok : Steps (Waiters.step storeGzip tableProto byteTable) Numbered
      (.start firstNode) (waitForFirst (insertAt 1)) :=
    ⟨trivial, ⟨fun _ hr => absurd hr List.not_mem_nil, Nat.one_pos⟩, trivial, trivial, trivial,
      trivial, trivial, trivial, trivial⟩
  have hreturned : (run (Waiters.step storeGzip tableProto byteTable) (.start firstNode)
      (waitForFirst (insertAt 1))).waits 0 = some (.returned 1 (.ok 1) [insertAt 1]) := by
    rfl
  have hended := ((waitForIndex_sound tableProto newDB_firstNode hok).1 8 0 1 1 _ hreturned).2
  exact ⟨hreturned, hended (insertAt 1) (List.mem_singleton_self _) (Nat.le_refl 1)⟩

/-- **An entry with index zero** is not waited for: it is still under way when a call for
index zero returns, with the index of a node that has published nothing. -/
theorem index_zero_not_awaited :
    Steps (Waiters.step storeGzip tableProto byteTable) Growing (.start firstNode)
        [.deliver (insertAt 0), .wait 0 0, .tick 0, .compare 0] ∧
      (run (Waiters.step storeGzip tableProto byteTable) (.start firstNode)
        [.deliver (insertAt 0), .wait 0 0, .tick 0, .compare 0]).waits 0 =
          some (.returned 0 (.ok 0) []) ∧
      (run (Waiters.step storeGzip tableProto byteTable) (.start firstNode)
        [.deliver (insertAt 0), .wait 0 0, .tick 0, .compare 0]).delivered = [insertAt 0] := by
  refine ⟨⟨fun _ hr => absurd hr List.not_mem_nil, trivial, trivial, trivial, trivial⟩, ?_, ?_⟩
  · rfl
  · rfl

end DistSql
