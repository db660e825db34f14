import Mathlib.Data.List.Basic
import Mathlib.Data.List.Count
import Mathlib.Data.List.Perm.Subperm

/-!
# Proposals to a Raft Log

What a proposer can rely on when it hands an entry to raft. An **attempt** is one call of
`Apply`, and its future resolves once. An attempt that fails with "not leader" was never
appended and never will be; one that fails with anything else may still be appended, and
committed, at any later time. Entries of other proposers come in between, and the replicas
apply what is committed in the order in which it is.

The log is the list of all entries that any leader ever appended, so an entry that is lost
with its leader is in it too, and what is committed is given by positions in it.

## Main results

* `step_lawful`: the law holds after every step.
* `step_keeps`: a refusal is final, and so is a result.
* `countP_appended_le_one`: **if all attempts but one were refused, at most one entry of this
  proposer is in the log.**
* `countP_applied_le`: and a replica applies no more entries than there are in the log.
-/

namespace Raft

variable {α ρ : Type}

/-- What has become of an attempt: it waits, it is in the log, or it will never be. -/
inductive Fate
  | queued
  | appended
  | refused
  deriving DecidableEq, Repr

/-- How a future resolves. -/
inductive Result (ρ : Type)
  | notLeader
  | failed (msg : String)
  | done (response : ρ)
  deriving DecidableEq, Repr

/-- One call of `Apply`. -/
structure Attempt (α ρ : Type) where
  data : α
  fate : Fate := .queued
  result : Option (Result ρ) := none
  deriving DecidableEq, Repr

/-- An entry of the log: the attempt that it comes from, if it is one of this proposer. -/
structure Logged (α : Type) where
  attempt : Option ℕ
  data : α
  deriving DecidableEq, Repr

/-- The attempts of one proposer, the log, and the positions that are committed. -/
structure Proposals (α ρ : Type) where
  attempts : List (Attempt α ρ) := []
  appended : List (Logged α) := []
  committed : List ℕ := []
  deriving DecidableEq, Repr

/-- What can happen to proposals. -/
inductive Op (α ρ : Type)
  | propose (data : α)
  | foreign (data : α)
  | append (k : ℕ)
  | refuse (k : ℕ)
  | fail (k : ℕ) (msg : String)
  | finish (k : ℕ) (response : ρ)
  | commit (j : ℕ)
  deriving DecidableEq, Repr

namespace Proposals

variable (p : Proposals α ρ)

/-- Attempt `k` becomes another one. -/
def set (k : ℕ) (t : Attempt α ρ) : Proposals α ρ := { p with attempts := p.attempts.set k t }

/-- One step. What is not possible does not happen: only a waiting attempt is appended or
refused, a future resolves once, with a response only if the attempt is in the log, and a
position is committed once. -/
def step (p : Proposals α ρ) : Op α ρ → Proposals α ρ
  | .propose data => { p with attempts := p.attempts ++ [{ data := data }] }
  | .foreign data => { p with appended := p.appended ++ [⟨none, data⟩] }
  | .append k =>
      match p.attempts[k]? with
      | some t =>
          if t.fate = .queued then
            { p.set k { t with fate := .appended } with
              appended := p.appended ++ [⟨some k, t.data⟩] }
          else p
      | none => p
  | .refuse k =>
      match p.attempts[k]? with
      | some t =>
          if t.fate = .queued ∧ t.result = none then
            p.set k { t with fate := .refused, result := some .notLeader }
          else p
      | none => p
  | .fail k msg =>
      match p.attempts[k]? with
      | some t => if t.result = none then p.set k { t with result := some (.failed msg) } else p
      | none => p
  | .finish k response =>
      match p.attempts[k]? with
      | some t =>
          if t.result = none ∧ t.fate = .appended then
            p.set k { t with result := some (.done response) }
          else p
      | none => p
  | .commit j =>
      if j < p.appended.length ∧ j ∉ p.committed then { p with committed := p.committed ++ [j] }
      else p

/-- What a replica has applied that is at a given place in what is committed. -/
def applied (pos : ℕ) : List (Logged α) := (p.committed.take pos).filterMap (p.appended[·]?)

/-- **The law of proposals.** -/
structure Lawful : Prop where
  origin : ∀ en ∈ p.appended, ∀ k, en.attempt = some k →
    ∃ t, p.attempts[k]? = some t ∧ t.fate = .appended
  counted : p.appended.countP (·.attempt.isSome) = p.attempts.countP (·.fate = .appended)
  refused : ∀ t ∈ p.attempts, t.result = some .notLeader → t.fate = .refused
  committed : p.committed.Nodup
  inLog : ∀ j ∈ p.committed, j < p.appended.length

/-- **What a step can do**: nothing, add an attempt, add an entry of another proposer, append
an attempt, resolve one, or commit a position. -/
inductive Moves : Proposals α ρ → Prop
  | stay : Moves p
  | propose (data : α) : Moves { p with attempts := p.attempts ++ [{ data := data }] }
  | foreign (data : α) : Moves { p with appended := p.appended ++ [⟨none, data⟩] }
  | append {k : ℕ} {t : Attempt α ρ} (ht : p.attempts[k]? = some t) (hfate : t.fate = .queued) :
      Moves { p.set k { t with fate := .appended } with
        appended := p.appended ++ [⟨some k, t.data⟩] }
  | resolve {k : ℕ} {t t' : Attempt α ρ} (ht : p.attempts[k]? = some t) (hnone : t.result = none)
      (hfate : t'.fate = t.fate ∨ t.fate = .queued ∧ t'.fate = .refused)
      (hrefused : t'.result = some .notLeader → t'.fate = .refused) : Moves (p.set k t')
  | commit {j : ℕ} (hlt : j < p.appended.length) (hj : j ∉ p.committed) :
      Moves { p with committed := p.committed ++ [j] }

/-- A step does one of these. -/
theorem step_moves (op : Op α ρ) : p.Moves (p.step op) := by
  cases op with
  | propose data => exact .propose data
  | foreign data => exact .foreign data
  | append k =>
      simp only [step]
      split
      · rename_i t ht
        split
        · exact .append ht ‹_›
        · exact .stay
      · exact .stay
  | refuse k =>
      simp only [step]
      split
      · rename_i t ht
        split
        · rename_i hc
          exact .resolve ht hc.2 (.inr ⟨hc.1, rfl⟩) fun _ => rfl
        · exact .stay
      · exact .stay
  | fail k msg =>
      simp only [step]
      split
      · rename_i t ht
        split
        · exact .resolve ht ‹_› (.inl rfl) (by simp)
        · exact .stay
      · exact .stay
  | finish k response =>
      simp only [step]
      split
      · rename_i t ht
        split
        · rename_i hc
          exact .resolve ht hc.1 (.inl rfl) (by simp)
        · exact .stay
      · exact .stay
  | commit j =>
      simp only [step]
      split
      · rename_i hc
        exact .commit hc.1 hc.2
      · exact .stay

variable {p}

/-- The attempts after one of them was set. -/
theorem attempts_set {k j : ℕ} {t t' : Attempt α ρ} (h : (p.set k t).attempts[j]? = some t') :
    j = k ∧ t' = t ∨ j ≠ k ∧ p.attempts[j]? = some t' := by
  rw [set, List.getElem?_set] at h
  split at h
  · rename_i hkj
    split at h
    · exact .inl ⟨hkj.symm, (Option.some.inj h).symm⟩
    · exact absurd h (by simp)
  · rename_i hkj
    exact .inr ⟨fun hjk => hkj hjk.symm, h⟩

/-- The attempt that was set. -/
theorem attempts_set_self {k : ℕ} {t t' : Attempt α ρ} (h : p.attempts[k]? = some t) :
    (p.set k t').attempts[k]? = some t' := by
  rw [set, List.getElem?_set, if_pos rfl, if_pos (List.getElem?_eq_some_iff.mp h).1]

/-- The attempts that were not. -/
theorem attempts_set_ne {k j : ℕ} {t' : Attempt α ρ} (h : j ≠ k) :
    (p.set k t').attempts[j]? = p.attempts[j]? := by
  rw [set, List.getElem?_set, if_neg h.symm]

/-- What is committed is still in a longer log. -/
theorem Lawful.inLog_append (h : p.Lawful) (en : Logged α) :
    ∀ j ∈ p.committed, j < (p.appended ++ [en]).length := by
  intro j hj
  have := h.inLog j hj
  rw [List.length_append]
  omega

/-- An entry still has its origin after an attempt was set that is in the log if it was. -/
theorem Lawful.origin_set (h : p.Lawful) {k : ℕ} {t t' : Attempt α ρ}
    (ht : p.attempts[k]? = some t) (hfate : t.fate = .appended → t'.fate = .appended)
    {en : Logged α} (hen : en ∈ p.appended) {j : ℕ} (hj : en.attempt = some j) :
    ∃ t₀, (p.set k t').attempts[j]? = some t₀ ∧ t₀.fate = .appended := by
  obtain ⟨t₀, ht₀, hf⟩ := h.origin en hen j hj
  by_cases hjk : j = k
  · rw [hjk, ht] at ht₀
    obtain rfl := Option.some.inj ht₀
    exact ⟨t', hjk.symm ▸ attempts_set_self ht, hfate hf⟩
  · exact ⟨t₀, (attempts_set_ne hjk).trans ht₀, hf⟩

/-- A refusal is still one after an attempt was set that is refused if its result says so. -/
theorem Lawful.refused_set (h : p.Lawful) {k : ℕ} {t' : Attempt α ρ}
    (hrefused : t'.result = some .notLeader → t'.fate = .refused) :
    ∀ t ∈ (p.set k t').attempts, t.result = some .notLeader → t.fate = .refused := by
  intro t ht hres
  obtain ⟨j, hj⟩ := List.mem_iff_getElem?.mp ht
  rcases attempts_set hj with ⟨-, rfl⟩ | ⟨-, hj⟩
  · exact hrefused hres
  · exact h.refused t (List.mem_of_getElem? hj) hres

/-- Setting an attempt changes the count of those that are in the log only by its own. -/
theorem countP_set {k : ℕ} {t t' : Attempt α ρ} (h : p.attempts[k]? = some t) :
    (p.set k t').attempts.countP (·.fate = .appended) + (if t.fate = .appended then 1 else 0) =
      p.attempts.countP (·.fate = .appended) + if t'.fate = .appended then 1 else 0 := by
  obtain ⟨hlt, rfl⟩ := List.getElem?_eq_some_iff.mp h
  have hpos : p.attempts[k].fate = .appended → 0 < p.attempts.countP (·.fate = .appended) :=
    fun hf => List.countP_pos_iff.mpr ⟨_, List.getElem_mem hlt, by simpa using hf⟩
  rw [set, List.countP_set hlt]
  by_cases hf : p.attempts[k].fate = .appended
  · have := hpos hf
    simp only [hf, decide_true, if_true, decide_eq_true_eq]
    omega
  · simp only [hf, decide_false, if_false, decide_eq_true_eq, Bool.false_eq_true]
    omega

/-- What a step can do keeps the law. -/
theorem Lawful.moves {q : Proposals α ρ} (h : p.Lawful) (hmoves : p.Moves q) : q.Lawful := by
  cases hmoves with
  | stay => exact h
  | propose data =>
      refine ⟨fun en hen k hk => ?_, ?_, fun t ht hres => ?_, h.committed, h.inLog⟩
      · obtain ⟨t, ht, hfate⟩ := h.origin en hen k hk
        exact ⟨t, (List.getElem?_append_left (List.getElem?_eq_some_iff.mp ht).1).trans ht, hfate⟩
      · rw [h.counted, List.countP_append]
        simp
      · rcases List.mem_append.mp ht with ht | ht
        · exact h.refused t ht hres
        · rw [List.mem_singleton.mp ht] at hres
          exact absurd hres (by simp)
  | foreign data =>
      refine ⟨fun en hen k hk => ?_, ?_, h.refused, h.committed, h.inLog_append _⟩
      · rcases List.mem_append.mp hen with hen | hen
        · exact h.origin en hen k hk
        · rw [List.mem_singleton.mp hen] at hk
          exact absurd hk (by simp)
      · rw [List.countP_append, h.counted]
        simp
  | @append k t ht hfate =>
      have hcount := @countP_set _ _ p k t { t with fate := .appended } ht
      simp only [hfate, reduceCtorEq, if_false, if_true] at hcount
      refine ⟨fun en hen j hj => ?_, ?_, h.refused_set fun hres => ?_, h.committed,
        h.inLog_append _⟩
      · rcases List.mem_append.mp hen with hen | hen
        · exact h.origin_set ht (fun _ => rfl) hen hj
        · rw [List.mem_singleton.mp hen] at hj
          obtain rfl := Option.some.inj hj
          exact ⟨_, attempts_set_self ht, rfl⟩
      · rw [List.countP_append, h.counted]
        simp only [List.countP_singleton, Option.isSome_some, if_true]
        omega
      · have := h.refused t (List.mem_of_getElem? ht) hres
        exact absurd (hfate.symm.trans this) (by simp)
  | @resolve k t t' ht hnone hfate hrefused =>
      have hcount := @countP_set _ _ p k t t' ht
      have hsame : t.fate = .appended ↔ t'.fate = .appended := by
        rcases hfate with hf | ⟨hq, hf⟩
        · rw [hf]
        · simp [hq, hf]
      refine ⟨fun en hen j hj => h.origin_set ht hsame.mp hen hj, ?_, h.refused_set hrefused,
        h.committed, h.inLog⟩
      show p.appended.countP _ = _
      rw [h.counted]
      simp only [hsame] at hcount
      omega
  | commit hlt hj =>
      refine ⟨h.origin, h.counted, h.refused, ?_, fun i hi => ?_⟩
      · refine List.nodup_append.mpr ⟨h.committed, by simp, fun a ha b hb => ?_⟩
        rw [List.mem_singleton.mp hb]
        rintro rfl
        exact hj ha
      · rcases List.mem_append.mp hi with hi | hi
        · exact h.inLog i hi
        · rw [List.mem_singleton.mp hi]
          exact hlt

/-- **The law holds after every step.** -/
theorem step_lawful (h : p.Lawful) (op : Op α ρ) : (p.step op).Lawful :=
  h.moves (p.step_moves op)

/-- What setting an attempt does to the attempts that are there: each is still refused, and
still has its result, if that is so for the one that was set. -/
theorem set_keeps {j k : ℕ} {t t₀ t' : Attempt α ρ} (h : p.attempts[k]? = some t)
    (ht : p.attempts[j]? = some t₀) (hfate : t₀.fate = .refused → t'.fate = .refused)
    (hresult : t₀.result ≠ none → t'.result = t₀.result) :
    ∃ t₁, (p.set j t').attempts[k]? = some t₁ ∧ (t.fate = .refused → t₁.fate = .refused) ∧
      (t.result ≠ none → t₁.result = t.result) := by
  by_cases hkj : k = j
  · obtain rfl : t = t₀ := Option.some.inj (h.symm.trans (hkj ▸ ht))
    exact ⟨t', hkj.symm ▸ attempts_set_self ht, hfate, hresult⟩
  · exact ⟨t, (attempts_set_ne hkj).trans h, id, fun _ => rfl⟩

/-- What a step does to the attempts that are there: **a refusal is final**, and so is a
result. -/
theorem step_keeps (op : Op α ρ) {k : ℕ} {t : Attempt α ρ} (h : p.attempts[k]? = some t) :
    ∃ t', (p.step op).attempts[k]? = some t' ∧ (t.fate = .refused → t'.fate = .refused) ∧
      (t.result ≠ none → t'.result = t.result) := by
  have hmoves := p.step_moves op
  generalize p.step op = q at hmoves
  cases hmoves with
  | propose data =>
      have hlt := (List.getElem?_eq_some_iff.mp h).1
      exact ⟨t, (List.getElem?_append_left hlt).trans h, id, fun _ => rfl⟩
  | append ht hfate =>
      exact set_keeps h ht (fun hr => absurd (hfate.symm.trans hr) (by simp)) fun _ => rfl
  | resolve ht hnone hfate hrefused =>
      refine set_keeps h ht (fun hr => ?_) fun hne => absurd hnone hne
      rcases hfate with hf | ⟨hq, -⟩
      · exact hf.trans hr
      · exact absurd (hq.symm.trans hr) (by simp)
  | _ => exact ⟨t, h, id, fun _ => rfl⟩

/-- Only a proposal adds an attempt. -/
theorem length_attempts_step {op : Op α ρ} (hop : ∀ data, op ≠ .propose data) :
    (p.step op).attempts.length = p.attempts.length := by
  have hset : ∀ k t, (p.set k t).attempts.length = p.attempts.length :=
    fun k t => List.length_set
  cases op with
  | propose data => exact absurd rfl (hop data)
  | foreign data => rfl
  | append k =>
      simp only [step]
      split <;> [(split <;> [exact hset k _; rfl]); rfl]
  | refuse k =>
      simp only [step]
      split <;> [(split <;> [exact hset k _; rfl]); rfl]
  | fail k msg =>
      simp only [step]
      split <;> [(split <;> [exact hset k _; rfl]); rfl]
  | finish k response =>
      simp only [step]
      split <;> [(split <;> [exact hset k _; rfl]); rfl]
  | commit j =>
      simp only [step]
      split <;> rfl

/-! ### At most one attempt that counts -/

/-- All attempts were refused, except possibly one. -/
def OnlyLive (p : Proposals α ρ) (k : ℕ) : Prop :=
  ∀ j t, p.attempts[j]? = some t → j ≠ k → t.fate = .refused

/-- All attempts were refused. -/
def AllRefused (p : Proposals α ρ) : Prop := ∀ t ∈ p.attempts, t.fate = .refused

/-- With the last one refused, all are. -/
theorem OnlyLive.allRefused {k : ℕ} (h : p.OnlyLive k)
    (hk : ∀ t, p.attempts[k]? = some t → t.fate = .refused) : p.AllRefused := by
  intro t ht
  obtain ⟨j, hj⟩ := List.mem_iff_getElem?.mp ht
  by_cases hjk : j = k
  · exact hk t (hjk ▸ hj)
  · exact h j t hj hjk

/-- If all were refused, any one can be excepted. -/
theorem AllRefused.onlyLive (h : p.AllRefused) (k : ℕ) : p.OnlyLive k :=
  fun _ t ht _ => h t (List.mem_of_getElem? ht)

section Step

variable {op : Op α ρ}

/-- What happens to an attempt comes from an attempt that was there, unless it is new. -/
theorem attempt_of_step (hop : ∀ data, op ≠ .propose data) {j : ℕ} {t' : Attempt α ρ}
    (h : (p.step op).attempts[j]? = some t') :
    ∃ t, p.attempts[j]? = some t ∧ (t.fate = .refused → t'.fate = .refused) := by
  have hlt := (List.getElem?_eq_some_iff.mp h).1
  rw [length_attempts_step hop] at hlt
  have hj := List.getElem?_eq_getElem hlt
  obtain ⟨t₀, ht₀, hrefused, -⟩ := step_keeps op hj
  obtain rfl := Option.some.inj (h.symm.trans ht₀)
  exact ⟨_, hj, hrefused⟩

/-- Other steps than proposals keep the exception the only one. -/
theorem OnlyLive.step {k : ℕ} (h : p.OnlyLive k) (hop : ∀ data, op ≠ .propose data) :
    (p.step op).OnlyLive k := by
  intro j t' ht' hjk
  obtain ⟨t, ht, hrefused⟩ := attempt_of_step hop ht'
  exact hrefused (h j t ht hjk)

/-- Other steps than proposals keep all attempts refused. -/
theorem AllRefused.step (h : p.AllRefused) (hop : ∀ data, op ≠ .propose data) :
    (p.step op).AllRefused := by
  intro t' ht'
  obtain ⟨j, hj⟩ := List.mem_iff_getElem?.mp ht'
  obtain ⟨t, ht, hrefused⟩ := attempt_of_step hop hj
  exact hrefused (h t (List.mem_of_getElem? ht))

/-- A proposal after refusals is the exception. -/
theorem AllRefused.propose (h : p.AllRefused) (data : α) :
    (p.step (.propose data)).OnlyLive p.attempts.length := by
  intro j t ht hne
  have hlt := (List.getElem?_eq_some_iff.mp ht).1
  have hlt' : j < p.attempts.length := by
    simp only [Proposals.step, List.length_append, List.length_singleton] at hlt
    omega
  rw [Proposals.step, List.getElem?_append_left hlt'] at ht
  exact h t (List.mem_of_getElem? ht)

end Step

/-- At most one element has a property that only one place can have. -/
theorem countP_le_one {β : Type} {f : β → Bool} {l : List β} {k : ℕ}
    (h : ∀ j x, l[j]? = some x → f x = true → j = k) : l.countP f ≤ 1 := by
  induction l generalizing k with
  | nil => simp
  | cons x l ih =>
      by_cases hx : f x = true
      · have hk : 0 = k := h 0 x rfl hx
        have hrest : l.countP f = 0 := by
          rw [List.countP_eq_zero]
          intro y hy hfy
          obtain ⟨j, hj⟩ := List.mem_iff_getElem?.mp hy
          exact absurd (h (j + 1) y hj hfy) (by omega)
        simp [List.countP_cons_of_pos hx, hrest]
      · rw [List.countP_cons_of_neg hx]
        rcases k with _ | k
        · exact ih (k := 0) fun j y hj hfy => absurd (h (j + 1) y hj hfy) (by omega)
        · exact ih fun j y hj hfy => Nat.succ.inj (h (j + 1) y hj hfy)

/-- **If all attempts but one were refused, at most one entry of this proposer is in the
log.** -/
theorem Lawful.countP_appended_le_one (h : p.Lawful) {k : ℕ} (hlive : p.OnlyLive k) :
    p.appended.countP (·.attempt.isSome) ≤ 1 := by
  rw [h.counted]
  refine countP_le_one (k := k) fun j t ht hf => ?_
  by_contra hjk
  have hrefused := hlive j t ht hjk
  simp [hrefused] at hf

/-- A list is what it has at its places. -/
theorem filterMap_range {β : Type} (l : List β) :
    (List.range l.length).filterMap (l[·]?) = l := by
  induction l with
  | nil => rfl
  | cons x l ih =>
      rw [List.length_cons, List.range_succ_eq_map, List.filterMap_cons_some (by rfl),
        List.filterMap_map]
      exact congrArg (x :: ·) ih

/-- **A replica applies no more entries than there are in the log.** -/
theorem Lawful.countP_applied_le (h : p.Lawful) (f : Logged α → Bool) (pos : ℕ) :
    (p.applied pos).countP f ≤ p.appended.countP f := by
  have hplaces : (p.committed.take pos).Subperm (List.range p.appended.length) := by
    refine (h.committed.sublist (List.take_sublist _ _)).subperm fun j hj => ?_
    exact List.mem_range.mpr (h.inLog j (List.mem_of_mem_take hj))
  obtain ⟨places, hperm, hsub⟩ := hplaces
  calc (p.applied pos).countP f
      = (places.filterMap (p.appended[·]?)).countP f := ((hperm.filterMap _).countP_eq f).symm
    _ ≤ ((List.range p.appended.length).filterMap (p.appended[·]?)).countP f :=
        (hsub.filterMap _).countP_le
    _ = p.appended.countP f := by rw [filterMap_range]

/-- A refused attempt is not in the log. -/
theorem Lawful.notMem_of_refused (h : p.Lawful) {k : ℕ} {t : Attempt α ρ}
    (ht : p.attempts[k]? = some t) (hfate : t.fate = .refused) :
    ∀ en ∈ p.appended, en.attempt ≠ some k := by
  intro en hen hk
  obtain ⟨t', ht', hf⟩ := h.origin en hen k hk
  obtain rfl := Option.some.inj (ht.symm.trans ht')
  exact absurd (hfate.symm.trans hf) (by simp)

/-- What a replica applied is in the log. -/
theorem mem_of_mem_applied {pos : ℕ} {en : Logged α} (h : en ∈ p.applied pos) :
    en ∈ p.appended := by
  obtain ⟨j, -, hj⟩ := List.mem_filterMap.mp h
  exact List.mem_of_getElem? hj

end Proposals

end Raft
