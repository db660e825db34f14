import Mathlib.Data.List.Forall2
import Mathlib.Data.List.Perm.Basic
import DistSql.Outcome

/-!
# Loops That Can Fail

A Go function that makes a new slice from an old one, element by element, and returns the first
error it meets is a `mapM`: in `Except` if the error has a text, in `Option` if it has none, and in
`Outcome` if it panics instead. What such a loop returns is a relation between two lists,
`List.Forall₂`, and this module has the rules for going from the loop to the relation and back.

## Main results

* `mapM_eq_ok_iff`, `mapM_eq_some_iff` and `mapM_eq_ret_iff`: **a loop returns the results of its
  elements**, in order.
* `mapM_error`: **an error of a loop is an error of an element**.
* `exists_mapM_ok` and `exists_mapM_some`: a loop returns if each of its elements does.
* `mapM_ok_perm` and `mapM_ok_related`: what two runs of a loop have in common.
* `forall₂_of_two_loops` and `exists_two_loops`: the same for two loops in a row.
-/

namespace Golang

variable {α β γ ε : Type}

/-! ### Loops with an error -/

/-- **A loop returns the results of its elements**, in order. -/
theorem mapM_eq_ok_iff {f : α → Except ε β} {xs : List α} {ys : List β} :
    xs.mapM f = .ok ys ↔ List.Forall₂ (fun x y => f x = .ok y) xs ys := by
  induction xs generalizing ys with
  | nil => cases ys <;> simp [pure, Except.pure]
  | cons x xs ih =>
      rw [List.mapM_cons, List.forall₂_cons_left_iff]
      simp only [← ih]
      rcases hx : f x with e | y
      · simp [bind, Except.bind]
      rcases hxs : xs.mapM f with e | ys'
      · simp [bind, Except.bind]
      · simp [bind, Except.bind, pure, Except.pure, eq_comm]

/-- **An error of a loop is an error of an element.** -/
theorem mapM_error {f : α → Except ε β} {xs : List α} {e : ε} (h : xs.mapM f = .error e) :
    ∃ x ∈ xs, f x = .error e := by
  induction xs with
  | nil => simp [pure, Except.pure] at h
  | cons x xs ih =>
      rw [List.mapM_cons] at h
      rcases hx : f x with e' | y
      · simp only [hx, bind, Except.bind, Except.error.injEq] at h
        exact ⟨x, List.mem_cons_self, by rw [hx, h]⟩
      rcases hxs : xs.mapM f with e' | ys
      · simp only [hx, hxs, bind, Except.bind, Except.error.injEq] at h
        obtain ⟨x', hmem, hx'⟩ := ih (by rw [hxs, h])
        exact ⟨x', List.mem_cons_of_mem x hmem, hx'⟩
      · simp [hx, hxs, bind, Except.bind, pure, Except.pure] at h

/-- A loop returns if each of its elements does. -/
theorem exists_mapM_ok {f : α → Except ε β} {xs : List α} (h : ∀ x ∈ xs, ∃ y, f x = .ok y) :
    ∃ ys, xs.mapM f = .ok ys := by
  rcases hxs : xs.mapM f with e | ys
  · obtain ⟨x, hmem, hx⟩ := mapM_error hxs
    obtain ⟨y, hy⟩ := h x hmem
    simp [hy] at hx
  · exact ⟨ys, rfl⟩

/-- A loop returns exactly when each of its elements does. -/
theorem exists_mapM_ok_iff {f : α → Except ε β} {xs : List α} :
    (∃ ys, xs.mapM f = .ok ys) ↔ ∀ x ∈ xs, ∃ y, f x = .ok y := by
  refine ⟨?_, exists_mapM_ok⟩
  rintro ⟨ys, hys⟩ x hx
  rw [mapM_eq_ok_iff] at hys
  induction hys with
  | nil => simp at hx
  | cons hy _ ih =>
      rcases List.mem_cons.mp hx with rfl | hx
      · exact ⟨_, hy⟩
      · exact ih hx

/-! ### Loops with no text for an error -/

/-- **A loop returns the results of its elements**, in order. -/
theorem mapM_eq_some_iff {f : α → Option β} {xs : List α} {ys : List β} :
    xs.mapM f = some ys ↔ List.Forall₂ (fun x y => f x = some y) xs ys := by
  induction xs generalizing ys with
  | nil => cases ys <;> simp
  | cons x xs ih =>
      rw [List.mapM_cons, List.forall₂_cons_left_iff]
      simp only [← ih]
      rcases hx : f x with _ | y
      · simp
      rcases hxs : xs.mapM f with _ | ys'
      · simp
      · simp [eq_comm]

/-- A loop returns if each of its elements does. -/
theorem exists_mapM_some {f : α → Option β} {xs : List α} (h : ∀ x ∈ xs, ∃ y, f x = some y) :
    ∃ ys, xs.mapM f = some ys := by
  induction xs with
  | nil => exact ⟨[], rfl⟩
  | cons x xs ih =>
      obtain ⟨y, hy⟩ := h x List.mem_cons_self
      obtain ⟨ys, hys⟩ := ih fun x' hmem => h x' (List.mem_cons_of_mem x hmem)
      exact ⟨y :: ys, by simp [List.mapM_cons, hy, hys]⟩

/-! ### Loops with a panic -/

/-- **A loop returns the results of its elements**, in order. -/
theorem mapM_eq_ret_iff {f : α → Outcome β} {xs : List α} {ys : List β} :
    xs.mapM f = .ret ys ↔ List.Forall₂ (fun x y => f x = .ret y) xs ys := by
  induction xs generalizing ys with
  | nil => cases ys <;> simp
  | cons x xs ih =>
      rw [List.mapM_cons, List.forall₂_cons_left_iff]
      simp only [Outcome.bind_eq_ret_iff, ih, Outcome.pure_eq_ret, Outcome.ret.injEq]
      constructor
      · rintro ⟨y, hy, ys', hys, rfl⟩
        exact ⟨y, ys', hy, hys, rfl⟩
      · rintro ⟨y, ys', hy, hys, rfl⟩
        exact ⟨y, hy, ys', hys, rfl⟩

/-- A loop returns exactly when each of its elements does. -/
theorem returns_mapM_iff {f : α → Outcome β} {xs : List α} :
    (xs.mapM f).Returns ↔ ∀ x ∈ xs, (f x).Returns := by
  induction xs with
  | nil => simp
  | cons x xs ih =>
      rw [List.mapM_cons, List.forall_mem_cons, ← ih]
      rcases f x with y | m | _
      · simp only [Outcome.ret_bind, Outcome.pure_eq_ret,
          Outcome.returns_bind_iff fun _ => Outcome.returns_ret _, Outcome.returns_ret, true_and]
      · simp
      · simp

/-! ### Related lists -/

/-- Relations compose along lists. -/
theorem forall₂_trans {R : α → β → Prop} {S : β → γ → Prop} {T : α → γ → Prop}
    (hT : ∀ a b c, R a b → S b c → T a c) {as : List α} {bs : List β} {cs : List γ}
    (hR : List.Forall₂ R as bs) (hS : List.Forall₂ S bs cs) : List.Forall₂ T as cs := by
  induction hR generalizing cs with
  | nil => rw [List.forall₂_nil_left_iff.mp hS]; exact .nil
  | cons hab _ ih =>
      obtain ⟨c, cs', hbc, hrest, rfl⟩ := List.forall₂_cons_left_iff.mp hS
      exact .cons (hT _ _ _ hab hbc) (ih hrest)

/-- Two relations of one pair of lists. -/
theorem forall₂_and {R S : α → β → Prop} {as : List α} {bs : List β}
    (hR : List.Forall₂ R as bs) (hS : List.Forall₂ S as bs) :
    List.Forall₂ (fun a b => R a b ∧ S a b) as bs := by
  induction hR with
  | nil => exact .nil
  | cons hab _ ih =>
      obtain ⟨hab', hrest⟩ := List.forall₂_cons.mp hS
      exact .cons ⟨hab, hab'⟩ (ih hrest)

/-- What is related to an element is in the other list. -/
theorem exists_of_forall₂_left {R : α → β → Prop} {as : List α} {bs : List β}
    (h : List.Forall₂ R as bs) {a : α} (ha : a ∈ as) : ∃ b ∈ bs, R a b := by
  induction h with
  | nil => simp at ha
  | @cons a' b' as bs hab _ ih =>
      rcases List.mem_cons.mp ha with rfl | ha
      · exact ⟨b', List.mem_cons_self, hab⟩
      · obtain ⟨b, hmem, hb⟩ := ih ha
        exact ⟨b, List.mem_cons_of_mem b' hmem, hb⟩

/-- What an element is related to is in the other list. -/
theorem exists_of_forall₂_right {R : α → β → Prop} {as : List α} {bs : List β}
    (h : List.Forall₂ R as bs) {b : β} (hb : b ∈ bs) : ∃ a ∈ as, R a b :=
  exists_of_forall₂_left h.flip hb

/-- What is related to an element is at its place. -/
theorem getElem?_of_forall₂ {R : α → β → Prop} {as : List α} {bs : List β}
    (h : List.Forall₂ R as bs) {i : ℕ} {a : α} (ha : as[i]? = some a) :
    ∃ b, bs[i]? = some b ∧ R a b := by
  induction h generalizing i with
  | nil => simp at ha
  | @cons a' b' as bs hab _ ih =>
      rcases i with _ | i
      · obtain rfl : a' = a := by simpa using ha
        exact ⟨b', rfl, hab⟩
      · exact ih (by simpa using ha)

/-- A relation that is a function on the elements of a list is one on the list. -/
theorem forall₂_iff_eq_map {R : α → β → Prop} {f : α → β} {as : List α} {bs : List β}
    (h : ∀ a ∈ as, ∀ b, R a b ↔ b = f a) : List.Forall₂ R as bs ↔ bs = as.map f := by
  induction as generalizing bs with
  | nil => exact List.forall₂_nil_left_iff
  | cons a as ih =>
      have hrest : ∀ {bs}, List.Forall₂ R as bs ↔ bs = as.map f :=
        ih fun a' ha' => h a' (List.mem_cons_of_mem a ha')
      simp only [List.forall₂_cons_left_iff, hrest, h a List.mem_cons_self, List.map_cons]
      exact ⟨fun ⟨_, _, hb, hbs, heq⟩ => by rw [heq, hb, hbs], fun heq => ⟨_, _, rfl, rfl, heq⟩⟩

/-! ### One loop, run twice -/

/-- **A loop over a permuted list** has the same results, permuted. -/
theorem mapM_ok_perm {f : α → Except ε β} {xs xs' : List α} (hperm : xs.Perm xs') {ys : List β}
    (h : xs.mapM f = .ok ys) : ∃ ys', xs'.mapM f = .ok ys' ∧ ys.Perm ys' := by
  obtain ⟨ys', hys', hyperm⟩ := List.perm_comp_forall₂ hperm.symm (mapM_eq_ok_iff.mp h)
  exact ⟨ys', mapM_eq_ok_iff.mpr hys', hyperm.symm⟩

/-- **Two loops over one list** whose steps have related results have related results. -/
theorem mapM_ok_related {f g : α → Except ε β} {R : β → β → Prop} {xs : List α} {ys : List β}
    (hstep : ∀ x ∈ xs, ∀ y, f x = .ok y → ∃ y', g x = .ok y' ∧ R y y')
    (h : xs.mapM f = .ok ys) : ∃ ys', xs.mapM g = .ok ys' ∧ List.Forall₂ R ys ys' := by
  simp only [mapM_eq_ok_iff] at h ⊢
  induction h with
  | nil => exact ⟨[], .nil, .nil⟩
  | @cons x y xs ys hxy _ ih =>
      obtain ⟨y', hxy', hR⟩ := hstep x List.mem_cons_self y hxy
      obtain ⟨ys', hxs', hRs⟩ := ih fun x' hx' => hstep x' (List.mem_cons_of_mem x hx')
      exact ⟨y' :: ys', .cons hxy' hxs', .cons hR hRs⟩

/-! ### Two loops in a row

A program that first decodes and then converts goes over a list twice, and counts the second
time. -/

section TwoLoops

variable {g : α → Option β} {f : β × ℕ → Except ε γ} {as : List α}

/-- **What two loops make of an element** is what the two steps make of it. -/
theorem forall₂_of_two_loops {T : α → γ → Prop}
    (hT : ∀ a b k c, g a = some b → f (b, k) = .ok c → T a c) {bs : List β} {cs : List γ}
    (hg : as.mapM g = some bs) (hf : bs.zipIdx.mapM f = .ok cs) : List.Forall₂ T as cs := by
  have hcount : List.Forall₂ (fun b c => ∃ k, f (b, k) = .ok c) bs cs := by
    rw [← List.zipIdx_map_fst 0 bs, List.forall₂_map_left_iff]
    exact (mapM_eq_ok_iff.mp hf).imp fun p c hp => ⟨p.2, hp⟩
  refine forall₂_trans (fun a b c hab hbc => ?_) (mapM_eq_some_iff.mp hg) hcount
  obtain ⟨k, hk⟩ := hbc
  exact hT a b k c hab hk

/-- Two loops return if both steps do for each element, whatever the count. -/
theorem exists_two_loops (h : ∀ a ∈ as, ∃ b, g a = some b ∧ ∀ k, ∃ c, f (b, k) = .ok c) :
    ∃ bs, as.mapM g = some bs ∧ ∃ cs, bs.zipIdx.mapM f = .ok cs := by
  obtain ⟨bs, hbs⟩ := exists_mapM_some fun a ha => (h a ha).imp fun b hb => hb.1
  refine ⟨bs, hbs, exists_mapM_ok fun p hp => ?_⟩
  have hmem : p.1 ∈ bs := List.fst_mem_of_mem_zipIdx hp
  obtain ⟨a, ha, hab⟩ := exists_of_forall₂_right (mapM_eq_some_iff.mp hbs) hmem
  obtain ⟨b, hb, hf⟩ := h a ha
  obtain rfl : b = p.1 := Option.some.inj (hb.symm.trans hab)
  exact hf p.2

end TwoLoops

end Golang
