import Mathlib.Data.List.Forall2
import Mathlib.Data.List.Nodup

/-!
# Placeholders

How the arguments of a statement reach its placeholders. A placeholder has a position, and it
may have a name. An argument with a name reaches the placeholders of that name, and one without
a name reaches the placeholder at its own position in the list. Of several arguments that reach
one placeholder the last is kept.

The arguments may be of any type that has names.

## Main results

* `reaching_append`: what reaches a placeholder, part by part.
* `ReachAlike.flatten`: lists whose parts reach alike do so themselves.
* `reachAlike_of_perm`: **arguments with distinct names reach alike in any order**.
-/

namespace Sqlite

/-- A placeholder of a statement. The name is without the sign before it. -/
structure Placeholder where
  position : ℕ
  name : Option String
  deriving DecidableEq, Repr

/-- An argument of this name, at position `k`, reaches the placeholder. -/
def Placeholder.Reached (ph : Placeholder) (k : ℕ) (name : String) : Prop :=
  if name = "" then ph.position = k else ph.name = some name

instance (ph : Placeholder) (k : ℕ) (name : String) : Decidable (ph.Reached k name) :=
  inferInstanceAs (Decidable (if name = "" then ph.position = k else ph.name = some name))

/-- What reaches a placeholder without a name. -/
theorem Placeholder.reached_anonymous {q k : ℕ} {name : String} :
    Placeholder.Reached ⟨q, none⟩ k name ↔ name = "" ∧ q = k := by
  unfold Placeholder.Reached
  by_cases hname : name = "" <;> simp [hname]

variable {α β : Type}

/-- The arguments that reach a placeholder, in order; the first of the list is at position
`k`. -/
def reaching (name : α → String) (ph : Placeholder) : ℕ → List α → List α
  | _, [] => []
  | k, a :: rest => (if ph.Reached k (name a) then [a] else []) ++ reaching name ph (k + 1) rest

variable {name : α → String} {ph : Placeholder}

/-- **What reaches a placeholder, part by part.** -/
theorem reaching_append (k : ℕ) (as bs : List α) :
    reaching name ph k (as ++ bs) =
      reaching name ph k as ++ reaching name ph (k + as.length) bs := by
  induction as generalizing k with
  | nil => rfl
  | cons a as ih =>
      have hlen : k + (a :: as).length = k + 1 + as.length := by
        rw [List.length_cons]
        omega
      rw [List.cons_append, reaching, reaching, ih, hlen, List.append_assoc]

/-- Nothing reaches a placeholder without a name whose position is before a list, or after
it. -/
theorem reaching_outside {k q : ℕ} {as : List α} (h : q < k ∨ k + as.length ≤ q) :
    reaching name ⟨q, none⟩ k as = [] := by
  induction as generalizing k with
  | nil => rfl
  | cons a as ih =>
      rw [List.length_cons] at h
      have hnot : ¬Placeholder.Reached ⟨q, none⟩ k (name a) := by
        rw [Placeholder.reached_anonymous]
        omega
      rw [reaching, if_neg hnot, ih (by omega), List.append_nil]

/-- What reaches the position at which a list starts. -/
theorem reaching_first (k : ℕ) (a : α) (as : List α) :
    reaching name ⟨k, none⟩ k (a :: as) = [] ↔ name a ≠ "" := by
  rw [reaching, reaching_outside (.inl (Nat.lt_succ_self k)), List.append_nil]
  simp [Placeholder.reached_anonymous]

/-- Arguments with names reach the placeholders of their names, at any position. -/
theorem reaching_named {as : List α} (h : ∀ a ∈ as, name a ≠ "") (k : ℕ) :
    reaching name ph k as = as.filter fun a => ph.name = some (name a) := by
  induction as generalizing k with
  | nil => rfl
  | cons a as ih =>
      have hreached : ph.Reached k (name a) ↔ ph.name = some (name a) := by
        rw [Placeholder.Reached, if_neg (h a List.mem_cons_self)]
      rw [reaching, ih fun b hb => h b (List.mem_cons_of_mem a hb), List.filter_cons]
      by_cases hname : ph.name = some (name a) <;> simp [hreached, hname]

/-- Arguments that are related one by one, with the same names, reach the same placeholders. -/
theorem reaching_forall₂ {R : α → β → Prop} {name' : β → String}
    (hname : ∀ a b, R a b → name a = name' b) {as : List α} {bs : List β}
    (h : List.Forall₂ R as bs) (k : ℕ) :
    List.Forall₂ R (reaching name ph k as) (reaching name' ph k bs) := by
  induction h generalizing k with
  | nil => exact .nil
  | @cons a b as bs hab _ ih =>
      rw [reaching, reaching, hname a b hab]
      refine List.rel_append ?_ (ih (k + 1))
      split
      · exact .cons hab .nil
      · exact .nil

/-- Lists that **reach alike**: they are of one length, and the same arguments of them reach
every placeholder, wherever they start. -/
def ReachAlike (name : α → String) (as bs : List α) : Prop :=
  as.length = bs.length ∧ ∀ ph k, reaching name ph k as = reaching name ph k bs

/-- A list reaches like itself. -/
theorem ReachAlike.refl (as : List α) : ReachAlike name as as := ⟨rfl, fun _ _ => rfl⟩

/-- Lists whose parts reach alike do so themselves. -/
theorem ReachAlike.flatten {ass bss : List (List α)}
    (h : List.Forall₂ (ReachAlike name) ass bss) : ReachAlike name ass.flatten bss.flatten := by
  induction h with
  | nil => exact .refl []
  | @cons as bs ass bss hab _ ih =>
      rw [List.flatten_cons, List.flatten_cons]
      refine ⟨by rw [List.length_append, List.length_append, hab.1, ih.1], fun ph k => ?_⟩
      rw [reaching_append, reaching_append, hab.2, hab.1, ih.2]

/-- Of arguments with distinct names, at most one is of a given name. -/
theorem length_filter_name_le {as : List α} (h : (as.map name).Nodup) (o : Option String) :
    (as.filter fun a => o = some (name a)).length ≤ 1 := by
  cases o with
  | none => simp
  | some n =>
      have hcount := List.nodup_iff_count_le_one.mp h n
      rw [List.count, List.countP_map, List.countP_eq_length_filter] at hcount
      have hpred : (fun a => decide (some n = some (name a))) = (· == n) ∘ name := by
        funext a
        simp [beq_eq_decide, eq_comm]
      rw [hpred]
      exact hcount

/-- A list of at most one element has no other order. -/
theorem eq_of_perm_of_length_le {as bs : List α} (hperm : as.Perm bs) (hlen : as.length ≤ 1) :
    as = bs := by
  match as with
  | [] => exact (List.nil_perm.mp hperm).symm
  | [a] => exact List.singleton_perm.mp hperm
  | a :: b :: rest =>
      rw [List.length_cons, List.length_cons] at hlen
      omega

/-- **Arguments with distinct names reach alike in any order.** -/
theorem reachAlike_of_perm {as bs : List α} (hperm : as.Perm bs) (hne : ∀ a ∈ as, name a ≠ "")
    (hnodup : (as.map name).Nodup) : ReachAlike name as bs := by
  refine ⟨hperm.length_eq, fun ph k => ?_⟩
  rw [reaching_named hne, reaching_named fun b hb => hne b (hperm.mem_iff.mpr hb)]
  -- the names are distinct, so at most one argument is left
  exact eq_of_perm_of_length_le (hperm.filter _) (length_filter_name_le hnodup ph.name)

end Sqlite
