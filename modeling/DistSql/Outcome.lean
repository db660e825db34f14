import Mathlib.Control.Basic

/-!
# Outcomes of Go Functions

A Go call has more ways to go than a Lean function: it returns, it panics and takes
its goroutine with it, or it never comes back. `Outcome α` keeps the three apart, and
the ordinary Go `error` stays an ordinary value inside `α` — an `error` is something a
caller looks at, a panic is not.

The module fixes the monad, its simplification lemmas, and the inversion lemma
`Outcome.bind_eq_ret_iff` by which later proofs peel a computation apart without
unfolding `bind`.
-/

namespace Golang

universe u

/-- The **outcome** of a Go call: it returns a value, it panics with a message, or it
runs forever. -/
inductive Outcome (α : Type u) : Type u
  | ret (a : α)
  | panic (msg : String)
  | hang
  deriving DecidableEq, Repr

namespace Outcome

variable {α β : Type u}

/-- Sequencing: only a returned value reaches the continuation. -/
protected def bind : Outcome α → (α → Outcome β) → Outcome β
  | ret a, f => f a
  | panic m, _ => panic m
  | hang, _ => hang

instance : Monad Outcome where
  pure := ret
  bind := Outcome.bind

/-- A returned value is handed to the continuation. -/
@[simp] theorem ret_bind (a : α) (f : α → Outcome β) : (ret a >>= f) = f a := rfl

/-- A panic is not caught by a continuation. -/
@[simp] theorem panic_bind (m : String) (f : α → Outcome β) :
    (panic m >>= f) = panic m := rfl

/-- Nothing comes after a call that runs forever. -/
@[simp] theorem hang_bind (f : α → Outcome β) : ((hang : Outcome α) >>= f) = hang := rfl

/-- `pure` is a plain return. -/
@[simp] theorem pure_eq_ret (a : α) : (pure a : Outcome α) = ret a := rfl

instance : LawfulMonad Outcome :=
  LawfulMonad.mk' Outcome (fun x => by cases x <;> rfl) (fun _ _ => rfl)
    (fun x _ _ => by cases x <;> rfl)

/-- A sequence returns exactly when both halves do. -/
theorem bind_eq_ret_iff {x : Outcome α} {f : α → Outcome β} {b : β} :
    (x >>= f) = ret b ↔ ∃ a, x = ret a ∧ f a = ret b := by
  cases x with
  | ret a => simp
  | panic m => simp
  | hang => simp

/-- Go on after a call that returned a value; an error is returned on. -/
def okThen (x : Outcome (Except String α)) (k : α → Outcome (Except String β)) :
    Outcome (Except String β) :=
  x >>= fun
    | .error m => ret (.error m)
    | .ok a => k a

@[simp] theorem ret_ok_okThen (a : α) (k : α → Outcome (Except String β)) :
    (ret (.ok a)).okThen k = k a := rfl

@[simp] theorem ret_error_okThen (m : String) (k : α → Outcome (Except String β)) :
    (ret (.error m) : Outcome (Except String α)).okThen k = ret (.error m) := rfl

@[simp] theorem panic_okThen (m : String) (k : α → Outcome (Except String β)) :
    (panic m : Outcome (Except String α)).okThen k = panic m := rfl

/-- The call returned. -/
def Returns : Outcome α → Prop
  | ret _ => True
  | panic _ | hang => False

instance (x : Outcome α) : Decidable x.Returns :=
  match x with
  | ret _ => isTrue trivial
  | panic _ | hang => isFalse id

/-- A returned value is a return. -/
@[simp] theorem returns_ret (a : α) : (ret a).Returns := trivial

/-- A panic is not a return. -/
@[simp] theorem not_returns_panic (m : String) : ¬(panic m : Outcome α).Returns := id

/-- A call that runs forever does not return. -/
@[simp] theorem not_returns_hang : ¬(hang : Outcome α).Returns := id

/-- A call that returns has a value. -/
theorem returns_iff_exists {x : Outcome α} : x.Returns ↔ ∃ a, x = ret a := by
  cases x with
  | ret a => simp
  | panic m => simp
  | hang => simp

/-- A sequence whose continuation always returns does so exactly when its first half
does. -/
theorem returns_bind_iff {x : Outcome α} {f : α → Outcome β} (hf : ∀ a, (f a).Returns) :
    (x >>= f).Returns ↔ x.Returns := by
  cases x with
  | ret a => exact iff_of_true (hf a) trivial
  | panic m => simp
  | hang => simp

end Outcome

end Golang
