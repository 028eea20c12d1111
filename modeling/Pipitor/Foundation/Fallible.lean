import Mathlib.Init

/-!
# Computations that may fail

How `Except` goes on after a step, and when a fold over fallible steps succeeds.
-/

namespace Fallible

universe u v

variable {ε : Type u} {α β : Type v}

@[simp]
theorem ok_bind (a : α) (f : α → Except ε β) : (Except.ok a >>= f) = f a := rfl

@[simp]
theorem error_bind (e : ε) (f : α → Except ε β) : (Except.error e >>= f) = .error e := rfl

theorem bind_eq_ok_iff {x : Except ε α} {f : α → Except ε β} {b : β} :
    (x >>= f) = .ok b ↔ ∃ a, x = .ok a ∧ f a = .ok b := by
  cases x with
  | error e => simp
  | ok a => simp

/-- The computation gives a value. -/
def Succeeds (x : Except ε α) : Prop := ∃ a, x = .ok a

@[simp]
theorem succeeds_ok (a : α) : Succeeds (.ok a : Except ε α) := ⟨a, rfl⟩

@[simp]
theorem not_succeeds_error (e : ε) : ¬ Succeeds (.error e : Except ε α) := by
  intro h
  obtain ⟨a, ha⟩ := h
  contradiction

theorem exists_error {x : Except ε α} (h : ¬ Succeeds x) : ∃ e, x = .error e := by
  cases x with
  | error e => exact ⟨e, rfl⟩
  | ok a => exact absurd (succeeds_ok a) h

theorem Succeeds.of_bind {x : Except ε α} {f : α → Except ε β} (h : Succeeds (x >>= f)) : Succeeds x := by
  cases x with
  | error e => exact absurd h (not_succeeds_error e)
  | ok a => exact succeeds_ok a

end Fallible
