import Mathlib.Logic.Basic

/-!
Checks that a call makes one after the other: each passes or ends the call with its own error.  A chain of
checks passes just if each of them does.
-/

namespace Check

variable {ε α β : Type} {c : Prop} [Decidable c] {e : ε}

def ensure (c : Prop) [Decidable c] (e : ε) : Except ε Unit := if c then .ok () else .error e

@[simp] theorem ensure_eq_ok {u : Unit} : (ensure c e) = .ok u ↔ c := by
  by_cases hc : c <;> simp [ensure]

@[simp] theorem bind_eq_ok {x : Except ε α} {f : α → Except ε β} {b : β} :
    (x >>= f) = .ok b ↔ ∃ a, x = .ok a ∧ f a = .ok b := by
  cases x <;> simp [bind, Except.bind]

@[simp] theorem pure_eq_ok {a b : α} : (pure a : Except ε α) = .ok b ↔ a = b := by
  simp [pure, Except.pure]

theorem eq_ok_of_mapError {ε' : Type} {f : ε → ε'} {x : Except ε α} {a : α} (h : x.mapError f = .ok a) : x = .ok a := by
  cases x with
  | error e => cases h
  | ok b => exact congrArg Except.ok (Except.ok.inj h)

end Check
