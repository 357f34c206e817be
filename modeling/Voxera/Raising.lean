import Mathlib.Logic.Basic

/-!
# Computations that return or raise

`Except ε α` is what a function that may raise gives: a value, or the exception.

* `ensure`, `present` : a check, and a look-up whose failure raises;
* `bind_eq_ok`, `ensure_eq_ok`, `present_eq_ok` : a chain of checks returns exactly when every one of them passes.
-/

namespace Raising

universe u v

variable {ε : Type u} {α β : Type v}

/-- `if not c: raise e` -/
def ensure (c : Bool) (e : ε) : Except ε Unit := if c then .ok () else .error e

/-- `if not o: raise e`, and the value of `o` after that. -/
def present (o : Option α) (e : ε) : Except ε α :=
  match o with
  | some a => .ok a
  | none => .error e

theorem bind_eq_ok {x : Except ε α} {f : α → Except ε β} {b : β} :
    (x >>= f) = .ok b ↔ ∃ a, x = .ok a ∧ f a = .ok b := by
  cases x with
  | error e =>
      constructor
      · intro h; cases h
      · rintro ⟨_, h, _⟩; cases h
  | ok a =>
      constructor
      · intro h; exact ⟨a, rfl, h⟩
      · rintro ⟨_, ha, h⟩; cases ha; exact h

@[simp] theorem ensure_eq_ok {c : Bool} {e : ε} {u : Unit} : ensure c e = .ok u ↔ c = true := by
  cases c <;> simp [ensure]

@[simp] theorem present_eq_ok {o : Option α} {e : ε} {a : α} : present o e = .ok a ↔ o = some a := by
  cases o <;> simp [present]

@[simp] theorem pure_eq_ok {a b : α} : (pure a : Except ε α) = .ok b ↔ a = b :=
  ⟨fun h => Except.ok.inj h, fun h => congrArg Except.ok h⟩

/-- A computation that does not return raises. -/
theorem raises_of_not_returns {x : Except ε α} (h : ∀ a, x ≠ .ok a) : ∃ e, x = .error e := by
  cases x with
  | error e => exact ⟨e, rfl⟩
  | ok a => exact absurd rfl (h a)

end Raising
