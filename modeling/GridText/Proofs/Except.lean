import Mathlib.Tactic.Common

/-! # Results: what a chain of steps went through

* `bind_eq_ok_iff`, `bind_eq_error_iff`: a chain of two steps gives a value when both steps do, and an
  error when one of them does.
* `Related.bind`: two chains go the same way when their steps do. -/

namespace GridText.Except

variable {ε ε' α β : Type}

theorem bind_eq_ok_iff {x : Except ε α} {f : α → Except ε β} {b : β} :
    x >>= f = .ok b ↔ ∃ a, x = .ok a ∧ f a = .ok b := by
  cases x <;> simp [bind, Except.bind]

theorem bind_eq_error_iff {x : Except ε α} {f : α → Except ε β} {e : ε} :
    x >>= f = .error e ↔ x = .error e ∨ ∃ a, x = .ok a ∧ f a = .error e := by
  cases x <;> simp [bind, Except.bind]

theorem pure_eq_ok_iff {a b : α} : (pure a : Except ε α) = .ok b ↔ b = a := by
  simp [pure, Except.pure, eq_comm]

theorem mapError_eq_ok_iff {x : Except ε α} {f : ε → ε'} {a : α} :
    x.mapError f = .ok a ↔ x = .ok a := by
  cases x <;> simp [Except.mapError]

theorem mapError_eq_error_iff {x : Except ε α} {f : ε → ε'} {e : ε'} :
    x.mapError f = .error e ↔ ∃ d, x = .error d ∧ f d = e := by
  cases x <;> simp [Except.mapError]

/-! ### Two results -/

/-- **Both results are values, or both are errors**, and the two are related. -/
inductive Related (E : ε → ε → Prop) (R : α → α → Prop) : Except ε α → Except ε α → Prop
  | ok {a a' : α} : R a a' → Related E R (.ok a) (.ok a')
  | error {e e' : ε} : E e e' → Related E R (.error e) (.error e')

namespace Related

variable {E : ε → ε → Prop} {E' : ε' → ε' → Prop} {R : α → α → Prop} {S : β → β → Prop}
  {x x' : Except ε α}

theorem of_eq (hE : ∀ e, E e e) (h : x = x') : Related E Eq x x' := by
  subst h
  cases x with
  | ok a => exact .ok rfl
  | error e => exact .error (hE e)

theorem bind {f f' : α → Except ε β} (h : Related E R x x')
    (hf : ∀ a a', x = .ok a → x' = .ok a' → R a a' → Related E S (f a) (f' a')) :
    Related E S (x >>= f) (x' >>= f') := by
  cases h with
  | ok ha => exact hf _ _ rfl rfl ha
  | error he => exact .error he

theorem mapError {f : ε → ε'} (h : Related E R x x') (hf : ∀ e e', E e e' → E' (f e) (f e')) :
    Related E' R (x.mapError f) (x'.mapError f) := by
  cases h with
  | ok ha => exact .ok ha
  | error he => exact .error (hf _ _ he)

end Related

end GridText.Except
