import Mathlib.Init

namespace Checked

variable {ε ε' α β : Type}

theorem mapError_eq_ok {x : Except ε α} {g : ε → ε'} {a : α} :
    x.mapError g = .ok a ↔ x = .ok a := by
  cases x with
  | error e =>
    show Except.error (g e) = .ok a ↔ Except.error e = .ok a
    simp
  | ok a' =>
    show Except.ok a' = .ok a ↔ Except.ok a' = .ok a
    simp

/-- Every error of a computation has a property. -/
def Fails (p : ε → Prop) (x : Except ε α) : Prop :=
  ∀ e, x = .error e → p e

theorem fails_ok {p : ε → Prop} (a : α) : Fails p (.ok a : Except ε α) := by
  intro e h
  cases h

theorem fails_error {p : ε → Prop} {e : ε} (h : p e) : Fails p (.error e : Except ε α) := by
  intro e' he
  cases he
  exact h

theorem fails_mapError {p : ε' → Prop} (x : Except ε α) {g : ε → ε'} (h : ∀ e, p (g e)) :
    Fails p (x.mapError g) := by
  cases x with
  | error e => exact fails_error (h e)
  | ok a => exact fails_ok a

theorem bind_eq_ok {x : Except ε α} {f : α → Except ε β} {b : β} :
    (x >>= f) = .ok b ↔ ∃ a, x = .ok a ∧ f a = .ok b := by
  cases x with
  | error e => simp [bind, Except.bind]
  | ok a => simp [bind, Except.bind]

theorem pure_eq_ok {a b : α} : (pure a : Except ε α) = .ok b ↔ a = b := by
  simp [pure, Except.pure]

theorem pair_eq_ok {x : Except ε α} {y : Except ε β} {a : α} {b : β} :
    (do let a ← x; let b ← y; return (a, b)) = .ok (a, b) ↔ x = .ok a ∧ y = .ok b := by
  simp only [bind_eq_ok, pure_eq_ok, Prod.mk.injEq]
  constructor
  · rintro ⟨a', ha, b', hb, rfl, rfl⟩
    exact ⟨ha, hb⟩
  · rintro ⟨ha, hb⟩
    exact ⟨a, ha, b, hb, rfl, rfl⟩

/-- The first failing step decides, so a property of the errors of every step is one of the
whole. -/
theorem Fails.bind {p : ε → Prop} {x : Except ε α} {f : α → Except ε β} (hx : Fails p x)
    (hf : ∀ a, Fails p (f a)) : Fails p (x >>= f) := by
  cases x with
  | error e => exact fails_error (hx e rfl)
  | ok a => exact hf a

end Checked
