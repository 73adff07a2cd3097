import Mathlib.Init

/-- A deterministic machine: where it starts and what each event of its environment does. -/
structure Machine (σ ε : Type*) where
  init : σ
  step : σ → ε → σ

namespace Machine

variable {σ ε : Type*} (M : Machine σ ε)

def runFrom (s : σ) (events : List ε) : σ :=
  events.foldl M.step s

def run (events : List ε) : σ :=
  M.runFrom M.init events

@[simp] theorem runFrom_nil (s : σ) : M.runFrom s [] = s := rfl

@[simp] theorem runFrom_cons (s : σ) (e : ε) (events : List ε) :
    M.runFrom s (e :: events) = M.runFrom (M.step s e) events := rfl

theorem runFrom_append (s : σ) (xs ys : List ε) :
    M.runFrom s (xs ++ ys) = M.runFrom (M.runFrom s xs) ys :=
  List.foldl_append

theorem run_append (xs ys : List ε) : M.run (xs ++ ys) = M.runFrom (M.run xs) ys :=
  M.runFrom_append M.init xs ys

theorem runFrom_invariant {I : σ → Prop} (hstep : ∀ s e, I s → I (M.step s e)) {s : σ}
    (h : I s) (events : List ε) : I (M.runFrom s events) := by
  induction events generalizing s with
  | nil => exact h
  | cons e events ih => exact ih (hstep s e h)

theorem run_invariant {I : σ → Prop} (hinit : I M.init) (hstep : ∀ s e, I s → I (M.step s e))
    (events : List ε) : I (M.run events) :=
  M.runFrom_invariant hstep hinit events

/-- Every event of a run meets `C` in the state that receives it. -/
def Meets (C : σ → ε → Prop) : σ → List ε → Prop
  | _, [] => True
  | s, e :: events => C s e ∧ Meets C (M.step s e) events

theorem runFrom_invariant_of_meets {C : σ → ε → Prop} {I : σ → Prop}
    (hstep : ∀ s e, C s e → I s → I (M.step s e)) {s : σ} (h : I s) {events : List ε}
    (hc : M.Meets C s events) : I (M.runFrom s events) := by
  induction events generalizing s with
  | nil => exact h
  | cons e events ih => exact ih (hstep s e hc.1 h) hc.2

/-- What every step keeps under a condition on its event, a run of such events keeps. -/
theorem runFrom_invariant_of_forall {C : ε → Prop} {I : σ → Prop}
    (hstep : ∀ s e, C e → I s → I (M.step s e)) {s : σ} (h : I s) {events : List ε}
    (hc : ∀ e ∈ events, C e) : I (M.runFrom s events) := by
  induction events generalizing s with
  | nil => exact h
  | cons e events ih =>
    obtain ⟨he, hrest⟩ := List.forall_mem_cons.mp hc
    exact ih (hstep s e he h) hrest

/-- A property that a step keeps exactly under `C` holds after a run exactly if every event meets
`C`. -/
theorem runFrom_iff_meets {C : σ → ε → Prop} {I : σ → Prop}
    (hstep : ∀ s e, I (M.step s e) ↔ I s ∧ C s e) (s : σ) (events : List ε) :
    I (M.runFrom s events) ↔ I s ∧ M.Meets C s events := by
  induction events generalizing s with
  | nil => exact (and_iff_left trivial).symm
  | cons e events ih => rw [runFrom_cons, ih, hstep, and_assoc, Meets]

/-- Machines that take the same steps from every state of an invariant have the same runs. -/
theorem runFrom_congr {M N : Machine σ ε} {I : σ → Prop} (hstep : ∀ s e, I s → I (M.step s e))
    (agree : ∀ s e, I s → M.step s e = N.step s e) {s : σ} (h : I s) (events : List ε) :
    M.runFrom s events = N.runFrom s events := by
  induction events generalizing s with
  | nil => rfl
  | cons e events ih =>
    rw [runFrom_cons, runFrom_cons, ← agree s e h]
    exact ih (hstep s e h)

/-- A machine that contains another one runs it on the events that are meant for it. -/
theorem runFrom_project {τ δ : Type*} {M : Machine σ ε} {N : Machine τ δ} {f : σ → τ}
    {g : ε → Option δ} (hstep : ∀ s e, f (M.step s e) = (g e).elim (f s) (N.step (f s))) (s : σ)
    (events : List ε) : f (M.runFrom s events) = N.runFrom (f s) (events.filterMap g) := by
  induction events generalizing s with
  | nil => rfl
  | cons e events ih =>
    rw [runFrom_cons, ih, hstep]
    cases h : g e with
    | none => rw [List.filterMap_cons_none h, Option.elim_none]
    | some d => rw [List.filterMap_cons_some h, Option.elim_some, runFrom_cons]

end Machine
