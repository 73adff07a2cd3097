import OrdersDemo.Library.History

namespace Runbook

variable {C : Type*} {tolerated : C → Bool}

/-- A command has passed if it succeeded or if its failure is tolerated. -/
def passed (tolerated : C → Bool) (c : C) (code : ℕ) : Bool :=
  tolerated c || decide (code = 0)

@[simp] theorem passed_zero (c : C) : passed tolerated c 0 = true := by
  simp [passed]

theorem passed_of_tolerated {c : C} (h : tolerated c = true) (code : ℕ) :
    passed tolerated c code = true := by
  rw [passed, h, Bool.true_or]

theorem passed_of_not {c : C} (h : tolerated c = false) (code : ℕ) :
    passed tolerated c code = decide (code = 0) := by
  rw [passed, h, Bool.false_or]

variable [DecidableEq C] {plan : List (C × Bool)}

/-- What a plan asks for before a command: the part of the plan up to where it first stands. -/
def guards (plan : List (C × Bool)) (c : C) : List (C × Bool) :=
  if c ∈ plan.map Prod.fst then plan.takeWhile (·.1 ≠ c) else []

def answers (tolerated : C → Bool) (log : List (C × ℕ)) : List (C × Bool) :=
  log.map fun entry => (entry.1, passed tolerated entry.1 entry.2)

/-- No command of the plan was run before what stands before it in the plan. -/
def Gated (tolerated : C → Bool) (plan : List (C × Bool)) (log : List (C × ℕ)) : Prop :=
  History.Causal
    (fun earlier entry => (guards plan entry.1).Sublist (answers tolerated earlier)) log

/-- A log that has got so far in the plan. -/
structure At (tolerated : C → Bool) (plan done : List (C × Bool)) (log : List (C × ℕ)) :
    Prop where
  seen : done.Sublist (answers tolerated log)
  gated : Gated tolerated plan log

theorem at_nil : At tolerated plan [] [] :=
  ⟨List.Sublist.slnil, History.causal_nil _⟩

theorem At.mono {done done' : List (C × Bool)} {log : List (C × ℕ)}
    (h : At tolerated plan done log) (hsub : done'.Sublist done) :
    At tolerated plan done' log :=
  ⟨hsub.trans h.seen, h.gated⟩

/-- A command that the plan lets through gets the log one entry further. -/
theorem At.record {done : List (C × Bool)} {log : List (C × ℕ)} {c : C}
    (h : At tolerated plan done log) (hguards : (guards plan c).Sublist done) (code : ℕ) :
    At tolerated plan (done ++ [(c, passed tolerated c code)]) (log ++ [(c, code)]) := by
  refine ⟨?_, h.gated.concat (hguards.trans h.seen)⟩
  rw [answers, List.map_append]
  exact h.seen.append (List.Sublist.refl _)

theorem guards_of_not_mem {c : C} (hc : c ∉ plan.map Prod.fst) : guards plan c = [] :=
  if_neg hc

/-- A plan asks for no more than what stands before any of a command's places in it. -/
theorem guards_sublist {n : ℕ} {c : C} {ok : Bool} (hn : plan[n]? = some (c, ok)) :
    (guards plan c).Sublist (plan.take n) := by
  unfold guards
  split
  next =>
    clear * - hn
    induction plan generalizing n with
    | nil => simp at hn
    | cons d plan ih =>
      cases n with
      | zero => simp [Option.some.inj hn]
      | succ n =>
        rw [List.takeWhile_cons, List.take_succ_cons]
        split
        · exact (ih hn).cons_cons d
        · exact List.nil_sublist _
  next => exact List.nil_sublist _

theorem At.next {n : ℕ} {log : List (C × ℕ)} {c : C} {code : ℕ}
    (h : At tolerated plan (plan.take n) log)
    (hn : plan[n]? = some (c, passed tolerated c code)) :
    At tolerated plan (plan.take (n + 1)) (log ++ [(c, code)]) := by
  rw [List.take_add_one, hn]
  exact h.record (guards_sublist hn) code

end Runbook
