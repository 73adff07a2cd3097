import OrdersDemo.Library.KeyedAdmission
import OrdersDemo.SendOrders

namespace OrdersDemo

variable {S : Sender}

/-- What one step of the runtime can do. -/
inductive Move (maxInFlight : ℕ+) (s : SendState S) : SendState S → Prop
  | stay : Move maxInFlight s s
  | poll {t d} (input : S.Input) : t ∈ s.pending → t.state = .running d →
      Move maxInFlight s (s.polled t.index d input)
  | panic {t d} : t ∈ s.pending → t.state = .running d →
      Move maxInFlight s (s.panicked t.index)
  | stop : s.phase = .admitting → Move maxInFlight s { s with phase := .draining }
  | join {t o} : s.phase = .admitting → t ∈ s.pending → t.state = .finished o →
      Move maxInFlight s (s.joined t o)
  | dispatch : s.phase = .admitting → s.guard maxInFlight = true → Move maxInFlight s s.dispatch
  | drain {t o} : s.phase = .draining → t ∈ s.pending → t.state = .finished o →
      Move maxInFlight s (s.drained t o)
  | finish : s.phase = .draining → s.pending = [] →
      Move maxInFlight s { s with phase := .returned s.result }

theorem finished_spec {s : SendState S} {choice : Option ℕ} {t : PendingTask S.Delivery}
    {o : Outcome} (h : s.finished choice = some (t, o)) :
    t ∈ s.pending ∧ t.state = .finished o ∧ choice = some t.index := by
  obtain ⟨i, hi, h⟩ := Option.bind_eq_some_iff.mp h
  obtain ⟨u, hu, h⟩ := Option.bind_eq_some_iff.mp h
  cases hs : u.state with
  | running d => simp [hs] at h
  | finished o' =>
    simp only [hs, Option.some.injEq, Prod.mk.injEq] at h
    obtain ⟨rfl, rfl⟩ := h
    have hidx : u.index = i := by simpa using List.find?_some hu
    exact ⟨List.mem_of_find?_eq_some hu, hs, by rw [hi, hidx]⟩

theorem delivery_spec {s : SendState S} {i : ℕ} {d : S.Delivery} (h : s.delivery i = some d) :
    ∃ t ∈ s.pending, t.state = .running d ∧ t.index = i := by
  obtain ⟨t, ht, h⟩ := Option.bind_eq_some_iff.mp h
  cases hs : t.state with
  | finished o => simp [hs] at h
  | running d' =>
    simp only [hs, Option.some.injEq] at h
    subst h
    exact ⟨t, List.mem_of_find?_eq_some ht, hs, by simpa using List.find?_some ht⟩

theorem select_move {m : ℕ+} {s : SendState S} (hp : s.phase = .admitting) (ready : Ready) :
    Move m s (s.select m ready) := by
  unfold SendState.select
  split
  next => exact .stop hp
  next =>
    split
    next t o h =>
      obtain ⟨ht, hs, _⟩ := finished_spec h
      exact .join hp ht hs
    next =>
      split
      next => exact .stay
      next =>
        split
        next h => exact .dispatch hp (Bool.and_eq_true_iff.mp h).2
        next => exact .stay

theorem drain_move {m : ℕ+} {s : SendState S} (hp : s.phase = .draining) (ready : Ready) :
    Move m s (s.drain ready) := by
  unfold SendState.drain
  split
  next h => exact .finish hp (List.isEmpty_iff.mp h)
  next =>
    split
    next t o h =>
      obtain ⟨ht, hs, _⟩ := finished_spec h
      exact .drain hp ht hs
    next => exact .stay

theorem step_move (m : ℕ+) (s : SendState S) (e : SendEvent S.Input) :
    Move m s (s.step m e) := by
  cases e with
  | poll i input =>
    simp only [SendState.step]
    split
    next d h =>
      obtain ⟨t, ht, hs, rfl⟩ := delivery_spec h
      exact .poll input ht hs
    next => exact .stay
  | panic i =>
    simp only [SendState.step]
    split
    next d h =>
      obtain ⟨t, ht, hs, rfl⟩ := delivery_spec h
      exact .panic ht hs
    next => exact .stay
  | wake ready =>
    simp only [SendState.step]
    split
    next h => exact select_move h ready
    next h => exact drain_move h ready
    next => exact .stay

/-- What every move of the scheduler preserves, every run preserves. -/
theorem sendOrders_invariant {m : ℕ+} {w : S.World} {I : SendState S → Prop}
    (hinit : I { world := w }) (hmove : ∀ s s', I s → Move m s s' → I s')
    (events : List (SendEvent S.Input)) : I ((sendOrders S m w).run events) :=
  (sendOrders S m w).run_invariant hinit
    (fun s e hs => hmove s _ hs (step_move m s e)) events

end OrdersDemo
