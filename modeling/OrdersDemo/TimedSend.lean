import OrdersDemo.Library.Ticker
import OrdersDemo.Metrics
import OrdersDemo.SendMoves

namespace OrdersDemo

/-- How late the timer may be polled without skipping a tick, five milliseconds. -/
def tickTolerance : Duration := 5 * 10 ^ 6

/-- `send_orders` on a clock: its `tick` timer, and the instants of its admissions. -/
structure TimedState (S : Sender) where
  send : SendState S
  now : ℕ
  tick : Ticker
  admitted : List ℕ := []

/-- Time passes, or the runtime takes a step. Whether the tick is ready is left to the timer. -/
inductive TimedEvent (Input : Type) where
  | elapse (duration : Duration)
  | poll (task : ℕ) (input : Input)
  | panic (task : ℕ)
  | wake (shutdown : Bool) (join : Option ℕ) (reporting : Bool)

def wakeUp {I : Type} : TimedEvent I :=
  .wake false none false

section Admits

variable {S : Sender}

/-- A poll of `send_orders` gets as far as the `tick` branch and takes it. -/
def SendState.admits (maxInFlight : ℕ+) (s : SendState S) (ready : Ready) : Bool :=
  match s.phase with
  | .admitting =>
    !ready.shutdown && (s.finished ready.join).isNone && !ready.reporting && ready.tick &&
      s.guard maxInFlight
  | _ => false

theorem SendState.step_admits {m : ℕ+} {s : SendState S} {ready : Ready}
    (h : s.admits m ready = true) : s.step m (.wake ready) = s.dispatch := by
  unfold admits at h
  split at h
  next hphase =>
    simp only [Bool.and_eq_true, Bool.not_eq_true', Option.isNone_iff_eq_none] at h
    obtain ⟨⟨⟨⟨hshutdown, hjoin⟩, hreporting⟩, htick⟩, hguard⟩ := h
    simp [step, hphase, select, hshutdown, hjoin, hreporting, htick, hguard]
  next => cases h

theorem SendState.joined_index (s : SendState S) (t : PendingTask S.Delivery) (o : Outcome) :
    (s.joined t o).index = s.index := by
  cases o <;> rfl

theorem SendState.drain_index (s : SendState S) (ready : Ready) :
    (s.drain ready).index = s.index := by
  unfold drain
  split
  next => rfl
  next =>
    split
    next t o _ => cases o <;> rfl
    next => rfl

theorem SendState.step_wake_index {m : ℕ+} {s : SendState S} {ready : Ready}
    (h : s.admits m ready = false) : (s.step m (.wake ready)).index = s.index := by
  cases hphase : s.phase with
  | draining =>
    simp only [step, hphase]
    exact drain_index s ready
  | returned result => simp only [step, hphase]
  | admitting =>
    simp only [step, hphase, select]
    split
    next => rfl
    next hshutdown =>
      split
      next => exact joined_index s _ _
      next hjoin =>
        split
        next => rfl
        next hreporting =>
          split
          next htick =>
            simp [admits, hphase, hshutdown, hjoin, hreporting, htick] at h
          next => rfl

theorem SendState.step_poll_index (m : ℕ+) (s : SendState S) (i : ℕ) (input : S.Input) :
    (s.step m (.poll i input)).index = s.index := by
  simp only [step]
  split <;> rfl

theorem SendState.step_panic_index (m : ℕ+) (s : SendState S) (i : ℕ) :
    (s.step m (.panic i)).index = s.index := by
  simp only [step]
  split <;> rfl

end Admits

namespace TimedState

variable {S : Sender}

def ready (s : TimedState S) (shutdown : Bool) (join : Option ℕ) (reporting : Bool) : Ready where
  shutdown
  join
  reporting
  tick := s.tick.ready s.now

def step (maxInFlight : ℕ+) (s : TimedState S) : TimedEvent S.Input → TimedState S
  | .elapse duration => { s with now := s.now + duration }
  | .poll task input => { s with send := s.send.step maxInFlight (.poll task input) }
  | .panic task => { s with send := s.send.step maxInFlight (.panic task) }
  | .wake shutdown join reporting =>
    let ready := s.ready shutdown join reporting
    let send := s.send.step maxInFlight (.wake ready)
    if s.send.admits maxInFlight ready then
      { s with
        send
        tick := s.tick.fire tickTolerance s.now
        admitted := s.admitted ++ [s.now] }
    else { s with send }

end TimedState

/-- `send_orders` with its timer, made at `start`. -/
def timedSendOrders (S : Sender) (maxInFlight : ℕ+) (world : S.World) (period : ℕ+) (start : ℕ) :
    Machine (TimedState S) (TimedEvent S.Input) where
  init :=
    { send := { world }
      now := start
      tick := .ofPeriod period start }
  step := TimedState.step maxInFlight

section Runs

variable {S : Sender} {m : ℕ+}

/-- The step that the untimed `send_orders` takes along with a timed event. -/
def TimedEvent.untimed (s : TimedState S) : TimedEvent S.Input → List (SendEvent S.Input)
  | .elapse _ => []
  | .poll task input => [.poll task input]
  | .panic task => [.panic task]
  | .wake shutdown join reporting => [.wake (s.ready shutdown join reporting)]

theorem TimedState.step_send (s : TimedState S) (e : TimedEvent S.Input) (w : S.World) :
    (s.step m e).send = (sendOrders S m w).runFrom s.send (e.untimed s) := by
  cases e with
  | elapse duration => rfl
  | poll task input => rfl
  | panic task => rfl
  | wake shutdown join reporting =>
    simp only [TimedState.step]
    split <;> rfl

/-- The clock decides when ticks are ready and nothing else: a timed run is a run of
`send_orders`. -/
theorem timedSendOrders_refines (w : S.World) (period : ℕ+) (start : ℕ)
    (events : List (TimedEvent S.Input)) :
    ∃ untimed, ((timedSendOrders S m w period start).run events).send =
      (sendOrders S m w).run untimed := by
  apply (timedSendOrders S m w period start).run_invariant
    (I := fun s => ∃ untimed, s.send = (sendOrders S m w).run untimed)
  · exact ⟨[], rfl⟩
  · rintro s e ⟨untimed, h⟩
    refine ⟨untimed ++ e.untimed s, ?_⟩
    have hstep : (s.step m e).send = (sendOrders S m w).runFrom s.send (e.untimed s) :=
      s.step_send e w
    rw [Machine.run_append, ← h]
    exact hstep

theorem TimedState.step_admitted (s : TimedState S) (e : TimedEvent S.Input)
    (h : s.admitted.length = s.send.index) :
    (s.step m e).admitted.length = (s.step m e).send.index := by
  cases e with
  | elapse duration => exact h
  | poll task input => exact h.trans (s.send.step_poll_index m task input).symm
  | panic task => exact h.trans (s.send.step_panic_index m task).symm
  | wake shutdown join reporting =>
    simp only [TimedState.step]
    split
    next hadmits =>
      have hindex : s.send.dispatch.index = s.send.index + 1 := rfl
      rw [SendState.step_admits hadmits, List.length_append, List.length_singleton, h, hindex]
    next hadmits =>
      have hindex := SendState.step_wake_index (eq_false_of_ne_true hadmits)
      exact h.trans hindex.symm

theorem timedSendOrders_admitted (w : S.World) (period : ℕ+) (start : ℕ)
    (events : List (TimedEvent S.Input)) :
    let s := (timedSendOrders S m w period start).run events
    s.admitted.length = s.send.index :=
  (timedSendOrders S m w period start).run_invariant
    (I := fun s => s.admitted.length = s.send.index) rfl (fun s e h => s.step_admitted e h) events

end Runs

end OrdersDemo
