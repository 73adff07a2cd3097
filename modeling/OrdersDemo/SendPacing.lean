import OrdersDemo.TimedSend

namespace OrdersDemo

/-- At most one admission in each period slot, and so few in every window. -/
def Paced (period : ℕ+) (start : ℕ) (admitted : List ℕ) : Prop :=
  (∀ k, admitted.countP (fun time => start + k * period ≤ time ∧
    time < start + (k + 1) * period) ≤ 1) ∧
    ∀ a len, admitted.countP (fun time => a ≤ time ∧ time ≤ a + len) ≤ len / period + 2

section Periods

variable {S : Sender} {m : ℕ+} {period : ℕ+} {start : ℕ}

/-- Every admission lies in a slot of its own, before the deadline of the timer. -/
structure PacedInv (period : ℕ+) (start : ℕ) (s : TimedState S) : Prop where
  period : s.tick.period = period
  start : s.tick.start = start
  aligned : s.tick.Aligned
  passed : ∀ time ∈ s.admitted, s.tick.nextSlot time ≤ s.tick.deadline
  slots : (s.admitted.map s.tick.slot).Pairwise (· < ·)

theorem SendState.admits_tick {s : SendState S} {ready : Ready} (h : s.admits m ready = true) :
    ready.tick = true := by
  unfold admits at h
  split at h
  next =>
    simp only [Bool.and_eq_true] at h
    exact h.1.2
  next => cases h

theorem PacedInv.fire {s : TimedState S} (h : PacedInv period start s)
    (hperiod : tickTolerance < period) (hready : s.tick.ready s.now = true)
    (send : SendState S) :
    PacedInv period start { s with
      send
      tick := s.tick.fire tickTolerance s.now
      admitted := s.admitted ++ [s.now] } := by
  have hdue : s.tick.deadline ≤ s.now := of_decide_eq_true hready
  have hlater : tickTolerance < s.tick.period := by
    rw [h.period]
    exact hperiod
  have hdeadline : (s.tick.fire tickTolerance s.now).deadline = s.tick.nextSlot s.now :=
    Ticker.fire_deadline h.aligned hlater hready
  have hnow := s.tick.lt_nextSlot s.now
  refine ⟨h.period, h.start, h.aligned.fire tickTolerance s.now, ?_, ?_⟩
  · intro time htime
    show s.tick.nextSlot time ≤ (s.tick.fire tickTolerance s.now).deadline
    rw [hdeadline]
    rcases List.mem_append.mp htime with hold | hnew
    · have hpassed := h.passed time hold
      omega
    · obtain rfl := List.mem_singleton.mp hnew
      exact le_rfl
  · show ((s.admitted ++ [s.now]).map s.tick.slot).Pairwise (· < ·)
    rw [List.map_append, List.pairwise_append]
    refine ⟨h.slots, List.pairwise_singleton _ _, ?_⟩
    intro slot hslot last hlast
    obtain ⟨time, htime, rfl⟩ := List.mem_map.mp hslot
    obtain rfl := List.mem_singleton.mp hlast
    have hpassed := h.passed time htime
    exact Ticker.slot_lt_of_nextSlot_le (by omega)

theorem PacedInv.step {s : TimedState S} (h : PacedInv period start s)
    (hperiod : tickTolerance < period) (e : TimedEvent S.Input) :
    PacedInv period start (s.step m e) := by
  have hframe (send : SendState S) (now : ℕ) :
      PacedInv period start { s with send := send, now := now } :=
    ⟨h.period, h.start, h.aligned, h.passed, h.slots⟩
  cases e with
  | elapse duration => exact hframe _ _
  | poll task input => exact hframe _ _
  | panic task => exact hframe _ _
  | wake shutdown join reporting =>
    simp only [TimedState.step]
    split
    next hadmits => exact h.fire hperiod (SendState.admits_tick hadmits) _
    next => exact hframe _ _

theorem PacedInv.paced {s : TimedState S} (h : PacedInv period start s) :
    Paced period start s.admitted := by
  have hnodup : (s.admitted.map s.tick.slot).Nodup := h.slots.imp Nat.ne_of_lt
  constructor
  · intro k
    have hslot := s.tick.slot_le_one hnodup k
    rwa [h.start, h.period] at hslot
  · intro a len
    have hwindow := s.tick.window_le hnodup a len
    rwa [h.period] at hwindow

theorem timedSendOrders_paced (hperiod : tickTolerance < period) (w : S.World)
    (events : List (TimedEvent S.Input)) :
    Paced period start ((timedSendOrders S m w period start).run events).admitted := by
  have hinv : PacedInv period start ((timedSendOrders S m w period start).run events) := by
    apply (timedSendOrders S m w period start).run_invariant
    · exact ⟨rfl, rfl, Ticker.aligned_ofPeriod period start, by simp [timedSendOrders],
        List.Pairwise.nil⟩
    · intro s e h
      exact h.step hperiod e
  exact hinv.paced

end Periods

section Burst

variable {m : ℕ+}

/-- Nothing is in flight, and `send_orders` admits. -/
structure Quiet (s : SendState flagSender) : Prop where
  phase : s.phase = .admitting
  pending : s.pending = []
  activeKeys : s.activeKeys = ∅

theorem Quiet.admits {s : SendState flagSender} (h : Quiet s) {ready : Ready}
    (hshutdown : ready.shutdown = false) (hjoin : ready.join = none)
    (hreporting : ready.reporting = false) (htick : ready.tick = true) :
    s.admits m ready = true := by
  simp [SendState.admits, h.phase, hshutdown, hjoin, hreporting, htick, SendState.finished,
    SendState.guard, h.pending, h.activeKeys]

/-- A lone delivery that returns is joined by the next poll, which admits nothing. -/
theorem Quiet.delivered {s : SendState flagSender} (h : Quiet s) (tick : Bool) :
    let delivered := s.dispatch.step m (.poll s.index true)
    let ready : Ready := { join := some s.index, tick }
    delivered.admits m ready = false ∧ Quiet (delivered.step m (.wake ready)) ∧
      (delivered.step m (.wake ready)).index = s.index + 1 := by
  intro delivered ready
  have hpoll : delivered =
      { s.dispatch with
        pending := [⟨s.index, s.next.category, .finished (.returned true)⟩]
        trace := s.dispatch.trace ++ [.finish s.index (.returned true)] } := by
    simp only [delivered, SendState.step, SendState.delivery, SendState.dispatch, h.pending,
      SendState.polled, List.nil_append, List.find?_singleton, decide_true, if_true,
      Option.bind_eq_bind, Option.bind_some, setTask, List.map_singleton]
    rfl
  rw [hpoll]
  refine ⟨?_, ⟨?_, ?_, ?_⟩, ?_⟩ <;>
    simp [SendState.step, SendState.admits, SendState.dispatch, h.phase, h.activeKeys,
      SendState.select, SendState.finished, SendState.joined, SendState.take, ready]

def lone (i : ℕ) (latency : Duration) : List (TimedEvent flagSender.Input) :=
  [wakeUp, .elapse latency, .poll i true, .wake false (some i) false]

theorem Quiet.lone {s : TimedState flagSender} (h : Quiet s.send)
    (hready : s.tick.ready s.now = true) (period : ℕ+) (start : ℕ) (latency : Duration) :
    let s' := (timedSendOrders flagSender m () period start).runFrom s (lone s.send.index latency)
    Quiet s'.send ∧ s'.send.index = s.send.index + 1 ∧ s'.now = s.now + latency ∧
      s'.tick = s.tick.fire tickTolerance s.now ∧ s'.admitted = s.admitted ++ [s.now] := by
  have hadmits : s.send.admits m (s.ready false none false) = true := h.admits rfl rfl rfl hready
  have hwake : s.step m wakeUp = { s with
      send := s.send.dispatch
      tick := s.tick.fire tickTolerance s.now
      admitted := s.admitted ++ [s.now] } := by
    simp only [TimedState.step, wakeUp, hadmits, if_true, SendState.step_admits hadmits]
  have hdelivered := Quiet.delivered (m := m) h
    ((s.tick.fire tickTolerance s.now).ready (s.now + latency))
  intro s'
  have hs' : s' = { s with
      send := (s.send.dispatch.step m (.poll s.send.index true)).step m
        (.wake { join := some s.send.index
                 tick := (s.tick.fire tickTolerance s.now).ready (s.now + latency) })
      now := s.now + latency
      tick := s.tick.fire tickTolerance s.now
      admitted := s.admitted ++ [s.now] } := by
    show (((s.step m wakeUp).step m (.elapse latency)).step m (.poll s.send.index true)).step m
      (.wake false (some s.send.index) false) = _
    rw [hwake]
    exact if_neg (ne_true_of_eq_false hdelivered.1)
  rw [hs']
  exact ⟨hdelivered.2.1, hdelivered.2.2, rfl, rfl, rfl⟩

/-- The second order is admitted two periods after the first, on time by the tolerance of the
timer, whose next deadline is then already there. -/
def burst (period : ℕ+) : List (TimedEvent flagSender.Input) :=
  lone 0 (2 * period) ++ (lone 1 0 ++ lone 2 0)

theorem burst_admitted {period : ℕ+} (hperiod : (period : ℕ) ≤ tickTolerance) (start : ℕ) :
    ((timedSendOrders flagSender m () period start).run (burst period)).admitted =
      [start, start + 2 * period, start + 2 * period] := by
  let M := timedSendOrders flagSender m () period start
  have hquiet : Quiet M.init.send := ⟨rfl, rfl, rfl⟩
  have hready : M.init.tick.ready M.init.now = true := decide_eq_true le_rfl
  obtain ⟨hquiet₁, hindex₁, hnow₁, htick₁, hadmitted₁⟩ :=
    hquiet.lone (m := m) hready period start (2 * period)
  set s₁ := M.runFrom M.init (lone M.init.send.index (2 * period))
  have hdeadline₁ : s₁.tick.deadline = start + period := by
    rw [htick₁]
    exact Ticker.fire_deadline_of_le (Nat.le_add_right start tickTolerance)
  have hinstant₁ : s₁.now = start + 2 * period := hnow₁
  have hready₁ : s₁.tick.ready s₁.now = true := by
    apply decide_eq_true
    omega
  obtain ⟨hquiet₂, hindex₂, hnow₂, htick₂, hadmitted₂⟩ :=
    hquiet₁.lone (m := m) hready₁ period start 0
  set s₂ := M.runFrom s₁ (lone s₁.send.index 0)
  have hdeadline₂ : s₂.tick.deadline = start + period + period := by
    rw [htick₂, Ticker.fire_deadline_of_le (by omega), hdeadline₁, htick₁]
    rfl
  have hready₂ : s₂.tick.ready s₂.now = true := by
    apply decide_eq_true
    omega
  obtain ⟨_, _, _, _, hadmitted₃⟩ := hquiet₂.lone (m := m) hready₂ period start 0
  have hrun : M.run (burst period) = M.runFrom s₂ (lone s₂.send.index 0) := by
    rw [hindex₂, hindex₁, burst, Machine.run_append, Machine.runFrom_append]
    simp only [s₂, hindex₁]
    rfl
  show (M.run (burst period)).admitted = _
  rw [hrun, hadmitted₃, hadmitted₂, hadmitted₁, hnow₂, hinstant₁]
  rfl

end Burst

/-- Orders are paced in every run exactly when the period is longer than the tolerance of the
timer: up to it, a late tick moves the deadline to an instant that has already come. -/
theorem timedSendOrders_paced_iff (m period : ℕ+) (start : ℕ) :
    (∀ (S : Sender) (w : S.World) (events : List (TimedEvent S.Input)),
      Paced period start ((timedSendOrders S m w period start).run events).admitted) ↔
      tickTolerance < period := by
  constructor
  · intro h
    by_contra hperiod
    have hshort : (period : ℕ) ≤ tickTolerance := not_lt.mp hperiod
    have hslot := (h flagSender () (burst period)).1 2
    rw [burst_admitted hshort start] at hslot
    have hfirst : ¬ start + 2 * (period : ℕ) ≤ start := by
      have := period.pos
      omega
    have hwithin : start + 2 * (period : ℕ) < start + (2 + 1) * period := by
      have := period.pos
      omega
    simp [hfirst, hwithin] at hslot
  · intro hperiod S w events
    exact timedSendOrders_paced hperiod w events

/-- A thousand orders a second and one in flight: the first delivery takes two milliseconds, then
two orders are admitted in one instant. -/
theorem timedSendOrders_burst :
    ¬ Paced 1000000 0
      ((timedSendOrders flagSender 1 () 1000000 0).run (burst 1000000)).admitted := by
  intro h
  have hslot := h.1 2
  rw [burst_admitted (by decide)] at hslot
  exact absurd hslot (by decide)

end OrdersDemo
