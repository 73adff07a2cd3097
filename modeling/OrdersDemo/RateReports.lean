import Mathlib.Data.Nat.Cast.Order.Field
import OrdersDemo.ProductionRate
import OrdersDemo.SendAdmission
import OrdersDemo.SendCompletion
import OrdersDemo.SendPacing

namespace OrdersDemo

structure RateLine where
  requestedOrdersPerSec : F64
  achievedOrdersPerSec : F64
  acknowledged : ℕ
  failed : ℕ
  inFlight : ℕ

namespace SendReport

/-- The elapsed time is kept away from zero by `f64::EPSILON`. -/
def achievedRate (report : SendReport) (elapsed : Duration) : F64 :=
  .fin (report.acknowledged / max ((elapsed : ℚ) / 10 ^ 9) (1 / 2 ^ 52))

def log (report : SendReport) (period elapsed : Duration) (inFlight : ℕ) : RateLine where
  requestedOrdersPerSec := requestedOrdersPerSec period
  achievedOrdersPerSec := report.achievedRate elapsed
  acknowledged := report.acknowledged
  failed := report.failed
  inFlight

end SendReport

/-- The period of the `reporting` timer, five seconds. -/
def reportPeriod : Duration := 5 * 10 ^ 9

/-- `send_orders` with its `reporting` timer, which makes up for the ticks it has missed, and the
lines that it has logged, each with its instant. -/
structure ReportingState (S : Sender) where
  timed : TimedState S
  reportAt : ℕ
  lines : List (ℕ × RateLine) := []

/-- Time passes, or the runtime takes a step. Both timers tell by themselves when they are ready. -/
inductive ReportingEvent (Input : Type) where
  | elapse (duration : Duration)
  | poll (task : ℕ) (input : Input)
  | panic (task : ℕ)
  | wake (shutdown : Bool) (join : Option ℕ)

section Branches

variable {S : Sender}

def SendState.reports (s : SendState S) (ready : Ready) : Bool :=
  match s.phase with
  | .admitting => !ready.shutdown && (s.finished ready.join).isNone && ready.reporting
  | _ => false

/-- A poll of `send_orders` finds that all deliveries have been joined, and returns. -/
def SendState.returns (s : SendState S) : Bool :=
  match s.phase with
  | .draining => s.pending.isEmpty
  | _ => false

end Branches

namespace ReportingState

variable {S : Sender}

/-- What a poll of `send_orders` finds ready at its instant. -/
def wake (s : ReportingState S) (shutdown : Bool) (join : Option ℕ) : TimedEvent S.Input :=
  .wake shutdown join (s.reportAt ≤ s.timed.now)

def ready (s : ReportingState S) (shutdown : Bool) (join : Option ℕ) : Ready :=
  s.timed.ready shutdown join (s.reportAt ≤ s.timed.now)

/-- The line that `report.log` writes at this instant, for a run that began at `start`. -/
def line (period : ℕ+) (start : ℕ) (s : ReportingState S) (inFlight : ℕ) : ℕ × RateLine :=
  (s.timed.now, s.timed.send.report.log period (s.timed.now - start) inFlight)

def step (maxInFlight period : ℕ+) (start : ℕ) (s : ReportingState S) :
    ReportingEvent S.Input → ReportingState S
  | .elapse duration => { s with timed := s.timed.step maxInFlight (.elapse duration) }
  | .poll task input => { s with timed := s.timed.step maxInFlight (.poll task input) }
  | .panic task => { s with timed := s.timed.step maxInFlight (.panic task) }
  | .wake shutdown join =>
    let timed := s.timed.step maxInFlight (s.wake shutdown join)
    if s.timed.send.reports (s.ready shutdown join) then
      { timed
        reportAt := s.reportAt + reportPeriod
        lines := s.lines ++ [s.line period start s.timed.send.pending.length] }
    else if s.timed.send.returns then
      { s with timed, lines := s.lines ++ [s.line period start 0] }
    else { s with timed }

end ReportingState

/-- `send_orders`, begun at `start`; its `tick` timer is made a little later. -/
def reportingSendOrders (S : Sender) (maxInFlight : ℕ+) (world : S.World) (period : ℕ+)
    (start delay : ℕ) : Machine (ReportingState S) (ReportingEvent S.Input) where
  init :=
    { timed := (timedSendOrders S maxInFlight world period (start + delay)).init
      reportAt := start + reportPeriod }
  step := ReportingState.step maxInFlight period start

section Timed

variable {S : Sender} {m period : ℕ+} {start : ℕ}

/-- What a run of `send_orders` on a clock keeps about its deliveries and its admissions. -/
structure TimedInv (m period : ℕ+) (start : ℕ) (s : TimedState S) : Prop where
  run : RunInv m s.send
  fired : s.tick.Fired s.send.index s.now
  period : s.tick.period = period
  created : start ≤ s.tick.start
  count : s.admitted.length = s.send.index
  past : ∀ time ∈ s.admitted, time ≤ s.now

theorem TimedInv.frame {s : TimedState S} (h : TimedInv m period start s) {e : SendEvent S.Input}
    (hindex : (s.send.step m e).index = s.send.index) :
    TimedInv m period start { s with send := s.send.step m e } where
  run := h.run.move (step_move m s.send e)
  fired := by
    show s.tick.Fired (s.send.step m e).index s.now
    rw [hindex]
    exact h.fired
  period := h.period
  created := h.created
  count := h.count.trans hindex.symm
  past := h.past

theorem TimedInv.step {s : TimedState S} (h : TimedInv m period start s)
    (e : TimedEvent S.Input) : TimedInv m period start (s.step m e) := by
  have hcount := s.step_admitted e (m := m) h.count
  cases e with
  | elapse duration =>
    have hle : s.now ≤ s.now + duration := Nat.le_add_right _ _
    exact ⟨h.run, h.fired.elapse hle, h.period, h.created, h.count,
      fun time htime => (h.past time htime).trans hle⟩
  | poll task input => exact h.frame (s.send.step_poll_index m task input)
  | panic task => exact h.frame (s.send.step_panic_index m task)
  | wake shutdown join reporting =>
    simp only [TimedState.step] at hcount ⊢
    split at hcount
    next hadmits =>
      rw [if_pos hadmits]
      have hmove := h.run.move (step_move m s.send (.wake (s.ready shutdown join reporting)))
      have hready : s.tick.ready s.now = true := SendState.admits_tick hadmits
      have hindex : (s.send.step m (.wake (s.ready shutdown join reporting))).index =
          s.send.index + 1 := by
        rw [SendState.step_admits hadmits]
        rfl
      refine ⟨hmove, ?_, h.period, h.created, hcount, ?_⟩
      · show (s.tick.fire tickTolerance s.now).Fired _ s.now
        rw [hindex]
        exact h.fired.fire hready tickTolerance
      · intro time htime
        rcases List.mem_append.mp htime with hold | hnew
        · exact h.past time hold
        · exact (List.mem_singleton.mp hnew).le
    next hadmits =>
      rw [if_neg hadmits]
      exact h.frame (SendState.step_wake_index (eq_false_of_ne_true hadmits))

end Timed

section Lines

variable {S : Sender} {m period : ℕ+} {start : ℕ}

/-- A line tells the requested rate, and an achieved rate that is above it by one order at most. -/
structure RateLine.Truthful (m period : ℕ+) (start : ℕ) (entry : ℕ × RateLine) : Prop where
  requested : entry.2.requestedOrdersPerSec = .fin (1 / (period / 10 ^ 9))
  achieved : ∃ rate, entry.2.achievedOrdersPerSec = .fin rate ∧
    (start < entry.1 →
      rate ≤ 1 / (period / 10 ^ 9) + 1 / (((entry.1 - start : ℕ) : ℚ) / 10 ^ 9))
  orders : entry.2.acknowledged + entry.2.failed + entry.2.inFlight ≤
    (entry.1 - start) / period + 1
  inFlight : entry.2.inFlight ≤ m ∧ entry.2.inFlight ≤ 5

/-- The orders that a line counts are those that were admitted before it. -/
def RateLine.Counted (admitted : List ℕ) (entry : ℕ × RateLine) : Prop :=
  let count := entry.2.acknowledged + entry.2.failed + entry.2.inFlight
  count ≤ admitted.length ∧ (∀ time ∈ admitted.take count, time ≤ entry.1) ∧
    ∀ time ∈ admitted.drop count, entry.1 ≤ time

theorem SendInv.length_le_five {s : SendState S} (h : SendInv m s) : s.pending.length ≤ 5 := by
  have hsub : s.pending.map (·.key) ⊆ categories := by
    intro k hk
    obtain ⟨t, ht, rfl⟩ := List.mem_map.mp hk
    rw [h.keys t ht]
    exact orderAt_category_mem _
  have hle := (h.keys_nodup.subperm hsub).length_le
  rwa [List.length_map] at hle

theorem achieved_le {acknowledged elapsed : ℕ} (helapsed : 0 < elapsed)
    (hle : acknowledged ≤ elapsed / period + 1) :
    (acknowledged : ℚ) / max ((elapsed : ℚ) / 10 ^ 9) (1 / 2 ^ 52) ≤
      1 / (period / 10 ^ 9) + 1 / ((elapsed : ℚ) / 10 ^ 9) := by
  have hpos : (0 : ℚ) < elapsed := by exact_mod_cast helapsed
  have hperiod : (0 : ℚ) < (period : ℕ) := by exact_mod_cast period.pos
  have hcast : (acknowledged : ℚ) ≤ elapsed / (period : ℕ) + 1 := by
    have hdiv : ((elapsed / period : ℕ) : ℚ) ≤ elapsed / (period : ℕ) := Nat.cast_div_le
    have hle' : (acknowledged : ℚ) ≤ (elapsed / period : ℕ) + 1 := by exact_mod_cast hle
    linarith
  calc (acknowledged : ℚ) / max ((elapsed : ℚ) / 10 ^ 9) (1 / 2 ^ 52)
      ≤ acknowledged / (elapsed / 10 ^ 9) :=
        div_le_div_of_nonneg_left (Nat.cast_nonneg _) (by positivity) (le_max_left _ _)
    _ ≤ (elapsed / (period : ℕ) + 1) / (elapsed / 10 ^ 9) :=
        div_le_div_of_nonneg_right hcast (by positivity)
    _ = 1 / (period / 10 ^ 9) + 1 / (elapsed / 10 ^ 9) := by
        field_simp

theorem TimedInv.index_le {s : TimedState S} (h : TimedInv m period start s) :
    s.send.index ≤ (s.now - start) / period + 1 := by
  have hle := h.fired.le
  rw [h.period] at hle
  have hlater : s.now - s.tick.start ≤ s.now - start := by
    have hcreated := h.created
    omega
  have hmono := Nat.div_le_div_right (c := period) hlater
  omega

/-- A line that counts the deliveries in flight is true when it is written. -/
theorem TimedInv.truthful {s : ReportingState S} (h : TimedInv m period start s.timed) :
    RateLine.Truthful m period start (s.line period start s.timed.send.pending.length) := by
  have hindex := h.index_le
  have htotal := h.run.total
  refine ⟨if_neg period.ne_zero, ⟨_, rfl, fun hlater => ?_⟩, ?_, h.run.send.bounded,
    h.run.send.length_le_five⟩
  · have helapsed : 0 < s.timed.now - start := Nat.sub_pos_of_lt hlater
    exact achieved_le helapsed (by omega)
  · show s.timed.send.report.acknowledged + s.timed.send.report.failed +
      s.timed.send.pending.length ≤ (s.timed.now - start) / period + 1
    omega

theorem RateLine.Counted.append {admitted : List ℕ} {entry : ℕ × RateLine} {now : ℕ}
    (h : RateLine.Counted admitted entry) (hnow : entry.1 ≤ now) :
    RateLine.Counted (admitted ++ [now]) entry := by
  obtain ⟨hcount, hbefore, hafter⟩ := h
  refine ⟨?_, ?_, ?_⟩
  · rw [List.length_append]
    omega
  · rwa [List.take_append_of_le_length hcount]
  · rw [List.drop_append_of_le_length hcount]
    intro time htime
    rcases List.mem_append.mp htime with hold | hnew
    · exact hafter time hold
    · exact hnow.trans (List.mem_singleton.mp hnew).ge

theorem Move.report_le {s s' : SendState S} (hm : Move m s s') :
    s.report.acknowledged ≤ s'.report.acknowledged ∧ s.report.failed ≤ s'.report.failed := by
  have hrecord (success : Bool) : s.report.acknowledged ≤ (s.report.record success).acknowledged ∧
      s.report.failed ≤ (s.report.record success).failed := by
    obtain ⟨hacknowledged, hfailed⟩ := report_record s.report success
    omega
  cases hm with
  | @join t o =>
    cases o with
    | returned success => exact hrecord success
    | panicked => exact ⟨le_rfl, le_rfl⟩
  | @drain t o =>
    cases o with
    | returned success => exact hrecord success
    | panicked => exact ⟨le_rfl, le_rfl⟩
  | _ => exact ⟨le_rfl, le_rfl⟩

theorem Move.eq_of_returned {s s' : SendState S} (h : RunInv m s) (hm : Move m s s')
    {r : Except JoinError SendReport} (hr : s.phase = .returned r) : s' = s := by
  obtain ⟨hidle, -⟩ := h.report.returned r hr
  have hnone (t : PendingTask S.Delivery) : t ∉ s.pending := by
    rw [hidle]
    exact List.not_mem_nil
  cases hm with
  | stay => rfl
  | poll input ht => exact absurd ht (hnone _)
  | panic ht => exact absurd ht (hnone _)
  | stop hp => exact absurd (hp.symm.trans hr) (by simp)
  | join hp => exact absurd (hp.symm.trans hr) (by simp)
  | dispatch hp => exact absurd (hp.symm.trans hr) (by simp)
  | drain hp => exact absurd (hp.symm.trans hr) (by simp)
  | finish hp => exact absurd (hp.symm.trans hr) (by simp)

theorem Move.returns {s s' : SendState S} (hm : Move m s s') {r : Except JoinError SendReport}
    (hr : s'.phase = .returned r) : s.phase = .returned r ∨ s.returns = true := by
  cases hm with
  | stay => exact Or.inl hr
  | poll => exact Or.inl hr
  | panic => exact Or.inl hr
  | stop => cases hr
  | @join t o hp =>
    cases o with
    | returned success => exact Or.inl hr
    | panicked => cases hr
  | dispatch => exact Or.inl hr
  | @drain t o hp =>
    cases o with
    | returned success => exact Or.inl hr
    | panicked => exact Or.inl hr
  | finish hp hidle => exact Or.inr (by simp [SendState.returns, hp, hidle])

theorem SendState.step_poll_phase (m : ℕ+) (s : SendState S) (i : ℕ) (input : S.Input) :
    (s.step m (.poll i input)).phase = s.phase := by
  simp only [step]
  split <;> rfl

theorem SendState.step_panic_phase (m : ℕ+) (s : SendState S) (i : ℕ) :
    (s.step m (.panic i)).phase = s.phase := by
  simp only [step]
  split <;> rfl

theorem TimedState.step_now (s : TimedState S) (e : TimedEvent S.Input) :
    s.now ≤ (s.step m e).now := by
  cases e with
  | elapse duration => exact Nat.le_add_right _ _
  | poll task input => exact le_rfl
  | panic task => exact le_rfl
  | wake shutdown join reporting =>
    simp only [TimedState.step]
    split <;> exact le_rfl

theorem TimedState.step_appends (s : TimedState S) (e : TimedEvent S.Input) :
    (s.step m e).admitted = s.admitted ∨ (s.step m e).admitted = s.admitted ++ [s.now] := by
  cases e with
  | elapse duration => exact Or.inl rfl
  | poll task input => exact Or.inl rfl
  | panic task => exact Or.inl rfl
  | wake shutdown join reporting =>
    simp only [TimedState.step]
    split
    next => exact Or.inr rfl
    next => exact Or.inl rfl

theorem TimedState.send_move (s : TimedState S) (e : TimedEvent S.Input) :
    Move m s.send (s.step m e).send := by
  cases e with
  | elapse duration => exact .stay
  | poll task input => exact step_move m s.send (.poll task input)
  | panic task => exact step_move m s.send (.panic task)
  | wake shutdown join reporting =>
    simp only [TimedState.step]
    split <;> exact step_move m s.send (.wake (s.ready shutdown join reporting))

theorem TimedState.step_reports {s : TimedState S} {shutdown : Bool} {join : Option ℕ}
    {reporting : Bool} (h : s.send.reports (s.ready shutdown join reporting) = true) :
    s.step m (.wake shutdown join reporting) = s ∧ s.send.phase = .admitting ∧
      reporting = true := by
  unfold SendState.reports at h
  split at h
  next hphase =>
    simp only [Bool.and_eq_true, Bool.not_eq_true', Option.isNone_iff_eq_none] at h
    obtain ⟨⟨hshutdown, hjoin⟩, hreporting⟩ := h
    have hadmits : s.send.admits m (s.ready shutdown join reporting) = false := by
      simp [SendState.admits, hphase, hreporting]
    refine ⟨?_, hphase, hreporting⟩
    simp [TimedState.step, hadmits, SendState.step, hphase, SendState.select, hshutdown, hjoin,
      hreporting]
  next => cases h

theorem TimedState.step_returns {s : TimedState S} (h : s.send.returns = true)
    (shutdown : Bool) (join : Option ℕ) (reporting : Bool) :
    s.step m (.wake shutdown join reporting) =
        { s with send := { s.send with phase := .returned s.send.result } } ∧
      s.send.phase = .draining ∧ s.send.pending = [] := by
  unfold SendState.returns at h
  split at h
  next hphase =>
    have hadmits : s.send.admits m (s.ready shutdown join reporting) = false := by
      simp [SendState.admits, hphase]
    refine ⟨?_, hphase, List.isEmpty_iff.mp h⟩
    simp [TimedState.step, hadmits, SendState.step, hphase, SendState.drain, h]
  next => cases h

/-- The lines of the loop come five seconds apart or later, and miss no order. -/
structure LoopLines (start : ℕ) (s : ReportingState S) (loop : List (ℕ × RateLine)) : Prop where
  next : s.reportAt = start + (loop.length + 1) * reportPeriod
  due : ∀ i entry, loop[i]? = some entry → start + (i + 1) * reportPeriod ≤ entry.1
  counted : ∀ entry ∈ loop, RateLine.Counted s.timed.admitted entry

/-- A run writes one more line when it returns, which tells what it returns. -/
structure ClosingLine (s : SendState S) (last : List (ℕ × RateLine)) : Prop where
  returned : ∀ r, s.phase = .returned r → ∃ entry, last = [entry] ∧ entry.2.inFlight = 0 ∧
    ∀ report, r = .ok report → entry.2.acknowledged = report.acknowledged ∧
      entry.2.failed = report.failed ∧ report.acknowledged + report.failed = s.index
  running : (∀ r, s.phase ≠ .returned r) → last = []

structure LinesInv (m period : ℕ+) (start : ℕ) (s : ReportingState S) : Prop where
  timed : TimedInv m period start s.timed
  truthful : ∀ entry ∈ s.lines, RateLine.Truthful m period start entry
  past : ∀ entry ∈ s.lines, entry.1 ≤ s.timed.now ∧
    entry.2.acknowledged ≤ s.timed.send.report.acknowledged ∧
    entry.2.failed ≤ s.timed.send.report.failed
  ordered : s.lines.Pairwise fun a b => a.1 ≤ b.1 ∧ a.2.acknowledged ≤ b.2.acknowledged ∧
    a.2.failed ≤ b.2.failed
  parts : ∃ loop last, s.lines = loop ++ last ∧ LoopLines start s loop ∧
    ClosingLine s.timed.send last

/-- Until a run returns, all its lines are lines of the loop. -/
theorem LinesInv.loop {s : ReportingState S} (h : LinesInv m period start s)
    (hrunning : ∀ r, s.timed.send.phase ≠ .returned r) : LoopLines start s s.lines := by
  obtain ⟨loop, last, hlines, hloop, hlast⟩ := h.parts
  rw [hlines, hlast.running hrunning, List.append_nil]
  exact hloop

theorem LinesInv.quiet {s : ReportingState S} (h : LinesInv m period start s)
    (e : TimedEvent S.Input)
    (hreturn : ∀ r, (s.timed.step m e).send.phase = .returned r →
      s.timed.send.phase = .returned r) :
    LinesInv m period start { s with timed := s.timed.step m e } := by
  have hmove : Move m s.timed.send (s.timed.step m e).send := s.timed.send_move e
  have hnow : s.timed.now ≤ (s.timed.step m e).now := s.timed.step_now e
  obtain ⟨loop, last, hlines, hloop, hlast⟩ := h.parts
  have hpast : ∀ entry ∈ s.lines, entry.1 ≤ s.timed.now := fun entry hentry =>
    (h.past entry hentry).1
  refine ⟨h.timed.step e, h.truthful, fun entry hentry => ?_, h.ordered,
    loop, last, hlines, ⟨hloop.next, hloop.due, fun entry hentry => ?_⟩, ?_⟩
  · obtain ⟨htime, hacknowledged, hfailed⟩ := h.past entry hentry
    have hreport := hmove.report_le
    exact ⟨htime.trans hnow, hacknowledged.trans hreport.1, hfailed.trans hreport.2⟩
  · have hcounted := hloop.counted entry hentry
    have htime : entry.1 ≤ s.timed.now := hpast entry (by simp [hlines, hentry])
    show RateLine.Counted (s.timed.step m e).admitted entry
    rcases s.timed.step_appends (m := m) e with hsame | hnew
    · rwa [hsame]
    · rw [hnew]
      exact hcounted.append htime
  · show ClosingLine (s.timed.step m e).send last
    by_cases hdone : ∃ r, s.timed.send.phase = .returned r
    · obtain ⟨r, hr⟩ := hdone
      rwa [hmove.eq_of_returned h.timed.run hr]
    · have hrunning : ∀ r, s.timed.send.phase ≠ .returned r := fun r hr => hdone ⟨r, hr⟩
      have hstill : ∀ r, (s.timed.step m e).send.phase ≠ .returned r := fun r hr =>
        hrunning r (hreturn r hr)
      exact ⟨fun r hr => absurd hr (hstill r), fun _ => hlast.running hrunning⟩

theorem LinesInv.append {s : ReportingState S} (h : LinesInv m period start s) :
    let entry := s.line period start s.timed.send.pending.length
    (∀ old ∈ s.lines ++ [entry], RateLine.Truthful m period start old) ∧
      (∀ old ∈ s.lines ++ [entry], old.1 ≤ s.timed.now ∧
        old.2.acknowledged ≤ s.timed.send.report.acknowledged ∧
        old.2.failed ≤ s.timed.send.report.failed) ∧
      (s.lines ++ [entry]).Pairwise fun a b => a.1 ≤ b.1 ∧
        a.2.acknowledged ≤ b.2.acknowledged ∧ a.2.failed ≤ b.2.failed := by
  intro entry
  refine ⟨fun old hold => ?_, fun old hold => ?_, ?_⟩
  · rcases List.mem_append.mp hold with hold | hnew
    · exact h.truthful old hold
    · rw [List.mem_singleton.mp hnew]
      exact h.timed.truthful
  · rcases List.mem_append.mp hold with hold | hnew
    · exact h.past old hold
    · rw [List.mem_singleton.mp hnew]
      exact ⟨le_rfl, le_rfl, le_rfl⟩
  · refine List.pairwise_append.mpr ⟨h.ordered, List.pairwise_singleton _ _, ?_⟩
    intro old hold new hnew
    rw [List.mem_singleton.mp hnew]
    exact h.past old hold

/-- The reports change nothing: a run with them is a run of `send_orders` on its clock. -/
theorem reportingSendOrders_timed (m period : ℕ+) (w : S.World) (start delay : ℕ)
    (events : List (ReportingEvent S.Input)) :
    ∃ timed, ((reportingSendOrders S m w period start delay).run events).timed =
      (timedSendOrders S m w period (start + delay)).run timed := by
  apply (reportingSendOrders S m w period start delay).run_invariant
    (I := fun s => ∃ timed, s.timed = (timedSendOrders S m w period (start + delay)).run timed)
  · exact ⟨[], rfl⟩
  · rintro s e ⟨timed, h⟩
    have hstep : ∃ e', (s.step m period start e).timed = s.timed.step m e' := by
      cases e with
      | elapse duration => exact ⟨.elapse duration, rfl⟩
      | poll task input => exact ⟨.poll task input, rfl⟩
      | panic task => exact ⟨.panic task, rfl⟩
      | wake shutdown join =>
        refine ⟨s.wake shutdown join, ?_⟩
        simp only [ReportingState.step]
        split
        next => rfl
        next => split <;> rfl
    obtain ⟨e', hstep⟩ := hstep
    refine ⟨timed ++ [e'], ?_⟩
    rw [Machine.run_append, ← h]
    exact hstep

theorem TimedInv.counted {s : ReportingState S} (h : TimedInv m period start s.timed)
    (hphase : s.timed.send.phase = .admitting) :
    RateLine.Counted s.timed.admitted
      (s.line period start s.timed.send.pending.length) := by
  have htotal := h.run.total
  have hpanics := h.run.report.taskError.mp (h.run.report.admitting hphase)
  rw [countP_panicked_eq_zero hpanics] at htotal
  have hcount : s.timed.send.report.acknowledged + s.timed.send.report.failed +
      s.timed.send.pending.length = s.timed.admitted.length := by
    rw [h.count]
    omega
  have hnone : s.timed.admitted.drop (s.timed.send.report.acknowledged +
      s.timed.send.report.failed + s.timed.send.pending.length) = [] :=
    List.drop_eq_nil_of_le hcount.ge
  refine ⟨hcount.le, fun time htime => h.past time (List.mem_of_mem_take htime), ?_⟩
  intro time htime
  exact absurd (hnone ▸ htime) List.not_mem_nil

theorem LoopLines.append {s : ReportingState S} {loop : List (ℕ × RateLine)}
    (h : LoopLines start s loop) {entry : ℕ × RateLine} (hdue : s.reportAt ≤ entry.1)
    (hcounted : RateLine.Counted s.timed.admitted entry) (lines : List (ℕ × RateLine)) :
    LoopLines start { s with reportAt := s.reportAt + reportPeriod, lines }
      (loop ++ [entry]) where
  next := by
    have hnext := h.next
    rw [List.length_append, List.length_singleton, Nat.add_mul (loop.length + 1), Nat.one_mul]
    show s.reportAt + reportPeriod = _
    omega
  due := by
    intro i old hold
    rcases Nat.lt_trichotomy i loop.length with hi | rfl | hi
    · rw [List.getElem?_append_left hi] at hold
      exact h.due i old hold
    · rw [List.getElem?_concat_length] at hold
      obtain rfl := Option.some.inj hold
      rw [← h.next]
      exact hdue
    · have hlength : (loop ++ [entry]).length ≤ i := by
        rw [List.length_append, List.length_singleton]
        omega
      rw [List.getElem?_eq_none hlength] at hold
      cases hold
  counted := by
    intro old hold
    rcases List.mem_append.mp hold with hold | hnew
    · exact h.counted old hold
    · rwa [List.mem_singleton.mp hnew]

theorem LinesInv.report {s : ReportingState S} (h : LinesInv m period start s)
    (hphase : s.timed.send.phase = .admitting) (hdue : s.reportAt ≤ s.timed.now) :
    LinesInv m period start { s with
      reportAt := s.reportAt + reportPeriod
      lines := s.lines ++ [s.line period start s.timed.send.pending.length] } := by
  obtain ⟨htruthful, hpast, hordered⟩ := h.append
  have hrunning : ∀ r, s.timed.send.phase ≠ .returned r := by simp [hphase]
  have hloop := (h.loop hrunning).append hdue (h.timed.counted hphase)
  have hclosing : ClosingLine s.timed.send [] :=
    ⟨fun r hr => absurd hr (hrunning r), fun _ => rfl⟩
  exact ⟨h.timed, htruthful, hpast, hordered, _, [], (List.append_nil _).symm, hloop _, hclosing⟩

theorem LinesInv.close {s : ReportingState S} (h : LinesInv m period start s)
    (hreturns : s.timed.send.returns = true) (shutdown : Bool) (join : Option ℕ) :
    LinesInv m period start { s with
      timed := s.timed.step m (s.wake shutdown join)
      lines := s.lines ++ [s.line period start 0] } := by
  obtain ⟨hstep, hphase, hidle⟩ :=
    TimedState.step_returns (m := m) hreturns shutdown join (s.reportAt ≤ s.timed.now)
  obtain ⟨htruthful, hpast, hordered⟩ := h.append
  rw [hidle] at htruthful hpast hordered
  have hloop : LoopLines start s s.lines := h.loop (by simp [hphase])
  have htimed : TimedInv m period start (s.timed.step m (s.wake shutdown join)) := h.timed.step _
  rw [ReportingState.wake, hstep] at htimed ⊢
  refine ⟨htimed, htruthful, hpast, hordered, s.lines, [s.line period start 0], rfl,
    ⟨hloop.next, hloop.due, hloop.counted⟩, ⟨?_, fun hstill => absurd rfl (hstill _)⟩⟩
  intro r hr
  refine ⟨_, rfl, rfl, fun report hok => ?_⟩
  subst hok
  have hresult : s.timed.send.result = .ok report := Phase.returned.inj hr
  have hreport : s.timed.send.report = report := by
    unfold SendState.result at hresult
    split at hresult
    next => exact Except.ok.inj hresult
    next => cases hresult
  obtain ⟨-, -, -, hcounts⟩ := htimed.run.returned hr
  obtain ⟨-, -, hsum⟩ := hcounts report rfl
  exact ⟨congrArg SendReport.acknowledged hreport, congrArg SendReport.failed hreport, hsum⟩

theorem LinesInv.step {s : ReportingState S} (h : LinesInv m period start s)
    (e : ReportingEvent S.Input) : LinesInv m period start (s.step m period start e) := by
  cases e with
  | elapse duration => exact h.quiet (.elapse duration) fun r hr => hr
  | poll task input =>
    exact h.quiet (.poll task input) fun r hr =>
      (s.timed.send.step_poll_phase m task input).symm.trans hr
  | panic task =>
    exact h.quiet (.panic task) fun r hr => (s.timed.send.step_panic_phase m task).symm.trans hr
  | wake shutdown join =>
    simp only [ReportingState.step]
    split
    next hreports =>
      obtain ⟨hsame, hphase, hdue⟩ := TimedState.step_reports (m := m) hreports
      have hstep : s.timed.step m (s.wake shutdown join) = s.timed := hsame
      rw [hstep]
      exact h.report hphase (of_decide_eq_true hdue)
    next =>
      split
      next hreturns => exact h.close hreturns shutdown join
      next hreturns =>
        refine h.quiet (s.wake shutdown join) fun r hr => ?_
        exact ((s.timed.send_move _).returns hr).resolve_right hreturns

/-- The reports of a run, whatever becomes of its deliveries: each line tells the truth about the
rates and about the orders in flight, the counts of a later line are not below those of an earlier
one, the lines of the loop count each order that was admitted before them, and the last line tells
what the run returns. -/
theorem rate_reports (m period : ℕ+) (w : S.World) (start delay : ℕ)
    (events : List (ReportingEvent S.Input)) :
    let s := (reportingSendOrders S m w period start delay).run events
    (∃ timed, s.timed = (timedSendOrders S m w period (start + delay)).run timed) ∧
      (∃ untimed, s.timed.send = (sendOrders S m w).run untimed) ∧
      s.timed.admitted.length = s.timed.send.index ∧
      (∀ entry ∈ s.lines, RateLine.Truthful m period start entry) ∧
      s.lines.Pairwise (fun a b => a.1 ≤ b.1 ∧ a.2.acknowledged ≤ b.2.acknowledged ∧
        a.2.failed ≤ b.2.failed) ∧
      ∃ loop last, s.lines = loop ++ last ∧ LoopLines start s loop ∧
        ClosingLine s.timed.send last := by
  intro s
  have hinit : LinesInv m period start (reportingSendOrders S m w period start delay).init := by
    have htimed : TimedInv m period start (timedSendOrders S m w period (start + delay)).init :=
      ⟨sendOrders_runInv m w [], Ticker.fired_ofPeriod _ _ _, rfl, Nat.le_add_right _ _, rfl,
        by simp [timedSendOrders]⟩
    have hloop : LoopLines start (reportingSendOrders S m w period start delay).init [] :=
      ⟨by simp [reportingSendOrders], by simp, by simp⟩
    have hclosing : ClosingLine (timedSendOrders S m w period (start + delay)).init.send [] :=
      ⟨fun r hr => by simp [timedSendOrders] at hr, fun _ => rfl⟩
    exact ⟨htimed, by simp [reportingSendOrders], by simp [reportingSendOrders],
      List.Pairwise.nil, [], [], rfl, hloop, hclosing⟩
  have h : LinesInv m period start s :=
    (reportingSendOrders S m w period start delay).run_invariant hinit (fun s e h => h.step e)
      events
  obtain ⟨timed, htimed⟩ := reportingSendOrders_timed m period w start delay events
  have hsend := timedSendOrders_refines (m := m) w period (start + delay) timed
  have hadmitted := timedSendOrders_admitted (m := m) w period (start + delay) timed
  rw [← htimed] at hsend hadmitted
  exact ⟨⟨timed, htimed⟩, hsend, hadmitted, h.truthful, h.ordered, h.parts⟩

end Lines

end OrdersDemo
