import OrdersDemo.SendDrain

namespace OrdersDemo

variable {S : Sender}

theorem Move.closed {m : ℕ+} {s s' : SendState S} (hm : Move m s s')
    (hp : s.phase ≠ .admitting) :
    s'.phase ≠ .admitting ∧ sends s'.trace = sends s.trace := by
  cases hm with
  | stay => exact ⟨hp, rfl⟩
  | poll => exact ⟨hp, by simp [SendState.polled]⟩
  | panic => exact ⟨hp, by simp [SendState.panicked]⟩
  | stop h => exact absurd h hp
  | join h => exact absurd h hp
  | dispatch h => exact absurd h hp
  | @drain t o =>
    cases o <;> exact ⟨hp, by simp [SendState.drained, SendState.take]⟩
  | finish => simp

theorem sends_after_loop {m : ℕ+} {w : S.World} {s : SendState S} (hp : s.phase ≠ .admitting)
    (later : List (SendEvent S.Input)) :
    sends ((sendOrders S m w).runFrom s later).trace = sends s.trace := by
  refine ((sendOrders S m w).runFrom_invariant
    (I := fun s' => s'.phase ≠ .admitting ∧ sends s'.trace = sends s.trace) ?_
    ⟨hp, rfl⟩ later).2
  intro s' e ⟨hp', hs⟩
  obtain ⟨hp'', hs'⟩ := (step_move m s' e).closed hp'
  exact ⟨hp'', hs'.trans hs⟩

theorem select_closes {m : ℕ+} {s : SendState S} {ready : Ready}
    (h : ready.shutdown = true ∨ ∃ t, s.finished ready.join = some (t, .panicked)) :
    (s.select m ready).phase ≠ .admitting ∧ sends (s.select m ready).trace = sends s.trace := by
  unfold SendState.select
  by_cases hs : ready.shutdown = true
  · simp [hs]
  · obtain ⟨t, ht⟩ := h.resolve_left hs
    simp [hs, ht, SendState.joined, SendState.take]

theorem length_eq_countP (js : List (ℕ × Outcome)) :
    js.length = js.countP (·.2 = .returned true) + js.countP (·.2 = .returned false) +
      js.countP (·.2 = .panicked) := by
  induction js with
  | nil => rfl
  | cons j js ih =>
    obtain ⟨i, o⟩ := j
    rcases o with (_ | _) | _ <;> simp [ih] <;> omega

theorem RunInv.total {m : ℕ+} {s : SendState S} (h : RunInv m s) :
    s.report.acknowledged + s.report.failed + (joins s.trace).countP (·.2 = .panicked) +
      s.pending.length = s.index := by
  have hlen := h.trace.indices.length_eq
  simp only [List.length_append, List.length_map, List.length_range] at hlen
  have := length_eq_countP (joins s.trace)
  have := h.report.acknowledged
  have := h.report.failed
  omega

theorem countP_panicked_eq_zero {js : List (ℕ × Outcome)} (h : ∀ j ∈ js, j.2 ≠ .panicked) :
    js.countP (·.2 = .panicked) = 0 :=
  List.countP_eq_zero.mpr fun j hj => by simpa using h j hj

theorem stamp_tsMs {i : ℕ} (h : i < 2 ^ 63) (order : Order) :
    order.stamp i = { order with tsMs := i } := by
  have hle : i ≤ i64Max := by
    unfold i64Max
    omega
  simp [Order.stamp, tryFrom_of_le hle]

/-- A return of `send_orders` is decided by the deliveries' own endings. -/
theorem RunInv.returned {m : ℕ+} {s : SendState S} (h : RunInv m s)
    {r : Except JoinError SendReport} (hr : s.phase = .returned r) :
    (finishes s.trace).Perm (joins s.trace) ∧
      ((joins s.trace).map Prod.fst).Perm (List.range s.index) ∧
      ((∃ report, r = .ok report) ↔ ∀ f ∈ finishes s.trace, f.2 ≠ .panicked) ∧
      ∀ report, r = .ok report →
        report.acknowledged = (finishes s.trace).countP (·.2 = .returned true) ∧
        report.failed = (finishes s.trace).countP (·.2 = .returned false) ∧
        report.acknowledged + report.failed = s.index := by
  obtain ⟨hidle, hres⟩ := h.report.returned r hr
  have hfin : (finishes s.trace).Perm (joins s.trace) := by
    simpa [hidle, doneTasks] using h.trace.finishes
  have hidx : ((joins s.trace).map Prod.fst).Perm (List.range s.index) := by
    simpa [hidle] using h.trace.indices
  have hok : (∃ report, r = .ok report) ↔ s.taskError = none := by
    rw [hres, SendState.result]
    cases s.taskError <;> simp
  have hpanic : s.taskError = none ↔ ∀ f ∈ finishes s.trace, f.2 ≠ .panicked := by
    rw [h.report.taskError]
    exact forall_congr' fun j => by rw [hfin.mem_iff]
  refine ⟨hfin, hidx, hok.trans hpanic, ?_⟩
  rintro report rfl
  have hnone := hok.mp ⟨report, rfl⟩
  have hreport : report = s.report := by
    simpa [SendState.result, hnone] using hres
  have htotal := h.total
  rw [countP_panicked_eq_zero (h.report.taskError.mp hnone), hidle] at htotal
  subst hreport
  exact ⟨h.report.acknowledged.trans (hfin.countP_eq _).symm,
    h.report.failed.trans (hfin.countP_eq _).symm, by simpa using htotal⟩

/-- No order is lost, duplicated or skipped, and every admitted delivery is drained. -/
theorem sendOrders_drains_every_order (m : ℕ+) (w : S.World)
    (events : List (SendEvent S.Input))
    (hn : ((sendOrders S m w).run events).index < 2 ^ 63) :
    let s := (sendOrders S m w).run events
    sends s.trace = (List.range s.index).map (fun i => { orderAt i with tsMs := i }) ∧
    (s.phase = .admitting →
      s.report.acknowledged + s.report.failed + s.pending.length = s.index) ∧
    (s.phase = .draining →
      s.report.acknowledged + s.report.failed + (joins s.trace).countP (·.2 = .panicked) +
        s.pending.length = s.index) ∧
    (∀ ready later, s.phase = .admitting →
      (ready.shutdown = true ∨ ∃ t, s.finished ready.join = some (t, .panicked)) →
      sends ((sendOrders S m w).runFrom (s.step m (.wake ready)) later).trace = sends s.trace) ∧
    (∀ r, s.phase = .returned r →
      ((joins s.trace).map Prod.fst).Perm (List.range s.index) ∧
      (finishes s.trace).Perm (joins s.trace) ∧
      History.Causal (fun pre a => ∀ i o, a = .join i o → .finish i o ∈ pre) s.trace ∧
      ((∃ report, r = .ok report) ↔ ∀ f ∈ finishes s.trace, f.2 ≠ .panicked) ∧
      ∀ report, r = .ok report →
        report.acknowledged = (finishes s.trace).countP (·.2 = .returned true) ∧
        report.failed = (finishes s.trace).countP (·.2 = .returned false) ∧
        report.acknowledged + report.failed = s.index) := by
  intro s
  have h : RunInv m s := sendOrders_runInv m w events
  refine ⟨?_, ?_, fun _ => h.total, ?_, ?_⟩
  · rw [h.trace.sends]
    refine List.map_congr_left fun i hi => stamp_tsMs ?_ _
    have hlt : s.index < 2 ^ 63 := hn
    have := List.mem_range.mp hi
    omega
  · intro hp
    have htotal := h.total
    rw [countP_panicked_eq_zero (h.report.taskError.mp (h.report.admitting hp))] at htotal
    omega
  · intro ready later hp hclose
    have hstep : s.step m (.wake ready) = s.select m ready := by simp [SendState.step, hp]
    obtain ⟨hphase, hsends⟩ := select_closes (m := m) hclose
    rw [hstep, sends_after_loop hphase, hsends]
  · intro r hr
    obtain ⟨hfin, hidx, hok, hreport⟩ := h.returned hr
    exact ⟨hidx, hfin, h.trace.causal, hok, hreport⟩

/-- Three orders: the first fails, and the last is drained after the shutdown. -/
def threeOrders (last : SendEvent Bool) : List (SendEvent Bool) :=
  [tickOnly, tickOnly, tickOnly, .poll 0 false, .wake { join := some 0 }, last,
    .wake { shutdown := true }, .wake { join := some 2 }, .poll 1 true, .wake { join := some 1 },
    .wake {}]

theorem sendOrders_drains_three_orders :
    let calm := (sendOrders flagSender 3 ()).run (threeOrders (.poll 2 true))
    let broken := (sendOrders flagSender 3 ()).run (threeOrders (.panic 2))
    calm.phase = .returned (.ok { acknowledged := 2, failed := 1 }) ∧
      2 = (finishes calm.trace).countP (·.2 = .returned true) ∧
      1 = (finishes calm.trace).countP (·.2 = .returned false) ∧
      broken.phase = .returned (.error ⟨2⟩) ∧
      sends broken.trace = (List.range 3).map (fun i => { orderAt i with tsMs := i }) ∧
      ((joins broken.trace).map Prod.fst).Perm (List.range 3) ∧
      ¬ ∀ f ∈ finishes broken.trace, f.2 ≠ .panicked := by
  obtain ⟨_, _, _, _, hcalm⟩ := sendOrders_drains_every_order (S := flagSender) 3 ()
    (threeOrders (.poll 2 true)) (by decide)
  obtain ⟨_, _, _, _, hreport⟩ := hcalm _ rfl
  obtain ⟨hacknowledged, hfailed, _⟩ := hreport _ rfl
  obtain ⟨hsends, _, _, _, hbroken⟩ := sendOrders_drains_every_order (S := flagSender) 3 ()
    (threeOrders (.panic 2)) (by decide)
  obtain ⟨hjoins, _, _, hok, _⟩ := hbroken _ rfl
  refine ⟨rfl, hacknowledged, hfailed, rfl, hsends, hjoins, fun h => ?_⟩
  obtain ⟨report, hr⟩ := hok.mpr h
  cases hr

end OrdersDemo
