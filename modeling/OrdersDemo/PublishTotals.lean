import OrdersDemo.PublishAccounting
import OrdersDemo.SendCompletion

namespace OrdersDemo

section Fibres

variable {serialize : String → Order → ByteArray} {topic : String} {m : ℕ+}
  {s : SendState (publishSender serialize topic)}

theorem countP_effects (hr : RunInv m s) (hidx : ((joins s.trace).map Prod.fst).Perm
    (List.range s.index)) (p : PublishEffect → Bool) :
    (effects s.trace).countP (p ·.2) =
      ((joins s.trace).map fun j => (effectsOf j.1 s.trace).countP p).sum := by
  have hlt : ∀ x ∈ effects s.trace, x.1 < s.index := fun x hx =>
    hr.send.index_lt (mem_effects.mp hx)
  have hfibre : ∀ i, ((effects s.trace).filter (·.1 = i)).countP (p ·.2) =
      (effectsOf i s.trace).countP p := fun i => by
    rw [effectsOf, List.countP_map]
    rfl
  rw [History.countP_eq_sum_fibres _ hlt]
  simp only [hfibre]
  rw [← (hidx.map fun i => (effectsOf i s.trace).countP p).sum_eq, List.map_map]
  rfl

theorem joined_attempts (hd : DeliveriesInv s) {i : ℕ} {success : Bool}
    (hj : .join i (.returned success) ∈ s.trace) :
    (effectsOf i s.trace).countP PublishEffect.isCall =
        (effectsOf i s.trace).countP PublishEffect.isFailure + (if success then 1 else 0) ∧
      (if success then (effectsOf i s.trace).countP PublishEffect.isFailure ≤ 2
        else (effectsOf i s.trace).countP PublishEffect.isFailure = 3) := by
  rcases (hd.joined i _ hj).published with ⟨_, h | h⟩ | ⟨traceHeaders, attempts, ha, he⟩
  · cases h
  · cases h
  · rw [he, countP_isCall, countP_isFailure]
    rcases ha.returned with ⟨rfl, k, hk, rfl⟩ | ⟨rfl, rfl⟩
    · simp [List.countP_replicate, Nat.lt_succ_iff.mp hk]
    · simp

theorem sum_attempts (f c : ℕ → ℕ) {js : List (ℕ × Outcome)}
    (h : ∀ j ∈ js, ∃ success, j.2 = .returned success ∧
      c j.1 = f j.1 + (if success then 1 else 0) ∧ if success then f j.1 ≤ 2 else f j.1 = 3) :
    (js.map fun j => c j.1).sum =
        (js.map fun j => f j.1).sum + js.countP (·.2 = .returned true) ∧
      3 * js.countP (·.2 = .returned false) ≤ (js.map fun j => f j.1).sum ∧
      (js.map fun j => f j.1).sum ≤
        3 * js.countP (·.2 = .returned false) + 2 * js.countP (·.2 = .returned true) := by
  induction js with
  | nil => simp
  | cons j js ih =>
    obtain ⟨hc, hlow, hhigh⟩ := ih fun j hj => h j (by simp [hj])
    obtain ⟨success, ho, hcj, hfj⟩ := h j (by simp)
    simp only [List.map_cons, List.sum_cons, List.countP_cons, ho]
    cases success <;> simp at hcj hfj ⊢ <;> omega

theorem length_acknowledgedOrders (t : List (SendAct PublishEffect)) :
    (acknowledgedOrders t).length = (finishes t).countP (·.2 = .returned true) := by
  rw [acknowledgedOrders]
  induction finishes t with
  | nil => rfl
  | cons f fs ih =>
    by_cases h : f.2 = .returned true <;> simpa [acknowledgement, h] using ih

theorem returned_attempts {report : SendReport} (hr : RunInv m s) (hd : DeliveriesInv s)
    (hphase : s.phase = .returned (.ok report)) :
    calls s.trace = failures s.trace + report.acknowledged ∧
      3 * report.failed ≤ failures s.trace ∧
      failures s.trace ≤ 3 * report.failed + 2 * report.acknowledged := by
  obtain ⟨hfin, hidx, hok, hreport⟩ := hr.returned hphase
  obtain ⟨hack, hfailed, _⟩ := hreport report rfl
  have hjoined : ∀ j ∈ joins s.trace, ∃ success, j.2 = .returned success := by
    rintro ⟨i, o⟩ hj
    have := hok.mp ⟨report, rfl⟩ _ (hfin.mem_iff.mpr hj)
    cases o with
    | returned success => exact ⟨success, rfl⟩
    | panicked => exact absurd rfl this
  obtain ⟨hcalls, hlow, hhigh⟩ := sum_attempts
    (fun i => (effectsOf i s.trace).countP PublishEffect.isFailure)
    (fun i => (effectsOf i s.trace).countP PublishEffect.isCall) fun j hj => by
      obtain ⟨success, ho⟩ := hjoined j hj
      have hjt : .join j.1 (.returned success) ∈ s.trace := ho ▸ mem_joins.mp hj
      exact ⟨success, ho, joined_attempts hd hjt⟩
  rw [← countP_effects hr hidx, ← hfin.countP_eq, ← hfailed] at hlow
  rw [← countP_effects hr hidx, ← hfin.countP_eq, ← hfin.countP_eq, ← hfailed, ← hack] at hhigh
  rw [← countP_effects hr hidx, ← countP_effects hr hidx, ← hfin.countP_eq, ← hack] at hcalls
  exact ⟨hcalls, hlow, hhigh⟩

theorem countP_doneTasks_le {D : Type} (p : List (PendingTask D)) (o : ℕ × Outcome → Bool) :
    (doneTasks p).countP o ≤ p.length := by
  have := (doneTasks_sublist p).length_le
  simp only [List.length_map] at this
  exact List.countP_le_length.trans this

end Fibres

/-- The report, the retries and the metrics of the produce role agree: in total when all deliveries
have returned, and up to the pending deliveries at every moment before. -/
theorem publish_accounting (serialize : String → Order → ByteArray) (topic : String) (m : ℕ+)
    (events : List (SendEvent PublishInput)) :
    let s := (sendOrders (publishSender serialize topic) m ({} : DemoMetrics)).run events
    let metrics : DemoMetrics := s.world
    (∀ report, s.phase = .returned (.ok report) →
      metrics.ordersProduced.total = report.acknowledged ∧
      metrics.orderValueDollars.count = report.acknowledged ∧
      metrics.produceLatency.count = report.acknowledged ∧
      (∀ label, metrics.ordersProduced.count label =
        (acknowledgedOrders s.trace).countP (producedLabel · = label)) ∧
      (acknowledgedOrders s.trace).length = report.acknowledged ∧
      metrics.errors .producerSend = failures s.trace ∧
      3 * report.failed ≤ metrics.errors .producerSend ∧
      metrics.errors .producerSend ≤ 3 * report.failed + 2 * report.acknowledged ∧
      calls s.trace = metrics.errors .producerSend + report.acknowledged ∧
      (∀ kind, kind ≠ .producerSend → metrics.errors kind = 0) ∧
      metrics = { ({} : DemoMetrics) with
        ordersProduced := metrics.ordersProduced
        orderValueDollars := metrics.orderValueDollars
        produceLatency := metrics.produceLatency
        pipelineErrors := metrics.pipelineErrors }) ∧
    s.report.acknowledged ≤ metrics.ordersProduced.total ∧
    metrics.ordersProduced.total ≤ s.report.acknowledged + s.pending.length := by
  intro s metrics
  have hr : RunInv m s := sendOrders_runInv (S := publishSender serialize topic) m _ events
  have hd : DeliveriesInv s :=
    sendOrders_deliveries (S := publishSender serialize topic) m _ events
  have hm : ProducerMetrics metrics s.trace := publish_metrics m events
  refine ⟨fun report hphase => ?_, ?_⟩
  · obtain ⟨-, -, -, hreport⟩ := hr.returned hphase
    obtain ⟨hcalls, hlow, hhigh⟩ := returned_attempts hr hd hphase
    have hlen : (acknowledgedOrders s.trace).length = report.acknowledged := by
      rw [length_acknowledgedOrders, (hreport report rfl).1]
    have herr : metrics.errors .producerSend = failures s.trace := hm.errors .producerSend
    refine ⟨hm.total.trans hlen, hm.values.trans hlen, hm.latencies.trans hlen, hm.produced, hlen,
      herr, ?_, ?_, ?_, fun kind hk => (hm.errors kind).trans (if_neg hk), hm.rest⟩
    · rw [herr]
      exact hlow
    · rw [herr]
      exact hhigh
    · rw [herr]
      exact hcalls
  · have htotal : metrics.ordersProduced.total =
        (joins s.trace).countP (·.2 = .returned true) +
          (doneTasks s.pending).countP (·.2 = .returned true) := by
      rw [hm.total, length_acknowledgedOrders, hr.trace.finishes.countP_eq, List.countP_append]
    have hdone := countP_doneTasks_le s.pending (·.2 = .returned true)
    have hack := hr.report.acknowledged
    omega

/-- One order, delivered at its second attempt. -/
def retriedOnce : List (SendEvent PublishInput) :=
  [tickOnly, .poll 0 {}, .poll 0 {}, .poll 0 { result := some false }, .poll 0 {},
    .poll 0 { result := some true }, .poll 0 {}, .wake { shutdown := true },
    .wake { join := some 0 }, .wake {}]

theorem publish_accounting_retried :
    let s := (sendOrders orderIdSender 1 ({} : DemoMetrics)).run retriedOnce
    let metrics : DemoMetrics := s.world
    s.phase = .returned (.ok { acknowledged := 1 }) ∧ metrics.ordersProduced.total = 1 ∧
      metrics.errors .producerSend = 1 ∧ calls s.trace = 2 := by
  obtain ⟨hreturned, -⟩ := publish_accounting (fun _ order => order.orderId.toUTF8) "orders" 1
    retriedOnce
  have hfailures : failures ((sendOrders orderIdSender 1 ({} : DemoMetrics)).run
      retriedOnce).trace = 1 := by decide +kernel
  obtain ⟨htotal, -, -, -, -, herrors, -, -, hcalls, -⟩ := hreturned { acknowledged := 1 } rfl
  rw [hfailures] at herrors
  rw [herrors] at hcalls
  exact ⟨rfl, htotal, herrors, hcalls⟩

end OrdersDemo
