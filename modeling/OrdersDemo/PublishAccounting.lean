import OrdersDemo.PublishAttempts

namespace OrdersDemo

def producedLabel (order : Order) : ProducedLabel :=
  ⟨order.category, order.region, order.paymentMethod⟩

def acknowledgement (f : ℕ × Outcome) : Option Order :=
  if f.2 = .returned true then some (orderAt f.1) else none

def acknowledgedOrders (t : List (SendAct PublishEffect)) : List Order :=
  (finishes t).filterMap acknowledgement

def failures (t : List (SendAct PublishEffect)) : ℕ :=
  (effects t).countP (·.2.isFailure)

def calls (t : List (SendAct PublishEffect)) : ℕ :=
  (effects t).countP (·.2.isCall)

/-- The metrics of the produce role count the acknowledged orders and the failed attempts, and
nothing else. -/
structure ProducerMetrics (w : DemoMetrics) (t : List (SendAct PublishEffect)) : Prop where
  produced : ∀ l, w.ordersProduced.count l = (acknowledgedOrders t).countP (producedLabel · = l)
  total : w.ordersProduced.total = (acknowledgedOrders t).length
  values : w.orderValueDollars.count = (acknowledgedOrders t).length
  latencies : w.produceLatency.count = (acknowledgedOrders t).length
  errors : ∀ kind, w.errors kind = if kind = .producerSend then failures t else 0
  rest : w = { ({} : DemoMetrics) with
    ordersProduced := w.ordersProduced
    orderValueDollars := w.orderValueDollars
    produceLatency := w.produceLatency
    pipelineErrors := w.pipelineErrors }

@[simp] theorem acknowledgedOrders_append (t u : List (SendAct PublishEffect)) :
    acknowledgedOrders (t ++ u) = acknowledgedOrders t ++ acknowledgedOrders u := by
  simp [acknowledgedOrders]

@[simp] theorem failures_append (t u : List (SendAct PublishEffect)) :
    failures (t ++ u) = failures t + failures u := by
  simp [failures]

@[simp] theorem failures_ofPoll {D : Type} (i : ℕ) (effects : List PublishEffect)
    (answer : D ⊕ Bool) :
    failures (SendAct.ofPoll i effects answer) = effects.countP PublishEffect.isFailure := by
  rw [failures, effects_ofPoll, List.countP_map]
  rfl

theorem acknowledgedOrders_ofPoll {D : Type} (i : ℕ) (effects : List PublishEffect)
    (answer : D ⊕ Bool) : acknowledgedOrders (SendAct.ofPoll i effects answer) =
      match answer with
      | .inr true => [orderAt i]
      | _ => [] := by
  rcases answer with _ | _ | _ <;> simp [acknowledgedOrders, acknowledgement, TaskState.ofPoll]

section Metrics

variable {w : DemoMetrics} {t acts : List (SendAct PublishEffect)}

/-- What acknowledges nothing and fails no attempt leaves the metrics as they are. -/
theorem ProducerMetrics.frame (h : ProducerMetrics w t) (hack : acknowledgedOrders acts = [])
    (hfail : failures acts = 0) : ProducerMetrics w (t ++ acts) where
  produced := by simpa [hack] using h.produced
  total := by simpa [hack] using h.total
  values := by simpa [hack] using h.values
  latencies := by simpa [hack] using h.latencies
  errors := by simpa [hfail] using h.errors
  rest := h.rest

theorem ProducerMetrics.recordError (h : ProducerMetrics w t)
    (hack : acknowledgedOrders acts = []) (hfail : failures acts = 1) :
    ProducerMetrics (w.recordError .producerSend) (t ++ acts) where
  produced := by simpa [hack, DemoMetrics.recordError] using h.produced
  total := by simpa [hack, DemoMetrics.recordError] using h.total
  values := by simpa [hack, DemoMetrics.recordError] using h.values
  latencies := by simpa [hack, DemoMetrics.recordError] using h.latencies
  errors := by
    intro kind
    rw [DemoMetrics.errors_recordError, h.errors, failures_append, hfail]
    by_cases hk : kind = .producerSend <;> simp [hk]
  rest := by
    rw [DemoMetrics.recordError, h.rest]

theorem ProducerMetrics.recordProduced (h : ProducerMetrics w t) {i : ℕ} (amount : F64)
    (elapsed : Duration) (hack : acknowledgedOrders acts = [orderAt i])
    (hfail : failures acts = 0) :
    ProducerMetrics (w.recordProduced (orderAt i).category (orderAt i).region
      (orderAt i).paymentMethod amount elapsed) (t ++ acts) where
  produced := by
    intro l
    rw [DemoMetrics.recordProduced, Family.count_inc, h.produced, acknowledgedOrders_append,
      hack, List.countP_append, List.countP_singleton]
    simp [producedLabel, eq_comm]
  total := by
    rw [DemoMetrics.recordProduced, Family.total_inc, h.total, acknowledgedOrders_append, hack,
      List.length_append, List.length_singleton]
  values := by
    rw [DemoMetrics.recordProduced, Histogram.count_observe, h.values,
      acknowledgedOrders_append, hack, List.length_append, List.length_singleton]
  latencies := by
    rw [DemoMetrics.recordProduced, Histogram.count_observe, h.latencies,
      acknowledgedOrders_append, hack, List.length_append, List.length_singleton]
  errors := by
    intro kind
    have := h.errors kind
    rw [failures_append, hfail, Nat.add_zero, ← this]
    rfl
  rest := by
    rw [DemoMetrics.recordProduced, h.rest]

/-- What one poll of a delivery does to the metrics, by what it shows. -/
theorem publish_poll_metrics (d : PublishOrder) (w : DemoMetrics) (input : PublishInput) :
    ((d.poll w input).2.2 ≠ .inr true ∧ (d.poll w input).1 = w ∧
      (d.poll w input).2.1.countP PublishEffect.isFailure = 0) ∨
    ((d.poll w input).2.2 ≠ .inr true ∧ (d.poll w input).1 = w.recordError .producerSend ∧
      (d.poll w input).2.1.countP PublishEffect.isFailure = 1) ∨
    ∃ order, d = .sent order := by
  cases d with
  | created order topic value =>
    refine Or.inl ⟨by simp [PublishOrder.poll], rfl, ?_⟩
    simp only [PublishOrder.poll]
    split <;> rfl
  | sending order record retry =>
    cases retry with
    | call k => exact Or.inl ⟨by simp [PublishOrder.poll, SendWithRetry.poll], rfl, rfl⟩
    | waiting k =>
      rcases hr : input.result with _ | _ | _
      · exact Or.inl (by simp [PublishOrder.poll, SendWithRetry.poll, hr])
      · refine Or.inr (Or.inl ?_)
        by_cases hk : k < 3 <;> simp [PublishOrder.poll, SendWithRetry.poll, hr, hk]
      · exact Or.inl (by simp [PublishOrder.poll, SendWithRetry.poll, hr])
  | sent order => exact Or.inr (Or.inr ⟨order, rfl⟩)

end Metrics

section Runs

variable {serialize : String → Order → ByteArray} {topic : String}

theorem acknowledgedOrders_ofPoll_of_ne {D : Type} (i : ℕ) (effects : List PublishEffect)
    {answer : D ⊕ Bool} (h : answer ≠ .inr true) :
    acknowledgedOrders (SendAct.ofPoll i effects answer) = [] := by
  rw [acknowledgedOrders_ofPoll]
  rcases answer with _ | _ | _
  · rfl
  · rfl
  · exact absurd rfl h

/-- A delivery past its success carries its own order. -/
theorem Delivered.sent_order {trace : List (SendAct PublishEffect)} {i : ℕ} {order : Order}
    (h : Delivered (S := publishSender serialize topic) trace i (.running (.sent order))) :
    order = (orderAt i).stamp i := by
  rcases h.published with ⟨_, h | h⟩ | ⟨traceHeaders, attempts, ha, _⟩
  · cases h
  · cases h
  · cases ha
    rfl

theorem publish_metrics (m : ℕ+) (events : List (SendEvent PublishInput)) :
    let s := (sendOrders (publishSender serialize topic) m ({} : DemoMetrics)).run events
    ProducerMetrics s.world s.trace := by
  refine sendOrders_world (S := publishSender serialize topic) (I := ProducerMetrics) ?_ ?_ ?_ ?_
    ?_ events
  · exact fun w t i order h => h.frame rfl rfl
  · intro w t i d input h hd
    rcases publish_poll_metrics d w input with ⟨hne, hw, hf⟩ | ⟨hne, hw, hf⟩ | ⟨order, rfl⟩
    · change ProducerMetrics (d.poll w input).1 _
      rw [hw]
      exact h.frame (acknowledgedOrders_ofPoll_of_ne i _ hne) (by rw [failures_ofPoll]; exact hf)
    · change ProducerMetrics (d.poll w input).1 _
      rw [hw]
      exact h.recordError (acknowledgedOrders_ofPoll_of_ne i _ hne)
        (by rw [failures_ofPoll]; exact hf)
    · obtain rfl := hd.sent_order
      exact h.recordProduced _ _ rfl rfl
  · exact fun w t i h => h.frame rfl rfl
  · exact fun w t i o h => h.frame rfl rfl
  · exact ⟨fun _ => rfl, rfl, rfl, rfl, fun kind => by cases kind <;> rfl, rfl⟩

end Runs

end OrdersDemo
