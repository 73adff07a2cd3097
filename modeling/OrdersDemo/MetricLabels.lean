import OrdersDemo.ConsumeAccounting
import OrdersDemo.PublishAccounting

namespace OrdersDemo

/-- The `peek` of `run_stream`: every update of the count by category reaches the metrics. -/
def runStream (metrics : DemoMetrics) : Machine DemoMetrics (String × ℤ) where
  init := metrics
  step m update := m.recordStream update.1 update.2

def outcomes : List String := ["anomalous", "fraud_rejected", "fulfilled"]

def errorKinds : List PipelineErrorKind := [.missingValue, .deserialize, .producerSend]

def producedLabels : List ProducedLabel :=
  categories.flatMap fun c => regions.flatMap fun r => paymentMethods.map fun p => ⟨c, r, p⟩

def processedLabels : List ProcessedLabel :=
  categories.flatMap fun c => regions.flatMap fun r => outcomes.map fun o => ⟨c, r, o⟩

/-- Every label set lies in the product of the generator's dimensions and the fixed enums. -/
structure BoundedLabels (m : DemoMetrics) : Prop where
  produced : ∀ l ∈ m.ordersProduced, l ∈ producedLabels
  processed : ∀ l ∈ m.ordersProcessed, l ∈ processedLabels
  stages : ∀ l ∈ m.processStageLatency, l ∈ stages.map StageLabel.mk
  errors : ∀ l ∈ m.pipelineErrors, l ∈ errorKinds.map fun kind => ErrorLabel.mk kind.label
  streams : ∀ l ∈ m.streamCategoryCount, l ∈ categories.map CategoryLabel.mk

theorem BoundedLabels.series {m : DemoMetrics} (h : BoundedLabels m) :
    m.ordersProduced.series ≤ 80 ∧ m.ordersProcessed.series ≤ 60 ∧
      m.processStageLatency.series ≤ 4 ∧ m.pipelineErrors.series ≤ 3 ∧
      m.streamCategoryCount.series ≤ 5 :=
  ⟨m.ordersProduced.series_le h.produced, m.ordersProcessed.series_le h.processed,
    m.processStageLatency.series_le h.stages, m.pipelineErrors.series_le h.errors,
    m.streamCategoryCount.series_le h.streams⟩

theorem mem_producedLabels {l : ProducedLabel} : l ∈ producedLabels ↔
    l.category ∈ categories ∧ l.region ∈ regions ∧ l.paymentMethod ∈ paymentMethods := by
  obtain ⟨c, r, p⟩ := l
  simp only [producedLabels, List.mem_flatMap, List.mem_map]
  constructor
  · rintro ⟨c', hc, r', hr, p', hp, he⟩
    cases he
    exact ⟨hc, hr, hp⟩
  · rintro ⟨hc, hr, hp⟩
    exact ⟨c, hc, r, hr, p, hp, rfl⟩

theorem mem_processedLabels {l : ProcessedLabel} : l ∈ processedLabels ↔
    l.category ∈ categories ∧ l.region ∈ regions ∧ l.outcome ∈ outcomes := by
  obtain ⟨c, r, o⟩ := l
  simp only [processedLabels, List.mem_flatMap, List.mem_map]
  constructor
  · rintro ⟨c', hc, r', hr, o', ho, he⟩
    cases he
    exact ⟨hc, hr, ho⟩
  · rintro ⟨hc, hr, ho⟩
    exact ⟨c, hc, r, hr, o, ho, rfl⟩

theorem processedLabel_mem {order : Order} : processedLabel order ∈ processedLabels ↔
    order.category ∈ categories ∧ order.region ∈ regions := by
  have ho : classifyOutcome order ∈ outcomes := classifyOutcome_mem order
  rw [mem_processedLabels]
  simp [processedLabel, ho]

theorem errorLabel_mem (kind : PipelineErrorKind) :
    ErrorLabel.mk kind.label ∈ errorKinds.map fun kind => ErrorLabel.mk kind.label := by
  apply List.mem_map_of_mem (f := fun kind => ErrorLabel.mk (PipelineErrorKind.label kind))
  cases kind <;> decide

theorem producedLabel_orderAt_mem (i : ℕ) : producedLabel (orderAt i) ∈ producedLabels :=
  mem_producedLabels.mpr
    ⟨orderAt_category_mem i, orderAt_region_mem i, orderAt_paymentMethod_mem i⟩

theorem BoundedLabels.recordError {m : DemoMetrics} (h : BoundedLabels m)
    (kind : PipelineErrorKind) : BoundedLabels (m.recordError kind) := by
  refine ⟨h.produced, h.processed, h.stages, fun l hl => ?_, h.streams⟩
  rcases Family.mem_inc.mp hl with rfl | hl
  · exact errorLabel_mem kind
  · exact h.errors l hl

theorem publish_labels (serialize : String → Order → ByteArray) (topic : String) (m : ℕ+)
    (events : List (SendEvent PublishInput)) :
    BoundedLabels ((sendOrders (publishSender serialize topic) m
      ({} : DemoMetrics)).run events).world := by
  refine sendOrders_world (S := publishSender serialize topic) (I := fun w _ => BoundedLabels w)
    ?_ ?_ ?_ ?_ ?_ events
  · exact fun w t i order h => h
  · intro w t i d input h hd
    rcases publish_poll_metrics d w input with ⟨_, hw, _⟩ | ⟨_, hw, _⟩ | ⟨order, rfl⟩
    · change BoundedLabels (d.poll w input).1
      rw [hw]
      exact h
    · change BoundedLabels (d.poll w input).1
      rw [hw]
      exact h.recordError .producerSend
    · obtain rfl := hd.sent_order
      refine ⟨fun l hl => ?_, h.processed, h.stages, h.errors, h.streams⟩
      rcases Family.mem_inc.mp hl with rfl | hl
      · exact producedLabel_orderAt_mem i
      · exact h.produced l hl
  · exact fun w t i h => h
  · exact fun w t i o h => h
  · exact ⟨by simp, by simp, by simp, by simp, by simp⟩

end OrdersDemo
