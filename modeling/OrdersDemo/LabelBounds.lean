import OrdersDemo.ConsumeTotals
import OrdersDemo.MetricLabels

namespace OrdersDemo

variable {E P : Type} {cli : ProcessCli}

/-- The labels of the consume role: `orders_processed` carries what was decoded, every other family
is bounded. -/
structure ConsumerLabels (cli : ProcessCli) (m : DemoMetrics)
    (handled : List (ConsumerRecord × ProcessEnv E)) : Prop where
  produced : ∀ l ∈ m.ordersProduced, l ∈ producedLabels
  processed : ∀ l, l ∈ m.ordersProcessed ↔
    ∃ order ∈ decodedOrders cli handled, processedLabel order = l
  stages : ∀ l ∈ m.processStageLatency, l ∈ stages.map StageLabel.mk
  errors : ∀ l ∈ m.pipelineErrors, l ∈ errorKinds.map fun kind => ErrorLabel.mk kind.label
  streams : ∀ l ∈ m.streamCategoryCount, l ∈ categories.map CategoryLabel.mk

theorem mem_foldl_recordStage (elapsed : String → Duration) (names : List String) (m : DemoMetrics)
    {l : StageLabel} :
    l ∈ (names.foldl (fun m name => m.recordStage name (elapsed name)) m).processStageLatency ↔
      l ∈ m.processStageLatency ∨ l ∈ names.map StageLabel.mk := by
  induction names generalizing m with
  | nil => simp
  | cons name names ih =>
    have hone : l ∈ (m.recordStage name (elapsed name)).processStageLatency ↔
        l = ⟨name⟩ ∨ l ∈ m.processStageLatency := Family.mem_update
    rw [List.foldl_cons, ih, hone, List.map_cons, List.mem_cons]
    tauto

section Records

variable {m : DemoMetrics} {handled : List (ConsumerRecord × ProcessEnv E)}
  {record : ConsumerRecord} {env : ProcessEnv E}

theorem ConsumerLabels.failure (h : ConsumerLabels cli m handled) (kind : PipelineErrorKind)
    (hnone : decodedOrder cli (record, env) = none) :
    ConsumerLabels cli (m.recordError kind) (handled ++ [(record, env)]) := by
  refine ⟨h.produced, fun l => ?_, h.stages, fun l hl => ?_, h.streams⟩
  · rw [decodedOrders_concat, hnone, Option.toList_none, List.append_nil]
    exact h.processed l
  · rcases Family.mem_inc.mp hl with rfl | hl
    · exact errorLabel_mem kind
    · exact h.errors l hl

theorem ConsumerLabels.decoded (h : ConsumerLabels cli m handled) {order : Order}
    (horder : decodedOrder cli (record, env) = some order) :
    ConsumerLabels cli (decodedMetrics env order m) (handled ++ [(record, env)]) := by
  have hfold := foldl_recordStage env.stageElapsed OrdersDemo.stages m
  have hproduced : (decodedMetrics env order m).ordersProduced = m.ordersProduced := rfl
  have hprocessed : (decodedMetrics env order m).ordersProcessed =
      m.ordersProcessed.inc (processedLabel order) := rfl
  refine ⟨h.produced, fun l => ?_, fun l hl => ?_, h.errors, h.streams⟩
  · have := h.processed l
    rw [hprocessed, Family.mem_inc, this, decodedOrders_concat, horder]
    simp only [Option.toList_some, List.mem_append, List.mem_singleton, or_and_right, exists_or,
      exists_eq_left]
    rw [eq_comm, or_comm]
  · rcases (mem_foldl_recordStage env.stageElapsed OrdersDemo.stages m).mp hl with hl | hl
    · exact h.stages l hl
    · exact hl

end Records

theorem ConsumerLabels.record {m : DemoMetrics}
    {handled : List (ConsumerRecord × ProcessEnv E)} (h : ConsumerLabels cli m handled)
    (record : ConsumerRecord) (env : ProcessEnv E) :
    ConsumerLabels cli (processOrderRecord cli env record m).1 (handled ++ [(record, env)]) := by
  cases processOrderRecord_end cli record env m with
  | failed kind _ hnone _ _ hmetrics =>
    rw [hmetrics]
    exact h.failure kind hnone
  | decoded order horder _ _ hmetrics =>
    rw [hmetrics]
    exact h.decoded horder

theorem runConsume_labels (cli : ProcessCli) (events : List (ConsumeEvent E P)) :
    let s := (runConsume E P cli {}).run events
    ConsumerLabels cli s.metrics s.handled := by
  refine (runConsume E P cli {}).run_invariant
    (I := fun s => ConsumerLabels cli s.metrics s.handled) ?_ (fun s e h => ?_) events
  · have hnil : decodedOrders cli ([] : List (ConsumerRecord × ProcessEnv E)) = [] := rfl
    exact ⟨by simp [runConsume], by simp [runConsume, hnil], by simp [runConsume],
      by simp [runConsume], by simp [runConsume]⟩
  · have hm := consume_step_move cli s e
    change ConsumerLabels cli (s.step cli e).metrics (s.step cli e).handled
    cases hm with
    | quiet hmetrics hhandled =>
      rw [hmetrics, hhandled]
      exact h
    | polled _ hmetrics hhandled =>
      rw [hmetrics, hhandled]
      exact h
    | @processed record remaining env _ hmetrics hhandled =>
      rw [hmetrics, hhandled]
      exact h.record record env

/-- The stream role creates one label for each key that it sees, and no other. -/
theorem runStream_labels (updates : List (String × ℤ)) :
    let m := (runStream {}).run updates
    (∀ l, l ∈ m.streamCategoryCount ↔ l ∈ updates.map fun u => CategoryLabel.mk u.1) ∧
      m = { ({} : DemoMetrics) with
        streamRecords := m.streamRecords
        streamCategoryCount := m.streamCategoryCount } := by
  induction updates using List.reverseRecOn with
  | nil => exact ⟨fun l => by simp [runStream, Machine.run], rfl⟩
  | append_singleton updates u ih =>
    obtain ⟨hmem, hrest⟩ := ih
    intro m
    have hm : m = ((runStream {}).run updates).recordStream u.1 u.2 :=
      Machine.run_append (runStream {}) updates [u]
    refine ⟨fun l => ?_, ?_⟩
    · have hone : l ∈ m.streamCategoryCount ↔
          l = ⟨u.1⟩ ∨ l ∈ ((runStream {}).run updates).streamCategoryCount := by
        rw [hm]
        exact Family.mem_update
      rw [hone, hmem, List.map_append, List.mem_append, or_comm]
      simp
    · rw [hm]
      unfold DemoMetrics.recordStream
      rw [hrest]

theorem boundedLabels_stream (updates : List (String × ℤ)) :
    BoundedLabels ((runStream {}).run updates) ↔ ∀ u ∈ updates, u.1 ∈ categories := by
  obtain ⟨hmem, hrest⟩ := runStream_labels updates
  have hlabel : ∀ c, CategoryLabel.mk c ∈ categories.map CategoryLabel.mk ↔ c ∈ categories :=
    fun c => List.mem_map_of_injective fun a b h => by cases h; rfl
  constructor
  · intro h u hu
    have hl : CategoryLabel.mk u.1 ∈ ((runStream {}).run updates).streamCategoryCount :=
      (hmem _).mpr (List.mem_map.mpr ⟨u, hu, rfl⟩)
    exact (hlabel u.1).mp (h.streams _ hl)
  · intro h
    have hstreams : ∀ l ∈ ((runStream {}).run updates).streamCategoryCount,
        l ∈ categories.map CategoryLabel.mk := by
      intro l hl
      obtain ⟨u, hu, rfl⟩ := List.mem_map.mp ((hmem l).mp hl)
      exact (hlabel u.1).mpr (h u hu)
    refine ⟨?_, ?_, ?_, ?_, hstreams⟩ <;> rw [hrest] <;> simp

theorem boundedLabels_consume (cli : ProcessCli) (events : List (ConsumeEvent E P)) :
    let s := (runConsume E P cli {}).run events
    BoundedLabels s.metrics ↔
      ∀ order ∈ decodedOrders cli s.handled,
        order.category ∈ categories ∧ order.region ∈ regions := by
  intro s
  have h : ConsumerLabels cli s.metrics s.handled := runConsume_labels cli events
  constructor
  · intro hb order ho
    have hl := (h.processed (processedLabel order)).mpr ⟨order, ho, rfl⟩
    exact processedLabel_mem.mp (hb.processed _ hl)
  · intro ho
    refine ⟨h.produced, fun l hl => ?_, h.stages, h.errors, h.streams⟩
    obtain ⟨order, hm, rfl⟩ := (h.processed l).mp hl
    exact processedLabel_mem.mpr (ho order hm)

/-- The produce role keeps its labels bounded. The consume role keeps its stages, its errors and
its outcomes bounded; the labels of `orders_processed` are exactly those of the decoded orders and
those of the stream role exactly its keys, so that all labels are bounded exactly when the decoded
orders have the generator's categories and regions and the keys are categories. -/
theorem metric_labels_bounded :
    (∀ (serialize : String → Order → ByteArray) (topic : String) (m : ℕ+)
      (events : List (SendEvent PublishInput)),
      BoundedLabels ((sendOrders (publishSender serialize topic) m
        ({} : DemoMetrics)).run events).world) ∧
    (∀ (cli : ProcessCli) (events : List (ConsumeEvent E P)),
      let s := (runConsume E P cli {}).run events
      (∀ l, l ∈ s.metrics.ordersProcessed ↔
        ∃ order ∈ decodedOrders cli s.handled, processedLabel order = l) ∧
      (∀ l ∈ s.metrics.ordersProcessed, l.outcome ∈ outcomes ∧
        ∃ order ∈ decodedOrders cli s.handled, l.category = order.category ∧
          l.region = order.region) ∧
      (∀ l ∈ s.metrics.processStageLatency, l ∈ stages.map StageLabel.mk) ∧
      (∀ l ∈ s.metrics.pipelineErrors,
        l ∈ errorKinds.map fun kind => ErrorLabel.mk kind.label) ∧
      (BoundedLabels s.metrics ↔ ∀ order ∈ decodedOrders cli s.handled,
        order.category ∈ categories ∧ order.region ∈ regions)) ∧
    (∀ updates : List (String × ℤ),
      (∀ l, l ∈ ((runStream {}).run updates).streamCategoryCount ↔
        l ∈ updates.map fun u => CategoryLabel.mk u.1) ∧
      (BoundedLabels ((runStream {}).run updates) ↔ ∀ u ∈ updates, u.1 ∈ categories)) ∧
    ∀ m : DemoMetrics, BoundedLabels m →
      m.ordersProduced.series ≤ 80 ∧ m.ordersProcessed.series ≤ 60 ∧
        m.processStageLatency.series ≤ 4 ∧ m.pipelineErrors.series ≤ 3 ∧
        m.streamCategoryCount.series ≤ 5 := by
  refine ⟨publish_labels, fun cli events => ?_, fun updates => ?_, fun m h => h.series⟩
  · intro s
    have h : ConsumerLabels cli s.metrics s.handled := runConsume_labels cli events
    refine ⟨h.processed, fun l hl => ?_, h.stages, h.errors, boundedLabels_consume cli events⟩
    obtain ⟨order, ho, rfl⟩ := (h.processed l).mp hl
    exact ⟨classifyOutcome_mem order, order, ho, rfl, rfl⟩
  · exact ⟨(runStream_labels updates).1, boundedLabels_stream updates⟩

/-- An order that decodes, and that no generator has made. -/
def foreignOrder : Order :=
  { orderAt 1 with category := "weapons", region := "moon" }

/-- A foreign record and a foreign key each create a label outside the generator's dimensions. -/
theorem foreign_labels :
    let record : ConsumerRecord := ⟨0, 0, [], some .empty⟩
    let env : ProcessEnv Unit := ⟨fun _ _ => .ok foreignOrder, fun _ => 0, 0⟩
    let consumed := (runConsume Unit Unit idleCli {}).run
      [.wake true (some (.ok [record])), .process env]
    let streamed := (runStream {}).run [("weapons", 1)]
    ProcessedLabel.mk "weapons" "moon" (classifyOutcome foreignOrder) ∈
        consumed.metrics.ordersProcessed ∧
      ¬BoundedLabels consumed.metrics ∧
      CategoryLabel.mk "weapons" ∈ streamed.streamCategoryCount ∧ ¬BoundedLabels streamed := by
  intro record env consumed streamed
  have hforeign : "weapons" ∉ categories := by decide
  have h : ConsumerLabels idleCli consumed.metrics consumed.handled := runConsume_labels idleCli _
  have hl := (h.processed (processedLabel foreignOrder)).mpr
    ⟨foreignOrder, List.mem_singleton.mpr rfl, rfl⟩
  have hs := ((runStream_labels [("weapons", 1)]).1 ⟨"weapons"⟩).mpr (by simp)
  refine ⟨hl, fun hb => ?_, hs, fun hb => ?_⟩
  · exact hforeign (processedLabel_mem.mp (hb.processed _ hl)).1
  · exact hforeign ((boundedLabels_stream _).mp hb ("weapons", 1) (by simp))

end OrdersDemo
