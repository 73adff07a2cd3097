import OrdersDemo.RunConsume

namespace OrdersDemo

variable {E P : Type}

def isMissing (h : ConsumerRecord × ProcessEnv E) : Bool :=
  h.1.value.isNone

def isRejected (cli : ProcessCli) (h : ConsumerRecord × ProcessEnv E) : Bool :=
  h.1.value.any fun value => (h.2.deserialize cli.inputTopic value).toOption.isNone

def decodedOrder (cli : ProcessCli) (h : ConsumerRecord × ProcessEnv E) : Option Order :=
  h.1.value.bind fun value => (h.2.deserialize cli.inputTopic value).toOption

def decodedOrders (cli : ProcessCli) (handled : List (ConsumerRecord × ProcessEnv E)) :
    List Order :=
  handled.filterMap (decodedOrder cli)

def processedLabel (order : Order) : ProcessedLabel :=
  ⟨order.category, order.region, classifyOutcome order⟩

/-- How far the metrics of the consume role have moved from `m₀` by the records processed. -/
structure ConsumerMetrics (cli : ProcessCli) (m₀ m : DemoMetrics)
    (handled : List (ConsumerRecord × ProcessEnv E)) : Prop where
  missing : m.errors .missingValue = m₀.errors .missingValue + handled.countP isMissing
  rejected : m.errors .deserialize = m₀.errors .deserialize + handled.countP (isRejected cli)
  producerSend : m.errors .producerSend = m₀.errors .producerSend
  total : m.ordersProcessed.total =
    m₀.ordersProcessed.total + (decodedOrders cli handled).length
  processed : ∀ label, m.ordersProcessed.count label =
    m₀.ordersProcessed.count label + (decodedOrders cli handled).countP (processedLabel · = label)
  stageCounts : ∀ stage ∈ stages, m.stageCount stage =
    m₀.stageCount stage + (decodedOrders cli handled).length
  latency : m.orderProcessingLatency.count =
    m₀.orderProcessingLatency.count + (decodedOrders cli handled).length
  rest : m = { m₀ with
    ordersProcessed := m.ordersProcessed
    processStageLatency := m.processStageLatency
    orderProcessingLatency := m.orderProcessingLatency
    pipelineErrors := m.pipelineErrors }

section Stages

variable (elapsed : String → Duration)

theorem stageCount_foldl (names : List String) (m : DemoMetrics) (s : String) :
    (names.foldl (fun m name => m.recordStage name (elapsed name)) m).stageCount s =
      m.stageCount s + names.count s := by
  induction names generalizing m with
  | nil => simp
  | cons name names ih =>
    have hone := DemoMetrics.stageCount_recordStage m name s (elapsed name)
    rw [List.foldl_cons, ih, hone, List.count_cons]
    by_cases h : s = name
    · subst h
      rw [if_pos rfl, if_pos (beq_self_eq_true s)]
      omega
    · have hne : (name == s) = false := beq_eq_false_iff_ne.mpr (Ne.symm h)
      simp [h, hne]

theorem foldl_recordStage (names : List String) (m : DemoMetrics) :
    names.foldl (fun m name => m.recordStage name (elapsed name)) m =
      { m with
        processStageLatency := (names.foldl (fun m name =>
          m.recordStage name (elapsed name)) m).processStageLatency } := by
  induction names generalizing m with
  | nil => rfl
  | cons name names ih =>
    have h := ih (m.recordStage name (elapsed name))
    rw [List.foldl_cons, h]
    rfl

theorem stageCount_decodedMetrics (env : ProcessEnv E) (order : Order) (m : DemoMetrics)
    {stage : String} (h : stage ∈ stages) :
    (decodedMetrics env order m).stageCount stage = m.stageCount stage + 1 := by
  have hcount : stages.count stage = 1 := List.count_eq_one_of_mem (by decide) h
  have hfold := stageCount_foldl env.stageElapsed stages m stage
  rw [hcount] at hfold
  exact hfold

end Stages

section Steps

variable {cli : ProcessCli} {m₀ m : DemoMetrics} {handled : List (ConsumerRecord × ProcessEnv E)}
  {record : ConsumerRecord} {env : ProcessEnv E}

theorem decodedOrders_concat (h : ConsumerRecord × ProcessEnv E) :
    decodedOrders cli (handled ++ [h]) =
      decodedOrders cli handled ++ (decodedOrder cli h).toList := by
  rw [decodedOrders, List.filterMap_append, List.filterMap_cons, List.filterMap_nil]
  cases decodedOrder cli h <;> rfl

theorem countP_concat (p : ConsumerRecord × ProcessEnv E → Bool)
    (h : ConsumerRecord × ProcessEnv E) :
    (handled ++ [h]).countP p = handled.countP p + if p h then 1 else 0 := by
  rw [List.countP_append, List.countP_singleton]

/-- A record that fails decoding moves its own error counter and nothing else. -/
theorem ConsumerMetrics.failure (hm : ConsumerMetrics cli m₀ m handled)
    {kind : PipelineErrorKind} (hkind : kind ≠ .producerSend)
    (hnone : decodedOrder cli (record, env) = none)
    (hmissing : isMissing (record, env) = decide (kind = .missingValue))
    (hrejected : isRejected cli (record, env) = decide (kind = .deserialize)) :
    ConsumerMetrics cli m₀ (m.recordError kind) (handled ++ [(record, env)]) := by
  have horders : decodedOrders cli (handled ++ [(record, env)]) = decodedOrders cli handled := by
    rw [decodedOrders_concat, hnone, Option.toList_none, List.append_nil]
  refine ⟨?_, ?_, ?_, ?_, ?_, ?_, ?_, ?_⟩
  · have := hm.missing
    rw [DemoMetrics.errors_recordError, countP_concat, hmissing]
    simp only [decide_eq_true_eq, eq_comm (a := PipelineErrorKind.missingValue)]
    omega
  · have := hm.rejected
    rw [DemoMetrics.errors_recordError, countP_concat, hrejected]
    simp only [decide_eq_true_eq, eq_comm (a := PipelineErrorKind.deserialize)]
    omega
  · rw [DemoMetrics.errors_recordError, if_neg (Ne.symm hkind)]
    exact hm.producerSend
  · rw [horders]
    exact hm.total
  · rw [horders]
    exact hm.processed
  · rw [horders]
    exact hm.stageCounts
  · rw [horders]
    exact hm.latency
  · unfold DemoMetrics.recordError
    rw [hm.rest]

theorem ConsumerMetrics.decoded (hm : ConsumerMetrics cli m₀ m handled) {order : Order}
    (horder : decodedOrder cli (record, env) = some order)
    (hmissing : isMissing (record, env) = false)
    (hrejected : isRejected cli (record, env) = false) :
    ConsumerMetrics cli m₀ (decodedMetrics env order m) (handled ++ [(record, env)]) := by
  have horders : decodedOrders cli (handled ++ [(record, env)]) =
      decodedOrders cli handled ++ [order] := by
    rw [decodedOrders_concat, horder, Option.toList_some]
  have hlength : (decodedOrders cli (handled ++ [(record, env)])).length =
      (decodedOrders cli handled).length + 1 := by
    rw [horders, List.length_append, List.length_singleton]
  have hfold := foldl_recordStage env.stageElapsed stages m
  refine ⟨?_, ?_, ?_, ?_, ?_, ?_, ?_, ?_⟩
  · rw [countP_concat, hmissing]
    exact hm.missing
  · rw [countP_concat, hrejected]
    exact hm.rejected
  · exact hm.producerSend
  · have htotal := Family.total_inc m.ordersProcessed (processedLabel order)
    have := hm.total
    change (m.ordersProcessed.inc (processedLabel order)).total = _
    omega
  · intro label
    have hcount := Family.count_inc m.ordersProcessed (processedLabel order) label
    have := hm.processed label
    change (m.ordersProcessed.inc (processedLabel order)).count label = _
    rw [horders, List.countP_append, List.countP_singleton, hcount, this]
    simp [eq_comm, Nat.add_assoc]
  · intro stage hs
    have hcount := stageCount_decodedMetrics env order m hs
    have := hm.stageCounts stage hs
    omega
  · have hcount := Histogram.count_observe m.orderProcessingLatency (Duration.secsF64 env.elapsed)
    have := hm.latency
    change (m.orderProcessingLatency.observe (Duration.secsF64 env.elapsed)).count = _
    omega
  · unfold decodedMetrics DemoMetrics.recordProcessed
    rw [hfold, hm.rest]

end Steps

end OrdersDemo
