import OrdersDemo.Library.Family
import OrdersDemo.Order

namespace OrdersDemo

structure ProducedLabel where
  category : String
  region : String
  paymentMethod : String
  deriving DecidableEq

structure ProcessedLabel where
  category : String
  region : String
  outcome : String
  deriving DecidableEq

structure StageLabel where
  stage : String
  deriving DecidableEq

inductive PipelineErrorKind where
  | missingValue
  | deserialize
  | producerSend
  deriving DecidableEq

def PipelineErrorKind.label : PipelineErrorKind → String
  | .missingValue => "missing_value"
  | .deserialize => "deserialize"
  | .producerSend => "producer_send"

structure ErrorLabel where
  kind : String
  deriving DecidableEq

structure CategoryLabel where
  category : String
  deriving DecidableEq

/-- A histogram is determined by the values it has observed. -/
structure Histogram where
  observations : List F64 := []
  deriving DecidableEq

def Histogram.observe (h : Histogram) (value : F64) : Histogram :=
  ⟨h.observations ++ [value]⟩

def Histogram.count (h : Histogram) : ℕ :=
  h.observations.length

/-- A `Duration`, in nanoseconds. -/
abbrev Duration := ℕ

def Duration.secsF64 (d : Duration) : F64 :=
  .fin (d / 10 ^ 9)

/-- The metric handles of one process; the registry they are published in is left out. -/
structure DemoMetrics where
  ordersProduced : Family ProducedLabel ℕ := ∅
  orderValueDollars : Histogram := {}
  produceLatency : Histogram := {}
  ordersProcessed : Family ProcessedLabel ℕ := ∅
  processStageLatency : Family StageLabel Histogram := ∅
  orderProcessingLatency : Histogram := {}
  pipelineErrors : Family ErrorLabel ℕ := ∅
  streamRecords : ℕ := 0
  streamCategoryCount : Family CategoryLabel ℤ := ∅

namespace DemoMetrics

def recordError (m : DemoMetrics) (kind : PipelineErrorKind) : DemoMetrics :=
  { m with pipelineErrors := m.pipelineErrors.inc ⟨kind.label⟩ }

def recordStream (m : DemoMetrics) (category : String) (count : ℤ) : DemoMetrics :=
  { m with
    streamRecords := m.streamRecords + 1
    streamCategoryCount := m.streamCategoryCount.update 0 ⟨category⟩ fun _ => count }

def recordProduced (m : DemoMetrics) (category region paymentMethod : String)
    (valueDollars : F64) (latency : Duration) : DemoMetrics :=
  { m with
    ordersProduced := m.ordersProduced.inc ⟨category, region, paymentMethod⟩
    orderValueDollars := m.orderValueDollars.observe valueDollars
    produceLatency := m.produceLatency.observe latency.secsF64 }

def recordStage (m : DemoMetrics) (stage : String) (latency : Duration) : DemoMetrics :=
  { m with
    processStageLatency :=
      m.processStageLatency.update {} ⟨stage⟩ (·.observe latency.secsF64) }

def recordProcessed (m : DemoMetrics) (category region outcome : String) (total : Duration) :
    DemoMetrics :=
  { m with
    ordersProcessed := m.ordersProcessed.inc ⟨category, region, outcome⟩
    orderProcessingLatency := m.orderProcessingLatency.observe total.secsF64 }

/-- The reading of `pipeline_errors{kind=...}`. -/
def errors (m : DemoMetrics) (kind : PipelineErrorKind) : ℕ :=
  m.pipelineErrors.count ⟨kind.label⟩

def stageCount (m : DemoMetrics) (stage : String) : ℕ :=
  ((m.processStageLatency.lookup ⟨stage⟩).getD {}).count

end DemoMetrics

@[simp] theorem Histogram.count_observe (h : Histogram) (value : F64) :
    (h.observe value).count = h.count + 1 := by
  simp [observe, count]

theorem PipelineErrorKind.label_inj {k l : PipelineErrorKind} : k.label = l.label ↔ k = l := by
  cases k <;> cases l <;> simp [label]

namespace DemoMetrics

theorem errors_recordError (m : DemoMetrics) (k l : PipelineErrorKind) :
    (m.recordError k).errors l = m.errors l + if l = k then 1 else 0 := by
  simp [errors, recordError, Family.count_inc, PipelineErrorKind.label_inj]

theorem stageCount_recordStage (m : DemoMetrics) (stage s : String) (latency : Duration) :
    (m.recordStage stage latency).stageCount s = m.stageCount s + if s = stage then 1 else 0 := by
  by_cases h : s = stage
  · subst h
    simp [stageCount, recordStage, Family.lookup_update]
  · have hl : (⟨s⟩ : StageLabel) ≠ ⟨stage⟩ := by simpa using h
    simp [stageCount, recordStage, Family.lookup_update_ne hl, h]

end DemoMetrics

end OrdersDemo
