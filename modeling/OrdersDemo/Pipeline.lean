import Mathlib
import OrdersDemo.Metrics

namespace OrdersDemo

structure Header where
  key : String
  value : Option ByteArray
  deriving DecidableEq

inductive PipelineInputError (E : Type) where
  | missingValue
  | deserialize (error : E)
  deriving DecidableEq

def decodeOrder {E : Type} (value : Option ByteArray) (decode : ByteArray → Except E Order) :
    Except (PipelineInputError E) Order :=
  match value with
  | none => .error .missingValue
  | some value => (decode value).mapError .deserialize

structure StageWork where
  validate : Duration
  enrich : Duration
  fraudCheck : Duration
  fulfill : Duration
  deriving DecidableEq

def orderHeaders (traceHeaders : List (String × String)) (order : Order) : List Header :=
  (traceHeaders.map fun h => ⟨h.1, some h.2.toUTF8⟩) ++
    [⟨"x-demo-region", some order.region.toUTF8⟩,
      ⟨"x-demo-tier", some order.customerTier.toUTF8⟩]

def headerValue (headers : List Header) (name : String) : Option String := do
  let header ← headers.find? (·.key = name)
  let value ← header.value
  String.fromUTF8? value

/-- The pairs `continue_trace` hands to `set_remote_parent`. -/
def continueTrace (headers : List Header) : List (String × ByteArray) :=
  headers.map fun header => (header.key, header.value.getD .empty)

/-- `stage_delay`. A sum above the largest `Duration` is left out. -/
def stageDelay (stage : String) (work : StageWork) (orderIndex : ℕ) (slowFraction : F64) :
    Duration :=
  let base :=
    match stage with
    | "validate" => work.validate
    | "enrich" => work.enrich
    | "fraud_check" => work.fraudCheck
    | "fulfill" => work.fulfill
    | _ => 0
  let slot := (tryFrom u32Max (orderIndex % 10000)).getD 0
  let injectLatency := (F64.fin 0).lt slowFraction &&
    (F64.fin (slot / 10000)).lt (slowFraction.clamp (.fin 0) (.fin 1))
  if injectLatency then base + 30 * 10 ^ 6 else base

def stages : List String := ["validate", "enrich", "fraud_check", "fulfill"]

def processOrder {m : Type → Type} [Monad m] (order : Order) (runStage : String → m Unit) :
    m String := do
  stages.forM runStage
  return classifyOutcome order

end OrdersDemo
