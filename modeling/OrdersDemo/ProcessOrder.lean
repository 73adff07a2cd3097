import OrdersDemo.Pipeline

namespace OrdersDemo

def u64Max : ℕ := 2 ^ 64 - 1

def stripPrefix (p s : String) : Option String :=
  if p.toList.isPrefixOf s.toList then some (String.ofList (s.toList.drop p.toList.length))
  else none

def decimal (digits : List Char) : Option ℕ :=
  digits.foldlM (fun n c => if c.isDigit then some (10 * n + (c.toNat - '0'.toNat)) else none) 0

/-- `str::parse::<u64>`: an optional plus sign and at least one digit. -/
def parseU64 (s : String) : Option ℕ := do
  let digits := if s.toList.head? = some '+' then s.toList.tail else s.toList
  if digits.isEmpty then none
  else tryFrom u64Max (← decimal digits)

structure ConsumerRecord where
  partition : ℤ
  offset : ℤ
  headers : List Header
  value : Option ByteArray
  deriving DecidableEq

/-- The fields of `Cli` that the processing of a record reads. -/
structure ProcessCli where
  inputTopic : String
  validateWork : Duration
  enrichWork : Duration
  fraudCheckWork : Duration
  fulfillWork : Duration
  slowOrderFraction : F64

def idleCli : ProcessCli where
  inputTopic := "orders"
  validateWork := 0
  enrichWork := 0
  fraudCheckWork := 0
  fulfillWork := 0
  slowOrderFraction := .fin 0

/-- What the environment answers while one record is processed: the decoder's result, and the
time that each stage and the whole order have taken. -/
structure ProcessEnv (E : Type) where
  deserialize : String → ByteArray → Except E Order
  stageElapsed : String → Duration
  elapsed : Duration

/-- The `process_order` span, with the work of its child spans. -/
structure ProcessSpan where
  topic : String
  partition : ℤ
  offset : ℤ
  headerRegion : Option String
  headerTier : Option String
  remoteParent : List (String × ByteArray)
  order : Option Order := none
  stages : List (String × Duration) := []
  outcome : Option String := none
  error : Bool := false

structure ProcessState where
  metrics : DemoMetrics
  span : ProcessSpan

section Process

variable {E : Type} (cli : ProcessCli) (env : ProcessEnv E)

def stage (name : String) (work : Duration) : StateM ProcessState Unit :=
  modify fun s =>
    { metrics := s.metrics.recordStage name (env.stageElapsed name)
      span := { s.span with stages := s.span.stages ++ [(name, work)] } }

def processDecodedOrder (order : Order) : StateM ProcessState Unit := do
  modify fun s => { s with span := { s.span with order := some order } }
  let work : StageWork :=
    ⟨cli.validateWork, cli.enrichWork, cli.fraudCheckWork, cli.fulfillWork⟩
  let orderIndex := ((stripPrefix "o-" order.orderId).bind parseU64).getD 0
  let outcome ← processOrder order fun name =>
    stage env name (stageDelay name work orderIndex cli.slowOrderFraction)
  modify fun s =>
    { metrics := s.metrics.recordProcessed order.category order.region outcome env.elapsed
      span := { s.span with outcome := some outcome } }

def recordFailure (kind : PipelineErrorKind) : StateM ProcessState Unit :=
  modify fun s =>
    { metrics := s.metrics.recordError kind, span := { s.span with error := true } }

def processOrderInner (record : ConsumerRecord) : StateM ProcessState Unit :=
  match decodeOrder record.value (env.deserialize cli.inputTopic) with
  | .ok order => processDecodedOrder cli env order
  | .error .missingValue => recordFailure .missingValue
  | .error (.deserialize _) => recordFailure .deserialize

def processOrderRecord (record : ConsumerRecord) (metrics : DemoMetrics) :
    DemoMetrics × ProcessSpan :=
  let span : ProcessSpan :=
    { topic := cli.inputTopic
      partition := record.partition
      offset := record.offset
      headerRegion := headerValue record.headers "x-demo-region"
      headerTier := headerValue record.headers "x-demo-tier"
      remoteParent := continueTrace record.headers }
  let s := ((processOrderInner cli env record).run ⟨metrics, span⟩).2
  (s.metrics, s.span)

def decoded (record : ConsumerRecord) : Except (PipelineInputError E) Order :=
  decodeOrder record.value (env.deserialize cli.inputTopic)

/-- The metrics after a decoded order: one observation of each stage, then the order itself. -/
def decodedMetrics (order : Order) (metrics : DemoMetrics) : DemoMetrics :=
  (stages.foldl (fun m name => m.recordStage name (env.stageElapsed name)) metrics).recordProcessed
    order.category order.region (classifyOutcome order) env.elapsed

theorem processOrderRecord_metrics (record : ConsumerRecord) (metrics : DemoMetrics) :
    (processOrderRecord cli env record metrics).1 =
      match decoded cli env record with
      | .ok order => decodedMetrics env order metrics
      | .error .missingValue => metrics.recordError .missingValue
      | .error (.deserialize _) => metrics.recordError .deserialize := by
  unfold processOrderRecord processOrderInner decoded
  split <;> rfl

end Process

end OrdersDemo
