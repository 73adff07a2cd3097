import OrdersDemo.Pipeline
import OrdersDemo.SendOrders

namespace OrdersDemo

/-- A record as `publish_order` fills it in; every other field keeps its default. -/
structure ProducerRecord where
  topic : String
  key : Option ByteArray
  value : Option ByteArray
  headers : List Header
  deriving DecidableEq

def publishRecord (order : Order) (topic : String) (value : ByteArray)
    (traceHeaders : List (String × String)) : ProducerRecord where
  topic
  key := some order.category.toUTF8
  value := some value
  headers := orderHeaders traceHeaders order

inductive PublishEffect where
  | anomalyWarning
  | call (record : ProducerRecord)
  | result (record : ProducerRecord) (acknowledged : Bool)
  deriving DecidableEq

/-- What the environment of a delivery answers: the current trace headers, the result of the
send in flight, and the time since the record was built. -/
structure PublishInput where
  traceHeaders : List (String × String) := []
  result : Option Bool := none
  elapsed : Duration := 0

/-- `send_with_retry` about to call `send`, or awaiting the future of that call. -/
inductive SendWithRetry where
  | call (attempt : ℕ)
  | waiting (attempt : ℕ)

def SendWithRetry.poll (metrics : DemoMetrics) (record : ProducerRecord) (result : Option Bool) :
    SendWithRetry → DemoMetrics × List PublishEffect × (SendWithRetry ⊕ Bool)
  | .call attempt => (metrics, [.call record], .inl (.waiting attempt))
  | .waiting attempt =>
    match result with
    | none => (metrics, [], .inl (.waiting attempt))
    | some true => (metrics, [.result record true], .inr true)
    | some false =>
      (metrics.recordError .producerSend, [.result record false],
        if attempt < 3 then .inl (.call (attempt + 1)) else .inr false)

/-- The future of `publish_order`: not polled yet, in `send_with_retry`, or past its success. -/
inductive PublishOrder where
  | created (order : Order) (topic : String) (value : ByteArray)
  | sending (order : Order) (record : ProducerRecord) (retry : SendWithRetry)
  | sent (order : Order)

/-- One poll goes up to the next call of `send` or the next answer, so that other deliveries can
come between any two of them. -/
def PublishOrder.poll (metrics : DemoMetrics) (input : PublishInput) :
    PublishOrder → DemoMetrics × List PublishEffect × (PublishOrder ⊕ Bool)
  | .created order topic value =>
    (metrics, if isAnomalous order then [.anomalyWarning] else [],
      .inl (.sending order (publishRecord order topic value input.traceHeaders) (.call 1)))
  | .sending order record retry =>
    let (metrics, effects, answer) := retry.poll metrics record input.result
    match answer with
    | .inl retry => (metrics, effects, .inl (.sending order record retry))
    | .inr true => (metrics, effects, .inl (.sent order))
    | .inr false => (metrics, effects, .inr false)
  | .sent order =>
    (metrics.recordProduced order.category order.region order.paymentMethod order.amount
      input.elapsed, [], .inr true)

/-- The closure `run_produce` hands to `send_orders`. `serialize` is the schema codec. -/
@[reducible] def publishSender (serialize : String → Order → ByteArray) (topic : String) :
    Sender where
  World := DemoMetrics
  Delivery := PublishOrder
  Input := PublishInput
  Effect := PublishEffect
  send metrics order := (metrics, .created order topic (serialize topic order))
  poll metrics delivery input := delivery.poll metrics input

/-- A sender that writes the id of an order. -/
abbrev orderIdSender : Sender :=
  publishSender (fun _ order => order.orderId.toUTF8) "orders"

end OrdersDemo
