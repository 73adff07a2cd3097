import OrdersDemo.PublishKeyOrder
import OrdersDemo.ConsumeTotals

namespace OrdersDemo

/-- The libraries between the two roles: the value serde of both, the partition that the producer
chooses for a key, and the offset at which the consumer begins to read a partition. -/
structure Kafka (E : Type) where
  serialize : String → Order → ByteArray
  deserialize : String → ByteArray → Except E Order
  partition : Option ByteArray → ℤ
  start : ℤ → ℕ

/-- A record in the topic, with the index of its order. -/
structure TopicEntry where
  index : ℕ
  partition : ℤ
  offset : ℕ
  record : ProducerRecord
  deriving DecidableEq

/-- The record as the consumer polls it. -/
def TopicEntry.deliver (e : TopicEntry) : ConsumerRecord where
  partition := e.partition
  offset := e.offset
  headers := e.record.headers
  value := e.record.value

/-- The record of order `i` whose `send` has been called and has not answered. -/
def inFlight (i : ℕ) (trace : List (SendAct PublishEffect)) : Option ProducerRecord :=
  match (effectsOf i trace).getLast? with
  | some (.call record) => some record
  | _ => none

/-- How many records of order `i` were handed to `send`. -/
def callsOf (i : ℕ) (trace : List (SendAct PublishEffect)) : ℕ :=
  (effectsOf i trace).countP PublishEffect.isCall

structure DemoState {E : Type} (kafka : Kafka E) (topic : String) (P : Type) where
  producer : SendState (publishSender kafka.serialize topic)
  log : List TopicEntry
  consumer : ConsumeState E P

/-- A step of either role, or the broker appends a record that `send` was called with. -/
inductive DemoEvent (E P : Type) where
  | produce (event : SendEvent PublishInput)
  | append (index : ℕ) (record : ProducerRecord)
  | consume (event : ConsumeEvent E P)

namespace DemoState

variable {E P : Type} {kafka : Kafka E} {topic : String}

/-- The record of any call can arrive, also after `send` has answered; no other record can. -/
def append (s : DemoState kafka topic P) (i : ℕ) (record : ProducerRecord) :
    DemoState kafka topic P :=
  if .call record ∈ effectsOf i s.producer.trace then
    let partition := kafka.partition record.key
    let offset := s.log.countP (·.partition = partition)
    { s with log := s.log ++ [⟨i, partition, offset, record⟩] }
  else s

def step (m : ℕ+) (cli : ProcessCli) (s : DemoState kafka topic P) :
    DemoEvent E P → DemoState kafka topic P
  | .produce event => { s with producer := s.producer.step m event }
  | .append i record => s.append i record
  | .consume event => { s with consumer := s.consumer.step cli event }

end DemoState

/-- Both roles on the topic that `KRABKA_DEMO_INPUT_TOPIC` names. -/
def demo {E : Type} (kafka : Kafka E) (P : Type) (m : ℕ+) (cli : ProcessCli) :
    Machine (DemoState kafka cli.inputTopic P) (DemoEvent E P) where
  init := ⟨(sendOrders (publishSender kafka.serialize cli.inputTopic) m {}).init, [],
    (runConsume E P cli {}).init⟩
  step := DemoState.step m cli

section Contract

variable {E P : Type}

/-- The serde reads back what it has written. -/
def Kafka.RoundTrips (kafka : Kafka E) (topic : String) : Prop :=
  ∀ i, kafka.deserialize topic (orderValue kafka.serialize topic i) = .ok ((orderAt i).stamp i)

/-- What a consumer is handed of a partition are its records from the starting offset on, each once
and in the order of their offsets. -/
def Kafka.Reads (kafka : Kafka E) (log : List TopicEntry) (polled : List ConsumerRecord) : Prop :=
  ∀ p, polled.filter (·.partition = p) <+:
    ((log.filter (·.partition = p)).map TopicEntry.deliver).drop (kafka.start p)

/-- What the roles rely on in each step: a send is acknowledged after its record is in the topic, a
call of `send` appends at most one record, the consumer reads in order, and it decodes with the
serde. -/
def Kafka.Keeps (kafka : Kafka E) {topic : String} (s : DemoState kafka topic P) :
    DemoEvent E P → Prop
  | .produce (.poll i input) => input.result = some true →
    ∀ record, inFlight i s.producer.trace = some record → ∃ e ∈ s.log, e.index = i
  | .append i _ => s.log.countP (·.index = i) < callsOf i s.producer.trace
  | .consume (.wake _ (some (.ok records))) => kafka.Reads s.log (s.consumer.polled ++ records)
  | .consume (.process env) => env.deserialize = kafka.deserialize
  | _ => True

/-- A failed attempt does not land after its answer: the broker appends a record only while its
send is in flight. -/
def Kafka.Prompt (kafka : Kafka E) {topic : String} (s : DemoState kafka topic P) :
    DemoEvent E P → Prop
  | .append i record => inFlight i s.producer.trace = some record
  | _ => True

end Contract

section Roles

variable {E P : Type} {kafka : Kafka E} {m : ℕ+} {cli : ProcessCli}

def DemoEvent.produce? : DemoEvent E P → Option (SendEvent PublishInput)
  | .produce event => some event
  | _ => none

def DemoEvent.consume? : DemoEvent E P → Option (ConsumeEvent E P)
  | .consume event => some event
  | _ => none

theorem append_producer {topic : String} (s : DemoState kafka topic P) (i : ℕ)
    (record : ProducerRecord) : (s.append i record).producer = s.producer := by
  unfold DemoState.append
  split <;> rfl

theorem append_consumer {topic : String} (s : DemoState kafka topic P) (i : ℕ)
    (record : ProducerRecord) : (s.append i record).consumer = s.consumer := by
  unfold DemoState.append
  split <;> rfl

/-- The produce role runs by itself: nothing the other parties do changes its state. -/
theorem demo_producer (events : List (DemoEvent E P)) :
    ((demo kafka P m cli).run events).producer =
      (sendOrders (publishSender kafka.serialize cli.inputTopic) m ({} : DemoMetrics)).run
        (events.filterMap DemoEvent.produce?) := by
  refine Machine.runFrom_project (f := DemoState.producer) (fun s e => ?_) _ events
  cases e with
  | produce event => rfl
  | append i record => exact append_producer s i record
  | consume event => rfl

theorem demo_consumer (events : List (DemoEvent E P)) :
    ((demo kafka P m cli).run events).consumer =
      (runConsume E P cli {}).run (events.filterMap DemoEvent.consume?) := by
  refine Machine.runFrom_project (f := DemoState.consumer) (fun s e => ?_) _ events
  cases e with
  | produce event => rfl
  | append i record => exact append_consumer s i record
  | consume event => rfl

end Roles

end OrdersDemo
