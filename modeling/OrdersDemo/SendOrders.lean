import Mathlib.Data.Finset.Basic
import Mathlib.Data.PNat.Basic
import OrdersDemo.Library.Machine
import OrdersDemo.Order

namespace OrdersDemo

structure SendReport where
  acknowledged : ℕ := 0
  failed : ℕ := 0
  deriving DecidableEq

def SendReport.record (r : SendReport) (success : Bool) : SendReport :=
  if success then { r with acknowledged := r.acknowledged + 1 }
  else { r with failed := r.failed + 1 }

inductive Outcome where
  | returned (success : Bool)
  | panicked
  deriving DecidableEq

structure JoinError where
  task : ℕ
  deriving DecidableEq

/-- The `send` closure with the futures it makes. `World` is what they share, `Input` what their
environment answers to one poll and `Effect` what a poll is seen to do. A poll leaves the future
pending or yields its flag. -/
structure Sender where
  World : Type
  Delivery : Type
  Input : Type
  Effect : Type
  send : World → Order → World × Delivery
  poll : World → Delivery → Input → World × List Effect × (Delivery ⊕ Bool)

/-- A sender whose deliveries return the flag their environment answers. -/
def flagSender : Sender where
  World := Unit
  Delivery := Unit
  Input := Bool
  Effect := Empty
  send _ _ := ((), ())
  poll _ _ flag := ((), [], .inr flag)

inductive TaskState (Delivery : Type) where
  | running (delivery : Delivery)
  | finished (outcome : Outcome)

def TaskState.ofPoll {D : Type} : D ⊕ Bool → TaskState D
  | .inl delivery => .running delivery
  | .inr success => .finished (.returned success)

/-- A spawned `async move { (key, delivery.await) }`, known by the index of its order. -/
structure PendingTask (Delivery : Type) where
  index : ℕ
  key : String
  state : TaskState Delivery

/-- What an observer sees of a run, order by order. -/
inductive SendAct (Effect : Type) where
  | send (index : ℕ) (order : Order)
  | effect (index : ℕ) (effect : Effect)
  | finish (index : ℕ) (outcome : Outcome)
  | join (index : ℕ) (outcome : Outcome)

def SendAct.index {Effect : Type} : SendAct Effect → ℕ
  | .send i _ => i
  | .effect i _ => i
  | .finish i _ => i
  | .join i _ => i

def SendAct.ofPoll {D E : Type} (i : ℕ) (effects : List E) : D ⊕ Bool → List (SendAct E)
  | .inl _ => effects.map (.effect i)
  | .inr success => effects.map (.effect i) ++ [.finish i (.returned success)]

/-- Where `send_orders` is: in its `loop`, in the `while let` after it, or done. -/
inductive Phase where
  | admitting
  | draining
  | returned (result : Except JoinError SendReport)

structure SendState (S : Sender) where
  phase : Phase := .admitting
  world : S.World
  index : ℕ := 0
  next : Order := orderAt 0
  pending : List (PendingTask S.Delivery) := []
  activeKeys : Finset String := ∅
  report : SendReport := {}
  taskError : Option JoinError := none
  trace : List (SendAct S.Effect) := []

/-- What a poll of `send_orders` finds ready. `join` is the finished task that `join_next` would
hand out. -/
structure Ready where
  shutdown : Bool := false
  join : Option ℕ := none
  reporting : Bool := false
  tick : Bool := false

/-- One step of the runtime: it polls a delivery, a delivery panics, or it polls `send_orders`. -/
inductive SendEvent (Input : Type) where
  | poll (task : ℕ) (input : Input)
  | panic (task : ℕ)
  | wake (ready : Ready)

def tickOnly {I : Type} : SendEvent I :=
  .wake { tick := true }

def Order.stamp (order : Order) (index : ℕ) : Order :=
  { order with tsMs := ((tryFrom i64Max index).getD i64Max : ℕ) }

def setTask {D : Type} (pending : List (PendingTask D)) (i : ℕ) (state : TaskState D) :
    List (PendingTask D) :=
  pending.map fun t => if t.index = i then { t with state } else t

namespace SendState

variable {S : Sender}

def guard (maxInFlight : ℕ+) (s : SendState S) : Bool :=
  s.pending.length < (maxInFlight : ℕ) && s.next.category ∉ s.activeKeys

/-- The `tick` branch of the admission loop. -/
def dispatch (s : SendState S) : SendState S :=
  let key := s.next.category
  let order := s.next.stamp s.index
  let sent := S.send s.world order
  { s with
    world := sent.1
    index := s.index + 1
    next := orderAt (s.index + 1)
    pending := s.pending ++ [⟨s.index, key, .running sent.2⟩]
    activeKeys := insert key s.activeKeys
    trace := s.trace ++ [.send s.index order] }

def finished (s : SendState S) (choice : Option ℕ) :
    Option (PendingTask S.Delivery × Outcome) := do
  let i ← choice
  let t ← s.pending.find? (·.index = i)
  match t.state with
  | .finished outcome => some (t, outcome)
  | .running _ => none

def take (s : SendState S) (t : PendingTask S.Delivery) (outcome : Outcome) : SendState S :=
  { s with
    pending := s.pending.filter (·.index ≠ t.index)
    trace := s.trace ++ [.join t.index outcome] }

def joined (s : SendState S) (t : PendingTask S.Delivery) (outcome : Outcome) : SendState S :=
  match outcome with
  | .returned success =>
    { s.take t outcome with
      activeKeys := s.activeKeys.erase t.key
      report := s.report.record success }
  | .panicked =>
    { s.take t outcome with
      taskError := some ⟨t.index⟩
      phase := .draining }

def drained (s : SendState S) (t : PendingTask S.Delivery) (outcome : Outcome) : SendState S :=
  match outcome with
  | .returned success => { s.take t outcome with report := s.report.record success }
  | .panicked => { s.take t outcome with taskError := some ⟨t.index⟩ }

/-- One poll of the biased `select!`: the first ready branch, in source order, runs its handler. -/
def select (maxInFlight : ℕ+) (s : SendState S) (ready : Ready) : SendState S :=
  if ready.shutdown then { s with phase := .draining }
  else
    match s.finished ready.join with
    | some (t, outcome) => s.joined t outcome
    | none =>
      -- `report.log` writes a log line and changes nothing
      if ready.reporting then s
      else if ready.tick && s.guard maxInFlight then s.dispatch
      else s

def result (s : SendState S) : Except JoinError SendReport :=
  match s.taskError with
  | none => .ok s.report
  | some error => .error error

def drain (s : SendState S) (ready : Ready) : SendState S :=
  if s.pending.isEmpty then { s with phase := .returned s.result }
  else
    match s.finished ready.join with
    | some (t, outcome) => s.drained t outcome
    | none => s

def polled (s : SendState S) (i : ℕ) (d : S.Delivery) (input : S.Input) : SendState S :=
  let answer := S.poll s.world d input
  { s with
    world := answer.1
    pending := setTask s.pending i (.ofPoll answer.2.2)
    trace := s.trace ++ SendAct.ofPoll i answer.2.1 answer.2.2 }

def panicked (s : SendState S) (i : ℕ) : SendState S :=
  { s with
    pending := setTask s.pending i (.finished .panicked)
    trace := s.trace ++ [.finish i .panicked] }

def delivery (s : SendState S) (i : ℕ) : Option S.Delivery := do
  let t ← s.pending.find? (·.index = i)
  match t.state with
  | .running d => some d
  | .finished _ => none

def step (maxInFlight : ℕ+) (s : SendState S) : SendEvent S.Input → SendState S
  | .poll i input =>
    match s.delivery i with
    | some d => s.polled i d input
    | none => s
  | .panic i =>
    match s.delivery i with
    | some _ => s.panicked i
    | none => s
  | .wake ready =>
    match s.phase with
    | .admitting => s.select maxInFlight ready
    | .draining => s.drain ready
    | .returned _ => s

end SendState

/-- `send_orders`: the loop, the spawned deliveries and the runtime that polls them. Time is left
to the environment, which makes ticks, deliveries and the shutdown ready when it likes. -/
def sendOrders (S : Sender) (maxInFlight : ℕ+) (world : S.World) :
    Machine (SendState S) (SendEvent S.Input) where
  init := { world }
  step := SendState.step maxInFlight

end OrdersDemo
