import OrdersDemo.Library.Machine
import OrdersDemo.ProcessOrder

namespace OrdersDemo

/-- The signal listener of one `shutdown_signal()`: made by its first poll, it notes the signals
that arrive from then on. -/
inductive Listener where
  | absent
  | waiting
  | notified
  deriving DecidableEq

/-- Where `run_consume` is: in its `select!`, at a record of the polled batch, past
`consumer.close()`, past the error of a poll, or ended by the default action of a signal. -/
inductive ConsumePhase (P : Type) where
  | selecting (listener : Listener)
  | processing (record : ConsumerRecord) (remaining : List ConsumerRecord)
  | closed
  | failed (error : P)
  | killed

/-- The records of the batch at hand that are still to be processed. -/
def ConsumePhase.remaining {P : Type} : ConsumePhase P → List ConsumerRecord
  | .processing record remaining => record :: remaining
  | _ => []

/-- The state of `run_consume`. `polls` lists the iteration of every poll of a `consumer.poll`
future, and `signalled` is the iteration of the first signal after a listener was installed. -/
structure ConsumeState (E P : Type) where
  phase : ConsumePhase P := .selecting .absent
  installed : Bool := false
  iteration : ℕ := 0
  metrics : DemoMetrics
  spans : List ProcessSpan := []
  polls : List ℕ := []
  polled : List ConsumerRecord := []
  handled : List (ConsumerRecord × ProcessEnv E) := []
  signalled : Option ℕ := none

/-- A signal arrives, the runtime polls the `select!` (its branches in either order, the
`consumer.poll` future with the answer it has by then), or a record has been processed. -/
inductive ConsumeEvent (E P : Type) where
  | signal
  | wake (shutdownFirst : Bool) (poll : Option (Except P (List ConsumerRecord)))
  | process (env : ProcessEnv E)

namespace ConsumeState

variable {E P : Type}

def close (s : ConsumeState E P) : ConsumeState E P :=
  { s with phase := .closed }

/-- The `for` loop goes on with the next record, or the `loop` with a new `select!`. -/
def next (s : ConsumeState E P) : List ConsumerRecord → ConsumeState E P
  | [] => { s with phase := .selecting .absent, iteration := s.iteration + 1 }
  | record :: remaining => { s with phase := .processing record remaining }

/-- The `consumer.poll` branch is polled and has an answer or not. -/
def pollConsumer (s : ConsumeState E P) (listener : Listener)
    (poll : Option (Except P (List ConsumerRecord))) : ConsumeState E P :=
  let s := { s with polls := s.polls ++ [s.iteration] }
  match poll with
  | some (.ok records) => { s with polled := s.polled ++ records }.next records
  | some (.error error) => { s with phase := .failed error }
  | none => { s with phase := .selecting listener }

/-- One poll of the unbiased `select!`. -/
def select (s : ConsumeState E P) (listener : Listener) (shutdownFirst : Bool)
    (poll : Option (Except P (List ConsumerRecord))) : ConsumeState E P :=
  if shutdownFirst then
    if listener = .notified then s.close
    else { s with installed := true }.pollConsumer .waiting poll
  else if poll.isSome then s.pollConsumer listener poll
  else if listener = .notified then (s.pollConsumer listener none).close
  else { s with installed := true }.pollConsumer .waiting none

/-- A signal ends the process unless a listener was installed; then it is noted by the listener
there is, if there is one. -/
def signal (s : ConsumeState E P) : ConsumeState E P :=
  match s.phase with
  | .selecting listener =>
    if s.installed then
      { s with
        phase := .selecting (if listener = .absent then .absent else .notified)
        signalled := s.signalled <|> some s.iteration }
    else { s with phase := .killed }
  | .processing _ _ =>
    if s.installed then { s with signalled := s.signalled <|> some s.iteration }
    else { s with phase := .killed }
  | _ => s

/-- `process_order_record` on the record at hand. -/
def process (cli : ProcessCli) (s : ConsumeState E P) (env : ProcessEnv E)
    (record : ConsumerRecord) : ConsumeState E P :=
  let done := processOrderRecord cli env record s.metrics
  { s with
    metrics := done.1
    spans := s.spans ++ [done.2]
    handled := s.handled ++ [(record, env)] }

def step (cli : ProcessCli) (s : ConsumeState E P) : ConsumeEvent E P → ConsumeState E P
  | .signal => s.signal
  | .wake shutdownFirst poll =>
    match s.phase with
    | .selecting listener => s.select listener shutdownFirst poll
    | _ => s
  | .process env =>
    match s.phase with
    | .processing record remaining => (s.process cli env record).next remaining
    | _ => s

end ConsumeState

/-- `run_consume`, from the first iteration of its loop on. -/
def runConsume (E P : Type) (cli : ProcessCli) (metrics : DemoMetrics) :
    Machine (ConsumeState E P) (ConsumeEvent E P) where
  init := { metrics }
  step := ConsumeState.step cli

section Moves

variable {E P : Type} {cli : ProcessCli} {s : ConsumeState E P}

/-- What one step does to the records and to the metrics. -/
inductive ConsumeMove (cli : ProcessCli) (s : ConsumeState E P) : ConsumeState E P → Prop
  | quiet {s'} : s'.metrics = s.metrics → s'.handled = s.handled → s'.polled = s.polled →
      (s'.phase = .killed ∨ s.phase ≠ .killed ∧ s'.phase.remaining = s.phase.remaining) →
      ConsumeMove cli s s'
  | polled {s' records} : s.phase ≠ .killed ∧ s.phase.remaining = [] →
      s'.metrics = s.metrics → s'.handled = s.handled → s'.polled = s.polled ++ records →
      s'.phase.remaining = records → ConsumeMove cli s s'
  | processed {s' record remaining} (env : ProcessEnv E) :
      s.phase = .processing record remaining →
      s'.metrics = (processOrderRecord cli env record s.metrics).1 →
      s'.handled = s.handled ++ [(record, env)] → s'.polled = s.polled →
      s'.phase.remaining = remaining → ConsumeMove cli s s'

theorem ConsumeMove.stay (cli : ProcessCli) (s : ConsumeState E P) : ConsumeMove cli s s := by
  refine .quiet rfl rfl rfl ?_
  by_cases h : s.phase = .killed
  · exact Or.inl h
  · exact Or.inr ⟨h, rfl⟩

theorem remaining_next (s : ConsumeState E P) (records : List ConsumerRecord) :
    (s.next records).phase.remaining = records := by
  cases records <;> rfl

theorem pollConsumer_move {listener l : Listener} (b : Bool) (hp : s.phase = .selecting listener)
    (poll : Option (Except P (List ConsumerRecord))) :
    ConsumeMove cli s (ConsumeState.pollConsumer { s with installed := b } l poll) := by
  have hidle : s.phase ≠ .killed ∧ s.phase.remaining = [] := by simp [hp, ConsumePhase.remaining]
  rcases poll with _ | error | records
  · exact .quiet rfl rfl rfl (Or.inr ⟨hidle.1, hidle.2.symm⟩)
  · exact .quiet rfl rfl rfl (Or.inr ⟨hidle.1, hidle.2.symm⟩)
  · refine .polled hidle ?_ ?_ ?_ (remaining_next _ records)
    · cases records <;> rfl
    · cases records <;> rfl
    · cases records <;> rfl

theorem select_move_consume {listener : Listener} (hp : s.phase = .selecting listener)
    (shutdownFirst : Bool) (poll : Option (Except P (List ConsumerRecord))) :
    ConsumeMove cli s (s.select listener shutdownFirst poll) := by
  have hidle : s.phase ≠ .killed ∧ s.phase.remaining = [] := by simp [hp, ConsumePhase.remaining]
  unfold ConsumeState.select
  split
  next =>
    split
    next => exact .quiet rfl rfl rfl (Or.inr ⟨hidle.1, hidle.2.symm⟩)
    next => exact pollConsumer_move true hp poll
  next =>
    split
    next => exact pollConsumer_move s.installed hp poll
    next =>
      split
      next => exact .quiet rfl rfl rfl (Or.inr ⟨hidle.1, hidle.2.symm⟩)
      next => exact pollConsumer_move true hp none

theorem signal_move (s : ConsumeState E P) : ConsumeMove cli s s.signal := by
  unfold ConsumeState.signal
  split
  next listener hp =>
    split
    next => exact .quiet rfl rfl rfl (Or.inr (by simp [hp, ConsumePhase.remaining]))
    next => exact .quiet rfl rfl rfl (Or.inl rfl)
  next record remaining hp =>
    split
    next => exact .quiet rfl rfl rfl (Or.inr (by simp [hp]))
    next => exact .quiet rfl rfl rfl (Or.inl rfl)
  next => exact .stay cli s

theorem consume_step_move (cli : ProcessCli) (s : ConsumeState E P) (e : ConsumeEvent E P) :
    ConsumeMove cli s (s.step cli e) := by
  cases e with
  | signal => exact signal_move s
  | wake shutdownFirst poll =>
    simp only [ConsumeState.step]
    split
    next listener hp => exact select_move_consume hp shutdownFirst poll
    next => exact .stay cli s
  | process env =>
    simp only [ConsumeState.step]
    split
    next record remaining hp =>
      refine .processed env hp ?_ ?_ ?_ (remaining_next _ remaining)
      · cases remaining <;> rfl
      · cases remaining <;> rfl
      · cases remaining <;> rfl
    next => exact .stay cli s

end Moves

section Outputs

variable {E P : Type}

/-- The batch that a `consumer.poll` is answered with. A `select!` that polls a notified listener
first does not poll the consumer. -/
def ConsumeState.answered (s : ConsumeState E P) : ConsumeEvent E P → List ConsumerRecord
  | .wake shutdownFirst (some (.ok records)) =>
    match s.phase with
    | .selecting listener => if shutdownFirst ∧ listener = .notified then [] else records
    | _ => []
  | _ => []

/-- The record that a step processes. -/
def ConsumeState.processed (s : ConsumeState E P) :
    ConsumeEvent E P → List (ConsumerRecord × ProcessEnv E)
  | .process env =>
    match s.phase with
    | .processing record _ => [(record, env)]
    | _ => []
  | _ => []

@[simp] theorem polled_next (s : ConsumeState E P) (records : List ConsumerRecord) :
    (s.next records).polled = s.polled := by
  cases records <;> rfl

/-- The consumer takes records only from an answered poll. -/
theorem step_polled (cli : ProcessCli) (s : ConsumeState E P) (e : ConsumeEvent E P) :
    (s.step cli e).polled = s.polled ++ s.answered e := by
  cases e with
  | signal =>
    simp only [ConsumeState.step, ConsumeState.signal, ConsumeState.answered, List.append_nil]
    split
    next => split <;> rfl
    next => split <;> rfl
    next => rfl
  | wake shutdownFirst poll =>
    rcases hp : s.phase with listener | _ | _ | _ | _
    · rcases poll with _ | error | records <;> cases shutdownFirst <;>
        by_cases hl : listener = .notified <;>
        simp [ConsumeState.step, hp, ConsumeState.select, hl, ConsumeState.pollConsumer,
          ConsumeState.close, ConsumeState.answered]
    all_goals rcases poll with _ | _ | _ <;> simp [ConsumeState.step, hp, ConsumeState.answered]
  | process env =>
    simp only [ConsumeState.step, ConsumeState.answered, List.append_nil]
    split
    next => exact polled_next _ _
    next => rfl

theorem answered_cases (s : ConsumeState E P) (e : ConsumeEvent E P) :
    s.answered e = [] ∨
      ∃ shutdownFirst, e = .wake shutdownFirst (some (.ok (s.answered e))) := by
  unfold ConsumeState.answered
  split
  next shutdownFirst records =>
    split
    next =>
      split
      next => exact Or.inl rfl
      next => exact Or.inr ⟨shutdownFirst, rfl⟩
    next => exact Or.inl rfl
  next => exact Or.inl rfl

theorem processed_cases (s : ConsumeState E P) (e : ConsumeEvent E P) :
    s.processed e = [] ∨ ∃ env record remaining, e = .process env ∧
      s.phase = .processing record remaining ∧ s.processed e = [(record, env)] := by
  unfold ConsumeState.processed
  split
  next env =>
    split
    next record remaining hp => exact Or.inr ⟨env, record, remaining, rfl, hp, rfl⟩
    next => exact Or.inl rfl
  next => exact Or.inl rfl

theorem pollConsumer_handled (s : ConsumeState E P) (listener : Listener)
    (poll : Option (Except P (List ConsumerRecord))) :
    (s.pollConsumer listener poll).handled = s.handled ∧
      (s.pollConsumer listener poll).spans = s.spans := by
  rcases poll with _ | error | records
  · exact ⟨rfl, rfl⟩
  · exact ⟨rfl, rfl⟩
  · cases records <;> exact ⟨rfl, rfl⟩

theorem select_handled (s : ConsumeState E P) (listener : Listener) (shutdownFirst : Bool)
    (poll : Option (Except P (List ConsumerRecord))) :
    (s.select listener shutdownFirst poll).handled = s.handled ∧
      (s.select listener shutdownFirst poll).spans = s.spans := by
  unfold ConsumeState.select
  split
  next =>
    split
    next => exact ⟨rfl, rfl⟩
    next => exact pollConsumer_handled _ _ poll
  next =>
    split
    next => exact pollConsumer_handled _ _ poll
    next =>
      split
      next => exact ⟨rfl, rfl⟩
      next => exact ⟨rfl, rfl⟩

theorem step_handled (cli : ProcessCli) (s : ConsumeState E P) (e : ConsumeEvent E P) :
    (s.step cli e).handled = s.handled ++ s.processed e ∧
      (s.step cli e).spans = s.spans ++
        (s.processed e).map fun h => (processOrderRecord cli h.2 h.1 s.metrics).2 := by
  cases e with
  | signal =>
    simp only [ConsumeState.step, ConsumeState.signal, ConsumeState.processed, List.map_nil,
      List.append_nil]
    split
    next => split <;> exact ⟨rfl, rfl⟩
    next => split <;> exact ⟨rfl, rfl⟩
    next => exact ⟨rfl, rfl⟩
  | wake shutdownFirst poll =>
    simp only [ConsumeState.step, ConsumeState.processed, List.map_nil, List.append_nil]
    split
    next listener _ => exact select_handled s listener shutdownFirst poll
    next => exact ⟨rfl, rfl⟩
  | process env =>
    rcases hp : s.phase with _ | ⟨record, remaining⟩ | _ | _ | _
    case processing =>
      simp only [ConsumeState.step, ConsumeState.processed, hp]
      cases remaining <;> exact ⟨rfl, rfl⟩
    all_goals simp [ConsumeState.step, ConsumeState.processed, hp]

end Outputs

end OrdersDemo
