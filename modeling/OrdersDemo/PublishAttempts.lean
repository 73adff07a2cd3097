import OrdersDemo.PublishOrder
import OrdersDemo.SendDeliveries

namespace OrdersDemo

/-- What one attempt shows: its call, and its answer once there is one. -/
def attemptEffects (record : ProducerRecord) : Option Bool → List PublishEffect
  | none => [.call record]
  | some acknowledged => [.call record, .result record acknowledged]

def warning (order : Order) : List PublishEffect :=
  if isAnomalous order then [.anomalyWarning] else []

@[simp] def PublishEffect.isCall : PublishEffect → Bool
  | .call _ => true
  | _ => false

@[simp] def PublishEffect.isResult : PublishEffect → Bool
  | .result _ _ => true
  | _ => false

@[simp] def PublishEffect.isFailure : PublishEffect → Bool
  | .result _ acknowledged => !acknowledged
  | _ => false

theorem countP_attempts {p : PublishEffect → Bool} {q : Option Bool → Bool}
    {record : ProducerRecord} (hw : p .anomalyWarning = false)
    (ha : ∀ a, (attemptEffects record a).countP p = if q a then 1 else 0) (order : Order)
    (attempts : List (Option Bool)) :
    (warning order ++ attempts.flatMap (attemptEffects record)).countP p = attempts.countP q := by
  have hwarn : (warning order).countP p = 0 := by
    unfold warning
    split <;> simp [hw]
  rw [List.countP_append, hwarn, Nat.zero_add]
  induction attempts with
  | nil => rfl
  | cons a attempts ih => rw [List.flatMap_cons, List.countP_append, ha, ih, List.countP_cons,
      Nat.add_comm]

theorem countP_isCall (order : Order) (record : ProducerRecord) (attempts : List (Option Bool)) :
    (warning order ++ attempts.flatMap (attemptEffects record)).countP PublishEffect.isCall =
      attempts.length := by
  rw [countP_attempts (q := fun _ => true) rfl (fun a => ?_), List.countP_true]
  rcases a with _ | _ <;> rfl

theorem countP_isResult (order : Order) (record : ProducerRecord)
    (attempts : List (Option Bool)) :
    (warning order ++ attempts.flatMap (attemptEffects record)).countP PublishEffect.isResult =
      attempts.countP Option.isSome :=
  countP_attempts rfl (fun a => by rcases a with _ | _ <;> rfl) order attempts

theorem countP_isFailure (order : Order) (record : ProducerRecord)
    (attempts : List (Option Bool)) :
    (warning order ++ attempts.flatMap (attemptEffects record)).countP PublishEffect.isFailure =
      attempts.countP (· = some false) :=
  countP_attempts rfl (fun a => by rcases a with _ | _ | _ <;> rfl) order attempts

/-- The attempts behind a state of a delivery that has built its record: every one before the
last has failed. -/
inductive Attempted (order : Order) (record : ProducerRecord) :
    TaskState PublishOrder → List (Option Bool) → Prop
  | call {k} : k < 3 →
      Attempted order record (.running (.sending order record (.call (k + 1))))
        (List.replicate k (some false))
  | waiting {k} : k < 3 →
      Attempted order record (.running (.sending order record (.waiting (k + 1))))
        (List.replicate k (some false) ++ [none])
  | sent {k} : k < 3 →
      Attempted order record (.running (.sent order)) (List.replicate k (some false) ++ [some true])
  | acknowledged {k} : k < 3 →
      Attempted order record (.finished (.returned true))
        (List.replicate k (some false) ++ [some true])
  | failed :
      Attempted order record (.finished (.returned false)) (List.replicate 3 (some false))
  | panicked {d attempts} : Attempted order record (.running d) attempts →
      Attempted order record (.finished .panicked) attempts

/-- What a delivery has shown when it is in `state`: nothing before its first poll, then the
warning and the effects of its attempts. -/
def Published (order : Order) (topic : String) (value : ByteArray) (effects : List PublishEffect)
    (state : TaskState PublishOrder) : Prop :=
  (effects = [] ∧ (state = .running (.created order topic value) ∨ state = .finished .panicked)) ∨
    ∃ traceHeaders attempts,
      let record := publishRecord order topic value traceHeaders
      Attempted order record state attempts ∧
        effects = warning order ++ attempts.flatMap (attemptEffects record)

section Attempts

variable {order : Order} {record : ProducerRecord}

/-- One poll of a delivery that has built its record adds what its attempts gain. -/
theorem Attempted.poll {d : PublishOrder} {attempts : List (Option Bool)}
    (h : Attempted order record (.running d) attempts) (metrics : DemoMetrics)
    (input : PublishInput) :
    ∃ attempts', Attempted order record (.ofPoll (d.poll metrics input).2.2) attempts' ∧
      attempts'.flatMap (attemptEffects record) =
        attempts.flatMap (attemptEffects record) ++ (d.poll metrics input).2.1 := by
  cases h with
  | @call k hk => exact ⟨_, .waiting hk, by simp [PublishOrder.poll, SendWithRetry.poll,
      attemptEffects]⟩
  | @waiting k hk =>
    rcases hr : input.result with _ | _ | _
    · exact ⟨_, by simpa [PublishOrder.poll, SendWithRetry.poll, hr] using .waiting hk,
        by simp [PublishOrder.poll, SendWithRetry.poll, hr]⟩
    · have heffects : (List.replicate (k + 1) (some false)).flatMap (attemptEffects record) =
          (List.replicate k (some false) ++ [none]).flatMap (attemptEffects record) ++
            [.result record false] := by
        simp [List.replicate_succ', attemptEffects]
      refine ⟨List.replicate (k + 1) (some false), ?_, ?_⟩
      · by_cases hlast : k + 1 < 3
        · simpa [PublishOrder.poll, SendWithRetry.poll, hr, hlast] using .call hlast
        · obtain rfl : k = 2 := by omega
          simpa [PublishOrder.poll, SendWithRetry.poll, hr] using .failed
      · by_cases hlast : k + 1 < 3 <;>
          simpa [PublishOrder.poll, SendWithRetry.poll, hr, hlast] using heffects
    · exact ⟨_, by simpa [PublishOrder.poll, SendWithRetry.poll, hr] using .sent hk,
        by simp [PublishOrder.poll, SendWithRetry.poll, hr, attemptEffects]⟩
  | @sent k hk => exact ⟨_, .acknowledged hk, by simp [PublishOrder.poll]⟩

theorem Attempted.length_le {state : TaskState PublishOrder} {attempts : List (Option Bool)}
    (h : Attempted order record state attempts) : attempts.length ≤ 3 := by
  induction h with
  | call hk =>
    rw [List.length_replicate]
    omega
  | waiting hk | sent hk | acknowledged hk =>
    rw [List.length_append, List.length_replicate, List.length_singleton]
    omega
  | failed => simp
  | panicked _ ih => exact ih

theorem Attempted.dropLast {state : TaskState PublishOrder} {attempts : List (Option Bool)}
    (h : Attempted order record state attempts) : ∀ a ∈ attempts.dropLast, a = some false := by
  induction h with
  | call => exact fun a ha => List.eq_of_mem_replicate (List.dropLast_subset _ ha)
  | waiting | sent | acknowledged => simp
  | failed => simp
  | panicked _ ih => exact ih

/-- A delivery that returned has heard the answer of every attempt: its last one succeeded, or
all three failed. -/
theorem Attempted.returned {success : Bool} {attempts : List (Option Bool)}
    (h : Attempted order record (.finished (.returned success)) attempts) :
    (success = true ∧ ∃ k < 3, attempts = List.replicate k (some false) ++ [some true]) ∨
      (success = false ∧ attempts = List.replicate 3 (some false)) := by
  cases h with
  | acknowledged hk => exact Or.inl ⟨rfl, _, hk, rfl⟩
  | failed => exact Or.inr ⟨rfl, rfl⟩

theorem Attempted.answered {success : Bool} {attempts : List (Option Bool)}
    (h : Attempted order record (.finished (.returned success)) attempts) :
    attempts.countP Option.isSome = attempts.length := by
  rcases h.returned with ⟨_, k, _, rfl⟩ | ⟨_, rfl⟩ <;> simp [List.countP_replicate]

end Attempts

section Runs

variable {serialize : String → Order → ByteArray} {topic : String}

theorem publish_run {order : Order} {value : ByteArray}
    {effects : List (publishSender serialize topic).Effect}
    {state : TaskState (publishSender serialize topic).Delivery}
    (h : DeliveryRun (publishSender serialize topic) (.created order topic value) effects state) :
    Published order topic value effects state := by
  induction h with
  | start => exact Or.inl ⟨rfl, Or.inl rfl⟩
  | @poll effects d w input _ ih =>
    rcases ih with ⟨rfl, hd | hd⟩ | ⟨traceHeaders, attempts, ha, rfl⟩
    · obtain rfl := TaskState.running.inj hd
      exact Or.inr ⟨input.traceHeaders, [], .call (k := 0) (by decide), by
        simp [publishSender, PublishOrder.poll, warning]⟩
    · cases hd
    · obtain ⟨attempts', ha', he⟩ := ha.poll w input
      refine Or.inr ⟨traceHeaders, attempts', ha', ?_⟩
      rw [he, List.append_assoc]
  | panic _ ih =>
    rcases ih with ⟨rfl, _⟩ | ⟨traceHeaders, attempts, ha, rfl⟩
    · exact Or.inl ⟨rfl, Or.inr rfl⟩
    · exact Or.inr ⟨traceHeaders, attempts, ha.panicked, rfl⟩

/-- The value `run_produce` publishes for order `i`. -/
def orderValue (serialize : String → Order → ByteArray) (topic : String) (i : ℕ) : ByteArray :=
  serialize topic ((orderAt i).stamp i)

theorem Delivered.published {trace : List (SendAct PublishEffect)} {i : ℕ}
    {state : TaskState PublishOrder}
    (h : Delivered (S := publishSender serialize topic) trace i state) :
    Published ((orderAt i).stamp i) topic (orderValue serialize topic i) (effectsOf i trace)
      state := by
  obtain ⟨w, h⟩ := h
  exact publish_run h

end Runs

end OrdersDemo
