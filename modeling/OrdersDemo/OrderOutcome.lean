import OrdersDemo.ProcessOrder
import OrdersDemo.PublishAttempts
import Mathlib.Tactic.Linarith

namespace OrdersDemo

theorem orderAt_amount_zero {i : ℕ} (h : i % 17 = 0) : (orderAt i).amount = .fin 0 := by
  rw [orderAt_eq, if_pos h]

theorem orderAt_amount {i : ℕ} (h : i % 17 ≠ 0) :
    (orderAt i).amount = .fin ((i % 200 : ℕ) + 99 / 100) := by
  rw [orderAt_eq, if_neg h]

theorem isAnomalous_orderAt {i : ℕ} : isAnomalous (orderAt i) = true ↔ i % 17 = 0 := by
  unfold isAnomalous
  by_cases h : i % 17 = 0
  · rw [orderAt_amount_zero h]
    simp [F64.abs, F64.lt, F64.epsilon, h]
  · have hdollars : (0 : ℚ) ≤ (i % 200 : ℕ) := Nat.cast_nonneg _
    have habs : |((i % 200 : ℕ) : ℚ) + 99 / 100| = (i % 200 : ℕ) + 99 / 100 :=
      abs_of_nonneg (by linarith)
    have hlarge : ¬ ((i % 200 : ℕ) : ℚ) + 99 / 100 < 1 / 2 ^ 52 := by
      have heps : (1 : ℚ) / 2 ^ 52 < 99 / 100 := by norm_num
      linarith
    rw [orderAt_amount h, F64.abs, habs]
    simp only [F64.lt, F64.epsilon, decide_eq_true_eq]
    exact iff_of_false hlarge h

theorem paymentMethod_crypto {i : ℕ} : (orderAt i).paymentMethod = "crypto" ↔ i / 3 % 4 = 3 := by
  have hk : i / 3 % 4 < 4 := Nat.mod_lt _ (by decide)
  have htable : ∀ k < 4, paymentMethods.getD k "" = "crypto" ↔ k = 3 := by decide
  rw [orderAt_paymentMethod, htable _ hk]

theorem isSuspicious_orderAt {i : ℕ} (h : i % 17 ≠ 0) :
    isSuspicious (orderAt i) = true ↔ i / 3 % 4 = 3 ∧ 150 ≤ i % 200 := by
  have hamount : (F64.fin 150).lt (orderAt i).amount = true ↔ 150 ≤ i % 200 := by
    rw [orderAt_amount h]
    simp only [F64.lt, decide_eq_true_eq]
    constructor
    · intro hlt
      by_contra hsmall
      have hcast : ((i % 200 : ℕ) : ℚ) ≤ 149 := by exact_mod_cast (by omega : i % 200 ≤ 149)
      linarith
    · intro hge
      have hcast : (150 : ℚ) ≤ (i % 200 : ℕ) := by exact_mod_cast hge
      linarith
  rw [isSuspicious, Bool.and_eq_true, beq_iff_eq, paymentMethod_crypto, hamount]

/-- The outcome that the generator intends for order `i`. -/
def intendedOutcome (i : ℕ) : String :=
  if 17 ∣ i then "anomalous"
  else if i / 3 % 4 = 3 ∧ 150 ≤ i % 200 then "fraud_rejected"
  else "fulfilled"

theorem classifyOutcome_orderAt (i : ℕ) : classifyOutcome (orderAt i) = intendedOutcome i := by
  unfold classifyOutcome intendedOutcome
  by_cases h : i % 17 = 0
  · rw [if_pos (isAnomalous_orderAt.mpr h), if_pos (Nat.dvd_of_mod_eq_zero h)]
  · have hdvd : ¬ 17 ∣ i := mt Nat.mod_eq_zero_of_dvd h
    rw [if_neg (mt isAnomalous_orderAt.mp h), if_neg hdvd]
    simp only [isSuspicious_orderAt h]

theorem classifyOutcome_stamp (order : Order) (i : ℕ) :
    classifyOutcome (order.stamp i) = classifyOutcome order := rfl

theorem isAnomalous_iff_outcome {order : Order} :
    isAnomalous order = true ↔ classifyOutcome order = "anomalous" := by
  unfold classifyOutcome
  split
  next h => exact iff_of_true h rfl
  next h =>
    apply iff_of_false h
    split <;> decide

theorem processOrder_run {σ : Type} (order : Order) (runStage : String → StateM σ Unit) (s : σ) :
    (processOrder order runStage).run s =
      let visit (name : String) (s : σ) : σ := ((runStage name).run s).2
      (classifyOutcome order, visit "fulfill" (visit "fraud_check" (visit "enrich"
        (visit "validate" s)))) := rfl

theorem processOrderRecord_outcome {E : Type} (cli : ProcessCli) (env : ProcessEnv E)
    {record : ConsumerRecord} {order : Order} (h : decoded cli env record = .ok order)
    (metrics : DemoMetrics) :
    (processOrderRecord cli env record metrics).2.outcome = some (classifyOutcome order) := by
  unfold decoded at h
  unfold processOrderRecord processOrderInner
  rw [h]
  rfl

theorem mem_warning {order : Order} :
    PublishEffect.anomalyWarning ∈ warning order ↔ isAnomalous order = true := by
  unfold warning
  split
  next h => exact iff_of_true List.mem_cons_self h
  next h => exact iff_of_false List.not_mem_nil h

theorem anomalyWarning_not_mem_attempts (record : ProducerRecord)
    (attempts : List (Option Bool)) :
    PublishEffect.anomalyWarning ∉ attempts.flatMap (attemptEffects record) := by
  intro h
  obtain ⟨a, _, ha⟩ := List.mem_flatMap.mp h
  rcases a with _ | _ <;> simp [attemptEffects] at ha

/-- Once a delivery has shown anything, it has warned exactly when its order is anomalous. -/
theorem Published.warns {order : Order} {topic : String} {value : ByteArray}
    {effects : List PublishEffect} {state : TaskState PublishOrder}
    (h : Published order topic value effects state) :
    effects = [] ∨ (.anomalyWarning ∈ effects ↔ isAnomalous order = true) := by
  rcases h with ⟨he, _⟩ | ⟨traceHeaders, attempts, _, rfl⟩
  · exact Or.inl he
  · right
    rw [List.mem_append, mem_warning]
    exact or_iff_left (anomalyWarning_not_mem_attempts _ attempts)

theorem sendOrders_warns (serialize : String → Order → ByteArray) (topic : String) (m : ℕ+)
    (metrics : DemoMetrics) (events : List (SendEvent PublishInput)) (i : ℕ) :
    let trace := ((sendOrders (publishSender serialize topic) m metrics).run events).trace
    effectsOf i trace = [] ∨
      (.anomalyWarning ∈ effectsOf i trace ↔ classifyOutcome (orderAt i) = "anomalous") := by
  intro trace
  have hruns := sendOrders_runInv (S := publishSender serialize topic) m metrics events
  have hdeliveries := sendOrders_deliveries (S := publishSender serialize topic) m metrics events
  by_cases hi : i < ((sendOrders (publishSender serialize topic) m metrics).run events).index
  · obtain ⟨state, hstate, _⟩ := hdeliveries.state hruns hi
    have hwarns := hstate.published.warns
    rwa [isAnomalous_iff_outcome, classifyOutcome_stamp] at hwarns
  · left
    apply effectsOf_eq_nil
    intro e he
    exact hi (hruns.send.index_lt he)

theorem tryFrom_table {table : List String} (hpos : 0 < table.length)
    (hle : table.length ≤ usizeMax) (k : ℕ) :
    ∃ j < table.length, tryFrom usizeMax (k % table.length) = some j := by
  have hlt := Nat.mod_lt k hpos
  exact ⟨k % table.length, hlt, tryFrom_of_le (by omega)⟩

theorem orderAt_quantity (i : ℕ) : (orderAt i).quantity = (1 + i % 5 : ℕ) := by
  rw [orderAt_eq]

theorem orderAt_warehouse (i : ℕ) :
    warehouses[regions.idxOf (orderAt i).region]? = some (orderAt i).warehouse := by
  have hk : i / 2 % 4 < 4 := Nat.mod_lt _ (by decide)
  have htable : ∀ k < 4,
      warehouses[regions.idxOf (regions.getD k "")]? = some (warehouses.getD k "") := by decide
  rw [orderAt_eq, htable _ hk]

/-- The generator and the classifier agree on the outcome of every order, and the producer warns
of the orders that the consumer then drops. -/
theorem order_outcome (i : ℕ) :
    (∀ (σ : Type) (runStage : String → StateM σ Unit) (s : σ),
      (processOrder (orderAt i) runStage).run s =
        let visit (name : String) (s : σ) : σ := ((runStage name).run s).2
        (intendedOutcome i, visit "fulfill" (visit "fraud_check" (visit "enrich"
          (visit "validate" s))))) ∧
      (∀ (E : Type) (cli : ProcessCli) (env : ProcessEnv E) (record : ConsumerRecord)
        (metrics : DemoMetrics), decoded cli env record = .ok ((orderAt i).stamp i) →
        (processOrderRecord cli env record metrics).2.outcome = some (intendedOutcome i)) ∧
      (∀ (metrics : DemoMetrics) (input : PublishInput) (topic : String) (value : ByteArray),
        .anomalyWarning ∈
            (PublishOrder.poll metrics input (.created ((orderAt i).stamp i) topic value)).2.1 ↔
          intendedOutcome i = "anomalous") ∧
      (∀ (serialize : String → Order → ByteArray) (topic : String) (m : ℕ+)
        (metrics : DemoMetrics) (events : List (SendEvent PublishInput)),
        let trace := ((sendOrders (publishSender serialize topic) m metrics).run events).trace
        effectsOf i trace = [] ∨
          (.anomalyWarning ∈ effectsOf i trace ↔ intendedOutcome i = "anomalous")) ∧
      (∀ table ∈ [categories, regions, paymentMethods, customerTiers], ∀ div,
        ∃ k < table.length, tryFrom usizeMax (i / div % table.length) = some k) ∧
      tryFrom u32Max (i % 200) = some (i % 200) ∧
      tryFrom i32Max (1 + i % 5) = some (1 + i % 5) ∧
      orderAt i = {
        orderId := "o-" ++ zeroPad 10 (toString i)
        category := categories.getD (i % 5) ""
        amount := if i % 17 = 0 then .fin 0 else .fin ((i % 200 : ℕ) + 99 / 100)
        currency := "USD"
        tsMs := 0
        region := regions.getD (i / 2 % 4) ""
        paymentMethod := paymentMethods.getD (i / 3 % 4) ""
        quantity := (1 + i % 5 : ℕ)
        customerTier := customerTiers.getD (i / 7 % 3) ""
        warehouse := warehouses.getD (i / 2 % 4) "" } ∧
      1 ≤ (orderAt i).quantity ∧ (orderAt i).quantity ≤ 5 ∧
      warehouses[regions.idxOf (orderAt i).region]? = some (orderAt i).warehouse := by
  rw [← classifyOutcome_orderAt]
  refine ⟨?_, ?_, ?_, ?_, ?_, ?_, ?_, orderAt_eq i, ?_, ?_, orderAt_warehouse i⟩
  · intro σ runStage s
    exact processOrder_run (orderAt i) runStage s
  · intro E cli env record metrics h
    exact processOrderRecord_outcome cli env h metrics
  · intro metrics input topic value
    rw [← classifyOutcome_stamp _ i, ← isAnomalous_iff_outcome]
    exact mem_warning
  · intro serialize topic m metrics events
    exact sendOrders_warns serialize topic m metrics events i
  · intro table htable div
    have hsize : 0 < table.length ∧ table.length ≤ usizeMax := by
      simp only [List.mem_cons, List.not_mem_nil, or_false] at htable
      rcases htable with rfl | rfl | rfl | rfl <;> decide
    exact tryFrom_table hsize.1 hsize.2 _
  · exact tryFrom_of_le (by unfold u32Max; omega)
  · exact tryFrom_of_le (by unfold i32Max; omega)
  · rw [orderAt_quantity]
    omega
  · rw [orderAt_quantity]
    omega

theorem order_outcome_seventeen :
    (processOrderRecord (E := Empty) idleCli
        ⟨fun _ _ => .ok ((orderAt 17).stamp 17), fun _ => 0, 0⟩
        ⟨0, 0, [], some .empty⟩ {}).2.outcome = some (intendedOutcome 17) :=
  (order_outcome 17).2.1 Empty _ _ _ _ rfl

end OrdersDemo
