import Mathlib.Data.List.Induction
import OrdersDemo.ConsumeAccounting

namespace OrdersDemo

variable {E P : Type} {cli : ProcessCli}

theorem processOrderRecord_missing {record : ConsumerRecord} (hv : record.value = none)
    (env : ProcessEnv E) (m : DemoMetrics) :
    (processOrderRecord cli env record m).1 = m.recordError .missingValue := by
  have hd : OrdersDemo.decoded cli env record = .error .missingValue := by
    unfold OrdersDemo.decoded decodeOrder
    rw [hv]
  rw [processOrderRecord_metrics, hd]

theorem processOrderRecord_rejected {record : ConsumerRecord} {env : ProcessEnv E}
    {value : ByteArray} {error : E} (hv : record.value = some value)
    (he : env.deserialize cli.inputTopic value = .error error) (m : DemoMetrics) :
    (processOrderRecord cli env record m).1 = m.recordError .deserialize := by
  have hd : OrdersDemo.decoded cli env record = .error (.deserialize error) := by
    unfold OrdersDemo.decoded decodeOrder
    rw [hv]
    simp only [he, Except.mapError]
  rw [processOrderRecord_metrics, hd]

theorem processOrderRecord_decoded {record : ConsumerRecord} {env : ProcessEnv E}
    {value : ByteArray} {order : Order} (hv : record.value = some value)
    (ho : env.deserialize cli.inputTopic value = .ok order) (m : DemoMetrics) :
    (processOrderRecord cli env record m).1 = decodedMetrics env order m := by
  have hd : OrdersDemo.decoded cli env record = .ok order := by
    unfold OrdersDemo.decoded decodeOrder
    rw [hv]
    simp only [ho, Except.mapError]
  rw [processOrderRecord_metrics, hd]

/-- The two ways the processing of a record ends, with what the record then counts as. -/
inductive RecordEnd (cli : ProcessCli) (record : ConsumerRecord) (env : ProcessEnv E)
    (m m' : DemoMetrics) : Prop
  | failed (kind : PipelineErrorKind) : kind ≠ .producerSend →
      decodedOrder cli (record, env) = none →
      isMissing (record, env) = decide (kind = .missingValue) →
      isRejected cli (record, env) = decide (kind = .deserialize) →
      m' = m.recordError kind → RecordEnd cli record env m m'
  | decoded (order : Order) : decodedOrder cli (record, env) = some order →
      isMissing (record, env) = false → isRejected cli (record, env) = false →
      m' = decodedMetrics env order m → RecordEnd cli record env m m'

theorem processOrderRecord_end (cli : ProcessCli) (record : ConsumerRecord) (env : ProcessEnv E)
    (m : DemoMetrics) : RecordEnd cli record env m (processOrderRecord cli env record m).1 := by
  cases hv : record.value with
  | none =>
    refine .failed .missingValue (fun h => by cases h) ?_ ?_ ?_
      (processOrderRecord_missing hv env m)
    · simp [decodedOrder, hv]
    · simp [isMissing, hv]
    · simp [isRejected, hv]
  | some value =>
    cases hd : env.deserialize cli.inputTopic value with
    | error error =>
      refine .failed .deserialize (fun h => by cases h) ?_ ?_ ?_
        (processOrderRecord_rejected hv hd m)
      · simp [decodedOrder, hv, hd, Except.toOption]
      · simp [isMissing, hv]
      · simp [isRejected, hv, hd, Except.toOption]
    | ok order =>
      refine .decoded order ?_ ?_ ?_ (processOrderRecord_decoded hv hd m)
      · simp [decodedOrder, hv, hd, Except.toOption]
      · simp [isMissing, hv]
      · simp [isRejected, hv, hd, Except.toOption]

theorem ConsumerMetrics.record {m₀ m : DemoMetrics}
    {handled : List (ConsumerRecord × ProcessEnv E)} (hm : ConsumerMetrics cli m₀ m handled)
    (record : ConsumerRecord) (env : ProcessEnv E) :
    ConsumerMetrics cli m₀ (processOrderRecord cli env record m).1
      (handled ++ [(record, env)]) := by
  cases processOrderRecord_end cli record env m with
  | failed kind hkind hnone hmissing hrejected hmetrics =>
    rw [hmetrics]
    exact hm.failure hkind hnone hmissing hrejected
  | decoded order horder hmissing hrejected hmetrics =>
    rw [hmetrics]
    exact hm.decoded horder hmissing hrejected

theorem ends_record (cli : ProcessCli) (record : ConsumerRecord) (env : ProcessEnv E) :
    (if isMissing (record, env) then 1 else 0) + (if isRejected cli (record, env) then 1 else 0) +
      (decodedOrder cli (record, env)).toList.length = 1 := by
  cases processOrderRecord_end cli record env {} with
  | failed kind hkind hnone hmissing hrejected =>
    rw [hnone, hmissing, hrejected]
    cases kind with
    | missingValue => rfl
    | deserialize => rfl
    | producerSend => exact absurd rfl hkind
  | decoded order horder hmissing hrejected =>
    rw [horder, hmissing, hrejected]
    rfl

theorem length_eq_ends (handled : List (ConsumerRecord × ProcessEnv E)) :
    handled.length = handled.countP isMissing + handled.countP (isRejected cli) +
      (decodedOrders cli handled).length := by
  induction handled using List.reverseRecOn with
  | nil => rfl
  | append_singleton handled h ih =>
    obtain ⟨record, env⟩ := h
    have hone := ends_record cli record env
    rw [countP_concat, countP_concat, decodedOrders_concat, List.length_append,
      List.length_append, List.length_singleton]
    omega

/-- The polled records are processed in order, and the metrics count what was processed. -/
structure ConsumeInv (cli : ProcessCli) (m₀ : DemoMetrics) (s : ConsumeState E P) : Prop where
  metrics : ConsumerMetrics cli m₀ s.metrics s.handled
  polled : s.phase ≠ .killed → s.polled = s.handled.map Prod.fst ++ s.phase.remaining

theorem ConsumeInv.move {m₀ : DemoMetrics} {s s' : ConsumeState E P} (h : ConsumeInv cli m₀ s)
    (hm : ConsumeMove cli s s') : ConsumeInv cli m₀ s' := by
  cases hm with
  | quiet hmetrics hhandled hpolled hrest =>
    refine ⟨?_, fun hk => ?_⟩
    · rw [hmetrics, hhandled]
      exact h.metrics
    · obtain ⟨hks, hremaining⟩ := hrest.resolve_left hk
      rw [hpolled, hhandled, hremaining]
      exact h.polled hks
  | polled hidle hmetrics hhandled hpolled hremaining =>
    refine ⟨?_, fun _ => ?_⟩
    · rw [hmetrics, hhandled]
      exact h.metrics
    · have hs := h.polled hidle.1
      rw [hidle.2, List.append_nil] at hs
      rw [hpolled, hhandled, hremaining, hs]
  | @processed record remaining env hphase hmetrics hhandled hpolled hremaining =>
    refine ⟨?_, fun _ => ?_⟩
    · rw [hmetrics, hhandled]
      exact h.metrics.record record env
    · have hs := h.polled (by simp [hphase])
      rw [hphase] at hs
      rw [hpolled, hhandled, hremaining, hs]
      simp [ConsumePhase.remaining]

theorem runConsume_inv (cli : ProcessCli) (m₀ : DemoMetrics) (events : List (ConsumeEvent E P)) :
    ConsumeInv cli m₀ ((runConsume E P cli m₀).run events) := by
  refine (runConsume E P cli m₀).run_invariant ?_
    (fun s e h => h.move (consume_step_move cli s e)) events
  exact ⟨⟨rfl, rfl, rfl, rfl, fun _ => rfl, fun _ _ => rfl, rfl, rfl⟩, fun _ => rfl⟩

section Mixed

end Mixed

end OrdersDemo
