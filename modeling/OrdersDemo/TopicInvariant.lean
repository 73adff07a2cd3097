import OrdersDemo.TopicLog

namespace OrdersDemo

section Consumer

variable {E P : Type} {cli : ProcessCli} {s : ConsumeState E P}

theorem processOrderRecord_span (cli : ProcessCli) (env : ProcessEnv E) (record : ConsumerRecord)
    (metrics : DemoMetrics) :
    (processOrderRecord cli env record metrics).2 = (processOrderRecord cli env record {}).2 := by
  unfold processOrderRecord processOrderInner
  split <;> rfl

/-- The records handled so far begin what was polled, and each has left its span. -/
structure HandledInv (cli : ProcessCli) (s : ConsumeState E P) : Prop where
  handled : s.handled.map Prod.fst <+: s.polled
  spans : s.spans = s.handled.map fun h => (processOrderRecord cli h.2 h.1 {}).2

theorem HandledInv.step {m₀ : DemoMetrics} (h : HandledInv cli s) (hc : ConsumeInv cli m₀ s)
    (e : ConsumeEvent E P) : HandledInv cli (s.step cli e) := by
  obtain ⟨hhandled, hspans⟩ := step_handled cli s e
  refine ⟨?_, ?_⟩
  · rw [hhandled, step_polled, List.map_append]
    rcases processed_cases s e with hnone | ⟨env, record, remaining, rfl, hp, hone⟩
    · rw [hnone, List.map_nil, List.append_nil]
      exact h.handled.trans (List.prefix_append _ _)
    · have hpolled := hc.polled (by simp [hp])
      rw [hone, hpolled, hp]
      exact ⟨remaining, by simp [ConsumePhase.remaining, ConsumeState.answered]⟩
  · rw [hhandled, hspans, h.spans, List.map_append]
    congr 1
    exact List.map_congr_left fun x _ => processOrderRecord_span cli x.2 x.1 s.metrics

theorem runConsume_handled (cli : ProcessCli) (m₀ : DemoMetrics)
    (events : List (ConsumeEvent E P)) : HandledInv cli ((runConsume E P cli m₀).run events) := by
  refine ((runConsume E P cli m₀).run_invariant
    (I := fun s => ConsumeInv cli m₀ s ∧ HandledInv cli s) ⟨?_, ?_⟩
    (fun s e h => ⟨h.1.move (consume_step_move cli s e), h.2.step h.1 e⟩) events).2
  · exact runConsume_inv cli m₀ []
  · exact ⟨List.nil_prefix, rfl⟩

end Consumer

section Topic

variable {E P : Type} {kafka : Kafka E} {m : ℕ+} {cli : ProcessCli}

/-- The topic holds records that were handed to `send`, whatever the broker does. -/
structure LogInv (s : DemoState kafka cli.inputTopic P) : Prop where
  placed : ∀ e ∈ s.log, e.partition = kafka.partition e.record.key
  called : ∀ e ∈ s.log, .effect e.index (.call e.record) ∈ s.producer.trace

/-- The records of a key are in the order of their orders. -/
def KeyOrdered (log : List TopicEntry) : Prop :=
  log.Pairwise fun e e' => orderKey e.index = orderKey e'.index → e.index ≤ e'.index

/-- What the topic holds when the libraries do their part: at most one record for each call and at
least one for each acknowledgement; and what the consumer has of them. -/
structure TopicInv (s : DemoState kafka cli.inputTopic P) : Prop extends LogInv s where
  acknowledged : ∀ i record, .effect i (.result record true) ∈ s.producer.trace →
    ∃ e ∈ s.log, e.index = i
  once : ∀ i, s.log.countP (·.index = i) ≤ callsOf i s.producer.trace
  polled : kafka.Reads s.log s.consumer.polled
  decoder : ∀ h ∈ s.consumer.handled, h.2.deserialize = kafka.deserialize

theorem Kafka.Reads.append {log : List TopicEntry} {polled : List ConsumerRecord}
    (h : kafka.Reads log polled) (e : TopicEntry) : kafka.Reads (log ++ [e]) polled := by
  intro p
  refine (h p).trans ?_
  rw [List.filter_append, List.map_append, List.drop_append]
  exact List.prefix_append _ _

section Steps

variable {s : DemoState kafka cli.inputTopic P}

theorem LogInv.append (h : LogInv s) (i : ℕ) (record : ProducerRecord) :
    LogInv (s.append i record) := by
  unfold DemoState.append
  split
  next hcall =>
    refine ⟨fun e he => ?_, fun e he => ?_⟩
    · rcases List.mem_append.mp he with he | he
      · exact h.placed e he
      · obtain rfl := List.mem_singleton.mp he
        rfl
    · rcases List.mem_append.mp he with he | he
      · exact h.called e he
      · obtain rfl := List.mem_singleton.mp he
        exact mem_effectsOf.mp hcall
  next => exact h

theorem LogInv.step (h : LogInv s) (e : DemoEvent E P) : LogInv (s.step m cli e) := by
  cases e with
  | produce event =>
    obtain ⟨acts, hacts⟩ := (step_move m s.producer event).extends
    refine ⟨h.placed, fun e he => ?_⟩
    change SendAct.effect e.index (.call e.record) ∈ (s.producer.step m event).trace
    rw [hacts]
    exact List.mem_append_left _ (h.called e he)
  | append i record => exact h.append i record
  | consume event => exact ⟨h.placed, h.called⟩

/-- A record that lands while it is in flight comes after the records of its key. -/
theorem LogInv.keyOrdered_append (h : LogInv s) (ho : KeyOrdered s.log) (hr : RunInv m s.producer)
    (hd : DeliveriesInv s.producer) {i : ℕ} {record : ProducerRecord}
    (hflight : inFlight i s.producer.trace = some record) :
    KeyOrdered (s.append i record).log := by
  unfold DemoState.append
  split
  next =>
    refine List.pairwise_append.mpr ⟨ho, List.pairwise_singleton _ _, ?_⟩
    intro e he e' he' hkey
    obtain rfl := List.mem_singleton.mp he'
    exact call_le_inFlight hr hd hflight (h.called e he) hkey.symm
  next => exact ho

theorem TopicInv.produce (h : TopicInv s) (hd : DeliveriesInv s.producer)
    {event : SendEvent PublishInput} (hk : kafka.Keeps s (.produce event)) :
    TopicInv (s.step m cli (.produce event)) := by
  refine ⟨h.toLogInv.step (.produce event), fun i record hresult => ?_, fun i => ?_, h.polled,
    h.decoder⟩
  · change SendAct.effect i (.result record true) ∈ (s.producer.step m event).trace at hresult
    rcases effects_step (m := m) (s := s.producer) event with heffects |
      ⟨j, input, t, d, rfl, ht, hs, rfl, hstep⟩
    · apply h.acknowledged i record
      rwa [← mem_effects, ← heffects, mem_effects]
    · rw [hstep] at hresult
      rcases List.mem_append.mp hresult with hold | hnew
      · exact h.acknowledged i record hold
      · rw [← mem_effects, effects_ofPoll] at hnew
        obtain ⟨effect, hmem, heq⟩ := List.mem_map.mp hnew
        obtain ⟨rfl, rfl⟩ := Prod.mk.inj heq
        obtain ⟨hresult, hflight⟩ := acknowledged_of_poll hd ht hs input hmem
        exact hk hresult record hflight
  · obtain ⟨acts, hacts⟩ := (step_move m s.producer event).extends
    change _ ≤ callsOf i (s.producer.step m event).trace
    rw [hacts, callsOf_append]
    exact (h.once i).trans (Nat.le_add_right _ _)

theorem TopicInv.append (h : TopicInv s) {i : ℕ} {record : ProducerRecord}
    (hk : s.log.countP (·.index = i) < callsOf i s.producer.trace) :
    TopicInv (s.append i record) := by
  have hlog := h.toLogInv.append i record
  unfold DemoState.append at hlog ⊢
  split
  next hcall =>
    rw [if_pos hcall] at hlog
    refine ⟨hlog, fun j r hresult => ?_, fun j => ?_, h.polled.append _, h.decoder⟩
    · obtain ⟨e, he, hi⟩ := h.acknowledged j r hresult
      exact ⟨e, List.mem_append_left _ he, hi⟩
    · have honce := h.once j
      rw [List.countP_append, List.countP_singleton]
      by_cases hij : i = j
      · subst hij
        simpa using hk
      · simpa [hij] using honce
  next => exact h

theorem TopicInv.consume (h : TopicInv s) {event : ConsumeEvent E P}
    (hk : kafka.Keeps s (.consume event)) : TopicInv (s.step m cli (.consume event)) := by
  refine ⟨h.toLogInv.step (.consume event), h.acknowledged, h.once, ?_, ?_⟩
  · change kafka.Reads s.log (s.consumer.step cli event).polled
    rw [step_polled]
    rcases answered_cases s.consumer event with hnone | ⟨shutdownFirst, hwake⟩
    · rw [hnone, List.append_nil]
      exact h.polled
    · rw [hwake] at hk
      exact hk
  · intro x hx
    change x ∈ (s.consumer.step cli event).handled at hx
    rw [(step_handled cli s.consumer event).1] at hx
    rcases List.mem_append.mp hx with hx | hx
    · exact h.decoder x hx
    · rcases processed_cases s.consumer event with hnone | ⟨env, record, _, rfl, _, hone⟩
      · rw [hnone] at hx
        cases hx
      · rw [hone] at hx
        obtain rfl := List.mem_singleton.mp hx
        exact hk

theorem step_producer (h : RunInv m s.producer ∧ DeliveriesInv s.producer) (e : DemoEvent E P) :
    RunInv m (s.step m cli e).producer ∧ DeliveriesInv (s.step m cli e).producer := by
  obtain ⟨hr, hd⟩ := h
  cases e with
  | produce event =>
    have hmove := step_move m s.producer event
    exact ⟨hr.move hmove, hd.move hr hmove⟩
  | append i record =>
    change RunInv m (s.append i record).producer ∧ DeliveriesInv (s.append i record).producer
    rw [append_producer]
    exact ⟨hr, hd⟩
  | consume event => exact ⟨hr, hd⟩

end Steps

theorem init_producer : RunInv m (demo kafka P m cli).init.producer ∧
    DeliveriesInv (demo kafka P m cli).init.producer :=
  ⟨sendOrders_runInv (S := publishSender kafka.serialize cli.inputTopic) m _ [],
    sendOrders_deliveries (S := publishSender kafka.serialize cli.inputTopic) m _ []⟩

/-- A broker in which no failed attempt lands late keeps the order of a key. -/
theorem demo_keyOrdered {events : List (DemoEvent E P)}
    (hp : (demo kafka P m cli).Meets kafka.Prompt (demo kafka P m cli).init events) :
    KeyOrdered ((demo kafka P m cli).run events).log := by
  refine ((demo kafka P m cli).runFrom_invariant_of_meets
    (I := fun s => (RunInv m s.producer ∧ DeliveriesInv s.producer) ∧ LogInv s ∧
      KeyOrdered s.log)
    (fun s e hp ⟨hproducer, h, ho⟩ => ⟨step_producer hproducer e, h.step e, ?_⟩)
    ⟨init_producer, ⟨by simp [demo], by simp [demo]⟩, List.Pairwise.nil⟩ hp).2.2
  cases e with
  | produce event => exact ho
  | append i record => exact h.keyOrdered_append ho hproducer.1 hproducer.2 hp
  | consume event => exact ho

/-- Everything a run of the demo keeps, in which the libraries do their part. -/
theorem demo_topicInv {events : List (DemoEvent E P)}
    (hk : (demo kafka P m cli).Meets kafka.Keeps (demo kafka P m cli).init events) :
    let s := (demo kafka P m cli).run events
    RunInv m s.producer ∧ DeliveriesInv s.producer ∧ TopicInv s := by
  intro s
  have hinv : (RunInv m s.producer ∧ DeliveriesInv s.producer) ∧ TopicInv s := by
    refine (demo kafka P m cli).runFrom_invariant_of_meets
      (I := fun s => (RunInv m s.producer ∧ DeliveriesInv s.producer) ∧ TopicInv s)
      (fun s e hk ⟨hproducer, h⟩ => ⟨step_producer hproducer e, ?_⟩)
      ⟨init_producer, ⟨⟨by simp [demo], by simp [demo]⟩, by simp [demo, sendOrders],
        fun i => Nat.zero_le _, fun p => List.nil_prefix, by simp [demo, runConsume]⟩⟩ hk
    cases e with
    | produce event => exact h.produce hproducer.2 hk
    | append i record => exact h.append hk
    | consume event => exact h.consume (m := m) hk
  exact ⟨hinv.1.1, hinv.1.2, hinv.2⟩

end Topic

end OrdersDemo
