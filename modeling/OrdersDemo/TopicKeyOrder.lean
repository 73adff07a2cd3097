import OrdersDemo.TopicDelivery

namespace OrdersDemo

variable {E P : Type}

theorem callsOf_le_three {serialize : String → Order → ByteArray} {topic : String} {m : ℕ+}
    {s : SendState (publishSender serialize topic)} (hr : RunInv m s) (hd : DeliveriesInv s)
    (i : ℕ) : callsOf i s.trace ≤ 3 := by
  by_cases hi : i < s.index
  · obtain ⟨state, hrun, _⟩ := hd.state hr hi
    rcases hrun.published with ⟨he, _⟩ | ⟨traceHeaders, attempts, ha, he⟩
    · rw [callsOf, he]
      exact Nat.zero_le 3
    · rw [callsOf, he, countP_isCall]
      exact ha.length_le
  · have hnone : effectsOf i s.trace = [] := effectsOf_eq_nil fun e he => hi (hr.send.index_lt he)
    rw [callsOf, hnone]
    exact Nat.zero_le 3

/-- Whatever the interleaving of the roles and of the retries, the consumer processes what the topic
holds of the orders, none more often than it was sent and each with the outcome and in the trace
that its order was sent with; and where no failed attempt lands late, the orders of a category in
the order in which they were made, repeating one only while it is the latest. -/
theorem demo_key_order (kafka : Kafka E) (m : ℕ+) (cli : ProcessCli)
    (hserde : kafka.RoundTrips cli.inputTopic) (events : List (DemoEvent E P))
    (hk : (demo kafka P m cli).Meets kafka.Keeps (demo kafka P m cli).init events) :
    let s := (demo kafka P m cli).run events
    ∃ indices : List ℕ,
      List.Forall₂ (Processed kafka cli s.producer.trace) indices s.consumer.spans ∧
      ((demo kafka P m cli).Meets kafka.Prompt (demo kafka P m cli).init events →
        indices.Pairwise fun i j => (orderAt i).category = (orderAt j).category → i ≤ j) ∧
      (∀ i, indices.count i ≤ callsOf i s.producer.trace ∧ callsOf i s.producer.trace ≤ 3) ∧
      s.consumer.metrics.errors .missingValue = 0 ∧
      s.consumer.metrics.errors .deserialize = 0 ∧
      ∀ label, s.consumer.metrics.ordersProcessed.count label =
        indices.countP fun i => processedLabel (orderAt i) = label := by
  intro s
  obtain ⟨hr, hd, h, hh, hc, indices, ho⟩ := demo_handled hserde hk
  obtain ⟨hmissing, hrejected, -, hprocessed⟩ := ho.metrics hh hc
  refine ⟨indices, ho.spans, fun hp => ho.ordered (demo_keyOrdered hp),
    fun i => ⟨?_, callsOf_le_three hr hd i⟩, hmissing, hrejected, hprocessed⟩
  calc indices.count i ≤ (s.log.map TopicEntry.index).count i := ho.subperm.count_le i
    _ = s.log.countP (·.index = i) := by rw [List.count_eq_countP, List.countP_map]; rfl
    _ ≤ callsOf i s.producer.trace := h.once i

section Retried

/-- A serde that writes the id of an order and reads its digits, over a topic with one partition. -/
def orderIdKafka : Kafka Unit where
  serialize _ order := order.orderId.toUTF8
  deserialize _ value :=
    match (String.fromUTF8? value).bind (stripPrefix "o-") with
    | some digits =>
      let i := Nat.ofDigitChars 10 digits.toList 0
      .ok ((orderAt i).stamp i)
    | none => .error ()
  partition _ := 0
  start _ := 0

theorem orderIdKafka_roundTrips (topic : String) : orderIdKafka.RoundTrips topic := by
  intro i
  have hread : String.fromUTF8? (orderValue orderIdKafka.serialize topic i) =
      some ("o-" ++ zeroPad 10 (toString i)) := fromUTF8?_eq_some.mpr rfl
  simp only [orderIdKafka] at hread ⊢
  rw [hread, Option.bind_some, stripPrefix_append]
  simp only [ofDigitChars_zeroPad]

def orderIdEnv : ProcessEnv Unit := ⟨orderIdKafka.deserialize, fun _ => 0, 0⟩

def orderIdRecord (i : ℕ) : ProducerRecord :=
  publishRecord ((orderAt i).stamp i) "orders" (orderValue orderIdKafka.serialize "orders" i)
    [("traceparent", "00-a")]

def orderIdEntry (i offset : ℕ) : TopicEntry :=
  ⟨i, 0, offset, orderIdRecord i⟩

def orderIdPoll (result : Option Bool) : PublishInput where
  traceHeaders := [("traceparent", "00-a")]
  result := result

abbrev orderIdDemo : Machine (DemoState orderIdKafka idleCli.inputTopic Unit)
    (DemoEvent Unit Unit) :=
  demo orderIdKafka Unit 5 idleCli

/-- A record lands twice in the topic, because the first answer is lost; then the next order of its
key is sent. -/
def retriedEvents : List (DemoEvent Unit Unit) :=
  [.produce tickOnly, .produce tickOnly, .produce tickOnly, .produce tickOnly, .produce tickOnly,
    .produce (.poll 0 (orderIdPoll none)), .produce (.poll 0 (orderIdPoll none)),
    .append 0 (orderIdRecord 0), .produce (.poll 0 (orderIdPoll (some false))),
    .produce (.poll 0 (orderIdPoll none)), .append 0 (orderIdRecord 0),
    .produce (.poll 0 (orderIdPoll (some true))), .produce (.poll 0 (orderIdPoll none)),
    .produce (.wake { join := some 0 }), .produce tickOnly,
    .produce (.poll 5 (orderIdPoll none)), .produce (.poll 5 (orderIdPoll none)),
    .append 5 (orderIdRecord 5), .produce (.poll 5 (orderIdPoll (some true))),
    .consume (.wake true (some (.ok [(orderIdEntry 0 0).deliver, (orderIdEntry 0 1).deliver,
      (orderIdEntry 5 2).deliver]))),
    .consume (.process orderIdEnv), .consume (.process orderIdEnv), .consume (.process orderIdEnv)]

abbrev retried (n : ℕ) : DemoState orderIdKafka idleCli.inputTopic Unit :=
  orderIdDemo.run (retriedEvents.take n)

theorem retried_log :
    (retried 11).log = [orderIdEntry 0 0, orderIdEntry 0 1] ∧
      (retried 18).log = [orderIdEntry 0 0, orderIdEntry 0 1, orderIdEntry 5 2] ∧
      (retried 23).log = [orderIdEntry 0 0, orderIdEntry 0 1, orderIdEntry 5 2] := by
  decide +kernel

theorem retried_calls :
    (retried 7).log.countP (·.index = 0) < callsOf 0 (retried 7).producer.trace ∧
      (retried 10).log.countP (·.index = 0) < callsOf 0 (retried 10).producer.trace ∧
      (retried 17).log.countP (·.index = 5) < callsOf 5 (retried 17).producer.trace := by
  decide +kernel

theorem retried_inFlight :
    inFlight 0 (retried 7).producer.trace = some (orderIdRecord 0) ∧
      inFlight 0 (retried 10).producer.trace = some (orderIdRecord 0) ∧
      inFlight 5 (retried 17).producer.trace = some (orderIdRecord 5) := by
  decide +kernel

theorem orderIdKafka_reads (entries : List TopicEntry) :
    orderIdKafka.Reads entries (entries.map TopicEntry.deliver) := by
  intro p
  rw [filter_deliver]
  exact List.prefix_refl _

theorem retriedEvents_keeps :
    orderIdDemo.Meets orderIdKafka.Keeps orderIdDemo.init retriedEvents := by
  refine ⟨trivial, trivial, trivial, trivial, trivial, nofun, nofun, retried_calls.1, nofun, nofun,
    retried_calls.2.1, fun _ _ _ => ?_, nofun, trivial, trivial, nofun, nofun, retried_calls.2.2,
    fun _ _ _ => ?_, ?_, rfl, rfl, rfl, trivial⟩
  · refine ⟨orderIdEntry 0 0, ?_, rfl⟩
    change orderIdEntry 0 0 ∈ (retried 11).log
    rw [retried_log.1]
    exact List.mem_cons_self
  · refine ⟨orderIdEntry 5 2, ?_, rfl⟩
    change orderIdEntry 5 2 ∈ (retried 18).log
    rw [retried_log.2.1]
    simp
  · have hpolled : (retried 19).consumer.polled = [] := by decide +kernel
    change orderIdKafka.Reads (retried 18).log ((retried 19).consumer.polled ++ _)
    rw [retried_log.2.1, hpolled]
    exact orderIdKafka_reads [orderIdEntry 0 0, orderIdEntry 0 1, orderIdEntry 5 2]

theorem retriedEvents_prompt :
    orderIdDemo.Meets orderIdKafka.Prompt orderIdDemo.init retriedEvents := by
  obtain ⟨hfirst, hsecond, hnext⟩ := retried_inFlight
  exact ⟨trivial, trivial, trivial, trivial, trivial, trivial, trivial, hfirst, trivial, trivial,
    hsecond, trivial, trivial, trivial, trivial, trivial, trivial, hnext, trivial, trivial, trivial,
    trivial, trivial, trivial⟩

theorem demo_key_order_retried :
    ∃ indices : List ℕ,
      List.Forall₂ (Processed orderIdKafka idleCli (retried 23).producer.trace) indices
        (retried 23).consumer.spans ∧ indices.length = 3 ∧ indices.count 0 ≤ 2 ∧
      indices.Pairwise fun i j => (orderAt i).category = (orderAt j).category → i ≤ j := by
  obtain ⟨indices, hspans, hordered, hcount, -⟩ := demo_key_order orderIdKafka 5 idleCli
    (orderIdKafka_roundTrips _) retriedEvents retriedEvents_keeps
  have hlength : (retried 23).consumer.spans.length = 3 := by decide +kernel
  have hcalls : callsOf 0 (retried 23).producer.trace = 2 := by decide +kernel
  exact ⟨indices, hspans, hspans.length_eq.trans hlength, hcalls ▸ (hcount 0).1,
    hordered retriedEvents_prompt⟩

end Retried

end OrdersDemo
