import OrdersDemo.HeaderRoundTrip
import OrdersDemo.OrderIndex
import OrdersDemo.OrderOutcome
import OrdersDemo.TopicInvariant

namespace OrdersDemo

theorem ofDigitChars_zeroPad (width n : ℕ) :
    Nat.ofDigitChars 10 (zeroPad width (toString n)).toList 0 = n := by
  have hlist := toList_zeroPad width (toString n)
  rw [Nat.toString_eq_repr, Nat.toList_repr] at hlist
  rw [Nat.toString_eq_repr, hlist, Nat.ofDigitChars_append, Nat.ofDigitChars_replicate_zero,
    Nat.mul_zero]
  exact Nat.ofDigitChars_toDigits (by decide) (by decide)

theorem orderId_injective {i j : ℕ} (h : (orderAt i).orderId = (orderAt j).orderId) : i = j := by
  have hread : ∀ k, (stripPrefix "o-" (orderAt k).orderId).map
      (fun s => Nat.ofDigitChars 10 s.toList 0) = some k := by
    intro k
    rw [orderAt, stripPrefix_append, Option.map_some, ofDigitChars_zeroPad]
  have hi := hread i
  rw [h, hread j] at hi
  exact (Option.some.inj hi).symm

section Values

variable {E P : Type} {kafka : Kafka E} {cli : ProcessCli}

theorem Kafka.RoundTrips.inj {topic : String} (h : kafka.RoundTrips topic) {i j : ℕ}
    (hv : orderValue kafka.serialize topic i = orderValue kafka.serialize topic j) : i = j := by
  have hi := h i
  rw [hv, h j] at hi
  have hid : ((orderAt j).stamp j).orderId = ((orderAt i).stamp i).orderId :=
    congrArg Order.orderId (Except.ok.inj hi)
  exact (orderId_injective hid).symm

def Carries (kafka : Kafka E) (topic : String) (record : ConsumerRecord) (i : ℕ) : Prop :=
  record.value = some (orderValue kafka.serialize topic i)

/-- What the span of a processed record says about order `i`: the order itself with its intended
outcome and its delays, and the trace of the delivery that sent it. -/
structure Processed (kafka : Kafka E) (cli : ProcessCli) (trace : List (SendAct PublishEffect))
    (i : ℕ) (span : ProcessSpan) : Prop where
  order : span.order = some ((orderAt i).stamp i)
  outcome : span.outcome = some (intendedOutcome i)
  error : span.error = false
  stages : i ≤ u64Max → span.stages =
    stages.map fun name => (name, stageDelay name cli.work i cli.slowOrderFraction)
  sent : ∃ traceHeaders,
    .effect i (.call (publishRecord ((orderAt i).stamp i) cli.inputTopic
      (orderValue kafka.serialize cli.inputTopic i) traceHeaders)) ∈ trace ∧
    span.remoteParent = traceHeaders.map (fun pair => (pair.1, pair.2.toUTF8)) ++
      [("x-demo-region", (orderAt i).region.toUTF8),
        ("x-demo-tier", (orderAt i).customerTier.toUTF8)] ∧
    ((∀ pair ∈ traceHeaders, pair.1 ≠ "x-demo-region" ∧ pair.1 ≠ "x-demo-tier") →
      span.headerRegion = some (orderAt i).region ∧
        span.headerTier = some (orderAt i).customerTier)

theorem decoded_order (hserde : kafka.RoundTrips cli.inputTopic) {record : ConsumerRecord}
    {env : ProcessEnv E} {i : ℕ} (hv : Carries kafka cli.inputTopic record i)
    (henv : env.deserialize = kafka.deserialize) :
    decoded cli env record = .ok ((orderAt i).stamp i) := by
  unfold decoded decodeOrder
  rw [hv, henv]
  simp only [hserde i, Except.mapError]

theorem decodedOrder_of_decoded {record : ConsumerRecord} {env : ProcessEnv E} {order : Order}
    (h : decoded cli env record = .ok order) : decodedOrder cli (record, env) = some order := by
  unfold decoded decodeOrder at h
  unfold decodedOrder
  cases hv : record.value with
  | none =>
    rw [hv] at h
    cases h
  | some value =>
    rw [hv] at h
    cases hd : env.deserialize cli.inputTopic value with
    | error error => simp [hd, Except.mapError] at h
    | ok decoded => simpa [hd, Except.mapError, Except.toOption] using h

theorem processOrderRecord_fields {env : ProcessEnv E} {record : ConsumerRecord} {order : Order}
    (h : decoded cli env record = .ok order) :
    let span := (processOrderRecord cli env record {}).2
    span.order = some order ∧ span.error = false ∧
      span.headerRegion = headerValue record.headers "x-demo-region" ∧
      span.headerTier = headerValue record.headers "x-demo-tier" ∧
      span.remoteParent = continueTrace record.headers := by
  unfold decoded at h
  unfold processOrderRecord processOrderInner
  rw [h]
  exact ⟨rfl, rfl, rfl, rfl, rfl⟩

theorem processed_of_decoded {env : ProcessEnv E} {record : ConsumerRecord} {i : ℕ}
    {traceHeaders : List (String × String)} {trace : List (SendAct PublishEffect)}
    (hdec : decoded cli env record = .ok ((orderAt i).stamp i))
    (hheaders : record.headers = orderHeaders traceHeaders ((orderAt i).stamp i))
    (hcall : .effect i (.call (publishRecord ((orderAt i).stamp i) cli.inputTopic
      (orderValue kafka.serialize cli.inputTopic i) traceHeaders)) ∈ trace) :
    Processed kafka cli trace i (processOrderRecord cli env record {}).2 := by
  obtain ⟨horder, herror, hregion, htier, hparent⟩ := processOrderRecord_fields hdec
  have houtcome := processOrderRecord_outcome cli env hdec {}
  rw [classifyOutcome_stamp, classifyOutcome_orderAt] at houtcome
  refine ⟨horder, houtcome, herror, fun hi => ?_, traceHeaders, hcall, ?_, fun hforeign => ?_⟩
  · have hid : ((orderAt i).stamp i).orderId = (orderAt i).orderId := rfl
    rw [processOrderRecord_stages cli env hdec, hid, parsedIndex_orderAt hi, Option.getD_some]
  · rw [hparent, hheaders, continueTrace_orderHeaders]
    rfl
  · constructor
    · rw [hregion, hheaders,
        headerValue_orderHeaders_of_not_mem fun pair hp => (hforeign pair hp).1]
      exact headerValue_region
    · rw [htier, hheaders, headerValue_orderHeaders_of_not_mem fun pair hp => (hforeign pair hp).2]
      exact headerValue_tier

end Values

section Topic

variable {E P : Type} {kafka : Kafka E} {m : ℕ+} {cli : ProcessCli}
  {s : DemoState kafka cli.inputTopic P}

theorem TopicInv.entry (h : TopicInv s) (hr : RunInv m s.producer) (hd : DeliveriesInv s.producer)
    {e : TopicEntry} (he : e ∈ s.log) :
    ∃ traceHeaders, e.record = publishRecord ((orderAt e.index).stamp e.index) cli.inputTopic
      (orderValue kafka.serialize cli.inputTopic e.index) traceHeaders := by
  obtain ⟨traceHeaders, hrecord⟩ := hd.calls hr e.index
  exact ⟨traceHeaders, hrecord e.record (h.called e he)⟩

theorem TopicInv.carries (h : TopicInv s) (hr : RunInv m s.producer)
    (hd : DeliveriesInv s.producer) {e : TopicEntry} (he : e ∈ s.log) :
    Carries kafka cli.inputTopic e.deliver e.index := by
  obtain ⟨traceHeaders, hrecord⟩ := h.entry hr hd he
  rw [Carries, TopicEntry.deliver, hrecord]
  rfl

theorem TopicInv.partition_eq (h : TopicInv s) (hr : RunInv m s.producer)
    (hd : DeliveriesInv s.producer) {e e' : TopicEntry} (he : e ∈ s.log) (he' : e' ∈ s.log)
    (hk : orderKey e.index = orderKey e'.index) : e.partition = e'.partition := by
  obtain ⟨_, hrecord⟩ := h.entry hr hd he
  obtain ⟨_, hrecord'⟩ := h.entry hr hd he'
  have hkey : e.record.key = e'.record.key := by
    rw [hrecord, hrecord']
    exact congrArg (fun c : String => some c.toUTF8) hk
  rw [h.placed e he, h.placed e' he', hkey]

theorem filter_deliver (log : List TopicEntry) (p : ℤ) :
    (log.map TopicEntry.deliver).filter (·.partition = p) =
      (log.filter (·.partition = p)).map TopicEntry.deliver := by
  rw [List.filter_map]
  rfl

theorem Kafka.Reads.sublist {log : List TopicEntry} {polled : List ConsumerRecord}
    (h : kafka.Reads log polled) (p : ℤ) : (polled.filter (·.partition = p)).Sublist
      ((log.map TopicEntry.deliver).filter (·.partition = p)) := by
  rw [filter_deliver]
  exact (h p).sublist.trans (List.drop_sublist _ _)

/-- The records handled are records of the topic, none of them more often than it is there. -/
theorem Kafka.Reads.subperm {log : List TopicEntry} {polled : List ConsumerRecord}
    (h : kafka.Reads log polled) : polled.Subperm (log.map TopicEntry.deliver) :=
  History.subperm_of_fibres (f := ConsumerRecord.partition) h.sublist

theorem TopicInv.handled_subperm (h : TopicInv s) (hh : HandledInv cli s.consumer) :
    (s.consumer.handled.map Prod.fst).Subperm (s.log.map TopicEntry.deliver) :=
  hh.handled.sublist.subperm.trans h.polled.subperm

theorem TopicInv.polled_ordered (h : TopicInv s) (hr : RunInv m s.producer)
    (hd : DeliveriesInv s.producer) (hserde : kafka.RoundTrips cli.inputTopic)
    (ho : KeyOrdered s.log) :
    s.consumer.polled.Pairwise fun r r' => ∀ i j, Carries kafka cli.inputTopic r i →
      Carries kafka cli.inputTopic r' j → orderKey i = orderKey j → i ≤ j := by
  have hindex : ∀ e ∈ s.log, ∀ i, Carries kafka cli.inputTopic e.deliver i → e.index = i := by
    intro e he i hi
    exact hserde.inj (Option.some.inj ((h.carries hr hd he).symm.trans hi))
  have hlog : (s.log.map TopicEntry.deliver).Pairwise fun r r' =>
      ∀ i j, Carries kafka cli.inputTopic r i → Carries kafka cli.inputTopic r' j →
        orderKey i = orderKey j → i ≤ j := by
    refine List.pairwise_map.mpr (ho.imp_of_mem ?_)
    intro e e' he he' hle i j hi hj hk
    obtain rfl := hindex e he i hi
    obtain rfl := hindex e' he' j hj
    exact hle hk
  have hfibres := History.pairwise_of_fibres (f := ConsumerRecord.partition) fun p =>
    (hlog.filter (·.partition = p)).sublist (h.polled.sublist p)
  refine hfibres.imp_of_mem ?_
  intro r r' hr' hr'' hle i j hi hj hk
  obtain ⟨e, he, rfl⟩ := List.mem_map.mp (h.polled.subperm.subset hr')
  obtain ⟨e', he', rfl⟩ := List.mem_map.mp (h.polled.subperm.subset hr'')
  refine hle (h.partition_eq hr hd he he' ?_) i j hi hj hk
  rw [hindex e he i hi, hindex e' he' j hj, hk]

/-- The orders behind the records handled so far. -/
structure HandledOrders (s : DemoState kafka cli.inputTopic P) (indices : List ℕ) : Prop where
  decoded : decodedOrders cli s.consumer.handled = indices.map fun i => (orderAt i).stamp i
  spans : List.Forall₂ (Processed kafka cli s.producer.trace) indices s.consumer.spans
  ordered : KeyOrdered s.log → indices.Pairwise fun i j => orderKey i = orderKey j → i ≤ j
  subperm : indices.Subperm (s.log.map TopicEntry.index)

/-- Every record handled is a record of the topic, and tells which one's order it carries. -/
theorem TopicInv.exists_index (h : TopicInv s) (hr : RunInv m s.producer)
    (hd : DeliveriesInv s.producer) (hserde : kafka.RoundTrips cli.inputTopic) :
    ∃ index : ConsumerRecord → ℕ, ∀ e ∈ s.log, index e.deliver = e.index := by
  have hentry : ∀ r ∈ s.log.map TopicEntry.deliver, ∃ i, Carries kafka cli.inputTopic r i := by
    intro r hr'
    obtain ⟨e, he, rfl⟩ := List.mem_map.mp hr'
    exact ⟨e.index, h.carries hr hd he⟩
  choose! index hindex using hentry
  refine ⟨index, fun e he => ?_⟩
  have hcarries := hindex e.deliver (List.mem_map_of_mem he)
  exact hserde.inj (Option.some.inj (hcarries.symm.trans (h.carries hr hd he)))

theorem exists_handledOrders (h : TopicInv s) (hr : RunInv m s.producer)
    (hd : DeliveriesInv s.producer) (hh : HandledInv cli s.consumer)
    (hserde : kafka.RoundTrips cli.inputTopic) : ∃ indices, HandledOrders s indices := by
  obtain ⟨index, hindex⟩ := h.exists_index hr hd hserde
  have hsub := h.handled_subperm hh
  have hentry : ∀ x ∈ s.consumer.handled, ∃ e ∈ s.log, e.deliver = x.1 ∧ e.index = index x.1 := by
    intro x hx
    obtain ⟨e, he, hdeliver⟩ := List.mem_map.mp (hsub.subset (List.mem_map_of_mem hx))
    exact ⟨e, he, hdeliver, by rw [← hdeliver, hindex e he]⟩
  have hcarries : ∀ x ∈ s.consumer.handled, Carries kafka cli.inputTopic x.1 (index x.1) := by
    intro x hx
    obtain ⟨e, he, hdeliver, hi⟩ := hentry x hx
    rw [← hi, ← hdeliver]
    exact h.carries hr hd he
  have hdecoded : ∀ x ∈ s.consumer.handled,
      OrdersDemo.decoded cli x.2 x.1 = .ok ((orderAt (index x.1)).stamp (index x.1)) :=
    fun x hx => decoded_order hserde (hcarries x hx) (h.decoder x hx)
  refine ⟨(s.consumer.handled.map Prod.fst).map index, ?_, ?_, ?_, ?_⟩
  · rw [List.map_map, List.map_map, decodedOrders]
    refine List.filterMap_eq_map_iff_forall_eq_some.mpr fun x hx => ?_
    exact decodedOrder_of_decoded (hdecoded x hx)
  · rw [hh.spans, List.map_map]
    refine List.forall₂_map_left_iff.mpr (List.forall₂_map_right_iff.mpr ?_)
    refine List.forall₂_same.mpr fun x hx => ?_
    obtain ⟨e, he, hdeliver, hi⟩ := hentry x hx
    obtain ⟨traceHeaders, hrecord⟩ := h.entry hr hd he
    have hcall := h.called e he
    rw [hrecord, hi] at hcall
    have hheaders : x.1.headers = e.record.headers := by
      rw [← hdeliver]
      rfl
    refine processed_of_decoded (hdecoded x hx) ?_ hcall
    rw [hheaders, hrecord, hi]
    rfl
  · intro ho
    refine List.pairwise_map.mpr (List.pairwise_map.mpr ?_)
    have hpolled := (h.polled_ordered hr hd hserde ho).sublist hh.handled.sublist
    refine (List.pairwise_map.mp hpolled).imp_of_mem ?_
    intro x y hx hy hle
    exact hle _ _ (hcarries x hx) (hcarries y hy)
  · have hlog : (s.log.map TopicEntry.deliver).map index = s.log.map TopicEntry.index := by
      rw [List.map_map]
      exact List.map_congr_left hindex
    obtain ⟨l, hperm, hl⟩ := hsub
    exact ⟨l.map index, hperm.map index, hlog ▸ hl.map index⟩

theorem HandledOrders.length {indices : List ℕ} (ho : HandledOrders s indices)
    (hh : HandledInv cli s.consumer) : indices.length = s.consumer.handled.length := by
  rw [ho.spans.length_eq, hh.spans, List.length_map]

theorem HandledOrders.metrics {indices : List ℕ} (ho : HandledOrders s indices)
    (hh : HandledInv cli s.consumer) (hc : ConsumeInv cli {} s.consumer) :
    s.consumer.metrics.errors .missingValue = 0 ∧ s.consumer.metrics.errors .deserialize = 0 ∧
      s.consumer.metrics.ordersProcessed.total = indices.length ∧
      ∀ label, s.consumer.metrics.ordersProcessed.count label =
        indices.countP fun i => processedLabel (orderAt i) = label := by
  have hlength : (decodedOrders cli s.consumer.handled).length = indices.length := by
    rw [ho.decoded, List.length_map]
  have hends : s.consumer.handled.length = s.consumer.handled.countP isMissing +
      s.consumer.handled.countP (isRejected cli) +
        (decodedOrders cli s.consumer.handled).length := length_eq_ends s.consumer.handled
  rw [hlength, ho.length hh] at hends
  have hmissing := hc.metrics.missing
  have hrejected := hc.metrics.rejected
  have htotal := hc.metrics.total
  have hnone : ∀ kind, ({} : DemoMetrics).errors kind = 0 := fun kind => by cases kind <;> rfl
  have hzero : ({} : DemoMetrics).ordersProcessed.total = 0 := rfl
  rw [hnone] at hmissing hrejected
  rw [hlength, hzero] at htotal
  refine ⟨by omega, by omega, by omega, fun label => ?_⟩
  have hcount := hc.metrics.processed label
  have hzero : ({} : DemoMetrics).ordersProcessed.count label = 0 := rfl
  rw [hzero, Nat.zero_add, ho.decoded, List.countP_map] at hcount
  exact hcount

end Topic

/-- What a run of the demo comes to when the libraries do their part. -/
theorem demo_handled {E P : Type} {kafka : Kafka E} {m : ℕ+} {cli : ProcessCli}
    (hserde : kafka.RoundTrips cli.inputTopic) {events : List (DemoEvent E P)}
    (hk : (demo kafka P m cli).Meets kafka.Keeps (demo kafka P m cli).init events) :
    let s := (demo kafka P m cli).run events
    RunInv m s.producer ∧ DeliveriesInv s.producer ∧ TopicInv s ∧ HandledInv cli s.consumer ∧
      ConsumeInv cli {} s.consumer ∧ ∃ indices, HandledOrders s indices := by
  intro s
  obtain ⟨hr, hd, h⟩ := demo_topicInv hk
  have hconsumer : s.consumer =
      (runConsume E P cli {}).run (events.filterMap DemoEvent.consume?) := demo_consumer events
  have hh : HandledInv cli s.consumer := by
    rw [hconsumer]
    exact runConsume_handled cli {} _
  have hc : ConsumeInv cli {} s.consumer := by
    rw [hconsumer]
    exact runConsume_inv cli {} _
  exact ⟨hr, hd, h, hh, hc, exists_handledOrders h hr hd hh hserde⟩

end OrdersDemo
