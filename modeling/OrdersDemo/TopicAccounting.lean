import Mathlib.Algebra.Order.BigOperators.Group.List
import OrdersDemo.PublishTotals
import OrdersDemo.TopicKeyOrder

namespace OrdersDemo

def acknowledgedIndex (f : ℕ × Outcome) : Option ℕ :=
  if f.2 = .returned true then some f.1 else none

def acknowledgedIndices (t : List (SendAct PublishEffect)) : List ℕ :=
  (finishes t).filterMap acknowledgedIndex

theorem mem_acknowledgedIndices {t : List (SendAct PublishEffect)} {i : ℕ} :
    i ∈ acknowledgedIndices t ↔ .finish i (.returned true) ∈ t := by
  rw [acknowledgedIndices, List.mem_filterMap]
  constructor
  · rintro ⟨⟨j, o⟩, hmem, hj⟩
    by_cases ho : o = .returned true
    · obtain rfl : j = i := by simpa [acknowledgedIndex, ho] using hj
      exact mem_finishes.mp (ho ▸ hmem)
    · simp [acknowledgedIndex, ho] at hj
  · intro h
    exact ⟨(i, .returned true), mem_finishes.mpr h, by simp [acknowledgedIndex]⟩

theorem acknowledgedOrders_eq (t : List (SendAct PublishEffect)) :
    acknowledgedOrders t = (acknowledgedIndices t).map orderAt := by
  rw [acknowledgedOrders, acknowledgedIndices, List.map_filterMap]
  refine List.filterMap_congr fun f _ => ?_
  by_cases h : f.2 = .returned true <;> simp [acknowledgement, acknowledgedIndex, h]

section Producer

variable {serialize : String → Order → ByteArray} {topic : String} {m : ℕ+}
  {s : SendState (publishSender serialize topic)}

theorem acknowledgedIndices_nodup (hr : RunInv m s) : (acknowledgedIndices s.trace).Nodup := by
  have hsub : ∀ l : List (ℕ × Outcome),
      (l.filterMap acknowledgedIndex).Sublist (l.map Prod.fst) := by
    intro l
    induction l with
    | nil => exact .slnil
    | cons f l ih =>
      by_cases h : f.2 = .returned true
      · simpa [acknowledgedIndex, h] using ih
      · simpa [acknowledgedIndex, h] using ih.cons f.1
  exact (hsub _).nodup hr.finishes_nodup

theorem result_of_finish (hr : RunInv m s) (hd : DeliveriesInv s) {i : ℕ}
    (hf : .finish i (.returned true) ∈ s.trace) :
    ∃ record, .effect i (.result record true) ∈ s.trace := by
  rcases (hd.finished hr hf).published with ⟨_, h | h⟩ | ⟨traceHeaders, attempts, ha, he⟩
  · cases h
  · cases h
  · rcases ha.returned with ⟨_, k, _, rfl⟩ | ⟨h, _⟩
    · have hlast := getLast?_attempts ((orderAt i).stamp i) (publishRecord ((orderAt i).stamp i)
        topic (orderValue serialize topic i) traceHeaders) (List.replicate k (some false)) true
      rw [← he] at hlast
      exact ⟨_, mem_effectsOf.mp (List.mem_of_getLast? hlast)⟩
    · cases h

theorem calls_eq_sum (hr : RunInv m s) :
    calls s.trace = ((List.range s.index).map fun i => callsOf i s.trace).sum := by
  have hlt : ∀ x ∈ effects s.trace, x.1 < s.index := fun x hx =>
    hr.send.index_lt (mem_effects.mp hx)
  rw [calls, History.countP_eq_sum_fibres _ hlt]
  refine congrArg List.sum (List.map_congr_left fun i _ => ?_)
  rw [callsOf, effectsOf, List.countP_map]
  rfl

theorem ordersProduced_total {metrics : DemoMetrics} {t : List (SendAct PublishEffect)}
    (hm : ProducerMetrics metrics t) :
    metrics.ordersProduced.total = (acknowledgedIndices t).length := by
  rw [hm.total, acknowledgedOrders_eq, List.length_map]

/-- A producer that has returned has counted each call of `send`, as produced or as failed. -/
theorem calls_of_returned {metrics : DemoMetrics} {report : SendReport} (hr : RunInv m s)
    (hd : DeliveriesInv s) (hm : ProducerMetrics metrics s.trace)
    (hphase : s.phase = .returned (.ok report)) :
    calls s.trace = metrics.ordersProduced.total + metrics.errors .producerSend := by
  obtain ⟨hcalls, -, -⟩ := returned_attempts hr hd hphase
  obtain ⟨-, -, -, hreport⟩ := hr.returned hphase
  have hack : report.acknowledged = metrics.ordersProduced.total := by
    rw [(hreport report rfl).1, hm.total, length_acknowledgedOrders]
  have herrors : metrics.errors .producerSend = failures s.trace := hm.errors .producerSend
  omega

end Producer

section Topic

variable {E P : Type} {kafka : Kafka E} {m : ℕ+} {cli : ProcessCli}
  {s : DemoState kafka cli.inputTopic P}

theorem TopicInv.length_le (h : TopicInv s) (hr : RunInv m s.producer) :
    s.log.length ≤ calls s.producer.trace := by
  have hlt : ∀ e ∈ s.log, e.index < s.producer.index := fun e he =>
    hr.send.index_lt (h.called e he)
  have hsum := History.countP_eq_sum_fibres (f := TopicEntry.index) (fun _ => true) hlt
  rw [List.countP_true] at hsum
  rw [calls_eq_sum hr, hsum]
  refine List.sum_le_sum fun i _ => ?_
  rw [← List.countP_eq_length_filter]
  exact h.once i

theorem TopicInv.acknowledged_subperm (h : TopicInv s) (hr : RunInv m s.producer)
    (hd : DeliveriesInv s.producer) :
    (acknowledgedIndices s.producer.trace).Subperm (s.log.map TopicEntry.index) := by
  refine List.subperm_of_subset (acknowledgedIndices_nodup hr) fun i hi => ?_
  obtain ⟨record, hresult⟩ := result_of_finish hr hd (mem_acknowledgedIndices.mp hi)
  obtain ⟨e, he, rfl⟩ := h.acknowledged i record hresult
  exact List.mem_map_of_mem he

/-- A consumer that has handled as many records as there are has handled those. -/
theorem HandledOrders.perm {indices : List ℕ} (ho : HandledOrders s indices)
    (hh : HandledInv cli s.consumer) (hall : s.consumer.handled.length = s.log.length) :
    indices.Perm (s.log.map TopicEntry.index) := by
  refine ho.subperm.perm_of_length_le ?_
  rw [List.length_map, ho.length hh, hall]

theorem demo_producerMetrics (events : List (DemoEvent E P)) :
    let s := (demo kafka P m cli).run events
    ProducerMetrics s.producer.world s.producer.trace := by
  intro s
  have hproducer : s.producer = (sendOrders (publishSender kafka.serialize cli.inputTopic) m
    ({} : DemoMetrics)).run (events.filterMap DemoEvent.produce?) := demo_producer events
  rw [hproducer]
  exact publish_metrics m (events.filterMap DemoEvent.produce?)

end Topic

/-- What the two roles count, end to end: the consumer never counts more orders than there were
calls of `send`; and once it has handled the whole topic it has processed every acknowledged order,
so that the two totals differ by the failed attempts at most, and not at all when none failed. -/
theorem demo_accounting {E P : Type} (kafka : Kafka E) (m : ℕ+) (cli : ProcessCli)
    (hserde : kafka.RoundTrips cli.inputTopic) (events : List (DemoEvent E P))
    (hk : (demo kafka P m cli).Meets kafka.Keeps (demo kafka P m cli).init events) :
    let s := (demo kafka P m cli).run events
    let producer : DemoMetrics := s.producer.world
    let consumer : DemoMetrics := s.consumer.metrics
    consumer.ordersProcessed.total ≤ calls s.producer.trace ∧
    (s.consumer.handled.length = s.log.length →
      (∀ i, .finish i (.returned true) ∈ s.producer.trace →
        ∃ span ∈ s.consumer.spans, Processed kafka cli s.producer.trace i span) ∧
      (∀ label, (acknowledgedOrders s.producer.trace).countP (processedLabel · = label) ≤
        consumer.ordersProcessed.count label) ∧
      producer.ordersProduced.total ≤ consumer.ordersProcessed.total ∧
      ∀ report, s.producer.phase = .returned (.ok report) →
        consumer.ordersProcessed.total ≤
          producer.ordersProduced.total + producer.errors .producerSend ∧
        (producer.errors .producerSend = 0 →
          ∀ label, consumer.ordersProcessed.count label =
            (acknowledgedOrders s.producer.trace).countP (processedLabel · = label))) := by
  intro s producer consumer
  obtain ⟨hr, hd, h, hh, hc, indices, ho⟩ := demo_handled hserde hk
  obtain ⟨-, -, htotal, hprocessed⟩ := ho.metrics hh hc
  change consumer.ordersProcessed.total = indices.length at htotal
  have hm : ProducerMetrics producer s.producer.trace := demo_producerMetrics events
  have hlength : s.log.length ≤ calls s.producer.trace := h.length_le hr
  have hsub : indices.length ≤ s.log.length := by
    have hle : indices.length ≤ (s.log.map TopicEntry.index).length := ho.subperm.length_le
    rwa [List.length_map] at hle
  refine ⟨by omega, fun hall => ?_⟩
  have hperm := ho.perm hh hall
  have hacked : (acknowledgedIndices s.producer.trace).Subperm indices :=
    (h.acknowledged_subperm hr hd).trans hperm.symm.subperm
  have hcount : ∀ label, (acknowledgedOrders s.producer.trace).countP (processedLabel · = label) =
      (acknowledgedIndices s.producer.trace).countP
        fun i => processedLabel (orderAt i) = label := by
    intro label
    rw [acknowledgedOrders_eq, List.countP_map]
    rfl
  have hproduced := ordersProduced_total hm
  have hacked_length := hacked.length_le
  refine ⟨fun i hi => ?_, fun label => ?_, by omega, fun report hphase => ?_⟩
  · obtain ⟨n, rfl⟩ := List.get_of_mem (hacked.subset (mem_acknowledgedIndices.mpr hi))
    have hn : n < s.consumer.spans.length := ho.spans.length_eq ▸ n.isLt
    exact ⟨_, List.get_mem s.consumer.spans ⟨n, hn⟩, ho.spans.get n.isLt hn⟩
  · rw [hcount, hprocessed]
    exact hacked.countP_le _
  · have hcalls : calls s.producer.trace =
        producer.ordersProduced.total + producer.errors .producerSend :=
      calls_of_returned hr hd hm hphase
    refine ⟨by omega, fun hnone label => ?_⟩
    have hsame := hacked.perm_of_length_le (by omega)
    rw [hcount, hprocessed, hsame.countP_eq]

section Late

/-- The first attempt has failed when its record lands, and the second one succeeds. -/
def lateEvents : List (DemoEvent Unit Unit) :=
  [.produce tickOnly, .produce (.poll 0 (orderIdPoll none)), .produce (.poll 0 (orderIdPoll none)),
    .produce (.poll 0 (orderIdPoll (some false))), .append 0 (orderIdRecord 0),
    .produce (.poll 0 (orderIdPoll none)), .append 0 (orderIdRecord 0),
    .produce (.poll 0 (orderIdPoll (some true))), .produce (.poll 0 (orderIdPoll none)),
    .produce (.wake { shutdown := true }), .produce (.wake { join := some 0 }),
    .produce (.wake {}),
    .consume (.wake true (some (.ok [(orderIdEntry 0 0).deliver, (orderIdEntry 0 1).deliver]))),
    .consume (.process orderIdEnv), .consume (.process orderIdEnv)]

abbrev late (n : ℕ) : DemoState orderIdKafka idleCli.inputTopic Unit :=
  orderIdDemo.run (lateEvents.take n)

theorem late_log : (late 7).log = [orderIdEntry 0 0, orderIdEntry 0 1] ∧
    (late 12).log = [orderIdEntry 0 0, orderIdEntry 0 1] := by
  decide +kernel

theorem late_calls :
    (late 4).log.countP (·.index = 0) < callsOf 0 (late 4).producer.trace ∧
      (late 6).log.countP (·.index = 0) < callsOf 0 (late 6).producer.trace := by
  decide +kernel

theorem lateEvents_keeps :
    orderIdDemo.Meets orderIdKafka.Keeps orderIdDemo.init lateEvents := by
  refine ⟨trivial, nofun, nofun, nofun, late_calls.1, nofun, late_calls.2, fun _ _ _ => ?_, nofun,
    trivial, trivial, trivial, ?_, rfl, rfl, trivial⟩
  · refine ⟨orderIdEntry 0 0, ?_, rfl⟩
    change orderIdEntry 0 0 ∈ (late 7).log
    rw [late_log.1]
    exact List.mem_cons_self
  · have hpolled : (late 12).consumer.polled = [] := by decide +kernel
    change orderIdKafka.Reads (late 12).log ((late 12).consumer.polled ++ _)
    rw [late_log.2, hpolled]
    exact orderIdKafka_reads [orderIdEntry 0 0, orderIdEntry 0 1]

theorem demo_accounting_late :
    (late 15).consumer.metrics.ordersProcessed.total ≤
        ((late 15).producer.world : DemoMetrics).ordersProduced.total +
          ((late 15).producer.world : DemoMetrics).errors .producerSend ∧
      ∃ span ∈ (late 15).consumer.spans,
        Processed orderIdKafka idleCli (late 15).producer.trace 0 span := by
  obtain ⟨-, hall⟩ := demo_accounting orderIdKafka 5 idleCli (orderIdKafka_roundTrips _)
    lateEvents lateEvents_keeps
  have hhandled : (late 15).consumer.handled.length = (late 15).log.length := by
    decide +kernel
  have hfinish : (0, .returned true) ∈ finishes (late 15).producer.trace := by decide +kernel
  have hphase : (late 15).producer.phase = .returned (.ok { acknowledged := 1 }) := by
    rw [show (late 15).producer = _ from demo_producer lateEvents]
    rfl
  obtain ⟨hprocessed, -, -, hreturned⟩ := hall hhandled
  exact ⟨(hreturned { acknowledged := 1 } hphase).1, hprocessed 0 (mem_finishes.mp hfinish)⟩

end Late

end OrdersDemo
