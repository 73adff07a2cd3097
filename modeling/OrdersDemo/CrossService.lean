import OrdersDemo.TopicKeyOrder
import OrdersDemo.TraceHeaders

namespace OrdersDemo

/-- A span in the answer of the traces querier. -/
structure TraceSpan where
  name : String
  traceId : Option String
  spanId : Option String
  parentSpanId : Option String := none
  deriving DecidableEq

/-- The spans of one resource, with its attributes and their string values. -/
structure ResourceSpans where
  attributes : List (String × Option String)
  scopeSpans : List (List TraceSpan)

def serviceSpans (service name : String) (trace : List ResourceSpans) : List TraceSpan :=
  let resources := trace.filter fun r =>
    r.attributes.any fun a => a.1 = "service.name" && a.2 = some service
  (resources.flatMap fun r => r.scopeSpans.flatten).filter (·.name = name)

/-- The `jq` filter of the script. -/
def linked (trace : List ResourceSpans) : Bool :=
  let publishers := (serviceSpans "demo-produce" "orders publish" trace).map fun s =>
    (s.spanId, s.traceId)
  (serviceSpans "demo-consume" "orders process" trace).any fun consumer =>
    publishers.any fun p => p.1 = consumer.parentSpanId && p.2 = consumer.traceId

/-- `check-cross-service-trace.sh`: its exit status, for the traces that the search finds and the
answer about each of them. -/
def checkCrossServiceTrace (traceIds : List String)
    (fetch : String → Option (List ResourceSpans)) : ℕ :=
  if traceIds.any fun traceId => (fetch traceId).any linked then 0 else 1

/-- The identity of a span. Its ids are digits, which the separator of a header is not. -/
structure SpanContext where
  traceId : String
  spanId : String
  digits : '-' ∉ traceId.toList ∧ '-' ∉ spanId.toList
  deriving DecidableEq

/-- The telemetry library of both roles: the headers it injects and the parent it extracts, the
contexts of the spans of each role, and the traces that are sampled. -/
structure Telemetry where
  inject : SpanContext → List (String × String)
  extract : List (String × ByteArray) → Option SpanContext
  published : ℕ → SpanContext
  processed : ℕ → SpanContext
  sampled : String → Bool

namespace Telemetry

variable (tel : Telemetry)

/-- The context that a publishing span injects is extracted from the headers of its record, and no
two publishing spans share a trace. -/
structure Propagates : Prop where
  extracted : ∀ c order, tel.extract (continueTrace (orderHeaders (tel.inject c) order)) = some c
  roots : ∀ i j, (tel.published i).traceId = (tel.published j).traceId → i = j

/-- Each delivery is polled in its own span. -/
def Injects {E P : Type} (events : List (DemoEvent E P)) : Prop :=
  ∀ i input, .produce (.poll i input) ∈ events →
    input.traceHeaders = tel.inject (tel.published i)

def publishSpan (i : ℕ) : TraceSpan where
  name := "orders publish"
  traceId := some (tel.published i).traceId
  spanId := some (tel.published i).spanId

/-- The span of the `k`-th record that the consumer processes, a child of the remote parent. -/
def processSpan (k : ℕ) (span : ProcessSpan) : TraceSpan where
  name := "orders process"
  traceId := some ((tel.extract span.remoteParent).getD (tel.processed k)).traceId
  spanId := some (tel.processed k).spanId
  parentSpanId := (tel.extract span.remoteParent).map SpanContext.spanId

section Demo

variable {E P : Type} {kafka : Kafka E} {cli : ProcessCli}
  (s : DemoState kafka cli.inputTopic P)

/-- The publishing spans that have ended, of the sampled traces. -/
def publishSpans : List TraceSpan :=
  ((finishes s.producer.trace).map fun f => tel.publishSpan f.1).filter
    (·.traceId.any tel.sampled)

def processSpans : List TraceSpan :=
  (s.consumer.spans.mapIdx tel.processSpan).filter (·.traceId.any tel.sampled)

def Both (traceId : String) : Prop :=
  (∃ p ∈ tel.publishSpans s, p.traceId = some traceId) ∧
    ∃ c ∈ tel.processSpans s, c.traceId = some traceId

/-- The traces backend answers with the spans that the roles have exported, and its search finds a
trace with both names if there is one. -/
structure Stored (traceIds : List String) (fetch : String → Option (List ResourceSpans)) :
    Prop where
  published : ∀ traceId trace, fetch traceId = some trace → ∀ span,
    span ∈ serviceSpans "demo-produce" "orders publish" trace ↔
      span ∈ tel.publishSpans s ∧ span.traceId = some traceId
  processed : ∀ traceId trace, fetch traceId = some trace → ∀ span,
    span ∈ serviceSpans "demo-consume" "orders process" trace ↔
      span ∈ tel.processSpans s ∧ span.traceId = some traceId
  found : (∃ traceId, tel.Both s traceId) →
    ∃ traceId ∈ traceIds, tel.Both s traceId ∧ (fetch traceId).isSome

end Demo

end Telemetry

theorem linked_iff {trace : List ResourceSpans} : linked trace = true ↔
    ∃ c ∈ serviceSpans "demo-consume" "orders process" trace,
      ∃ p ∈ serviceSpans "demo-produce" "orders publish" trace,
        p.spanId = c.parentSpanId ∧ p.traceId = c.traceId := by
  simp [linked, List.any_eq_true]

theorem checkCrossServiceTrace_eq_zero {traceIds : List String}
    {fetch : String → Option (List ResourceSpans)} :
    checkCrossServiceTrace traceIds fetch = 0 ↔
      ∃ traceId ∈ traceIds, ∃ trace, fetch traceId = some trace ∧ linked trace = true := by
  unfold checkCrossServiceTrace
  simp only [ite_eq_left_iff, one_ne_zero, imp_false, not_not, List.any_eq_true, Option.any_eq_true]

section Spans

variable {E P : Type} {kafka : Kafka E} {m : ℕ+} {cli : ProcessCli} {tel : Telemetry}
  {s : DemoState kafka cli.inputTopic P}

/-- A processed record is a child of the span that published its order. -/
theorem Processed.parent (hprop : tel.Propagates)
    (hheaders : HeadersInv (fun i h => h = tel.inject (tel.published i)) s.producer) {i : ℕ}
    {span : ProcessSpan} (h : Processed kafka cli s.producer.trace i span) :
    tel.extract span.remoteParent = some (tel.published i) := by
  obtain ⟨traceHeaders, hcall, hparent, -⟩ := h.sent
  obtain ⟨_, order, rfl, hrecord⟩ := hheaders.called i _ hcall
  have hsame : span.remoteParent =
      continueTrace (orderHeaders (tel.inject (tel.published i)) order) := by
    rw [← hrecord, hparent]
    exact continueTrace_orderHeaders.symm
  rw [hsame, hprop.extracted]

theorem mem_publishSpans {span : TraceSpan} : span ∈ tel.publishSpans s ↔
    ∃ i, (∃ o, .finish i o ∈ s.producer.trace) ∧
      tel.sampled (tel.published i).traceId = true ∧ span = tel.publishSpan i := by
  unfold Telemetry.publishSpans
  rw [List.mem_filter, List.mem_map]
  constructor
  · rintro ⟨⟨⟨i, o⟩, hfinish, rfl⟩, hsampled⟩
    exact ⟨i, ⟨o, mem_finishes.mp hfinish⟩, hsampled, rfl⟩
  · rintro ⟨i, ⟨o, hfinish⟩, hsampled, rfl⟩
    exact ⟨⟨(i, o), mem_finishes.mpr hfinish, rfl⟩, hsampled⟩

theorem mem_processSpans (hprop : tel.Propagates)
    (hheaders : HeadersInv (fun i h => h = tel.inject (tel.published i)) s.producer)
    {indices : List ℕ} (ho : HandledOrders s indices) {span : TraceSpan} :
    span ∈ tel.processSpans s ↔
      ∃ i k, tel.sampled (tel.published i).traceId = true ∧
        (∃ hk : k < s.consumer.spans.length,
          Processed kafka cli s.producer.trace i s.consumer.spans[k]) ∧
        span = ⟨"orders process", some (tel.published i).traceId,
          some (tel.processed k).spanId, some (tel.published i).spanId⟩ := by
  have hspan : ∀ i k (hk : k < s.consumer.spans.length),
      Processed kafka cli s.producer.trace i s.consumer.spans[k] →
      tel.processSpan k s.consumer.spans[k] = ⟨"orders process",
        some (tel.published i).traceId, some (tel.processed k).spanId,
        some (tel.published i).spanId⟩ := by
    intro i k hk hprocessed
    unfold Telemetry.processSpan
    rw [hprocessed.parent hprop hheaders]
    rfl
  unfold Telemetry.processSpans
  rw [List.mem_filter, List.mem_mapIdx]
  constructor
  · rintro ⟨⟨k, hk, rfl⟩, hsampled⟩
    have hi : k < indices.length := ho.spans.length_eq.symm ▸ hk
    have hprocessed := ho.spans.get hi hk
    have heq := hspan indices[k] k hk hprocessed
    rw [heq] at hsampled ⊢
    exact ⟨indices[k], k, hsampled, ⟨hk, hprocessed⟩, rfl⟩
  · rintro ⟨i, k, hsampled, ⟨hk, hprocessed⟩, rfl⟩
    exact ⟨⟨k, hk, hspan i k hk hprocessed⟩, hsampled⟩

end Spans

/-- The check of the demo's traces, end to end: whatever the interleaving of the two roles, it
passes exactly if the consumer has processed a record of a sampled order whose delivery has ended,
so that a trace links the span of the one service to the span of the other. -/
theorem cross_service {E P : Type} (kafka : Kafka E) (m : ℕ+) (cli : ProcessCli)
    (hserde : kafka.RoundTrips cli.inputTopic) (events : List (DemoEvent E P))
    (hk : (demo kafka P m cli).Meets kafka.Keeps (demo kafka P m cli).init events)
    (tel : Telemetry) (hprop : tel.Propagates) (hinject : tel.Injects events)
    (traceIds : List String) (fetch : String → Option (List ResourceSpans))
    (hstored : tel.Stored ((demo kafka P m cli).run events) traceIds fetch) :
    let s := (demo kafka P m cli).run events
    checkCrossServiceTrace traceIds fetch = 0 ↔
      ∃ i, tel.sampled (tel.published i).traceId = true ∧
        (∃ o, .finish i o ∈ s.producer.trace) ∧
        ∃ span ∈ s.consumer.spans, Processed kafka cli s.producer.trace i span := by
  intro s
  obtain ⟨-, -, -, -, -, indices, ho⟩ := demo_handled hserde hk
  have hheaders : HeadersInv (fun i h => h = tel.inject (tel.published i)) s.producer :=
    demo_headers hinject
  rw [checkCrossServiceTrace_eq_zero]
  constructor
  · rintro ⟨traceId, -, trace, hfetch, hlinked⟩
    obtain ⟨c, hc, p, hp, -, htrace⟩ := linked_iff.mp hlinked
    obtain ⟨hc, -⟩ := (hstored.processed traceId trace hfetch c).mp hc
    obtain ⟨hp, -⟩ := (hstored.published traceId trace hfetch p).mp hp
    obtain ⟨i, k, hsampled, ⟨hk, hprocessed⟩, rfl⟩ := (mem_processSpans hprop hheaders ho).mp hc
    obtain ⟨j, hfinish, -, rfl⟩ := mem_publishSpans.mp hp
    obtain rfl := hprop.roots j i (Option.some.inj htrace)
    exact ⟨j, hsampled, hfinish, _, List.getElem_mem hk, hprocessed⟩
  · rintro ⟨i, hsampled, hfinish, span, hspan, hprocessed⟩
    obtain ⟨k, hk, rfl⟩ := List.getElem_of_mem hspan
    have hboth : tel.Both s (tel.published i).traceId :=
      ⟨⟨_, mem_publishSpans.mpr ⟨i, hfinish, hsampled, rfl⟩, rfl⟩,
        ⟨_, (mem_processSpans hprop hheaders ho).mpr ⟨i, k, hsampled, ⟨hk, hprocessed⟩, rfl⟩,
          rfl⟩⟩
    obtain ⟨traceId, hfound, ⟨⟨p, hp, hptrace⟩, c, hc, hctrace⟩, hsome⟩ :=
      hstored.found ⟨_, hboth⟩
    obtain ⟨trace, hfetch⟩ := Option.isSome_iff_exists.mp hsome
    refine ⟨traceId, hfound, trace, hfetch, linked_iff.mpr ?_⟩
    refine ⟨c, (hstored.processed traceId trace hfetch c).mpr ⟨hc, hctrace⟩, p,
      (hstored.published traceId trace hfetch p).mpr ⟨hp, hptrace⟩, ?_, hptrace.trans hctrace.symm⟩
    obtain ⟨j, -, -, rfl⟩ := mem_publishSpans.mp hp
    obtain ⟨i', k', -, -, rfl⟩ := (mem_processSpans hprop hheaders ho).mp hc
    obtain rfl := hprop.roots j i' (Option.some.inj (hptrace.trans hctrace.symm))
    rfl

section Traced

/-- The `traceparent` header of W3C. -/
def traceparent (c : SpanContext) : String :=
  "00-" ++ c.traceId ++ "-" ++ c.spanId ++ "-01"

def parseTraceparent (text : String) : Option SpanContext :=
  match text.toList.splitOn '-' with
  | [_, traceId, spanId, _] =>
    if h : '-' ∉ traceId ∧ '-' ∉ spanId then
      some ⟨String.ofList traceId, String.ofList spanId, by simpa using h⟩
    else none
  | _ => none

theorem parseTraceparent_traceparent (c : SpanContext) :
    parseTraceparent (traceparent c) = some c := by
  obtain ⟨htrace, hspan⟩ := c.digits
  have hparts : (traceparent c).toList = ['-'].intercalate
      [['0', '0'], c.traceId.toList, c.spanId.toList, ['0', '1']] := by
    simp [traceparent, List.intercalate]
  have hsplit : (['-'].intercalate [['0', '0'], c.traceId.toList, c.spanId.toList,
      ['0', '1']]).splitOn '-' = [['0', '0'], c.traceId.toList, c.spanId.toList, ['0', '1']] :=
    List.splitOn_intercalate '-' (by simp [htrace, hspan]) (by simp)
  unfold parseTraceparent
  rw [hparts, hsplit]
  simp [htrace, hspan]

theorem dash_not_mem_zeroPad (width n : ℕ) : '-' ∉ (zeroPad width (toString n)).toList := by
  rw [toList_zeroPad, Nat.toString_eq_repr, Nat.toList_repr]
  intro h
  rcases List.mem_append.mp h with h | h
  · exact absurd (List.eq_of_mem_replicate h) (by decide)
  · exact absurd (Nat.isDigit_of_mem_toDigits (by decide) (by decide) h) (by decide)

def numberedContext (n : ℕ) : SpanContext where
  traceId := zeroPad 32 (toString n)
  spanId := zeroPad 16 (toString n)
  digits := ⟨dash_not_mem_zeroPad 32 n, dash_not_mem_zeroPad 16 n⟩

/-- Every trace is sampled. -/
def w3cTelemetry : Telemetry where
  inject c := [("traceparent", traceparent c)]
  extract headers := do
    let header ← headers.find? (·.1 = "traceparent")
    parseTraceparent (← String.fromUTF8? header.2)
  published := numberedContext
  processed k := numberedContext (k + 1000)
  sampled _ := true

theorem w3cTelemetry_propagates : w3cTelemetry.Propagates where
  extracted := by
    intro c order
    rw [continueTrace_orderHeaders]
    have hread : String.fromUTF8? (traceparent c).toByteArray = some (traceparent c) :=
      fromUTF8?_eq_some.mpr rfl
    simp [w3cTelemetry, hread, parseTraceparent_traceparent]
  roots := by
    intro i j h
    have hdigits := congrArg (fun id : String => Nat.ofDigitChars 10 id.toList 0) h
    simpa only [w3cTelemetry, numberedContext, ofDigitChars_zeroPad] using hdigits

def tracedHeaders : List (String × String) :=
  w3cTelemetry.inject (w3cTelemetry.published 0)

def tracedRecord : TopicEntry :=
  ⟨0, 0, 0, publishRecord ((orderAt 0).stamp 0) "orders"
    (orderValue orderIdKafka.serialize "orders" 0) tracedHeaders⟩

/-- One order is published, delivered and processed. -/
def tracedEvents : List (DemoEvent Unit Unit) :=
  [.produce tickOnly, .produce (.poll 0 { traceHeaders := tracedHeaders }),
    .produce (.poll 0 { traceHeaders := tracedHeaders }), .append 0 tracedRecord.record,
    .produce (.poll 0 { traceHeaders := tracedHeaders, result := some true }),
    .produce (.poll 0 { traceHeaders := tracedHeaders }),
    .consume (.wake true (some (.ok [tracedRecord.deliver]))), .consume (.process orderIdEnv)]

abbrev traced (n : ℕ) : DemoState orderIdKafka idleCli.inputTopic Unit :=
  orderIdDemo.run (tracedEvents.take n)

theorem tracedEvents_keeps :
    orderIdDemo.Meets orderIdKafka.Keeps orderIdDemo.init tracedEvents := by
  have hcalls : (traced 3).log.countP (·.index = 0) < callsOf 0 (traced 3).producer.trace := by
    decide +kernel
  have hlog : (traced 4).log = [tracedRecord] ∧ (traced 6).log = [tracedRecord] := by
    decide +kernel
  have hpolled : (traced 6).consumer.polled = [] := by decide +kernel
  refine ⟨trivial, nofun, nofun, hcalls, fun _ _ _ => ?_, nofun, ?_, rfl, trivial⟩
  · refine ⟨tracedRecord, ?_, rfl⟩
    change tracedRecord ∈ (traced 4).log
    rw [hlog.1]
    exact List.mem_cons_self
  · change orderIdKafka.Reads (traced 6).log ((traced 6).consumer.polled ++
      [tracedRecord.deliver])
    rw [hlog.2, hpolled]
    intro p
    by_cases hp : 0 = p
    · simp [tracedRecord, TopicEntry.deliver, orderIdKafka, hp]
    · simp [tracedRecord, TopicEntry.deliver, hp]

def tracedAnswer : List ResourceSpans :=
  [⟨[("service.name", some "demo-produce")], [w3cTelemetry.publishSpans (traced 8)]⟩,
    ⟨[("service.name", some "demo-consume")], [w3cTelemetry.processSpans (traced 8)]⟩]

def tracedFetch (traceId : String) : Option (List ResourceSpans) :=
  if traceId = (w3cTelemetry.published 0).traceId then some tracedAnswer else none

theorem tracedFetch_stored : w3cTelemetry.Stored (traced 8)
    [(w3cTelemetry.published 0).traceId] tracedFetch := by
  have hspans : ∀ span ∈ w3cTelemetry.publishSpans (traced 8) ++
      w3cTelemetry.processSpans (traced 8),
      span.traceId = some (w3cTelemetry.published 0).traceId := by
    decide +kernel
  have hpublished : serviceSpans "demo-produce" "orders publish" tracedAnswer =
      w3cTelemetry.publishSpans (traced 8) := by
    decide +kernel
  have hprocessed : serviceSpans "demo-consume" "orders process" tracedAnswer =
      w3cTelemetry.processSpans (traced 8) := by
    decide +kernel
  have hfetched : ∀ traceId trace, tracedFetch traceId = some trace →
      traceId = (w3cTelemetry.published 0).traceId ∧ trace = tracedAnswer := by
    intro traceId trace hfetch
    unfold tracedFetch at hfetch
    split at hfetch
    next htrace => exact ⟨htrace, (Option.some.inj hfetch).symm⟩
    next => cases hfetch
  refine ⟨?_, ?_, ?_⟩
  · intro traceId trace hfetch span
    obtain ⟨rfl, rfl⟩ := hfetched traceId trace hfetch
    rw [hpublished]
    exact (and_iff_left_of_imp fun h => hspans span (List.mem_append_left _ h)).symm
  · intro traceId trace hfetch span
    obtain ⟨rfl, rfl⟩ := hfetched traceId trace hfetch
    rw [hprocessed]
    exact (and_iff_left_of_imp fun h => hspans span (List.mem_append_right _ h)).symm
  · rintro ⟨traceId, hboth⟩
    obtain ⟨⟨p, hp, hptrace⟩, -⟩ := id hboth
    have htrace := hptrace.symm.trans (hspans p (List.mem_append_left _ hp))
    obtain rfl := Option.some.inj htrace
    exact ⟨_, List.mem_cons_self, hboth, by simp [tracedFetch]⟩

theorem cross_service_traced :
    checkCrossServiceTrace [(w3cTelemetry.published 0).traceId] tracedFetch = 0 := by
  have hinject : w3cTelemetry.Injects tracedEvents := by
    intro i input h
    simp only [tracedEvents, tickOnly, List.mem_cons, List.not_mem_nil, or_false,
      DemoEvent.produce.injEq, SendEvent.poll.injEq, reduceCtorEq, false_or] at h
    rcases h with ⟨rfl, rfl⟩ | ⟨rfl, rfl⟩ | ⟨rfl, rfl⟩ | ⟨rfl, rfl⟩ <;> rfl
  have hlaw := cross_service orderIdKafka 5 idleCli (orderIdKafka_roundTrips _) tracedEvents
    tracedEvents_keeps w3cTelemetry w3cTelemetry_propagates hinject _ _ tracedFetch_stored
  obtain ⟨indices, ho⟩ := (demo_handled (orderIdKafka_roundTrips _) tracedEvents_keeps).2.2.2.2.2
  have hfinish : (0, .returned true) ∈ finishes (traced 8).producer.trace := by decide +kernel
  have hlength : (traced 8).consumer.spans.length = 1 := by decide +kernel
  have hlog : (traced 8).log.map TopicEntry.index = [0] := by decide +kernel
  have hspan : 0 < (traced 8).consumer.spans.length := by omega
  have hindex : 0 < indices.length := ho.spans.length_eq ▸ hspan
  have hzero : indices.get ⟨0, hindex⟩ = 0 := by
    have hmem := ho.subperm.subset (List.get_mem indices ⟨0, hindex⟩)
    change indices.get ⟨0, hindex⟩ ∈ (traced 8).log.map TopicEntry.index at hmem
    rw [hlog] at hmem
    exact List.mem_singleton.mp hmem
  have hprocessed := ho.spans.get hindex hspan
  rw [hzero] at hprocessed
  exact hlaw.mpr ⟨0, rfl, ⟨_, mem_finishes.mp hfinish⟩, _, List.get_mem _ ⟨0, hspan⟩, hprocessed⟩

end Traced

end OrdersDemo
