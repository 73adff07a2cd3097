import OrdersDemo.RuntimeFields

namespace OrdersDemo

open Checked

namespace ReadableSetting

variable {Input : Type} {setting : ReadableSetting Input}

theorem exists_yields {default : Input} (hdefault : ∃ v, setting.new default = .ok v)
    {value : Option Input} :
    (∃ field, setting.Yields (value.getD default) field) ↔ setting.Accepts value := by
  unfold Yields Setting.Accepts
  cases value with
  | none => simpa using hdefault
  | some v => simp

theorem Yields.unique {value field field' : Input} (h : setting.Yields value field)
    (h' : setting.Yields value field') : field = field' := by
  obtain ⟨v, hnew, rfl⟩ := h
  obtain ⟨v', hnew', rfl⟩ := h'
  have hv : v = v' := Except.ok.inj (hnew.symm.trans hnew')
  rw [hv]

theorem Stable.accepts_parsed (hstable : setting.Stable) {value parsed : Input}
    (h : setting.parse value = .ok parsed) : ∃ v, setting.new parsed = .ok v := by
  unfold parse at h
  cases hnew : setting.new value with
  | error e => simp [hnew, Except.map] at h
  | ok v =>
    have hparsed : setting.get v = parsed := by simpa [hnew, Except.map] using h
    exact ⟨v, hparsed ▸ hstable value v hnew⟩

end ReadableSetting

namespace Cli

variable {K : Krabka} (cli : Cli K)

structure StreamsAccepted : Prop where
  brokerDnsTimeout : K.clientDnsTimeout.Accepts cli.streamsBrokerDnsTimeout
  pollInterval : K.streamsPollInterval.Accepts (cli.streamsPollInterval.map K.toStd)
  commitInterval : K.streamsCommitInterval.Accepts (cli.streamsCommitInterval.map K.toStd)
  rebalanceTimeout : K.streamsRebalanceTimeout.Accepts (cli.streamsRebalanceTimeout.map K.toStd)
  leaveHeartbeatTimeout : K.streamsLeaveHeartbeatTimeout.Accepts
    (cli.streamsLeaveHeartbeatTimeout.map K.toStd)
  joinRetryBackoff : K.streamsJoinRetryBackoff.Accepts (cli.streamsJoinRetryBackoff.map K.toStd)
  queryQueueCapacity : K.streamsInteractiveQueryQueueCapacity.Accepts
    (cli.streamsInteractiveQueryQueueCapacity.map PNat.val)
  stateStoreCacheMaxBytes : K.streamsStateStoreCacheMaxBytes.Accepts cli.streamsStateStoreCacheMax
  fetchMin : K.fetchMinBytes.Accepts cli.streamsFetchMin

structure ConsumerAccepted : Prop where
  leaveGroupTimeout : K.consumerLeaveGroupTimeout.Accepts
    (cli.consumerLeaveGroupTimeout.map K.toStd)
  metadataRefreshInterval : K.consumerSubscriptionMetadataRefreshInterval.Accepts
    (cli.consumerSubscriptionMetadataRefreshInterval.map K.toStd)
  retryPolicy : ∃ policy, K.consumerRetryPolicy.new cli.retryTimes = .ok policy
  fetchMin : K.fetchMinBytes.Accepts cli.consumerFetchMin
  fetchMax : K.consumerFetchMaxBytes.Accepts cli.consumerFetchMax
  fetchPartitionMax : K.consumerFetchPartitionMaxBytes.Accepts cli.consumerFetchPartitionMax
  fetchMinWithinMax : ∀ min max,
    K.fetchMinBytes.Yields (cli.consumerFetchMin.getD (K.bytes 1)) min →
    K.consumerFetchMaxBytes.Yields (cli.consumerFetchMax.getD (K.mebibytes 50)) max →
    K.bytesI32 min ≤ K.bytesI32 max

/-- Every value that is set, and the two combined retry policies, pass their constructors, and the
consumer's fetch minimum is within its maximum. -/
structure Accepted : Prop where
  schema : ∃ policy, K.schemaFetchRetryPolicy.new
    (cli.schemaFetchRetryInitialBackoff.getD (K.initialBackoff K.schemaFetchRetryPolicy.default),
      cli.schemaFetchRetryMaxBackoff.getD (K.maxBackoff K.schemaFetchRetryPolicy.default)) =
    .ok policy
  streams : cli.StreamsAccepted
  consumer : cli.ConsumerAccepted

structure ValidatedFrom (validated : Validated K) : Prop where
  resources : cli.ResourcesFrom validated.clientDispatchQueueCapacity validated.clientFrameMax
  schema : cli.SchemaPolicyFrom validated.schemaFetchRetryPolicy
  streamRuntime : cli.StreamRuntimeFrom validated.streamRuntime
  consumerRuntime : cli.ConsumerRuntimeFrom validated.consumerRuntime

variable {cli}

theorem Parsed.exists_resources (hK : K.Documented) (hp : cli.Parsed) :
    ∃ capacity frameMax, cli.ResourcesFrom capacity frameMax := by
  obtain ⟨_, hcapacity⟩ := hp.clientDispatchQueueCapacity
  obtain ⟨_, hframeMax⟩ := hp.clientFrameMax
  obtain ⟨capacity, hc⟩ := hK.dispatchQueueCapacity.accepts_parsed hcapacity
  obtain ⟨frameMax, hf⟩ := hK.frameMax.accepts_parsed hframeMax
  exact ⟨capacity, frameMax, hc, hf⟩

theorem exists_schemaPolicyFrom (hK : K.Documented) (h : cli.Accepted) :
    ∃ policy, cli.SchemaPolicyFrom policy := by
  obtain ⟨policy, hpolicy⟩ := h.schema
  have hback := hK.backoffs_new hpolicy
  exact ⟨policy, hpolicy, hback.1, hback.2⟩

theorem StreamRuntimeFrom.accepted {runtime : StreamRuntime K}
    (h : cli.StreamRuntimeFrom runtime) : cli.StreamsAccepted where
  brokerDnsTimeout := Setting.exists_yields.mp ⟨_, h.brokerDnsTimeout⟩
  pollInterval := Setting.exists_yields.mp ⟨_, h.pollInterval⟩
  commitInterval := Setting.exists_yields.mp ⟨_, h.commitInterval⟩
  rebalanceTimeout := Setting.exists_yields.mp ⟨_, h.rebalanceTimeout⟩
  leaveHeartbeatTimeout := Setting.exists_yields.mp ⟨_, h.leaveHeartbeatTimeout⟩
  joinRetryBackoff := Setting.exists_yields.mp ⟨_, h.joinRetryBackoff⟩
  queryQueueCapacity := Setting.exists_yields.mp ⟨_, h.queryQueueCapacity⟩
  stateStoreCacheMaxBytes := Setting.exists_yields.mp ⟨_, h.stateStoreCacheMaxBytes⟩
  fetchMin := Setting.exists_yields.mp ⟨_, h.fetchMin⟩

theorem ConsumerRuntimeFrom.accepted (hK : K.Documented) {runtime : ConsumerRuntime K}
    (h : cli.ConsumerRuntimeFrom runtime)
    (hle : K.bytesI32 runtime.fetchMin ≤ K.bytesI32 runtime.fetchMax) : cli.ConsumerAccepted where
  leaveGroupTimeout := Setting.exists_yields.mp ⟨_, h.leaveGroupTimeout⟩
  metadataRefreshInterval := Setting.exists_yields.mp ⟨_, h.metadataRefreshInterval⟩
  retryPolicy := ⟨_, h.retryPolicy_accepted⟩
  fetchMin := (ReadableSetting.exists_yields hK.fetchMinDefault).mp ⟨_, h.fetchMin⟩
  fetchMax := (ReadableSetting.exists_yields hK.fetchMaxDefault).mp ⟨_, h.fetchMax⟩
  fetchPartitionMax :=
    (ReadableSetting.exists_yields hK.fetchPartitionMaxDefault).mp ⟨_, h.fetchPartitionMax⟩
  fetchMinWithinMax := by
    intro min max hmin hmax
    rw [hmin.unique h.fetchMin, hmax.unique h.fetchMax]
    exact hle

theorem exists_streamRuntimeFrom (hK : K.Documented) (hp : cli.Parsed) (h : cli.Accepted) :
    ∃ runtime, cli.StreamRuntimeFrom runtime := by
  obtain ⟨capacity, frameMax, hresources⟩ := hp.exists_resources hK
  obtain ⟨schema, hschema⟩ := exists_schemaPolicyFrom hK h
  obtain ⟨dns, hdns⟩ := Setting.exists_yields.mpr h.streams.brokerDnsTimeout
  obtain ⟨poll, hpoll⟩ := Setting.exists_yields.mpr h.streams.pollInterval
  obtain ⟨commit, hcommit⟩ := Setting.exists_yields.mpr h.streams.commitInterval
  obtain ⟨rebalance, hrebalance⟩ := Setting.exists_yields.mpr h.streams.rebalanceTimeout
  obtain ⟨leave, hleave⟩ := Setting.exists_yields.mpr h.streams.leaveHeartbeatTimeout
  obtain ⟨join, hjoin⟩ := Setting.exists_yields.mpr h.streams.joinRetryBackoff
  obtain ⟨queue, hqueue⟩ := Setting.exists_yields.mpr h.streams.queryQueueCapacity
  obtain ⟨cache, hcache⟩ := Setting.exists_yields.mpr h.streams.stateStoreCacheMaxBytes
  obtain ⟨fetchMin, hfetch⟩ := Setting.exists_yields.mpr h.streams.fetchMin
  exact ⟨⟨schema, dns, poll, commit, rebalance, leave, join, queue, cache, capacity, frameMax,
    fetchMin⟩, hresources, hschema, hdns, hpoll, hcommit, hrebalance, hleave, hjoin, hqueue,
    hcache, hfetch⟩

theorem exists_consumerRuntimeFrom (hK : K.Documented) (hp : cli.Parsed) (h : cli.Accepted) :
    ∃ runtime, K.bytesI32 runtime.fetchMin ≤ K.bytesI32 runtime.fetchMax ∧
      cli.ConsumerRuntimeFrom runtime := by
  obtain ⟨capacity, frameMax, hresources⟩ := hp.exists_resources hK
  obtain ⟨schema, hschema⟩ := exists_schemaPolicyFrom hK h
  obtain ⟨leave, hleave⟩ := Setting.exists_yields.mpr h.consumer.leaveGroupTimeout
  obtain ⟨metadata, hmetadata⟩ := Setting.exists_yields.mpr h.consumer.metadataRefreshInterval
  obtain ⟨retry, hretry⟩ := h.consumer.retryPolicy
  obtain ⟨min, hmin⟩ := (ReadableSetting.exists_yields hK.fetchMinDefault).mpr h.consumer.fetchMin
  obtain ⟨max, hmax⟩ := (ReadableSetting.exists_yields hK.fetchMaxDefault).mpr h.consumer.fetchMax
  obtain ⟨partitionMax, hpartition⟩ :=
    (ReadableSetting.exists_yields hK.fetchPartitionMaxDefault).mpr h.consumer.fetchPartitionMax
  have hle := h.consumer.fetchMinWithinMax min max hmin hmax
  exact ⟨⟨schema, leave, metadata, retry, min, max, partitionMax, _, _, _, _, _, _, _, capacity,
    frameMax⟩, hle, hresources, hschema, hleave, hmetadata, hretry, .of_new hK hretry, hmin, hmax,
    hpartition, rfl, rfl, rfl, rfl, rfl, rfl, rfl⟩

theorem validate_eq_ok (hK : K.Documented) {validated : Validated K} :
    cli.validate = .ok validated ↔
      cli.Scoped .consume cli.consumerOptions ∧ cli.Scoped .stream cli.streamsOptions ∧
      K.bytesI32 validated.consumerRuntime.fetchMin ≤
        K.bytesI32 validated.consumerRuntime.fetchMax ∧
      cli.ValidatedFrom validated := by
  simp only [validate, bind_eq_ok, pure_eq_ok, Prod.exists, clientResourcePolicy_eq_ok,
    schemaFetchRetryPolicy_eq_ok hK, streamRuntime_eq_ok hK, consumerRuntime_eq_ok hK]
  constructor
  · rintro ⟨capacity, frameMax, hresources, schema, hschema, stream, ⟨hstreamScope, hstream⟩,
      consumer, ⟨hconsumerScope, hle, hconsumer⟩, rfl⟩
    exact ⟨hconsumerScope, hstreamScope, hle, hresources, hschema, hstream, hconsumer⟩
  · rintro ⟨hconsumerScope, hstreamScope, hle, h⟩
    exact ⟨_, _, h.resources, _, h.schema, _, ⟨hstreamScope, h.streamRuntime⟩, _,
      ⟨hconsumerScope, hle, h.consumerRuntime⟩, rfl⟩

theorem exists_validated (hK : K.Documented) (hp : cli.Parsed) :
    (∃ validated, cli.validate = .ok validated) ↔
      cli.Scoped .consume cli.consumerOptions ∧ cli.Scoped .stream cli.streamsOptions ∧
      cli.Accepted := by
  constructor
  · rintro ⟨validated, h⟩
    obtain ⟨hconsumerScope, hstreamScope, hle, hfrom⟩ := (validate_eq_ok hK).mp h
    have hstreams := hfrom.streamRuntime.accepted
    have hconsumer := hfrom.consumerRuntime.accepted hK hle
    exact ⟨hconsumerScope, hstreamScope, ⟨_, hfrom.schema.accepted⟩, hstreams, hconsumer⟩
  · rintro ⟨hconsumerScope, hstreamScope, h⟩
    obtain ⟨capacity, frameMax, hresources⟩ := hp.exists_resources hK
    obtain ⟨schema, hschema⟩ := exists_schemaPolicyFrom hK h
    obtain ⟨stream, hstream⟩ := exists_streamRuntimeFrom hK hp h
    obtain ⟨consumer, hle, hconsumer⟩ := exists_consumerRuntimeFrom hK hp h
    exact ⟨⟨capacity, frameMax, schema, stream, consumer⟩, (validate_eq_ok hK).mpr
      ⟨hconsumerScope, hstreamScope, hle, hresources, hschema, hstream, hconsumer⟩⟩

end Cli

end OrdersDemo
