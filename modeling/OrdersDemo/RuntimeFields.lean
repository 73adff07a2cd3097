import OrdersDemo.RoleScope

namespace OrdersDemo

open Checked

/-- The number read back from a checked setting passes the same check. -/
def ReadableSetting.Stable {Input : Type} (setting : ReadableSetting Input) : Prop :=
  ∀ (value : Input) (v : setting.Value), setting.new value = .ok v →
    setting.new (setting.get v) = .ok v

/-- What the program relies on in the client crates: the types give back what they accept, the two
retry policies give back the times they were made of, and the consumer's fetch defaults pass their
checks. -/
structure Krabka.Documented (K : Krabka) : Prop where
  dispatchQueueCapacity : K.connectionDispatchQueueCapacity.Stable
  frameMax : K.clientFrameMax.Stable
  fetchMin : K.fetchMinBytes.Stable
  retryTimes_new : ∀ {times policy}, K.consumerRetryPolicy.new times = .ok policy →
    K.retryTimes policy = times
  backoffs_new : ∀ {initial max policy}, K.schemaFetchRetryPolicy.new (initial, max) = .ok policy →
    K.initialBackoff policy = initial ∧ K.maxBackoff policy = max
  fetchMinDefault : ∃ v, K.fetchMinBytes.new (K.bytes 1) = .ok v
  fetchMaxDefault : ∃ v, K.consumerFetchMaxBytes.new (K.mebibytes 50) = .ok v
  fetchPartitionMaxDefault : ∃ v, K.consumerFetchPartitionMaxBytes.new (K.mebibytes 1) = .ok v

namespace Cli

variable {K : Krabka} (cli : Cli K)

/-- The two resource settings and the streams fetch minimum come out of their value parsers. -/
structure Parsed : Prop where
  clientDispatchQueueCapacity :
    ∃ value, K.parseClientDispatchQueueCapacity value = .ok cli.clientDispatchQueueCapacity
  clientFrameMax : ∃ value, K.parseClientFrameMax value = .ok cli.clientFrameMax
  streamsFetchMin : ∀ size ∈ cli.streamsFetchMin, ∃ value, K.parseFetchMin value = .ok size

structure ResourcesFrom (capacity : K.connectionDispatchQueueCapacity.Value)
    (frameMax : K.clientFrameMax.Value) : Prop where
  capacity : K.connectionDispatchQueueCapacity.new cli.clientDispatchQueueCapacity = .ok capacity
  frameMax : K.clientFrameMax.new cli.clientFrameMax = .ok frameMax

structure SchemaPolicyFrom (policy : K.schemaFetchRetryPolicy.Value) : Prop where
  accepted : K.schemaFetchRetryPolicy.new
    (cli.schemaFetchRetryInitialBackoff.getD (K.initialBackoff K.schemaFetchRetryPolicy.default),
      cli.schemaFetchRetryMaxBackoff.getD (K.maxBackoff K.schemaFetchRetryPolicy.default)) =
    .ok policy
  initialBackoff : K.initialBackoff policy =
    cli.schemaFetchRetryInitialBackoff.getD (K.initialBackoff K.schemaFetchRetryPolicy.default)
  maxBackoff : K.maxBackoff policy =
    cli.schemaFetchRetryMaxBackoff.getD (K.maxBackoff K.schemaFetchRetryPolicy.default)

/-- Each of the seven times of the policy is its own option's, or the default policy's. -/
structure RetryPolicyFrom (policy : K.consumerRetryPolicy.Value) : Prop where
  startupAttemptTimeout : (K.retryTimes policy).startupAttemptTimeout =
    cli.consumerStartupAttemptTimeout.getD
      (K.retryTimes K.consumerRetryPolicy.default).startupAttemptTimeout
  startupDeadline : (K.retryTimes policy).startupDeadline =
    cli.consumerStartupDeadline.getD (K.retryTimes K.consumerRetryPolicy.default).startupDeadline
  startupInitialBackoff : (K.retryTimes policy).startupInitialBackoff =
    cli.consumerStartupInitialBackoff.getD
      (K.retryTimes K.consumerRetryPolicy.default).startupInitialBackoff
  startupMaxBackoff : (K.retryTimes policy).startupMaxBackoff =
    cli.consumerStartupMaxBackoff.getD
      (K.retryTimes K.consumerRetryPolicy.default).startupMaxBackoff
  coordinatorRetryTimeout : (K.retryTimes policy).coordinatorRetryTimeout =
    cli.consumerCoordinatorRetryTimeout.getD
      (K.retryTimes K.consumerRetryPolicy.default).coordinatorRetryTimeout
  coordinatorInitialBackoff : (K.retryTimes policy).coordinatorInitialBackoff =
    cli.consumerCoordinatorInitialBackoff.getD
      (K.retryTimes K.consumerRetryPolicy.default).coordinatorInitialBackoff
  coordinatorMaxBackoff : (K.retryTimes policy).coordinatorMaxBackoff =
    cli.consumerCoordinatorMaxBackoff.getD
      (K.retryTimes K.consumerRetryPolicy.default).coordinatorMaxBackoff

structure StreamRuntimeFrom (runtime : StreamRuntime K) : Prop where
  resources : cli.ResourcesFrom runtime.dispatchQueueCapacity runtime.frameMax
  schema : cli.SchemaPolicyFrom runtime.schemaFetchRetryPolicy
  brokerDnsTimeout : K.clientDnsTimeout.Yields cli.streamsBrokerDnsTimeout runtime.brokerDnsTimeout
  pollInterval : K.streamsPollInterval.Yields (cli.streamsPollInterval.map K.toStd)
    runtime.pollInterval
  commitInterval : K.streamsCommitInterval.Yields (cli.streamsCommitInterval.map K.toStd)
    runtime.commitInterval
  rebalanceTimeout : K.streamsRebalanceTimeout.Yields (cli.streamsRebalanceTimeout.map K.toStd)
    runtime.rebalanceTimeout
  leaveHeartbeatTimeout : K.streamsLeaveHeartbeatTimeout.Yields
    (cli.streamsLeaveHeartbeatTimeout.map K.toStd) runtime.leaveHeartbeatTimeout
  joinRetryBackoff : K.streamsJoinRetryBackoff.Yields (cli.streamsJoinRetryBackoff.map K.toStd)
    runtime.joinRetryBackoff
  queryQueueCapacity : K.streamsInteractiveQueryQueueCapacity.Yields
    (cli.streamsInteractiveQueryQueueCapacity.map PNat.val) runtime.queryQueueCapacity
  stateStoreCacheMaxBytes : K.streamsStateStoreCacheMaxBytes.Yields
    cli.streamsStateStoreCacheMax runtime.stateStoreCacheMaxBytes
  fetchMin : K.fetchMinBytes.toSetting.Yields cli.streamsFetchMin runtime.fetchMin

structure ConsumerRuntimeFrom (runtime : ConsumerRuntime K) : Prop where
  resources : cli.ResourcesFrom runtime.dispatchQueueCapacity runtime.frameMax
  schema : cli.SchemaPolicyFrom runtime.schemaFetchRetryPolicy
  leaveGroupTimeout : K.consumerLeaveGroupTimeout.Yields
    (cli.consumerLeaveGroupTimeout.map K.toStd) runtime.leaveGroupTimeout
  metadataRefreshInterval : K.consumerSubscriptionMetadataRefreshInterval.Yields
    (cli.consumerSubscriptionMetadataRefreshInterval.map K.toStd) runtime.metadataRefreshInterval
  retryPolicy_accepted : K.consumerRetryPolicy.new cli.retryTimes = .ok runtime.retryPolicy
  retryPolicy : cli.RetryPolicyFrom runtime.retryPolicy
  fetchMin : K.fetchMinBytes.Yields (cli.consumerFetchMin.getD (K.bytes 1)) runtime.fetchMin
  fetchMax : K.consumerFetchMaxBytes.Yields (cli.consumerFetchMax.getD (K.mebibytes 50))
    runtime.fetchMax
  fetchPartitionMax : K.consumerFetchPartitionMaxBytes.Yields
    (cli.consumerFetchPartitionMax.getD (K.mebibytes 1)) runtime.fetchPartitionMax
  sessionTimeout : runtime.sessionTimeout = cli.consumerSessionTimeout.getD (K.secs 45)
  rebalanceTimeout : runtime.rebalanceTimeout = cli.consumerRebalanceTimeout.getD (K.minutes 1)
  heartbeatInterval : runtime.heartbeatInterval = cli.consumerHeartbeatInterval.getD (K.secs 3)
  requestTimeout : runtime.requestTimeout = cli.consumerRequestTimeout.getD (K.secs 30)
  autoOffsetReset : runtime.autoOffsetReset = cli.consumerAutoOffsetReset.getD K.latest
  isolationLevel : runtime.isolationLevel = cli.consumerIsolationLevel.getD K.readUncommitted
  assignor : runtime.assignor = cli.consumerAssignor.getD K.range

variable {cli}

theorem clientResourcePolicy_eq_ok {capacity : K.connectionDispatchQueueCapacity.Value}
    {frameMax : K.clientFrameMax.Value} :
    cli.clientResourcePolicy = .ok (capacity, frameMax) ↔ cli.ResourcesFrom capacity frameMax := by
  rw [clientResourcePolicy, pair_eq_ok, Setting.expect_eq_ok, Setting.expect_eq_ok]
  exact ⟨fun ⟨hc, hf⟩ => ⟨hc, hf⟩, fun ⟨hc, hf⟩ => ⟨hc, hf⟩⟩

theorem schemaFetchRetryPolicy_eq_ok (hK : K.Documented)
    {policy : K.schemaFetchRetryPolicy.Value} :
    cli.schemaFetchRetryPolicy = .ok policy ↔ cli.SchemaPolicyFrom policy := by
  unfold schemaFetchRetryPolicy
  rw [mapError_eq_ok]
  constructor
  · intro h
    have hback := hK.backoffs_new h
    exact ⟨h, hback.1, hback.2⟩
  · intro h
    exact h.accepted

theorem RetryPolicyFrom.of_new (hK : K.Documented) {policy : K.consumerRetryPolicy.Value}
    (h : K.consumerRetryPolicy.new cli.retryTimes = .ok policy) : cli.RetryPolicyFrom policy := by
  have htimes := hK.retryTimes_new h
  constructor <;> rw [htimes] <;> rfl

theorem scoped_nil {role : Role} : cli.Scoped role [] := by
  intro _ o ho
  cases ho

theorem scoped_cons {role : Role} {o : ScopedOption} {os : List ScopedOption} :
    cli.Scoped role (o :: os) ↔ (cli.role ≠ role → o.value = none) ∧ cli.Scoped role os := by
  unfold Scoped
  simp only [List.forall_mem_cons]
  exact imp_and

theorem streamRuntime_eq_ok (hK : K.Documented) {runtime : StreamRuntime K} :
    cli.streamRuntime = .ok runtime ↔
      cli.Scoped .stream cli.streamsOptions ∧ cli.StreamRuntimeFrom runtime := by
  simp only [streamRuntime, streamsOptions, bind_eq_ok, pure_eq_ok, Prod.exists,
    clientResourcePolicy_eq_ok, effectiveStreamsRuntimeCadence_eq_ok,
    schemaFetchRetryPolicy_eq_ok hK, effectiveStreamsBrokerDnsTimeout,
    effectiveStreamsRebalanceTimeout, effectiveStreamsLeaveHeartbeatTimeout,
    effectiveStreamsJoinRetryBackoff, effectiveStreamsInteractiveQueryQueueCapacity,
    effectiveStreamsStateStoreCacheMaxBytes, effectiveSetting_eq_ok,
    effectiveStreamsFetchMin_eq_ok, scoped_cons, scoped_nil, and_true]
  constructor
  · rintro ⟨capacity, frameMax, hresources, poll, commit,
      ⟨⟨hpollScope, hcommitScope⟩, hpoll, hcommit⟩, schema, hschema, dns, ⟨hdnsScope, hdns⟩,
      rebalance, ⟨hrebalanceScope, hrebalance⟩, leave, ⟨hleaveScope, hleave⟩, join,
      ⟨hjoinScope, hjoin⟩, queue, ⟨hqueueScope, hqueue⟩, cache, ⟨hcacheScope, hcache⟩, fetchMin,
      ⟨hfetchScope, hfetch⟩, rfl⟩
    exact ⟨⟨hdnsScope, hpollScope, hcommitScope, hrebalanceScope, hleaveScope, hjoinScope,
      hqueueScope, hcacheScope, hfetchScope⟩, hresources, hschema, hdns, hpoll, hcommit,
      hrebalance, hleave, hjoin, hqueue, hcache, hfetch⟩
  · rintro ⟨⟨hdnsScope, hpollScope, hcommitScope, hrebalanceScope, hleaveScope, hjoinScope,
      hqueueScope, hcacheScope, hfetchScope⟩, hresources, hschema, hdns, hpoll, hcommit,
      hrebalance, hleave, hjoin, hqueue, hcache, hfetch⟩
    exact ⟨_, _, hresources, _, _, ⟨⟨hpollScope, hcommitScope⟩, hpoll, hcommit⟩, _, hschema, _,
      ⟨hdnsScope, hdns⟩, _, ⟨hrebalanceScope, hrebalance⟩, _, ⟨hleaveScope, hleave⟩, _,
      ⟨hjoinScope, hjoin⟩, _, ⟨hqueueScope, hqueue⟩, _, ⟨hcacheScope, hcache⟩, _,
      ⟨hfetchScope, hfetch⟩, rfl⟩

theorem effectiveConsumerTiming_eq_ok {session rebalance heartbeat request : K.Time} :
    cli.effectiveConsumerTiming = .ok (session, rebalance, heartbeat, request) ↔
      cli.Scoped .consume cli.timingOptions ∧
      session = cli.consumerSessionTimeout.getD (K.secs 45) ∧
      rebalance = cli.consumerRebalanceTimeout.getD (K.minutes 1) ∧
      heartbeat = cli.consumerHeartbeatInterval.getD (K.secs 3) ∧
      request = cli.consumerRequestTimeout.getD (K.secs 30) := by
  rw [effectiveConsumerTiming, scope_bind_eq_ok, pure_eq_ok, eq_comm (b := (session, _))]
  simp only [Prod.mk.injEq]

theorem effectiveConsumerBehavior_eq_ok {reset : K.AutoOffsetReset}
    {isolation : K.IsolationLevel} {assignor : K.Assignor} :
    cli.effectiveConsumerBehavior = .ok (reset, isolation, assignor) ↔
      cli.Scoped .consume cli.behaviorOptions ∧
      reset = cli.consumerAutoOffsetReset.getD K.latest ∧
      isolation = cli.consumerIsolationLevel.getD K.readUncommitted ∧
      assignor = cli.consumerAssignor.getD K.range := by
  rw [effectiveConsumerBehavior, scope_bind_eq_ok, pure_eq_ok, eq_comm (b := (reset, _))]
  simp only [Prod.mk.injEq]

theorem scoped_append {role : Role} {os os' : List ScopedOption} :
    cli.Scoped role (os ++ os') ↔ cli.Scoped role os ∧ cli.Scoped role os' := by
  unfold Scoped
  simp only [List.forall_mem_append]
  exact imp_and

theorem consumerOptions_eq : cli.consumerOptions =
    K.timeOption "--consumer-leave-group-timeout" cli.consumerLeaveGroupTimeout ::
      K.timeOption "--consumer-subscription-metadata-refresh-interval"
        cli.consumerSubscriptionMetadataRefreshInterval ::
      (cli.retryOptions ++ (cli.fetchOptions ++ (cli.timingOptions ++ cli.behaviorOptions))) :=
  rfl

theorem consumerRuntime_eq_ok (hK : K.Documented) {runtime : ConsumerRuntime K} :
    cli.consumerRuntime = .ok runtime ↔ cli.Scoped .consume cli.consumerOptions ∧
      K.bytesI32 runtime.fetchMin ≤ K.bytesI32 runtime.fetchMax ∧
      cli.ConsumerRuntimeFrom runtime := by
  simp only [consumerRuntime, consumerOptions_eq, bind_eq_ok, pure_eq_ok, Prod.exists,
    clientResourcePolicy_eq_ok, effectiveConsumerFetchPolicy_eq_ok, effectiveConsumerTiming_eq_ok,
    effectiveConsumerBehavior_eq_ok, schemaFetchRetryPolicy_eq_ok hK,
    effectiveConsumerLeaveGroupTimeout, effectiveConsumerSubscriptionMetadataRefreshInterval,
    effectiveSetting_eq_ok, effectiveConsumerRetryPolicy_eq_ok, scoped_append, scoped_cons,
    scoped_nil, and_true]
  constructor
  · rintro ⟨capacity, frameMax, hresources, min, max, partitionMax,
      ⟨hfetchScope, hmin, hmax, hle, hpartition⟩, session, rebalance, heartbeat, request,
      ⟨htimingScope, hsession, hrebalance, hheartbeat, hrequest⟩, reset, isolation, assignor,
      ⟨hbehaviorScope, hreset, hisolation, hassignor⟩, schema, hschema, leave,
      ⟨hleaveScope, hleave⟩, metadata, ⟨hmetadataScope, hmetadata⟩, retry,
      ⟨hretryScope, hretry⟩, rfl⟩
    exact ⟨⟨hleaveScope, hmetadataScope, hretryScope, hfetchScope, htimingScope, hbehaviorScope⟩,
      hle, hresources, hschema, hleave, hmetadata, hretry, .of_new hK hretry, hmin, hmax,
      hpartition, hsession, hrebalance, hheartbeat, hrequest, hreset, hisolation, hassignor⟩
  · rintro ⟨⟨hleaveScope, hmetadataScope, hretryScope, hfetchScope, htimingScope,
      hbehaviorScope⟩, hle, hruntime⟩
    exact ⟨_, _, hruntime.resources, _, _, _,
      ⟨hfetchScope, hruntime.fetchMin, hruntime.fetchMax, hle, hruntime.fetchPartitionMax⟩,
      _, _, _, _, ⟨htimingScope, hruntime.sessionTimeout, hruntime.rebalanceTimeout,
        hruntime.heartbeatInterval, hruntime.requestTimeout⟩,
      _, _, _, ⟨hbehaviorScope, hruntime.autoOffsetReset, hruntime.isolationLevel,
        hruntime.assignor⟩,
      _, hruntime.schema, _, ⟨hleaveScope, hruntime.leaveGroupTimeout⟩,
      _, ⟨hmetadataScope, hruntime.metadataRefreshInterval⟩,
      _, ⟨hretryScope, hruntime.retryPolicy_accepted⟩, rfl⟩

end Cli

end OrdersDemo
