import OrdersDemo.Effective

namespace OrdersDemo

structure StreamRuntime (K : Krabka) where
  schemaFetchRetryPolicy : K.schemaFetchRetryPolicy.Value
  brokerDnsTimeout : K.clientDnsTimeout.Value
  pollInterval : K.streamsPollInterval.Value
  commitInterval : K.streamsCommitInterval.Value
  rebalanceTimeout : K.streamsRebalanceTimeout.Value
  leaveHeartbeatTimeout : K.streamsLeaveHeartbeatTimeout.Value
  joinRetryBackoff : K.streamsJoinRetryBackoff.Value
  queryQueueCapacity : K.streamsInteractiveQueryQueueCapacity.Value
  stateStoreCacheMaxBytes : K.streamsStateStoreCacheMaxBytes.Value
  dispatchQueueCapacity : K.connectionDispatchQueueCapacity.Value
  frameMax : K.clientFrameMax.Value
  fetchMin : K.fetchMinBytes.Value

structure ConsumerRuntime (K : Krabka) where
  schemaFetchRetryPolicy : K.schemaFetchRetryPolicy.Value
  leaveGroupTimeout : K.consumerLeaveGroupTimeout.Value
  metadataRefreshInterval : K.consumerSubscriptionMetadataRefreshInterval.Value
  retryPolicy : K.consumerRetryPolicy.Value
  fetchMin : K.ByteSize
  fetchMax : K.ByteSize
  fetchPartitionMax : K.ByteSize
  sessionTimeout : K.Time
  rebalanceTimeout : K.Time
  heartbeatInterval : K.Time
  requestTimeout : K.Time
  autoOffsetReset : K.AutoOffsetReset
  isolationLevel : K.IsolationLevel
  assignor : K.Assignor
  dispatchQueueCapacity : K.connectionDispatchQueueCapacity.Value
  frameMax : K.clientFrameMax.Value

/-- What `main` keeps of the validation, for the role it then runs. -/
structure Validated (K : Krabka) where
  clientDispatchQueueCapacity : K.connectionDispatchQueueCapacity.Value
  clientFrameMax : K.clientFrameMax.Value
  schemaFetchRetryPolicy : K.schemaFetchRetryPolicy.Value
  streamRuntime : StreamRuntime K
  consumerRuntime : ConsumerRuntime K

namespace Cli

variable {K : Krabka} (cli : Cli K)

def streamRuntime : Except Failure (StreamRuntime K) := do
  let (dispatchQueueCapacity, frameMax) ← cli.clientResourcePolicy
  let (pollInterval, commitInterval) ← cli.effectiveStreamsRuntimeCadence
  let schemaFetchRetryPolicy ← cli.schemaFetchRetryPolicy
  let brokerDnsTimeout ← cli.effectiveStreamsBrokerDnsTimeout
  let rebalanceTimeout ← cli.effectiveStreamsRebalanceTimeout
  let leaveHeartbeatTimeout ← cli.effectiveStreamsLeaveHeartbeatTimeout
  let joinRetryBackoff ← cli.effectiveStreamsJoinRetryBackoff
  let queryQueueCapacity ← cli.effectiveStreamsInteractiveQueryQueueCapacity
  let stateStoreCacheMaxBytes ← cli.effectiveStreamsStateStoreCacheMaxBytes
  let fetchMin ← cli.effectiveStreamsFetchMin
  return {
    schemaFetchRetryPolicy, brokerDnsTimeout, pollInterval, commitInterval, rebalanceTimeout,
    leaveHeartbeatTimeout, joinRetryBackoff, queryQueueCapacity, stateStoreCacheMaxBytes,
    dispatchQueueCapacity, frameMax, fetchMin }

def consumerRuntime : Except Failure (ConsumerRuntime K) := do
  let (dispatchQueueCapacity, frameMax) ← cli.clientResourcePolicy
  let (fetchMin, fetchMax, fetchPartitionMax) ← cli.effectiveConsumerFetchPolicy
  let (sessionTimeout, rebalanceTimeout, heartbeatInterval, requestTimeout) ←
    cli.effectiveConsumerTiming
  let (autoOffsetReset, isolationLevel, assignor) ← cli.effectiveConsumerBehavior
  let schemaFetchRetryPolicy ← cli.schemaFetchRetryPolicy
  let leaveGroupTimeout ← cli.effectiveConsumerLeaveGroupTimeout
  let metadataRefreshInterval ← cli.effectiveConsumerSubscriptionMetadataRefreshInterval
  let retryPolicy ← cli.effectiveConsumerRetryPolicy
  return {
    schemaFetchRetryPolicy, leaveGroupTimeout, metadataRefreshInterval, retryPolicy, fetchMin,
    fetchMax, fetchPartitionMax, sessionTimeout, rebalanceTimeout, heartbeatInterval,
    requestTimeout, autoOffsetReset, isolationLevel, assignor, dispatchQueueCapacity, frameMax }

/-- The validation at the start of `main`, before anything runs. Both runtimes are built whatever
the role is. -/
def validate : Except Failure (Validated K) := do
  let (clientDispatchQueueCapacity, clientFrameMax) ← cli.clientResourcePolicy
  let schemaFetchRetryPolicy ← cli.schemaFetchRetryPolicy
  let streamRuntime ← cli.streamRuntime
  let consumerRuntime ← cli.consumerRuntime
  return {
    clientDispatchQueueCapacity, clientFrameMax, schemaFetchRetryPolicy, streamRuntime,
    consumerRuntime }

end Cli

end OrdersDemo
