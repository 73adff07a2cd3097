import OrdersDemo.Cli

namespace OrdersDemo.Cli

variable {K : Krabka} (cli : Cli K)

def clientResourcePolicy : Except Failure
    (K.connectionDispatchQueueCapacity.Value × K.clientFrameMax.Value) := do
  let capacity ← K.connectionDispatchQueueCapacity.expect cli.clientDispatchQueueCapacity
    "validated demo client dispatch queue capacity"
  let frameMax ← K.clientFrameMax.expect cli.clientFrameMax "validated demo client frame maximum"
  return (capacity, frameMax)

/-- The shape of an `effective_*` function of one option. -/
def effectiveSetting {Input : Type} (role : Role) (option : ScopedOption)
    (setting : Setting Input) (value : Option Input) : Except Failure setting.Value := do
  cli.scope role [option]
  setting.effective value

def effectiveStreamsFetchMin : Except Failure K.fetchMinBytes.Value := do
  cli.scope .stream [K.sizeOption "--streams-fetch-min" cli.streamsFetchMin]
  match cli.streamsFetchMin with
  | none => return K.fetchMinBytes.default
  | some fetchMin => K.fetchMinBytes.expect fetchMin "validated Streams fetch minimum"

def effectiveConsumerLeaveGroupTimeout : Except Failure K.consumerLeaveGroupTimeout.Value :=
  cli.effectiveSetting .consume
    (K.timeOption "--consumer-leave-group-timeout" cli.consumerLeaveGroupTimeout)
    K.consumerLeaveGroupTimeout (cli.consumerLeaveGroupTimeout.map K.toStd)

def effectiveConsumerSubscriptionMetadataRefreshInterval :
    Except Failure K.consumerSubscriptionMetadataRefreshInterval.Value :=
  cli.effectiveSetting .consume
    (K.timeOption "--consumer-subscription-metadata-refresh-interval"
      cli.consumerSubscriptionMetadataRefreshInterval)
    K.consumerSubscriptionMetadataRefreshInterval
    (cli.consumerSubscriptionMetadataRefreshInterval.map K.toStd)

def retryOptions : List ScopedOption :=
  [K.timeOption "--consumer-startup-attempt-timeout" cli.consumerStartupAttemptTimeout,
    K.timeOption "--consumer-startup-deadline" cli.consumerStartupDeadline,
    K.timeOption "--consumer-startup-initial-backoff" cli.consumerStartupInitialBackoff,
    K.timeOption "--consumer-startup-max-backoff" cli.consumerStartupMaxBackoff,
    K.timeOption "--consumer-coordinator-retry-timeout" cli.consumerCoordinatorRetryTimeout,
    K.timeOption "--consumer-coordinator-initial-backoff" cli.consumerCoordinatorInitialBackoff,
    K.timeOption "--consumer-coordinator-max-backoff" cli.consumerCoordinatorMaxBackoff]

/-- The times handed to `ConsumerRetryPolicy::new`: each option, or the default policy's time. -/
def retryTimes : RetryTimes K.Time :=
  let defaults := K.retryTimes K.consumerRetryPolicy.default
  ⟨cli.consumerStartupAttemptTimeout.getD defaults.startupAttemptTimeout,
    cli.consumerStartupDeadline.getD defaults.startupDeadline,
    cli.consumerStartupInitialBackoff.getD defaults.startupInitialBackoff,
    cli.consumerStartupMaxBackoff.getD defaults.startupMaxBackoff,
    cli.consumerCoordinatorRetryTimeout.getD defaults.coordinatorRetryTimeout,
    cli.consumerCoordinatorInitialBackoff.getD defaults.coordinatorInitialBackoff,
    cli.consumerCoordinatorMaxBackoff.getD defaults.coordinatorMaxBackoff⟩

def effectiveConsumerRetryPolicy : Except Failure K.consumerRetryPolicy.Value := do
  cli.scope .consume cli.retryOptions
  (K.consumerRetryPolicy.new cli.retryTimes).mapError .rejected

def fetchOptions : List ScopedOption :=
  [K.sizeOption "--consumer-fetch-min" cli.consumerFetchMin,
    K.sizeOption "--consumer-fetch-max" cli.consumerFetchMax,
    K.sizeOption "--consumer-fetch-partition-max" cli.consumerFetchPartitionMax]

def fetchMinWithin (min max : K.ByteSize) : Except Failure Unit :=
  if K.bytesI32 min > K.bytesI32 max then .error .fetchMinAboveMax else .ok ()

def effectiveConsumerFetchPolicy :
    Except Failure (K.ByteSize × K.ByteSize × K.ByteSize) := do
  cli.scope .consume cli.fetchOptions
  let min ← K.fetchMinBytes.checked (cli.consumerFetchMin.getD (K.bytes 1))
  let max ← K.consumerFetchMaxBytes.checked (cli.consumerFetchMax.getD (K.mebibytes 50))
  fetchMinWithin min max
  let partitionMax ← K.consumerFetchPartitionMaxBytes.checked
    (cli.consumerFetchPartitionMax.getD (K.mebibytes 1))
  return (min, max, partitionMax)

def timingOptions : List ScopedOption :=
  [K.timeOption "--consumer-session-timeout" cli.consumerSessionTimeout,
    K.timeOption "--consumer-rebalance-timeout" cli.consumerRebalanceTimeout,
    K.timeOption "--consumer-heartbeat-interval" cli.consumerHeartbeatInterval,
    K.timeOption "--consumer-request-timeout" cli.consumerRequestTimeout]

def effectiveConsumerTiming : Except Failure (K.Time × K.Time × K.Time × K.Time) := do
  cli.scope .consume cli.timingOptions
  return (cli.consumerSessionTimeout.getD (K.secs 45),
    cli.consumerRebalanceTimeout.getD (K.minutes 1),
    cli.consumerHeartbeatInterval.getD (K.secs 3),
    cli.consumerRequestTimeout.getD (K.secs 30))

def behaviorOptions : List ScopedOption :=
  [bareOption "--consumer-auto-offset-reset" cli.consumerAutoOffsetReset,
    bareOption "--consumer-isolation-level" cli.consumerIsolationLevel,
    bareOption "--consumer-assignor" cli.consumerAssignor]

def effectiveConsumerBehavior :
    Except Failure (K.AutoOffsetReset × K.IsolationLevel × K.Assignor) := do
  cli.scope .consume cli.behaviorOptions
  return (cli.consumerAutoOffsetReset.getD K.latest,
    cli.consumerIsolationLevel.getD K.readUncommitted, cli.consumerAssignor.getD K.range)

def effectiveStreamsBrokerDnsTimeout : Except Failure K.clientDnsTimeout.Value :=
  cli.effectiveSetting .stream
    (K.timeOption "--streams-broker-dns-timeout" cli.streamsBrokerDnsTimeout)
    K.clientDnsTimeout cli.streamsBrokerDnsTimeout

def effectiveStreamsRuntimeCadence :
    Except Failure (K.streamsPollInterval.Value × K.streamsCommitInterval.Value) := do
  cli.scope .stream [K.timeOption "--streams-poll-interval" cli.streamsPollInterval,
    K.timeOption "--streams-commit-interval" cli.streamsCommitInterval]
  let poll ← K.streamsPollInterval.effective (cli.streamsPollInterval.map K.toStd)
  let commit ← K.streamsCommitInterval.effective (cli.streamsCommitInterval.map K.toStd)
  return (poll, commit)

def effectiveStreamsRebalanceTimeout : Except Failure K.streamsRebalanceTimeout.Value :=
  cli.effectiveSetting .stream
    (K.timeOption "--streams-rebalance-timeout" cli.streamsRebalanceTimeout)
    K.streamsRebalanceTimeout (cli.streamsRebalanceTimeout.map K.toStd)

def effectiveStreamsLeaveHeartbeatTimeout : Except Failure K.streamsLeaveHeartbeatTimeout.Value :=
  cli.effectiveSetting .stream
    (K.timeOption "--streams-leave-heartbeat-timeout" cli.streamsLeaveHeartbeatTimeout)
    K.streamsLeaveHeartbeatTimeout (cli.streamsLeaveHeartbeatTimeout.map K.toStd)

def effectiveStreamsJoinRetryBackoff : Except Failure K.streamsJoinRetryBackoff.Value :=
  cli.effectiveSetting .stream
    (K.timeOption "--streams-join-retry-backoff" cli.streamsJoinRetryBackoff)
    K.streamsJoinRetryBackoff (cli.streamsJoinRetryBackoff.map K.toStd)

def effectiveStreamsInteractiveQueryQueueCapacity :
    Except Failure K.streamsInteractiveQueryQueueCapacity.Value :=
  cli.effectiveSetting .stream
    (countOption "--streams-interactive-query-queue-capacity"
      cli.streamsInteractiveQueryQueueCapacity)
    K.streamsInteractiveQueryQueueCapacity (cli.streamsInteractiveQueryQueueCapacity.map PNat.val)

def effectiveStreamsStateStoreCacheMaxBytes :
    Except Failure K.streamsStateStoreCacheMaxBytes.Value :=
  cli.effectiveSetting .stream
    (K.sizeOption "--streams-state-store-cache-max" cli.streamsStateStoreCacheMax)
    K.streamsStateStoreCacheMaxBytes cli.streamsStateStoreCacheMax

def schemaFetchRetryPolicy : Except Failure K.schemaFetchRetryPolicy.Value :=
  let defaults := K.schemaFetchRetryPolicy.default
  (K.schemaFetchRetryPolicy.new
    (cli.schemaFetchRetryInitialBackoff.getD (K.initialBackoff defaults),
      cli.schemaFetchRetryMaxBackoff.getD (K.maxBackoff defaults))).mapError .rejected

end OrdersDemo.Cli
