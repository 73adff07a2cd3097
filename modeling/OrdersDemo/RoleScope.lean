import OrdersDemo.Runtime

namespace OrdersDemo

open Checked

/-- What a field built from one option is: the option through the constructor when it is set, the
default otherwise. -/
def Setting.Yields {Input : Type} (setting : Setting Input) (value : Option Input)
    (field : setting.Value) : Prop :=
  match value with
  | none => field = setting.default
  | some value => setting.new value = .ok field

/-- A value that is set passes the constructor. -/
def Setting.Accepts {Input : Type} (setting : Setting Input) (value : Option Input) : Prop :=
  ∀ v ∈ value, ∃ field, setting.new v = .ok field

def ReadableSetting.Yields {Input : Type} (setting : ReadableSetting Input) (value : Input)
    (field : Input) : Prop :=
  ∃ v, setting.new value = .ok v ∧ setting.get v = field

namespace Setting

variable {Input : Type} {setting : Setting Input} {value : Option Input}

theorem effective_eq_ok {field : setting.Value} :
    setting.effective value = .ok field ↔ setting.Yields value field := by
  unfold effective Yields
  cases value with
  | none =>
    show Except.ok setting.default = .ok field ↔ field = setting.default
    rw [Except.ok.injEq, eq_comm]
  | some v => exact mapError_eq_ok

theorem exists_yields : (∃ field, setting.Yields value field) ↔ setting.Accepts value := by
  unfold Yields Accepts
  cases value with
  | none => simp
  | some v => simp

theorem expect_eq_ok {v : Input} {expectation : String} {field : setting.Value} :
    setting.expect v expectation = .ok field ↔ setting.new v = .ok field :=
  mapError_eq_ok

end Setting

theorem ReadableSetting.checked_eq_ok {Input : Type} {setting : ReadableSetting Input}
    {value field : Input} : setting.checked value = .ok field ↔ setting.Yields value field := by
  unfold checked Yields
  cases setting.new value with
  | error e =>
    show Except.error (Failure.rejected e) = .ok field ↔ ∃ v, Except.error e = .ok v ∧ _
    simp
  | ok v =>
    show Except.ok (setting.get v) = .ok field ↔ ∃ u, Except.ok v = .ok u ∧ _
    simp

namespace Cli

variable {K : Krabka} (cli : Cli K)

def consumerOptions : List ScopedOption :=
  [K.timeOption "--consumer-leave-group-timeout" cli.consumerLeaveGroupTimeout,
    K.timeOption "--consumer-subscription-metadata-refresh-interval"
      cli.consumerSubscriptionMetadataRefreshInterval,
    K.timeOption "--consumer-startup-attempt-timeout" cli.consumerStartupAttemptTimeout,
    K.timeOption "--consumer-startup-deadline" cli.consumerStartupDeadline,
    K.timeOption "--consumer-startup-initial-backoff" cli.consumerStartupInitialBackoff,
    K.timeOption "--consumer-startup-max-backoff" cli.consumerStartupMaxBackoff,
    K.timeOption "--consumer-coordinator-retry-timeout" cli.consumerCoordinatorRetryTimeout,
    K.timeOption "--consumer-coordinator-initial-backoff" cli.consumerCoordinatorInitialBackoff,
    K.timeOption "--consumer-coordinator-max-backoff" cli.consumerCoordinatorMaxBackoff,
    K.sizeOption "--consumer-fetch-min" cli.consumerFetchMin,
    K.sizeOption "--consumer-fetch-max" cli.consumerFetchMax,
    K.sizeOption "--consumer-fetch-partition-max" cli.consumerFetchPartitionMax,
    K.timeOption "--consumer-session-timeout" cli.consumerSessionTimeout,
    K.timeOption "--consumer-rebalance-timeout" cli.consumerRebalanceTimeout,
    K.timeOption "--consumer-heartbeat-interval" cli.consumerHeartbeatInterval,
    K.timeOption "--consumer-request-timeout" cli.consumerRequestTimeout,
    bareOption "--consumer-auto-offset-reset" cli.consumerAutoOffsetReset,
    bareOption "--consumer-isolation-level" cli.consumerIsolationLevel,
    bareOption "--consumer-assignor" cli.consumerAssignor]

def streamsOptions : List ScopedOption :=
  [K.timeOption "--streams-broker-dns-timeout" cli.streamsBrokerDnsTimeout,
    K.timeOption "--streams-poll-interval" cli.streamsPollInterval,
    K.timeOption "--streams-commit-interval" cli.streamsCommitInterval,
    K.timeOption "--streams-rebalance-timeout" cli.streamsRebalanceTimeout,
    K.timeOption "--streams-leave-heartbeat-timeout" cli.streamsLeaveHeartbeatTimeout,
    K.timeOption "--streams-join-retry-backoff" cli.streamsJoinRetryBackoff,
    countOption "--streams-interactive-query-queue-capacity"
      cli.streamsInteractiveQueryQueueCapacity,
    K.sizeOption "--streams-state-store-cache-max" cli.streamsStateStoreCacheMax,
    K.sizeOption "--streams-fetch-min" cli.streamsFetchMin]

def optionsOf : Role → List ScopedOption
  | .produce => []
  | .stream => cli.streamsOptions
  | .consume => cli.consumerOptions

/-- None of the options is set under another role. -/
def Scoped (role : Role) (configured : List ScopedOption) : Prop :=
  cli.role ≠ role → ∀ o ∈ configured, o.value = none

variable {cli}

theorem scope_eq_ok {role : Role} {configured : List ScopedOption} :
    cli.scope role configured = .ok () ↔ cli.Scoped role configured := by
  unfold scope Scoped
  by_cases hrole : cli.role = role
  · simp [hrole]
  · have hfind : (configured.findSome? fun o => o.value.map (o.name, ·)) = none ↔
        ∀ o ∈ configured, o.value = none := by
      simp [List.findSome?_eq_none_iff]
    rw [if_pos hrole, ← hfind]
    cases configured.findSome? fun o => o.value.map (o.name, ·) with
    | none => simp [hrole]
    | some set => simp [hrole]

theorem scope_bind_eq_ok {α : Type} {role : Role} {configured : List ScopedOption}
    {x : Except Failure α} {a : α} :
    (cli.scope role configured >>= fun _ => x) = .ok a ↔
      cli.Scoped role configured ∧ x = .ok a := by
  rw [bind_eq_ok, ← scope_eq_ok]
  exact ⟨fun ⟨_, hs, hx⟩ => ⟨hs, hx⟩, fun ⟨hs, hx⟩ => ⟨(), hs, hx⟩⟩

theorem effectiveSetting_eq_ok {Input : Type} {role : Role} {option : ScopedOption}
    {setting : Setting Input} {value : Option Input} {field : setting.Value} :
    cli.effectiveSetting role option setting value = .ok field ↔
      cli.Scoped role [option] ∧ setting.Yields value field := by
  rw [effectiveSetting, scope_bind_eq_ok, Setting.effective_eq_ok]

theorem effectiveStreamsFetchMin_eq_ok {field : K.fetchMinBytes.Value} :
    cli.effectiveStreamsFetchMin = .ok field ↔
      cli.Scoped .stream [K.sizeOption "--streams-fetch-min" cli.streamsFetchMin] ∧
        K.fetchMinBytes.toSetting.Yields cli.streamsFetchMin field := by
  rw [effectiveStreamsFetchMin, scope_bind_eq_ok]
  cases cli.streamsFetchMin with
  | none =>
    show _ ∧ Except.ok K.fetchMinBytes.default = .ok field ↔ _ ∧ field = K.fetchMinBytes.default
    rw [Except.ok.injEq, eq_comm]
  | some size =>
    show _ ∧ K.fetchMinBytes.expect size _ = .ok field ↔ _ ∧ K.fetchMinBytes.new size = .ok field
    rw [Setting.expect_eq_ok]

theorem effectiveStreamsRuntimeCadence_eq_ok {poll : K.streamsPollInterval.Value}
    {commit : K.streamsCommitInterval.Value} :
    cli.effectiveStreamsRuntimeCadence = .ok (poll, commit) ↔
      cli.Scoped .stream [K.timeOption "--streams-poll-interval" cli.streamsPollInterval,
        K.timeOption "--streams-commit-interval" cli.streamsCommitInterval] ∧
      K.streamsPollInterval.Yields (cli.streamsPollInterval.map K.toStd) poll ∧
        K.streamsCommitInterval.Yields (cli.streamsCommitInterval.map K.toStd) commit := by
  rw [effectiveStreamsRuntimeCadence, scope_bind_eq_ok, pair_eq_ok, Setting.effective_eq_ok,
    Setting.effective_eq_ok]

theorem fetchMinWithin_eq_ok {min max : K.ByteSize} :
    fetchMinWithin min max = .ok () ↔ K.bytesI32 min ≤ K.bytesI32 max := by
  unfold fetchMinWithin
  split
  next habove => simpa using habove
  next hwithin => simpa using hwithin

theorem effectiveConsumerFetchPolicy_eq_ok {min max partitionMax : K.ByteSize} :
    cli.effectiveConsumerFetchPolicy = .ok (min, max, partitionMax) ↔
      cli.Scoped .consume cli.fetchOptions ∧
      K.fetchMinBytes.Yields (cli.consumerFetchMin.getD (K.bytes 1)) min ∧
      K.consumerFetchMaxBytes.Yields (cli.consumerFetchMax.getD (K.mebibytes 50)) max ∧
      K.bytesI32 min ≤ K.bytesI32 max ∧
      K.consumerFetchPartitionMaxBytes.Yields
        (cli.consumerFetchPartitionMax.getD (K.mebibytes 1)) partitionMax := by
  rw [effectiveConsumerFetchPolicy, scope_bind_eq_ok]
  simp only [bind_eq_ok, pure_eq_ok, ReadableSetting.checked_eq_ok, Prod.mk.injEq]
  refine and_congr_right fun _ => ⟨?_, ?_⟩
  · rintro ⟨min', hmin, max', hmax, _, hle, partitionMax', hpart, rfl, rfl, rfl⟩
    exact ⟨hmin, hmax, fetchMinWithin_eq_ok.mp hle, hpart⟩
  · rintro ⟨hmin, hmax, hle, hpart⟩
    exact ⟨min, hmin, max, hmax, (), fetchMinWithin_eq_ok.mpr hle, partitionMax, hpart, rfl, rfl,
      rfl⟩

theorem effectiveConsumerRetryPolicy_eq_ok {policy : K.consumerRetryPolicy.Value} :
    cli.effectiveConsumerRetryPolicy = .ok policy ↔
      cli.Scoped .consume cli.retryOptions ∧
        K.consumerRetryPolicy.new cli.retryTimes = .ok policy := by
  rw [effectiveConsumerRetryPolicy, scope_bind_eq_ok, mapError_eq_ok]

end Cli

end OrdersDemo
