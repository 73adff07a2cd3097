import OrdersDemo.RuntimeAccepted

namespace OrdersDemo

open Checked

namespace Cli

variable {K : Krabka} (cli : Cli K)

/-- A role error names an option that is set and that belongs to another role, with its value, and
no `expect` fails. -/
def Explains : Failure → Prop
  | .roleScoped option shown role =>
    cli.role ≠ role ∧ ∃ o ∈ cli.optionsOf role, o.name = option ∧ o.value = some shown
  | .rejected _ => True
  | .fetchMinAboveMax => True
  | .panicked _ => False

variable {cli}

theorem scope_fails {role : Role} {configured : List ScopedOption}
    (hsub : configured ⊆ cli.optionsOf role) :
    Fails cli.Explains (cli.scope role configured) := by
  unfold scope
  by_cases hrole : cli.role = role
  · rw [if_neg (not_not.mpr hrole)]
    exact fails_ok ()
  · rw [if_pos hrole]
    cases hfind : configured.findSome? fun o => o.value.map (o.name, ·) with
    | none => exact fails_ok ()
    | some set =>
      obtain ⟨o, ho, hset⟩ := List.exists_of_findSome?_eq_some hfind
      obtain ⟨shown, hshown, rfl⟩ := Option.map_eq_some_iff.mp hset
      have hexplained : cli.Explains (.roleScoped o.name shown role) :=
        ⟨hrole, o, hsub ho, rfl, hshown⟩
      exact fails_error hexplained

theorem effective_fails {Input : Type} (setting : Setting Input) (value : Option Input) :
    Fails cli.Explains (setting.effective value) := by
  unfold Setting.effective
  cases value with
  | none => exact fails_ok _
  | some v => exact fails_mapError _ fun _ => trivial

theorem checked_fails {Input : Type} (setting : ReadableSetting Input) (value : Input) :
    Fails cli.Explains (setting.checked value) := by
  unfold ReadableSetting.checked
  cases setting.new value with
  | error e => exact fails_error trivial
  | ok v => exact fails_ok _

theorem expect_fails {Input : Type} {setting : Setting Input} {value : Input}
    {expectation : String} (h : ∃ v, setting.new value = .ok v) :
    Fails cli.Explains (setting.expect value expectation) := by
  obtain ⟨v, hv⟩ := h
  rw [Setting.expect_eq_ok.mpr hv]
  exact fails_ok v

theorem effectiveSetting_fails {Input : Type} {role : Role} {option : ScopedOption}
    (hmem : option ∈ cli.optionsOf role) (setting : Setting Input) (value : Option Input) :
    Fails cli.Explains (cli.effectiveSetting role option setting value) :=
  (scope_fails (List.cons_subset.mpr ⟨hmem, List.nil_subset _⟩)).bind fun _ =>
    effective_fails setting value

theorem clientResourcePolicy_fails (hK : K.Documented) (hp : cli.Parsed) :
    Fails cli.Explains cli.clientResourcePolicy := by
  obtain ⟨capacity, frameMax, hresources⟩ := hp.exists_resources hK
  rw [clientResourcePolicy_eq_ok.mpr hresources]
  exact fails_ok _

theorem schemaFetchRetryPolicy_fails : Fails cli.Explains cli.schemaFetchRetryPolicy :=
  fails_mapError _ fun _ => trivial

theorem effectiveStreamsFetchMin_fails (hK : K.Documented) (hp : cli.Parsed) :
    Fails cli.Explains cli.effectiveStreamsFetchMin := by
  refine (scope_fails (by simp [optionsOf, streamsOptions])).bind fun _ => ?_
  cases hfetch : cli.streamsFetchMin with
  | none => exact fails_ok _
  | some size =>
    obtain ⟨_, hparse⟩ := hp.streamsFetchMin size hfetch
    exact expect_fails (hK.fetchMin.accepts_parsed hparse)

theorem effectiveStreamsRuntimeCadence_fails :
    Fails cli.Explains cli.effectiveStreamsRuntimeCadence :=
  (scope_fails (by simp [optionsOf, streamsOptions])).bind fun _ =>
    (effective_fails _ _).bind fun _ => (effective_fails _ _).bind fun _ => fails_ok _

theorem streamRuntime_fails (hK : K.Documented) (hp : cli.Parsed) :
    Fails cli.Explains cli.streamRuntime := by
  have hone : ∀ {Input : Type} {option : ScopedOption} (setting : Setting Input)
      (value : Option Input), option ∈ cli.streamsOptions →
      Fails cli.Explains (cli.effectiveSetting .stream option setting value) :=
    fun setting value hmem => effectiveSetting_fails hmem setting value
  refine (clientResourcePolicy_fails hK hp).bind fun _ =>
    effectiveStreamsRuntimeCadence_fails.bind fun _ =>
    schemaFetchRetryPolicy_fails.bind fun _ => ?_
  refine (hone _ _ (by simp [streamsOptions])).bind fun _ =>
    (hone _ _ (by simp [streamsOptions])).bind fun _ =>
    (hone _ _ (by simp [streamsOptions])).bind fun _ =>
    (hone _ _ (by simp [streamsOptions])).bind fun _ =>
    (hone _ _ (by simp [streamsOptions])).bind fun _ =>
    (hone _ _ (by simp [streamsOptions])).bind fun _ => ?_
  exact (effectiveStreamsFetchMin_fails hK hp).bind fun _ => fails_ok _

theorem effectiveConsumerFetchPolicy_fails :
    Fails cli.Explains cli.effectiveConsumerFetchPolicy := by
  have hwithin : ∀ min max, Fails cli.Explains (fetchMinWithin (K := K) min max) := by
    intro min max
    unfold fetchMinWithin
    split
    next => exact fails_error trivial
    next => exact fails_ok ()
  exact (scope_fails (by simp [optionsOf, consumerOptions, fetchOptions])).bind fun _ =>
    (checked_fails _ _).bind fun _ => (checked_fails _ _).bind fun _ =>
    (hwithin _ _).bind fun _ => (checked_fails _ _).bind fun _ => fails_ok _

theorem consumerRuntime_fails (hK : K.Documented) (hp : cli.Parsed) :
    Fails cli.Explains cli.consumerRuntime := by
  have hone : ∀ {Input : Type} {option : ScopedOption} (setting : Setting Input)
      (value : Option Input), option ∈ cli.consumerOptions →
      Fails cli.Explains (cli.effectiveSetting .consume option setting value) :=
    fun setting value hmem => effectiveSetting_fails hmem setting value
  have htiming : Fails cli.Explains cli.effectiveConsumerTiming :=
    (scope_fails (by simp [optionsOf, consumerOptions, timingOptions])).bind fun _ => fails_ok _
  have hbehavior : Fails cli.Explains cli.effectiveConsumerBehavior :=
    (scope_fails (by simp [optionsOf, consumerOptions, behaviorOptions])).bind fun _ => fails_ok _
  have hretry : Fails cli.Explains cli.effectiveConsumerRetryPolicy :=
    (scope_fails (by simp [optionsOf, consumerOptions, retryOptions])).bind fun _ =>
      fails_mapError _ fun _ => trivial
  refine (clientResourcePolicy_fails hK hp).bind fun _ =>
    effectiveConsumerFetchPolicy_fails.bind fun _ => htiming.bind fun _ =>
    hbehavior.bind fun _ => schemaFetchRetryPolicy_fails.bind fun _ => ?_
  exact (hone _ _ (by simp [consumerOptions])).bind fun _ =>
    (hone _ _ (by simp [consumerOptions])).bind fun _ => hretry.bind fun _ => fails_ok _

theorem validate_fails (hK : K.Documented) (hp : cli.Parsed) : Fails cli.Explains cli.validate :=
  (clientResourcePolicy_fails hK hp).bind fun _ => schemaFetchRetryPolicy_fails.bind fun _ =>
    (streamRuntime_fails hK hp).bind fun _ => (consumerRuntime_fails hK hp).bind fun _ =>
    fails_ok _

/-- Startup succeeds exactly when no option is set outside its role and every value passes its
checks. Each field of both runtimes is then its own option's value or default, and a failure over
roles names an option that is set. -/
theorem validate_role_scoping (hK : K.Documented) (cli : Cli K) (hp : cli.Parsed) :
    ((∃ validated, cli.validate = .ok validated) ↔
      cli.Scoped .consume cli.consumerOptions ∧ cli.Scoped .stream cli.streamsOptions ∧
      cli.Accepted) ∧
    (∀ validated, cli.validate = .ok validated → cli.ValidatedFrom validated) ∧
    ∀ failure, cli.validate = .error failure → cli.Explains failure ∧
      ∀ option shown role, failure = .roleScoped option shown role →
        ∃ rest, failure.message = option ++ rest := by
  refine ⟨exists_validated hK hp, fun _ h => ((validate_eq_ok hK).mp h).2.2.2, fun failure h => ?_⟩
  refine ⟨validate_fails hK hp failure h, ?_⟩
  rintro option shown role rfl
  exact Failure.message_roleScoped option shown role

end Cli

def positiveSetting (default : ℕ) : ReadableSetting ℕ where
  Value := ℕ
  new value := if 0 < value then .ok value else .error "value must be positive"
  default := default
  get := id

def sampleKrabka : Krabka where
  Time := ℕ
  ByteSize := ℕ
  timeHuman time := toString time ++ "ns"
  sizeHuman size := toString size ++ "B"
  toStd := id
  secs n := n * 1000000000
  minutes n := n * 60000000000
  bytes := id
  mebibytes n := n * 1048576
  bytesI32 size := min size 2147483647
  AutoOffsetReset := Bool
  latest := true
  IsolationLevel := Bool
  readUncommitted := true
  Assignor := Bool
  range := true
  connectionDispatchQueueCapacity := positiveSetting 1024
  clientFrameMax := positiveSetting 104857600
  fetchMinBytes := positiveSetting 1
  consumerFetchMaxBytes := positiveSetting 52428800
  consumerFetchPartitionMaxBytes := positiveSetting 1048576
  consumerLeaveGroupTimeout := (positiveSetting 5000000000).toSetting
  consumerSubscriptionMetadataRefreshInterval := (positiveSetting 300000000000).toSetting
  clientDnsTimeout := (positiveSetting 5000000000).toSetting
  streamsPollInterval := (positiveSetting 100000000).toSetting
  streamsCommitInterval := (positiveSetting 30000000000).toSetting
  streamsRebalanceTimeout := (positiveSetting 60000000000).toSetting
  streamsLeaveHeartbeatTimeout := (positiveSetting 5000000000).toSetting
  streamsJoinRetryBackoff := (positiveSetting 100000000).toSetting
  streamsInteractiveQueryQueueCapacity := (positiveSetting 1024).toSetting
  streamsStateStoreCacheMaxBytes := (positiveSetting 10485760).toSetting
  consumerRetryPolicy :=
    { Value := RetryTimes ℕ
      new := fun times =>
        if times.startupInitialBackoff ≤ times.startupMaxBackoff ∧
            times.coordinatorInitialBackoff ≤ times.coordinatorMaxBackoff then .ok times
        else .error "initial backoff must not exceed max backoff"
      default := ⟨5000000000, 60000000000, 100000000, 5000000000, 60000000000, 100000000,
        5000000000⟩ }
  retryTimes := id
  schemaFetchRetryPolicy :=
    { Value := ℕ × ℕ
      new := fun backoffs =>
        if backoffs.1 ≤ backoffs.2 then .ok backoffs
        else .error "initial backoff must not exceed max backoff"
      default := (100000000, 5000000000) }
  initialBackoff := Prod.fst
  maxBackoff := Prod.snd

theorem positiveSetting_stable (default : ℕ) : (positiveSetting default).Stable := by
  intro value v h
  by_cases hvalue : 0 < value
  · have hnew : (positiveSetting default).new value = .ok value := if_pos hvalue
    have hv : value = v := Except.ok.inj (hnew.symm.trans h)
    rw [← hv]
    exact hnew
  · have hnew : (positiveSetting default).new value = .error "value must be positive" :=
      if_neg hvalue
    rw [hnew] at h
    cases h

theorem sampleKrabka_documented : sampleKrabka.Documented where
  dispatchQueueCapacity := positiveSetting_stable _
  frameMax := positiveSetting_stable _
  fetchMin := positiveSetting_stable _
  retryTimes_new := by
    intro times policy h
    simp only [sampleKrabka] at h
    split at h
    next => exact (Except.ok.inj h).symm
    next => cases h
  backoffs_new := by
    intro initial max policy h
    simp only [sampleKrabka] at h
    split at h
    next => cases Except.ok.inj h; exact ⟨rfl, rfl⟩
    next => cases h
  fetchMinDefault := ⟨_, rfl⟩
  fetchMaxDefault := ⟨_, rfl⟩
  fetchPartitionMaxDefault := ⟨_, rfl⟩

def sessionCli : Cli sampleKrabka where
  role := .consume
  clientDispatchQueueCapacity := 1024
  clientFrameMax := (104857600 : ℕ)
  consumerSessionTimeout := some (10000000000 : ℕ)

theorem sessionCli_parsed : sessionCli.Parsed where
  clientDispatchQueueCapacity := ⟨1024, rfl⟩
  clientFrameMax := ⟨(104857600 : ℕ), rfl⟩
  streamsFetchMin := by simp [sessionCli]

theorem validate_role_scoping_session : ∃ validated, sessionCli.validate = .ok validated ∧
    validated.consumerRuntime.sessionTimeout = (10000000000 : ℕ) := by
  have hscoping := Cli.validate_role_scoping sampleKrabka_documented sessionCli sessionCli_parsed
  obtain ⟨validated, h⟩ : ∃ validated, sessionCli.validate = .ok validated := ⟨_, rfl⟩
  exact ⟨validated, h, (hscoping.2.1 validated h).consumerRuntime.sessionTimeout⟩

end OrdersDemo
