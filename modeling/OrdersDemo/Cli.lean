import Mathlib.Data.PNat.Basic
import OrdersDemo.Library.Checked
import OrdersDemo.Metrics

namespace OrdersDemo

/-- A type of the client crates for one checked setting. -/
structure Setting (Input : Type) where
  Value : Type
  new : Input → Except String Value
  default : Value

/-- A setting whose checked number can be read back. -/
structure ReadableSetting (Input : Type) extends Setting Input where
  get : Value → Input

/-- `ConsumerRetryPolicy::new` takes seven times, in this order. -/
structure RetryTimes (Time : Type) where
  startupAttemptTimeout : Time
  startupDeadline : Time
  startupInitialBackoff : Time
  startupMaxBackoff : Time
  coordinatorRetryTimeout : Time
  coordinatorInitialBackoff : Time
  coordinatorMaxBackoff : Time
  deriving DecidableEq

/-- What the program uses of the client crates and of their units. -/
structure Krabka where
  Time : Type
  ByteSize : Type
  timeHuman : Time → String
  sizeHuman : ByteSize → String
  toStd : Time → Duration
  secs : ℕ → Time
  minutes : ℕ → Time
  bytes : ℕ → ByteSize
  mebibytes : ℕ → ByteSize
  bytesI32 : ByteSize → ℤ
  AutoOffsetReset : Type
  latest : AutoOffsetReset
  IsolationLevel : Type
  readUncommitted : IsolationLevel
  Assignor : Type
  range : Assignor
  connectionDispatchQueueCapacity : ReadableSetting ℕ
  clientFrameMax : ReadableSetting ByteSize
  fetchMinBytes : ReadableSetting ByteSize
  consumerFetchMaxBytes : ReadableSetting ByteSize
  consumerFetchPartitionMaxBytes : ReadableSetting ByteSize
  consumerLeaveGroupTimeout : Setting Duration
  consumerSubscriptionMetadataRefreshInterval : Setting Duration
  clientDnsTimeout : Setting Time
  streamsPollInterval : Setting Duration
  streamsCommitInterval : Setting Duration
  streamsRebalanceTimeout : Setting Duration
  streamsLeaveHeartbeatTimeout : Setting Duration
  streamsJoinRetryBackoff : Setting Duration
  streamsInteractiveQueryQueueCapacity : Setting ℕ
  streamsStateStoreCacheMaxBytes : Setting ByteSize
  consumerRetryPolicy : Setting (RetryTimes Time)
  retryTimes : consumerRetryPolicy.Value → RetryTimes Time
  schemaFetchRetryPolicy : Setting (Time × Time)
  initialBackoff : schemaFetchRetryPolicy.Value → Time
  maxBackoff : schemaFetchRetryPolicy.Value → Time

inductive Role where
  | produce
  | stream
  | consume
  deriving DecidableEq

def Role.name : Role → String
  | .produce => "produce"
  | .stream => "stream"
  | .consume => "consume"

/-- The fields of a parsed `Cli` that the validation in `main` reads. -/
structure Cli (K : Krabka) where
  role : Role
  clientDispatchQueueCapacity : ℕ
  clientFrameMax : K.ByteSize
  schemaFetchRetryInitialBackoff : Option K.Time := none
  schemaFetchRetryMaxBackoff : Option K.Time := none
  consumerLeaveGroupTimeout : Option K.Time := none
  consumerSubscriptionMetadataRefreshInterval : Option K.Time := none
  consumerStartupAttemptTimeout : Option K.Time := none
  consumerStartupDeadline : Option K.Time := none
  consumerStartupInitialBackoff : Option K.Time := none
  consumerStartupMaxBackoff : Option K.Time := none
  consumerCoordinatorRetryTimeout : Option K.Time := none
  consumerCoordinatorInitialBackoff : Option K.Time := none
  consumerCoordinatorMaxBackoff : Option K.Time := none
  consumerFetchMin : Option K.ByteSize := none
  consumerFetchMax : Option K.ByteSize := none
  consumerFetchPartitionMax : Option K.ByteSize := none
  consumerSessionTimeout : Option K.Time := none
  consumerRebalanceTimeout : Option K.Time := none
  consumerHeartbeatInterval : Option K.Time := none
  consumerRequestTimeout : Option K.Time := none
  consumerAutoOffsetReset : Option K.AutoOffsetReset := none
  consumerIsolationLevel : Option K.IsolationLevel := none
  consumerAssignor : Option K.Assignor := none
  streamsBrokerDnsTimeout : Option K.Time := none
  streamsPollInterval : Option K.Time := none
  streamsCommitInterval : Option K.Time := none
  streamsRebalanceTimeout : Option K.Time := none
  streamsLeaveHeartbeatTimeout : Option K.Time := none
  streamsJoinRetryBackoff : Option K.Time := none
  streamsInteractiveQueryQueueCapacity : Option ℕ+ := none
  streamsStateStoreCacheMax : Option K.ByteSize := none
  streamsFetchMin : Option K.ByteSize := none

/-- How the validation ends without a result: with an `InvalidInput` error, or in an `expect` on a
value that the parser has checked before. -/
inductive Failure where
  | roleScoped (option : String) (shown : Option String) (role : Role)
  | rejected (error : String)
  | fetchMinAboveMax
  | panicked (expectation : String)
  deriving DecidableEq

def Failure.message : Failure → String
  | .roleScoped option none role => option ++ " is only valid with --role " ++ role.name
  | .roleScoped option (some shown) role =>
    option ++ " (" ++ shown ++ ") is only valid with --role " ++ role.name
  | .rejected error => error
  | .fetchMinAboveMax => "consumer fetch min must not exceed consumer fetch max"
  | .panicked expectation => expectation

theorem Failure.message_roleScoped (option : String) (shown : Option String) (role : Role) :
    ∃ rest, (Failure.roleScoped option shown role).message = option ++ rest := by
  cases shown with
  | none => exact ⟨_, String.append_assoc ..⟩
  | some shown =>
    refine ⟨" (" ++ shown ++ ") is only valid with --role " ++ role.name, ?_⟩
    simp only [Failure.message, String.append_assoc]

/-- An option as the role check sees it: its name, and when it is set what the error shows of its
value, if anything. -/
structure ScopedOption where
  name : String
  value : Option (Option String)
  deriving DecidableEq

namespace Cli

variable {K : Krabka}

/-- The role check that every `effective_*` function makes first, by a scan of its options. -/
def scope (cli : Cli K) (role : Role) (configured : List ScopedOption) : Except Failure Unit :=
  if cli.role ≠ role then
    match configured.findSome? fun o => o.value.map (o.name, ·) with
    | some (name, shown) => .error (.roleScoped name shown role)
    | none => .ok ()
  else .ok ()

end Cli

/-- The value through the typed constructor when set, the default otherwise. -/
def Setting.effective {Input : Type} (setting : Setting Input) (value : Option Input) :
    Except Failure setting.Value :=
  match value with
  | none => .ok setting.default
  | some value => (setting.new value).mapError .rejected

def Setting.expect {Input : Type} (setting : Setting Input) (value : Input)
    (expectation : String) : Except Failure setting.Value :=
  (setting.new value).mapError fun _ => .panicked expectation

def ReadableSetting.checked {Input : Type} (setting : ReadableSetting Input) (value : Input) :
    Except Failure Input :=
  ((setting.new value).mapError .rejected).map setting.get

/-- What a value parser of the command line does with a number it has read. -/
def ReadableSetting.parse {Input : Type} (setting : ReadableSetting Input) (value : Input) :
    Except String Input :=
  (setting.new value).map setting.get

namespace Krabka

variable (K : Krabka)

def parseClientDispatchQueueCapacity (value : ℕ) : Except String ℕ :=
  K.connectionDispatchQueueCapacity.parse value

def parseClientFrameMax (value : K.ByteSize) : Except String K.ByteSize :=
  K.clientFrameMax.parse value

def parseFetchMin (value : K.ByteSize) : Except String K.ByteSize :=
  K.fetchMinBytes.parse value

def timeOption (name : String) (value : Option K.Time) : ScopedOption :=
  ⟨name, value.map fun value => some (K.timeHuman value)⟩

def sizeOption (name : String) (value : Option K.ByteSize) : ScopedOption :=
  ⟨name, value.map fun value => some (K.sizeHuman value)⟩

end Krabka

def countOption (name : String) (value : Option ℕ+) : ScopedOption :=
  ⟨name, value.map fun value => some (toString value.val)⟩

def bareOption {α : Type} (name : String) (value : Option α) : ScopedOption :=
  ⟨name, value.map fun _ => none⟩

end OrdersDemo
