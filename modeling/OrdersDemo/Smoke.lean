import OrdersDemo.Library.Fields
import OrdersDemo.Library.Machine
import Mathlib.Data.String.Basic

namespace OrdersDemo

/-- The characters at which the shell splits an unquoted variable. -/
def blank (c : Char) : Bool :=
  c = ' ' || c = '\t' || c = '\n'

/-- The words of an unquoted variable. -/
def wordsOf (text : String) : List String :=
  (Fields.fields blank text.toList).map String.ofList

/-- `${text# }` -/
def dropSpace (text : String) : String :=
  match text.toList with
  | ' ' :: rest => String.ofList rest
  | _ => text

/-- `${name:-default}` -/
def orDefault (default : String) (value : Option String) : String :=
  match value with
  | some text => if text = "" then default else text
  | none => default

def smokeTargets : List String :=
  ["ready", "metrics", "logs", "traces", "cross-signal", "profiles", "gres", "demo-produce",
    "demo-stream", "demo-consume"]

def defaultTargets : String :=
  "ready metrics logs traces cross-signal profiles gres demo-produce demo-stream demo-consume"

def defaultReadyServices : String :=
  "metrics-distributor metrics-block-builder metrics-compactor metrics-querier " ++
    "traces-distributor traces-block-builder traces-metrics-generator traces-querier " ++
    "logs-distributor logs-block-builder logs-querier " ++
    "profiles-distributor profiles-block-builder profiles-querier"

/-- The environment variables of the script. -/
structure SmokeEnv where
  timeoutSeconds : Option ℤ := none
  targets : Option String := none
  readyServices : Option String := none

/-- A run of `check-services.sh`. -/
structure ServicesAnswer where
  status : ℕ
  report : String

/-- What the script finds from one test of its loop to the next: the clock, both service checks
and the check of each target. `curl` is the request to one ready service. -/
structure PassInput where
  clock : ℤ
  opening : ServicesAnswer
  curl : String → Bool
  check : String → Bool
  closing : ServicesAnswer

inductive SmokeAct where
  | services (status : ℕ)
  | check (target : String) (passed : Bool)
  | stdout (line : String)
  | stderr (line : String)
  deriving DecidableEq

/-- The variables of the script, what it has done, and its exit status. -/
structure SmokeState where
  deadline : ℤ
  pending : String
  readyServices : String
  notReady : String := ""
  servicesReady : Bool := false
  servicesReport : String := ""
  trace : List SmokeAct := []
  exited : Option ℕ := none

namespace SmokeState

def log (acts : List SmokeAct) (s : SmokeState) : SmokeState :=
  { s with trace := s.trace ++ acts }

def checkServices (answer : ServicesAnswer) (s : SmokeState) : SmokeState :=
  let s := { s.log [.services answer.status] with servicesReport := answer.report }
  match answer.status with
  | 0 => { s with servicesReady := true }
  | 2 => { s with servicesReady := false }
  | _ => { s.log [.stderr s.servicesReport, .stderr "failed: services"] with exited := some 1 }

/-- One word of a `for` loop that adds the failing words to a variable. -/
def addFailing (passes : String → Bool) (text word : String) : String :=
  if passes word then text else text ++ " " ++ word

def checkReady (curl : String → Bool) (s : SmokeState) : SmokeState × Bool :=
  let notReady := (wordsOf s.readyServices).foldl (addFailing curl) ""
  ({ s with notReady }, notReady = "")

def check (input : PassInput) (target : String) (s : SmokeState) : SmokeState × Bool :=
  if target = "ready" then s.checkReady input.curl else (s, input.check target)

/-- The body of the loop over the pending targets; `next` is its other variable. -/
def checkSignal (input : PassInput) (s : SmokeState × String) (signal : String) :
    SmokeState × String :=
  let (s, next) := s
  let (s, passed) := s.check input signal
  let s := s.log [.check signal passed]
  if passed then (s.log [.stdout ("ok " ++ signal)], next)
  else (s, next ++ " " ++ signal)

def checkSignals (input : PassInput) (s : SmokeState) : SmokeState :=
  let (s, next) := (wordsOf s.pending).foldl (checkSignal input) (s, "")
  { s with pending := dropSpace next }

/-- `[ "$services_ready" = true ] || ...` after the loop. -/
def nameServices (s : SmokeState) : SmokeState :=
  if s.servicesReady then s
  else { s.log [.stderr s.servicesReport] with pending := s.pending ++ " services" }

/-- `[ -z "$not_ready" ] || ...` after the loop. -/
def logNotReady (s : SmokeState) : SmokeState :=
  if s.notReady = "" then s else s.log [.stderr ("not ready:" ++ s.notReady)]

def finish (s : SmokeState) : SmokeState :=
  if s.pending ≠ "" ∨ s.servicesReady = false then
    let s := s.nameServices.logNotReady
    { s.log [.stderr ("failed: " ++ dropSpace s.pending)] with exited := some 1 }
  else { s with exited := some 0 }

def close (input : PassInput) (s : SmokeState) : SmokeState :=
  let s := s.checkServices input.closing
  if s.exited.isSome then s
  else if s.servicesReady then (s.log [.stdout "ok services"]).finish
  else s

/-- The body of the main loop. -/
def pass (input : PassInput) (s : SmokeState) : SmokeState :=
  let s := s.checkServices input.opening
  if s.exited.isSome then s
  else
    let s := s.checkSignals input
    if s.pending = "" then s.close input else s

def step (s : SmokeState) (input : PassInput) : SmokeState :=
  if s.exited.isSome then s
  else if input.clock < s.deadline then s.pass input
  else s.finish

end SmokeState

namespace SmokeEnv

def pending (env : SmokeEnv) : String :=
  orDefault defaultTargets env.targets

def readyText (env : SmokeEnv) : String :=
  orDefault defaultReadyServices env.readyServices

def deadline (env : SmokeEnv) (clock : ℤ) : ℤ :=
  clock + env.timeoutSeconds.getD 300

def start (env : SmokeEnv) (clock : ℤ) : SmokeState :=
  let s : SmokeState :=
    { deadline := env.deadline clock
      pending := env.pending
      readyServices := env.readyText }
  match (wordsOf s.pending).find? (· ∉ smokeTargets) with
  | some target =>
    { s.log [.stderr ("unknown smoke target: " ++ target)] with exited := some 1 }
  | none => s

end SmokeEnv

/-- `smoke.sh`, from one test of its loop to the next. -/
def smoke (env : SmokeEnv) (clock : ℤ) : Machine SmokeState PassInput where
  init := env.start clock
  step := SmokeState.step

end OrdersDemo
