import Mathlib.Logic.Function.Basic
import OrdersDemo.Library.Fields
import OrdersDemo.Library.Shell
import OrdersDemo.ServiceText

namespace OrdersDemo

inductive QualifyPhase where
  | before
  | after
  deriving DecidableEq

def QualifyPhase.name : QualifyPhase → String
  | .before => "before"
  | .after => "after"

inductive SmokeRun where
  | before
  | afterRecovery
  | final
  deriving DecidableEq

def SmokeRun.name : SmokeRun → String
  | .before => "before"
  | .afterRecovery => "after-recovery"
  | .final => "final"

def SmokeRun.targets : SmokeRun → Option String
  | .before => none
  | .afterRecovery => none
  | .final => some "ready"

inductive DemoService where
  | produce
  | stream
  | consume
  deriving DecidableEq

def DemoService.name : DemoService → String
  | .produce => "demo-produce"
  | .stream => "demo-stream"
  | .consume => "demo-consume"

/-- The programs that the script runs, by the place where it runs them. -/
inductive QualifyCall where
  | makeDirectory
  | gitRevision
  | dependencies
  | sortUnique
  | composeLogs
  | composeImages
  | composeConfig
  | checksums
  | consumerGroup (phase : QualifyPhase) (group : String)
  | smoke (run : SmokeRun)
  | showLog (run : SmokeRun)
  | uuidReadable
  | uuidFile
  | uuidgenFound
  | uuidgen
  | opensslRandom
  | postTraces
  | postLogs
  | metrics (phase : QualifyPhase)
  | logLabels (phase : QualifyPhase)
  | seedLog (phase : QualifyPhase)
  | seedLogFound (phase : QualifyPhase)
  | seedTrace (phase : QualifyPhase)
  | searchTraces (phase : QualifyPhase)
  | profileTypes (phase : QualifyPhase)
  | serviceMetrics (phase : QualifyPhase) (service : DemoService)
  | killBlockBuilder
  | restartBroker
  | startBlockBuilder
  | recreateGres
  | stopQuerier
  | alerts
  | alertActive
  | alertsFiring
  | startQuerier
  | alertsResolved
  | pause
  deriving DecidableEq

/-- What the script runs on: a program answers its words and its input with a status and an
output, `date` does not fail, and `awk` prints something for the sum of some numbers. -/
structure Host (W : Type) where
  run : List String → String → W → (ℕ × String) × W
  epoch : W → ℕ × W
  sum : List ℕ → String

structure QualifySettings where
  artifactDir : String
  signalTimeout : ℕ := 120
  alertTimeout : ℕ := 180

/-- The variables of the script, the files in its directory, and the programs it has run.
`captured` is what the last of them printed, and `deadline` stands for the deadline of the loop
that runs. -/
structure QualifyState (W : Type) where
  world : W
  log : List (QualifyCall × ℕ) := []
  files : String → String := fun _ => ""
  captured : String := ""
  epoch : ℕ := 0
  started : ℕ := 0
  finished : ℕ := 0
  lastStatus : ℕ := 0
  smokeStatus : ℕ := 0
  deadline : ℕ := 0
  traceId : String := ""
  rootSpanId : String := ""
  childSpanId : String := ""
  beforeOffset : String := ""
  afterOffset : String := ""
  stdout : List String := []
  stderr : List String := []

namespace QualifyCall

def tenant : List String :=
  ["-H", "X-Scope-OrgID: demo"]

def postSeed (url : String) : List String :=
  ["docker", "compose", "exec", "-T", "demo-produce", "curl", "-fsS", "-H",
    "content-type: application/json", "--data-binary", "@-", url]

def alertsUrl : String := "http://localhost:3000/api/alertmanager/grafana/api/v2/alerts"

/-- The words of the command, with the environment that it is given. -/
def words {W : Type} (settings : QualifySettings) (s : QualifyState W) : QualifyCall → List String
  | .makeDirectory => ["mkdir", "-p", settings.artifactDir]
  | .gitRevision => ["git", "-C", "../..", "rev-parse", "HEAD"]
  | .dependencies => ["grep", "git = \"https://github.com/krabka-io/", "../../Cargo.toml"]
  | .sortUnique => ["sort", "-u"]
  | .composeLogs => ["docker", "compose", "logs", "--no-color"]
  | .composeImages => ["docker", "compose", "config", "--images"]
  | .composeConfig => ["docker", "compose", "config"]
  | .checksums => ["cd", settings.artifactDir, "&&", "sha256sum", "./*"]
  | .consumerGroup _ group =>
    ["docker", "compose", "run", "--rm", "--no-deps", "--entrypoint",
      "/opt/kafka/bin/kafka-consumer-groups.sh", "topic-setup", "--bootstrap-server",
      "broker:9092", "--describe", "--group", group]
  | .smoke run =>
    match run.targets with
    | some targets => ["KRABKA_SMOKE_TARGETS=" ++ targets, "./smoke.sh"]
    | none => ["./smoke.sh"]
  | .showLog run => ["cat", settings.artifactDir ++ "/" ++ run.name ++ "-smoke.log"]
  | .uuidReadable => ["[", "-r", "/proc/sys/kernel/random/uuid", "]"]
  | .uuidFile => ["tr", "-d", "-", "</proc/sys/kernel/random/uuid"]
  | .uuidgenFound => ["command", "-v", "uuidgen"]
  | .uuidgen => ["uuidgen", "|", "tr", "-d", "-", "|", "tr", "[:upper:]", "[:lower:]"]
  | .opensslRandom => ["openssl", "rand", "-hex", "16"]
  | .postTraces => postSeed "http://alloy:4318/v1/traces"
  | .postLogs => postSeed "http://alloy:4318/v1/logs"
  | .metrics _ => ["curl", "-fsS"] ++ tenant ++
      ["http://localhost:9090/api/v1/query?query=krabka_broker_api_requests_total"]
  | .logLabels _ => ["curl", "-fsS"] ++ tenant ++ ["http://localhost:3100/loki/api/v1/labels"]
  | .seedLog _ => ["curl", "-fsS"] ++ tenant ++
      ["--get", "http://localhost:3100/loki/api/v1/query_range", "--data-urlencode",
        "query=\x7bservice_name=\"m20-qualification\"\x7d |= " ++
          "\"M20 observability recovery qualification " ++ s.traceId ++ "\""]
  | .seedLogFound phase =>
    ["jq", "-e", ".status == \"success\" and (.data.result | length > 0)",
      settings.artifactDir ++ "/seed-log-" ++ phase.name ++ ".json"]
  | .seedTrace _ => ["curl", "-fsS"] ++ tenant ++
      ["http://localhost:3200/api/traces/" ++ s.traceId]
  | .searchTraces _ => ["curl", "-fsS"] ++ tenant ++
      ["--get", "http://localhost:3200/api/search", "--data-urlencode", "start=0",
        "--data-urlencode", "end=" ++ toString s.epoch, "--data-urlencode",
        "q=\x7b resource.service.name != \"\" \x7d"]
  | .profileTypes _ => ["curl", "-fsS"] ++ tenant ++
      ["-H", "content-type: application/json", "-d", "\x7b\x7d",
        "http://localhost:4040/querier.v1.QuerierService/ProfileTypes"]
  | .serviceMetrics _ service =>
    ["docker", "compose", "exec", "-T", service.name, "curl", "-fsS",
      "http://localhost:9404/metrics"]
  | .killBlockBuilder => ["docker", "compose", "kill", "-s", "KILL", "traces-block-builder"]
  | .restartBroker => ["docker", "compose", "restart", "broker"]
  | .startBlockBuilder => ["docker", "compose", "up", "-d", "traces-block-builder"]
  | .recreateGres =>
    ["docker", "compose", "up", "-d", "--force-recreate", "--no-deps", "gres", "gres-workload"]
  | .stopQuerier => ["docker", "compose", "stop", "traces-querier"]
  | .alerts => ["curl", "-fsS", alertsUrl]
  | .alertActive =>
    ["jq", "-e", "--arg", "job", "traces-querier",
      "any(.[]; .labels.alertname == \"Observability service down\" and .labels.job == $job)"]
  | .alertsFiring => ["curl", "-fsS", alertsUrl]
  | .startQuerier => ["docker", "compose", "start", "traces-querier"]
  | .alertsResolved => ["curl", "-fsS", alertsUrl]
  | .pause => ["sleep", "5"]

def file : QualifyCall → Option String
  | .gitRevision => some "source-revisions.txt"
  | .sortUnique => some "source-revisions.txt"
  | .composeLogs => some "compose.log"
  | .composeImages => some "images.txt"
  | .composeConfig => some "compose.yaml"
  | .checksums => some "SHA256SUMS"
  | .consumerGroup phase _ => some ("offsets-" ++ phase.name ++ ".txt")
  | .smoke run => some (run.name ++ "-smoke.log")
  | .postTraces => some "seed-traces-response.json"
  | .postLogs => some "seed-logs-response.json"
  | .metrics phase => some ("metrics-" ++ phase.name ++ ".json")
  | .logLabels phase => some ("logs-" ++ phase.name ++ ".json")
  | .seedLog phase => some ("seed-log-" ++ phase.name ++ ".json")
  | .seedTrace phase => some ("seed-trace-" ++ phase.name ++ ".pb")
  | .searchTraces phase => some ("traces-" ++ phase.name ++ ".json")
  | .profileTypes phase => some ("profiles-" ++ phase.name ++ ".json")
  | .serviceMetrics phase service => some (service.name ++ "-" ++ phase.name ++ ".prom")
  | .alertsFiring => some "alerts-firing.json"
  | .alertsResolved => some "alerts-resolved.json"
  | _ => none

/-- Whether the command writes behind what the file holds. -/
def appends : QualifyCall → Bool
  | .gitRevision => true
  | .sortUnique => true
  | .consumerGroup _ _ => true
  | _ => false

/-- What a command reads. -/
def input {W : Type} (s : QualifyState W) : QualifyCall → String
  | .sortUnique => s.captured
  | .postTraces => s.files "seed-traces.json"
  | .postLogs => s.files "seed-logs.json"
  | .seedLogFound phase => s.files ("seed-log-" ++ phase.name ++ ".json")
  | .alertActive => s.captured
  | _ => ""

end QualifyCall

/-- The offset in the fourth field of a line that `awk` reads. -/
def lineOffset (line : List Char) : Option ℕ :=
  (Fields.fields (fun c => c = ' ' || c = '\t') line)[3]?.bind readDigits

def ledgerOffsets (text : String) : List ℕ :=
  (text.toList.splitOn '\n').filterMap lineOffset

/-- `offset_sum`, for the text of its file. -/
def offsetSum {W : Type} (host : Host W) (text : String) : Option String :=
  if ledgerOffsets text ≠ [] then some (host.sum (ledgerOffsets text)) else none

/-- The status of `[ after -ge before ]`. -/
def testNotBelow (after before : String) : ℕ :=
  match readInt after.toList, readInt before.toList with
  | some after, some before => if before ≤ after then 0 else 1
  | _, _ => 2

/-- `cut -c first-last` -/
def cutColumns (first last : ℕ) (text : String) : String :=
  String.ofList (['\n'].intercalate ((text.toList.splitOn '\n').map fun line =>
    (line.take last).drop (first - 1)))

namespace QualifyState

variable {W : Type}

def write (s : QualifyState W) (name text : String) : QualifyState W :=
  { s with files := Function.update s.files name text }

/-- Where the output of a command goes. -/
def save (s : QualifyState W) (c : QualifyCall) (output : String) : QualifyState W :=
  match c.file with
  | none => s
  | some name => s.write name (if c.appends then s.files name ++ output else output)

def nanos (s : QualifyState W) : ℕ :=
  s.epoch * 1000000000

def seedTraces (s : QualifyState W) : String :=
  "\x7b\"resourceSpans\":[\x7b\"resource\":\x7b\"attributes\":[\x7b" ++
    "\"key\":\"service.name\",\"value\":\x7b" ++
    "\"stringValue\":\"m20-qualification-producer\"\x7d\x7d]\x7d,\"scopeSpans\":[\x7b" ++
    "\"spans\":[\x7b\"traceId\":\"" ++ s.traceId ++ "\",\"spanId\":\"" ++ s.rootSpanId ++
    "\",\"name\":\"m20_qualification_root\",\"kind\":3,\"startTimeUnixNano\":\"" ++
    toString (nanos s) ++ "\",\"endTimeUnixNano\":\"" ++ toString (nanos s + 1000000) ++
    "\"\x7d]\x7d]\x7d,\x7b\"resource\":\x7b\"attributes\":[\x7b\"key\":\"service.name\"," ++
    "\"value\":\x7b\"stringValue\":\"m20-qualification-consumer\"\x7d\x7d]\x7d," ++
    "\"scopeSpans\":[\x7b\"spans\":[\x7b\"traceId\":\"" ++ s.traceId ++ "\",\"spanId\":\"" ++
    s.childSpanId ++ "\",\"parentSpanId\":\"" ++ s.rootSpanId ++
    "\",\"name\":\"m20_qualification_recovery_child\",\"kind\":4,\"startTimeUnixNano\":\"" ++
    toString (nanos s) ++ "\",\"endTimeUnixNano\":\"" ++ toString (nanos s + 1000000) ++
    "\"\x7d]\x7d]\x7d]\x7d\n"

def seedLogs (s : QualifyState W) : String :=
  "\x7b\"resourceLogs\":[\x7b\"resource\":\x7b\"attributes\":[\x7b\"key\":\"service.name\"," ++
    "\"value\":\x7b\"stringValue\":\"m20-qualification\"\x7d\x7d]\x7d,\"scopeLogs\":[\x7b" ++
    "\"logRecords\":[\x7b\"timeUnixNano\":\"" ++ toString (nanos s) ++
    "\",\"severityText\":\"INFO\",\"body\":\x7b" ++
    "\"stringValue\":\"M20 observability recovery qualification " ++ s.traceId ++
    "\"\x7d\x7d]\x7d]\x7d]\x7d\n"

/-- `finish` tells the times and the status. -/
def resultLine (s : QualifyState W) (code : ℕ) : String :=
  "\x7b\"started_at_epoch\":" ++ toString s.started ++
    ",\"finished_at_epoch\":" ++ toString s.finished ++
    ",\"recovery_seconds\":" ++ toString ((s.finished : ℤ) - s.started) ++
    ",\"exit_status\":" ++ toString code ++ "\x7d\n"

def reconciliation (s : QualifyState W) : String :=
  "before_offset_sum=" ++ s.beforeOffset ++ "\nafter_offset_sum=" ++ s.afterOffset ++ "\n"

end QualifyState

def ledgerGroups : List String :=
  ["krabka-metrics-block-builder", "krabka-traces-block-builder",
    "krabka-profiles-block-builder", "krabka-observability-block-builder"]

namespace Qualify

variable {W : Type} (host : Host W) (settings : QualifySettings) (fuel : ℕ)

def call (c : QualifyCall) : Shell (QualifyState W) :=
  Shell.run fun s =>
    let answer := host.run (c.words settings s) (c.input s) s.world
    (answer.1.1, { s.save c answer.1.2 with
      world := answer.2
      log := s.log ++ [(c, answer.1.1)]
      captured := answer.1.2
      lastStatus := answer.1.1 })

/-- `$(date +%s)` -/
def readDate : Shell (QualifyState W) :=
  Shell.assign fun s => { s with epoch := (host.epoch s.world).1, world := (host.epoch s.world).2 }

def write (name : String) (text : QualifyState W → String) : Shell (QualifyState W) :=
  Shell.assign fun s => s.write name (text s)

def fail (message : String) : Shell (QualifyState W) :=
  .block [Shell.assign fun s => { s with stderr := s.stderr ++ [message] }, .jump (.exit 1)]

def finish (code : ℕ) : Shell (QualifyState W) :=
  .block [
    .either (call host settings .composeLogs) .skip,
    .either (call host settings .composeImages) .skip,
    .either (call host settings .composeConfig) .skip,
    readDate host,
    .assign fun s => { s with finished := s.epoch },
    write "result.json" fun s => s.resultLine code,
    call host settings .checksums,
    .jump (.exit code)]

def ledger (phase : QualifyPhase) : Shell (QualifyState W) :=
  .block [
    write ("offsets-" ++ phase.name ++ ".txt") fun _ => "",
    .forEach ledgerGroups fun group =>
      .either (call host settings (.consumerGroup phase group)) .skip]

def runSmoke (run : SmokeRun) : Shell (QualifyState W) :=
  .func (.block [
    .assign fun s => { s with smokeStatus := 0 },
    .either (call host settings (.smoke run))
      (.assign fun s => { s with smokeStatus := s.lastStatus }),
    call host settings (.showLog run),
    .leave fun s => .ret s.smokeStatus])

def setTraceId : Shell (QualifyState W) :=
  .assign fun s => { s with traceId := String.ofList (substitute s.captured.toList) }

def seedQualificationSignals : Shell (QualifyState W) :=
  .block [
    readDate host,
    .ifElse (call host settings .uuidReadable)
      (.seq (call host settings .uuidFile) setTraceId)
      (.ifElse (call host settings .uuidgenFound)
        (.seq (call host settings .uuidgen) setTraceId)
        (.seq (call host settings .opensslRandom) setTraceId)),
    .assign fun s => { s with
      rootSpanId := cutColumns 1 16 s.traceId
      childSpanId := cutColumns 17 32 s.traceId },
    write "seed-trace-id.txt" fun s => s.traceId ++ "\n",
    write "seed-traces.json" QualifyState.seedTraces,
    write "seed-logs.json" QualifyState.seedLogs,
    call host settings .postTraces,
    call host settings .postLogs]

/-- The loops with a deadline: they go on while `waiting` succeeds. -/
def poll (timeout : ℕ) (waiting : Shell (QualifyState W)) (message : String) :
    Shell (QualifyState W) :=
  .block [
    readDate host,
    .assign fun s => { s with deadline := s.epoch + timeout },
    .loop fuel waiting (.block [
      .either (.seq (readDate host) (.test fun s => s.epoch < s.deadline)) (fail message),
      call host settings .pause])]

def captureQueries (phase : QualifyPhase) : Shell (QualifyState W) :=
  .block [
    call host settings (.metrics phase),
    call host settings (.logLabels phase),
    poll host settings fuel settings.signalTimeout
      (.either (.neg (call host settings (.seedLog phase)))
        (.neg (call host settings (.seedLogFound phase))))
      ("seeded qualification log not queryable during " ++ phase.name),
    poll host settings fuel settings.signalTimeout
      (.neg (call host settings (.seedTrace phase)))
      ("seeded qualification trace not queryable during " ++ phase.name),
    .test fun s => s.files ("seed-trace-" ++ phase.name ++ ".pb") ≠ "",
    readDate host,
    call host settings (.searchTraces phase),
    call host settings (.profileTypes phase),
    .forEach [.produce, .stream, .consume] fun service =>
      call host settings (.serviceMetrics phase service)]

/-- The status of `curl | has_service_down_alert traces-querier`. -/
def serviceDownAlert : Shell (QualifyState W) :=
  .pipe (call host settings .alerts) (call host settings .alertActive)

def sumOffsets (phase : QualifyPhase) (set : String → QualifyState W → QualifyState W) :
    Shell (QualifyState W) :=
  Shell.run fun s =>
    match offsetSum host (s.files ("offsets-" ++ phase.name ++ ".txt")) with
    | some sum => (0, set sum s)
    | none => (1, s)

/-- The script from `seed_qualification_signals` on. -/
def qualification : Shell (QualifyState W) :=
  .block [
    seedQualificationSignals host settings,
    runSmoke host settings .before,
    captureQueries host settings fuel .before,
    ledger host settings .before,
    call host settings .killBlockBuilder,
    call host settings .restartBroker,
    call host settings .startBlockBuilder,
    call host settings .recreateGres,
    runSmoke host settings .afterRecovery,
    captureQueries host settings fuel .after,
    ledger host settings .after,
    sumOffsets host .before fun sum s => { s with beforeOffset := sum },
    sumOffsets host .after fun sum s => { s with afterOffset := sum },
    .run fun s => (testNotBelow s.afterOffset s.beforeOffset, s),
    write "reconciliation.txt" QualifyState.reconciliation,
    call host settings .stopQuerier,
    poll host settings fuel settings.alertTimeout (.neg (serviceDownAlert host settings))
      "service-down alert did not fire",
    call host settings .alertsFiring,
    call host settings .startQuerier,
    poll host settings fuel settings.alertTimeout (serviceDownAlert host settings)
      "service-down alert did not resolve",
    call host settings .alertsResolved,
    runSmoke host settings .final,
    .assign fun s => { s with stdout := s.stdout ++ [settings.artifactDir] }]

/-- `qualify-failover.sh`, where no loop makes `fuel` turns. -/
def qualifyFailover : Shell (QualifyState W) :=
  .block [
    call host settings .makeDirectory,
    readDate host,
    .assign fun s => { s with started := s.epoch },
    write "source-revisions.txt" fun _ => "krabka-o11y-demo ",
    call host settings .gitRevision,
    .pipe (call host settings .dependencies) (call host settings .sortUnique),
    .trapped (finish host settings) (qualification host settings fuel)]

end Qualify

end OrdersDemo
