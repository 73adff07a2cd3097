import Mathlib.Data.List.Infix
import Mathlib.Data.String.Basic

namespace OrdersDemo

inductive Verdict where
  | failed
  | pending
  deriving DecidableEq

def Verdict.word : Verdict → String
  | .failed => "FAILED"
  | .pending => "PENDING"

/-- What a shell variable holds, as the numeric tests of `[` tell it apart. -/
inductive Word where
  | text (word : String)
  | number (n : ℤ)
  deriving DecidableEq

def Word.print : Word → String
  | .text word => word
  | .number n => toString n

/-- A numeric test on a word that is no number is an error, which counts as false. -/
def Word.test (word : Word) (p : ℤ → Bool) : Bool :=
  match word with
  | .text _ => false
  | .number n => p n

/-- Service names of Compose have no blanks, and neither have the words of a list that the shell
has split. -/
def ServiceName := { name : String // name ≠ "" ∧ ' ' ∉ name.toList }

instance : DecidableEq ServiceName :=
  inferInstanceAs (DecidableEq { name : String // name ≠ "" ∧ ' ' ∉ name.toList })

theorem ServiceName.val_inj {a b : ServiceName} : a.val = b.val ↔ a = b :=
  Subtype.ext_iff.symm

structure Container where
  id : String
  service : ServiceName
  state : String
  exitCode : ℤ
  health : String
  restarts : ℕ
  created : String
  image : String
  imageId : String
  command : String
  filled : "" ∉ [id, state, health, created, image, imageId, command]

/-- What the calls to `docker`, `jq` and `grep` answer. -/
structure Docker where
  oneshots : List String
  /-- Whether `grep -x` finds the pattern to match the line. -/
  grepLine : String → String → Bool
  repoDigests : String → List String
  /-- The exit codes of the `die` events of a container since a time. -/
  dieExitCodes : String → String → List String
  /-- The image of a service in the configuration, or `unknown`. -/
  image : String → String
  command : String → String

/-- The lines that `printf` writes and a here-document holds: an empty text is one blank line. -/
def textLines {α : Type} (blank : α) (lines : List α) : List α :=
  if lines.isEmpty then [blank] else lines

structure Line where
  verdict : Verdict
  service : String
  reason : String
  state : String
  exitCode : Word
  health : String
  restarts : Word
  digest : String
  command : String
  deriving DecidableEq

def Line.print (line : Line) : String :=
  line.verdict.word ++ " service=" ++ line.service ++ " reason=\"" ++ line.reason ++
    "\" state=" ++ line.state ++ " exit_code=" ++ line.exitCode.print ++ " health=" ++
    line.health ++ " restarts=" ++ line.restarts.print ++ " digest=" ++ line.digest ++
    " command=\"" ++ line.command ++ "\"\n"

/-- The variables of the script, all global, and the lines written so far. -/
structure Vars where
  result : ℕ := 0
  seen : String := ""
  verdict : Option Verdict := none
  id : String := ""
  service : String := ""
  reason : String := ""
  state : String := ""
  exitCode : Word := .text ""
  health : String := ""
  restarts : Word := .text ""
  created : String := ""
  image : String := ""
  imageId : String := ""
  digest : String := ""
  command : String := ""
  stdout : List Line := []

def afterLastAt (word : String) : String :=
  String.ofList (word.toList.reverse.takeWhile (· ≠ '@')).reverse

/-- The test of a `case` pattern `*"part"*`. -/
def hasPart (word part : String) : Bool :=
  part.toList <:+: word.toList

namespace Vars

/-- Its first assignments overwrite the variables of the loop that calls it. -/
def report (verdict : Verdict) (service reason state : String) (exitCode : Word)
    (health : String) (restarts : Word) (digest command : String) (v : Vars) : Vars :=
  let v := { v with
    verdict := some verdict, service, reason, state, exitCode, health, restarts, digest, command }
  let v := { v with
    stdout := v.stdout ++ [⟨verdict, v.service, v.reason, v.state, v.exitCode, v.health,
      v.restarts, v.digest, v.command⟩] }
  if v.verdict = some .failed then { v with result := 1 }
  else if v.result = 0 then { v with result := 2 }
  else v

def reportCurrent (verdict : Verdict) (reason : String) (exitCode : Word) (v : Vars) : Vars :=
  v.report verdict v.service reason v.state exitCode v.health v.restarts v.digest v.command

def read (v : Vars) (row : Option Container) : Vars :=
  match row with
  | none => { v with
      id := "", service := "", state := "", exitCode := .text "", health := "",
      restarts := .text "", created := "", image := "", imageId := "", command := "" }
  | some c => { v with
      id := c.id, service := c.service.val, state := c.state, exitCode := .number c.exitCode,
      health := c.health, restarts := .number c.restarts, created := c.created, image := c.image,
      imageId := c.imageId, command := c.command }

end Vars

namespace Docker

variable (docker : Docker)

def isOneshot (service : String) : Bool :=
  (textLines "" docker.oneshots).any (docker.grepLine service)

def imageDigest (image imageId : String) : String :=
  if hasPart image "@sha256:" then afterLastAt image
  else
    let repoDigest := (docker.repoDigests imageId).headD ""
    if repoDigest ≠ "" then afterLastAt repoDigest else imageId

/-- The last `die` event keeps the exit code of the last stop. -/
def lastExitCode (id created : String) (exitCode : Word) : Word :=
  let code := (docker.dieExitCodes id created).getLastD ""
  if code = "" then exitCode else .text code

def judge (v : Vars) : Vars :=
  if docker.isOneshot v.service then
    if v.state = "exited" then
      if v.exitCode.test (· = 0) then v
      else v.reportCurrent .failed "one-shot service exited with a non-zero code" v.exitCode
    else if v.state = "created" ∨ v.state = "running" then
      v.reportCurrent .pending "one-shot service has not finished" v.exitCode
    else v.reportCurrent .failed "one-shot service is in an unexpected state" v.exitCode
  else if v.restarts.test (0 < ·) then
    v.reportCurrent .failed "long-running service restarted"
      (docker.lastExitCode v.id v.created v.exitCode)
  else if v.state ≠ "running" then
    v.reportCurrent .failed "long-running service is not running" v.exitCode
  else if v.health ≠ "none" ∧ v.health ≠ "healthy" then
    v.reportCurrent .pending "long-running service is not healthy" v.exitCode
  else v

/-- One turn of the container loop, after its `read`. -/
def checkRow (v : Vars) : Vars :=
  if v.id = "" then v
  else
    let v := { v with seen := v.seen ++ " " ++ v.service }
    let v := { v with digest := docker.imageDigest v.image v.imageId }
    docker.judge v

def checkContainer (v : Vars) (row : Option Container) : Vars :=
  docker.checkRow (v.read row)

/-- One turn of the loop over the expected services, for a word of its list. -/
def checkWord (v : Vars) (word : String) : Vars :=
  let v := { v with service := word }
  if hasPart (" " ++ v.seen ++ " ") (" " ++ v.service ++ " ") then v
  else
    let v := { v with image := docker.image v.service }
    let v := { v with command := docker.command v.service }
    v.report .failed v.service "expected service has no container" "missing" (.text "none") "none"
      (.number 0) (docker.imageDigest v.image v.image) v.command

def checkExpected (v : Vars) (service : ServiceName) : Vars :=
  docker.checkWord v service.val

/-- The script, for the containers it inspects and the services it expects. -/
def checkServices (containers : List Container) (expected : List ServiceName) : Vars :=
  let inspected := textLines none (containers.map some)
  expected.foldl docker.checkExpected (inspected.foldl docker.checkContainer {})

def exitStatus (containers : List Container) (expected : List ServiceName) : ℕ :=
  (docker.checkServices containers expected).result

end Docker

end OrdersDemo
