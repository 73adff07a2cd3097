import OrdersDemo.OneshotNames
import OrdersDemo.RowRoundTrip
import OrdersDemo.ServiceGate
import OrdersDemo.SmokePasses

namespace OrdersDemo

def intMax : ℤ := 2 ^ 63 - 1

def readDigits (digits : List Char) : Option ℕ :=
  if digits ≠ [] ∧ digits.all Char.isDigit then some (Nat.ofDigitChars 10 digits 0) else none

def readSigned : List Char → Option ℤ
  | '-' :: digits => (readDigits digits).map fun n : ℕ => -(n : ℤ)
  | digits => (readDigits digits).map fun n : ℕ => (n : ℤ)

/-- The number that a numeric test of `[` makes of a word, out of the numbers that `jq` prints. -/
def readInt (text : List Char) : Option ℤ :=
  (readSigned text).filter fun n => -intMax - 1 ≤ n ∧ n ≤ intMax

def Word.ofText (text : String) : Word :=
  match readInt text.toList with
  | some n => .number n
  | none => .text text

def Vars.readText (v : Vars) (row : Row) : Vars :=
  { v with
    id := row.id, service := row.service, state := row.state
    exitCode := Word.ofText row.exitCode, health := row.health
    restarts := Word.ofText row.restarts, created := row.created, image := row.image
    imageId := row.imageId, command := row.command }

namespace Docker

variable (docker : Docker)

/-- One turn of the container loop, for a line of its here-document. -/
def checkLine (v : Vars) (line : List Char) : Vars :=
  docker.checkRow (v.readText (readRow line))

/-- The script, for the texts of its variables `inspected` and `expected`. -/
def checkTexts (inspected : List Char) (expected : String) : Vars :=
  (wordsOf expected).foldl docker.checkWord ((inspected.splitOn '\n').foldl docker.checkLine {})

end Docker

namespace ComposeConfig

variable (config : ComposeConfig)

/-- `select(.value.restart != "no") | .key` -/
def longRunning : List String :=
  (config.services.filter (·.restart ≠ some "no")).map (·.name)

def namesText (names : List String) : List Char :=
  substitute (jqLines (names.map String.toList))

/-- The answers of `jq` and `grep`, where `is_oneshot` reads the lines of the variable
`oneshots`. -/
def scriptDocker (base : Docker) : Docker :=
  { config.docker base with
    oneshots := ((namesText config.oneshots).splitOn '\n').map String.ofList }

def expectedText (smokeServices : Option String) : String :=
  orDefault (String.ofList (namesText config.longRunning)) smokeServices

end ComposeConfig

/-- `check-services.sh`, for a configuration, the value of `KRABKA_SMOKE_SERVICES` and what
`docker inspect` answers. -/
def checkServicesScript (config : ComposeConfig) (base : Docker) (smokeServices : Option String)
    (containers : List InspectedContainer) : Vars :=
  (config.scriptDocker base).checkTexts (inspectedText (containers.map (·.row)))
    (config.expectedText smokeServices)

section Numbers

theorem readDigits_toDigits (n : ℕ) : readDigits (Nat.toDigits 10 n) = some n := by
  have hdigits : (Nat.toDigits 10 n).all Char.isDigit = true :=
    List.all_eq_true.mpr fun c hc => Nat.isDigit_of_mem_toDigits (by decide) (by decide) hc
  rw [readDigits, if_pos ⟨Nat.toDigits_ne_nil, hdigits⟩, Nat.ofDigitChars_ten_toDigits]

theorem readSigned_toString (n : ℤ) : readSigned (toString n).toList = some n := by
  rw [Int.toString_eq_repr, Int.repr_eq_if]
  split
  next h =>
    have hminus : ∀ digits, Nat.toDigits 10 n.toNat ≠ '-' :: digits := by
      intro digits hdigits
      have hmem : '-' ∈ Nat.toDigits 10 n.toNat := hdigits ▸ List.mem_cons_self
      exact absurd (Nat.isDigit_of_mem_toDigits (by decide) (by decide) hmem) (by decide)
    rw [Nat.toList_repr]
    unfold readSigned
    split
    next digits heq => exact absurd heq (hminus digits)
    next => rw [readDigits_toDigits, Option.map_some, Int.toNat_of_nonneg h]
  next h =>
    have htext : ("-" ++ (-n).toNat.repr).toList = '-' :: Nat.toDigits 10 (-n).toNat := by
      simp
    rw [htext, readSigned, readDigits_toDigits, Option.map_some]
    congr
    omega

theorem readInt_toString {n : ℤ} (hlow : -intMax - 1 ≤ n) (hhigh : n ≤ intMax) :
    readInt (toString n).toList = some n := by
  rw [readInt, readSigned_toString, Option.filter_some, if_pos]
  exact decide_eq_true ⟨hlow, hhigh⟩

theorem Word.ofText_toString {n : ℤ} (hlow : -intMax - 1 ≤ n) (hhigh : n ≤ intMax) :
    Word.ofText (toString n) = .number n := by
  rw [Word.ofText, readInt_toString hlow hhigh]

end Numbers

end OrdersDemo
