import OrdersDemo.CheckServices

namespace OrdersDemo

/-- The status that the lines call for. One `FAILED` line outweighs any number of others. -/
def statusOf (lines : List Line) : ℕ :=
  if ∃ line ∈ lines, line.verdict = .failed then 1 else if lines = [] then 0 else 2

theorem statusOf_append (lines : List Line) (line : Line) :
    statusOf (lines ++ [line]) = if line.verdict = .failed then 1
      else if statusOf lines = 0 then 2 else statusOf lines := by
  unfold statusOf
  by_cases hline : line.verdict = .failed
  · simp [hline]
  · by_cases hlines : ∃ l ∈ lines, l.verdict = .failed
    · simp [hline, hlines]
    · by_cases hnil : lines = []
      · simp [hline, hnil]
      · simp [hline, hlines, hnil]

theorem statusOf_eq_two {lines : List Line} :
    statusOf lines = 2 ↔ (¬∃ line ∈ lines, line.verdict = .failed) ∧ lines ≠ [] := by
  unfold statusOf
  split_ifs with hfailed hnil
  · simp [hfailed]
  · simp [hnil]
  · simp [hfailed, hnil]

theorem statusOf_eq_zero {lines : List Line} :
    statusOf lines = 0 ↔ (¬∃ line ∈ lines, line.verdict = .failed) ∧ ¬lines ≠ [] := by
  unfold statusOf
  split_ifs with hfailed hnil
  · simp [hfailed]
  · simp [hnil]
  · simp [hnil]

namespace Vars

def Settled (v : Vars) : Prop :=
  v.result = statusOf v.stdout

def reportLine (v : Vars) (line : Line) : Vars :=
  v.report line.verdict line.service line.reason line.state line.exitCode line.health
    line.restarts line.digest line.command

variable {v : Vars} {line : Line}

theorem reportLine_stdout : (v.reportLine line).stdout = v.stdout ++ [line] := by
  unfold reportLine report
  dsimp only
  split_ifs <;> rfl

theorem reportLine_seen : (v.reportLine line).seen = v.seen := by
  unfold reportLine report
  dsimp only
  split_ifs <;> rfl

theorem reportLine_result : (v.reportLine line).result =
    if line.verdict = .failed then 1 else if v.result = 0 then 2 else v.result := by
  unfold reportLine report
  simp only [Option.some.injEq]
  split_ifs <;> rfl

theorem Settled.reportLine (h : v.Settled) : (v.reportLine line).Settled := by
  unfold Settled at *
  rw [reportLine_result, reportLine_stdout, statusOf_append, h]

end Vars

namespace Docker

variable (docker : Docker)

/-- A container that the gate rejects: a long-running service that restarted or does not run, or a
one-shot service that failed or is in no state it can have. -/
def Failing (c : Container) : Prop :=
  (¬docker.isOneshot c.service.val ∧ (0 < c.restarts ∨ c.state ≠ "running")) ∨
    (docker.isOneshot c.service.val ∧ ((c.state = "exited" ∧ c.exitCode ≠ 0) ∨
      (c.state ≠ "exited" ∧ c.state ≠ "created" ∧ c.state ≠ "running")))

/-- A container that the gate waits for. -/
def Waiting (c : Container) : Prop :=
  (docker.isOneshot c.service.val ∧ (c.state = "created" ∨ c.state = "running")) ∨
    (¬docker.isOneshot c.service.val ∧ c.state = "running" ∧ c.restarts = 0 ∧
      c.health ≠ "none" ∧ c.health ≠ "healthy")

instance : DecidablePred docker.Failing :=
  fun _ => inferInstanceAs (Decidable (_ ∨ _))

instance : DecidablePred docker.Waiting :=
  fun _ => inferInstanceAs (Decidable (_ ∨ _))

def Offending (c : Container) : Prop :=
  docker.Failing c ∨ docker.Waiting c

instance : DecidablePred docker.Offending :=
  fun _ => inferInstanceAs (Decidable (_ ∨ _))

theorem offending_of_failing {docker : Docker} {c : Container} (h : docker.Failing c) :
    docker.Offending c :=
  .inl h

theorem offending_of_waiting {docker : Docker} {c : Container} (h : docker.Waiting c) :
    docker.Offending c :=
  .inr h

theorem not_failing_of_waiting {docker : Docker} {c : Container} (h : docker.Waiting c) :
    ¬docker.Failing c := by
  unfold Failing
  rcases h with ⟨hone, hstate⟩ | ⟨hlong, hstate, hrestarts, _⟩
  · rcases hstate with hstate | hstate <;> simp [hone, hstate]
  · simp [hlong, hstate, hrestarts]

def reason (c : Container) : String :=
  if docker.isOneshot c.service.val then
    if c.state = "exited" then "one-shot service exited with a non-zero code"
    else if c.state = "created" ∨ c.state = "running" then "one-shot service has not finished"
    else "one-shot service is in an unexpected state"
  else if 0 < c.restarts then "long-running service restarted"
  else if c.state ≠ "running" then "long-running service is not running"
  else "long-running service is not healthy"

/-- The exit code in a container's line, which for a long-running service that restarted is the
one of its last stop. -/
def lineExitCode (c : Container) : Word :=
  if ¬docker.isOneshot c.service.val ∧ 0 < c.restarts then
    docker.lastExitCode c.id c.created (.number c.exitCode)
  else .number c.exitCode

/-- The line of an offending container. -/
def containerLine (c : Container) : Line where
  verdict := if docker.Failing c then .failed else .pending
  service := c.service.val
  reason := docker.reason c
  state := c.state
  exitCode := docker.lineExitCode c
  health := c.health
  restarts := .number c.restarts
  digest := docker.imageDigest c.image c.imageId
  command := c.command

def missingLine (service : ServiceName) : Line where
  verdict := .failed
  service := service.val
  reason := "expected service has no container"
  state := "missing"
  exitCode := .text "none"
  health := "none"
  restarts := .number 0
  digest := docker.imageDigest (docker.image service.val) (docker.image service.val)
  command := docker.command service.val

/-- The variables once a turn of the container loop has noted the container. -/
def noted (v : Vars) (c : Container) : Vars :=
  { v.read (some c) with
    seen := v.seen ++ " " ++ c.service.val
    digest := docker.imageDigest c.image c.imageId }

variable {docker} {v : Vars} {c : Container}

theorem reportCurrent_noted {verdict : Verdict} {reason : String} {exitCode : Word}
    (hverdict : (docker.containerLine c).verdict = verdict) (hreason : docker.reason c = reason)
    (hexitCode : docker.lineExitCode c = exitCode) :
    (docker.noted v c).reportCurrent verdict reason exitCode =
      (docker.noted v c).reportLine (docker.containerLine c) := by
  subst hverdict hreason hexitCode
  rfl

theorem judge_oneshot (hone : docker.isOneshot c.service.val) :
    docker.judge (docker.noted v c) =
      if docker.Offending c then (docker.noted v c).reportLine (docker.containerLine c)
      else docker.noted v c := by
  have hservice : (docker.noted v c).service = c.service.val := rfl
  have hstate : (docker.noted v c).state = c.state := rfl
  have hexitCode : (docker.noted v c).exitCode = .number c.exitCode := rfl
  have hline : docker.lineExitCode c = .number c.exitCode := if_neg fun h => h.1 hone
  unfold judge
  rw [hservice, hstate, hexitCode, if_pos hone]
  by_cases hexited : c.state = "exited"
  · rw [if_pos hexited]
    by_cases hcode : c.exitCode = 0
    · have hnot : ¬docker.Offending c := by
        simp [Offending, Failing, Waiting, hone, hexited, hcode]
      rw [if_pos (by simp [Word.test, hcode]), if_neg hnot]
    · have hfailing : docker.Failing c := .inr ⟨hone, .inl ⟨hexited, hcode⟩⟩
      rw [if_neg (by simp [Word.test, hcode]), if_pos (offending_of_failing hfailing)]
      exact reportCurrent_noted (if_pos hfailing) (by simp [reason, hone, hexited]) hline
  · rw [if_neg hexited]
    by_cases hunfinished : c.state = "created" ∨ c.state = "running"
    · have hwaiting : docker.Waiting c := .inl ⟨hone, hunfinished⟩
      rw [if_pos hunfinished, if_pos (offending_of_waiting hwaiting)]
      exact reportCurrent_noted (if_neg (not_failing_of_waiting hwaiting))
        (by simp [reason, hone, hexited, hunfinished]) hline
    · have hfailing : docker.Failing c := .inr ⟨hone, .inr ⟨hexited, not_or.mp hunfinished⟩⟩
      rw [if_neg hunfinished, if_pos (offending_of_failing hfailing)]
      exact reportCurrent_noted (if_pos hfailing)
        (by simp [reason, hone, hexited, hunfinished]) hline

theorem judge_longRunning (hlong : ¬docker.isOneshot c.service.val) :
    docker.judge (docker.noted v c) =
      if docker.Offending c then (docker.noted v c).reportLine (docker.containerLine c)
      else docker.noted v c := by
  have hservice : (docker.noted v c).service = c.service.val := rfl
  have hstate : (docker.noted v c).state = c.state := rfl
  have hhealth : (docker.noted v c).health = c.health := rfl
  have hrestarts : (docker.noted v c).restarts = .number c.restarts := rfl
  have htested : (Word.number c.restarts).test (0 < ·) = decide (0 < c.restarts) := by
    simp [Word.test]
  unfold judge
  rw [hservice, hstate, hhealth, hrestarts, htested, if_neg hlong]
  by_cases hrestarted : 0 < c.restarts
  · have hfailing : docker.Failing c := .inl ⟨hlong, .inl hrestarted⟩
    rw [if_pos (decide_eq_true hrestarted), if_pos (offending_of_failing hfailing)]
    exact reportCurrent_noted (if_pos hfailing) (by simp [reason, hlong, hrestarted])
      (if_pos ⟨hlong, hrestarted⟩)
  · have hline : docker.lineExitCode c = .number c.exitCode := if_neg fun h => hrestarted h.2
    rw [if_neg (by simpa using hrestarted)]
    by_cases hrunning : c.state = "running"
    · rw [if_neg (not_not.mpr hrunning)]
      by_cases hunhealthy : c.health ≠ "none" ∧ c.health ≠ "healthy"
      · have hwaiting : docker.Waiting c :=
          .inr ⟨hlong, hrunning, Nat.eq_zero_of_not_pos hrestarted, hunhealthy⟩
        rw [if_pos hunhealthy, if_pos (offending_of_waiting hwaiting)]
        exact reportCurrent_noted (if_neg (not_failing_of_waiting hwaiting))
          (by simp [reason, hlong, hrestarted, hrunning]) hline
      · have hnot : ¬docker.Offending c := by
          rintro ((⟨_, h | h⟩ | ⟨h, _⟩) | (⟨h, _⟩ | ⟨_, _, _, h⟩))
          exacts [hrestarted h, h hrunning, hlong h, hlong h, hunhealthy h]
        rw [if_neg hunhealthy, if_neg hnot]
    · have hfailing : docker.Failing c := .inl ⟨hlong, .inr hrunning⟩
      rw [if_pos hrunning, if_pos (offending_of_failing hfailing)]
      exact reportCurrent_noted (if_pos hfailing)
        (by simp [reason, hlong, hrestarted, hrunning]) hline

theorem checkContainer_some : docker.checkContainer v (some c) =
    if docker.Offending c then (docker.noted v c).reportLine (docker.containerLine c)
    else docker.noted v c := by
  have hid : c.id ≠ "" := by
    intro hid
    exact c.filled (by simp [hid])
  have hloop : docker.checkContainer v (some c) = docker.judge (docker.noted v c) := if_neg hid
  rw [hloop]
  by_cases hone : docker.isOneshot c.service.val
  · exact judge_oneshot hone
  · exact judge_longRunning hone

end Docker

end OrdersDemo
