import OrdersDemo.ServiceScript

namespace OrdersDemo

/-- What a line of the report says in front: whether it is final, and whose it is. -/
def Line.head (line : Line) : Verdict × String :=
  (line.verdict, line.service)

namespace ComposeConfig

variable (config : ComposeConfig)

def IsOneshot (service : String) : Prop :=
  ∃ s ∈ config.services, s.name = service ∧ s.restart = some "no"

instance : DecidablePred config.IsOneshot :=
  fun _ => inferInstanceAs (Decidable (∃ _ ∈ _, _))

/-- The state that the container of a service is to reach: a one-shot service has exited with code
0, and any other runs, was never restarted, and is healthy if it can tell. -/
def InState (c : Container) : Prop :=
  (config.IsOneshot c.service.val ∧ c.state = "exited" ∧ c.exitCode = 0) ∨
    (¬ config.IsOneshot c.service.val ∧ c.state = "running" ∧ c.restarts = 0 ∧
      (c.health = "none" ∨ c.health = "healthy"))

/-- The container can still reach its state by itself. -/
def Starting (c : Container) : Prop :=
  (config.IsOneshot c.service.val ∧ (c.state = "created" ∨ c.state = "running")) ∨
    (¬ config.IsOneshot c.service.val ∧ c.state = "running" ∧ c.restarts = 0 ∧
      c.health ≠ "none" ∧ c.health ≠ "healthy")

instance : DecidablePred config.InState :=
  fun _ => inferInstanceAs (Decidable (_ ∨ _))

instance : DecidablePred config.Starting :=
  fun _ => inferInstanceAs (Decidable (_ ∨ _))

/-- No name of a container can be taken for the name of a one-shot service. -/
def Unambiguous (containers : List Container) : Prop :=
  ∀ c ∈ containers, validName c.service.val = true ∧
    ∀ other ∈ config.services, other.restart = some "no" →
      SameButPeriods c.service.val other.name → other.name = c.service.val

variable {config} {base : Docker} {containers : List Container} {c : Container}

theorem Unambiguous.isOneshot (h : config.Unambiguous containers) (hc : c ∈ containers) :
    (config.scriptDocker base).isOneshot c.service.val = true ↔ config.IsOneshot c.service.val := by
  obtain ⟨hvalid, hother⟩ := h c hc
  have hiff := @isOneshot_iff config base ⟨c.service.val, none, hvalid⟩
  rw [isOneshot_scriptDocker, hiff]
  constructor
  · rintro ⟨other, hmem, hno, hsame⟩
    exact ⟨other, hmem, hother other hmem hno hsame, hno⟩
  · rintro ⟨other, hmem, hname, hno⟩
    refine ⟨other, hmem, hno, ?_⟩
    rw [hname]
    exact sameButPeriods_refl _

theorem Unambiguous.waiting_iff (h : config.Unambiguous containers) (hc : c ∈ containers) :
    (config.scriptDocker base).Waiting c ↔ config.Starting c := by
  unfold Docker.Waiting Starting
  rw [h.isOneshot hc]

theorem Unambiguous.offending_iff (h : config.Unambiguous containers) (hc : c ∈ containers) :
    (config.scriptDocker base).Offending c ↔ ¬ config.InState c := by
  unfold Docker.Offending Docker.Failing Docker.Waiting InState
  rw [h.isOneshot hc]
  by_cases hone : config.IsOneshot c.service.val
  · simp only [hone, not_true, false_and, true_and, false_or, or_false]
    by_cases hexited : c.state = "exited" <;> by_cases hcreated : c.state = "created" <;>
      by_cases hrunning : c.state = "running" <;> simp_all
  · simp only [hone, not_false_eq_true, true_and, false_and, or_false, false_or]
    by_cases hrunning : c.state = "running"
    · by_cases hrestarts : c.restarts = 0
      · simp [hrunning, hrestarts]
      · have hpos : 0 < c.restarts := Nat.pos_of_ne_zero hrestarts
        simp [hrunning, hrestarts, hpos]
    · simp [hrunning]

theorem Unambiguous.failing_iff (h : config.Unambiguous containers) (hc : c ∈ containers) :
    (config.scriptDocker base).Failing c ↔ ¬ config.InState c ∧ ¬ config.Starting c := by
  have hoffending : (config.scriptDocker base).Offending c ↔ ¬ config.InState c :=
    h.offending_iff hc
  have hwaiting : (config.scriptDocker base).Waiting c ↔ config.Starting c := h.waiting_iff hc
  rw [← hoffending, ← hwaiting]
  constructor
  · intro hfailing
    exact ⟨Docker.offending_of_failing hfailing,
      fun hwaiting => Docker.not_failing_of_waiting hwaiting hfailing⟩
  · rintro ⟨hfailing | hwaiting, hnot⟩
    · exact hfailing
    · exact absurd hwaiting hnot

theorem Unambiguous.containers_heads (h : config.Unambiguous containers) :
    ((containers.filter (config.scriptDocker base).Offending).map
        (config.scriptDocker base).containerLine).map Line.head =
      (containers.filter fun c => ¬ config.InState c).map fun c =>
        (if config.Starting c then .pending else .failed, c.service.val) := by
  have hfilter : containers.filter (config.scriptDocker base).Offending =
      containers.filter fun c => ¬ config.InState c :=
    List.filter_congr fun c hc => by simpa only [decide_eq_decide] using h.offending_iff hc
  rw [hfilter, List.map_map]
  refine List.map_congr_left fun c hc => ?_
  obtain ⟨hmem, hnot⟩ := List.mem_filter.mp hc
  have hfailing : (config.scriptDocker base).Failing c ↔
      ¬ config.InState c ∧ ¬ config.Starting c := h.failing_iff hmem
  by_cases hstarting : config.Starting c
  · have hpending : ¬ (config.scriptDocker base).Failing c := by
      rw [hfailing, not_and_not_right]
      exact fun _ => hstarting
    simp [Line.head, Docker.containerLine, hstarting, hpending]
  · have hfails : (config.scriptDocker base).Failing c :=
      hfailing.mpr ⟨of_decide_eq_true hnot, hstarting⟩
    simp [Line.head, Docker.containerLine, hstarting, hfails]

end ComposeConfig

theorem filter_missing (containers : List Container) (expected : List ServiceName) :
    (expected.map fun service => service.val).filter
        (fun name => ∀ c ∈ containers, c.service.val ≠ name) =
      (expected.filter (Docker.Missing containers)).map fun service => service.val := by
  have hiff : ∀ service ∈ expected, decide (∀ c ∈ containers, c.service.val ≠ service.val) =
      decide (Docker.Missing containers service) := by
    intro service _
    rw [decide_eq_decide]
    simp only [Docker.Missing, ne_eq, ServiceName.val_inj]
  have hfilter := List.filter_congr hiff
  exact List.filter_map.trans (congrArg (List.map fun service => service.val) hfilter)

theorem missing_heads (docker : Docker) (services : List ServiceName) :
    (services.map docker.missingLine).map Line.head =
      (services.map fun service => service.val).map fun name => (.failed, name) := by
  induction services with
  | nil => rfl
  | cons service services ih => exact congrArg ((.failed, service.val) :: ·) ih

namespace ComposeConfig

/-- What `docker inspect` answers about the containers of the project, and the containers. -/
structure Look where
  inspected : List InspectedContainer
  containers : List Container

variable {config : ComposeConfig}

variable (config) in
/-- The answer is about these containers, with numbers that the shell can compare, in characters
that reach the loop of the script as they are, and no service has the name of a one-shot service up
to periods. -/
structure Legible (look : Look) : Prop where
  rows : look.inspected.map (·.row) = look.containers.map Container.row
  fits : ∀ c ∈ look.containers, c.Fits
  plain : ∀ c ∈ look.containers, c.PlainText
  names : config.Unambiguous look.containers

section Looks

variable (config) (look : Look)

def missing (smokeServices : Option String) : List String :=
  (config.expectedNames smokeServices).filter fun name =>
    ∀ c ∈ look.containers, c.service.val ≠ name

/-- Each container is in its state, and each expected service has one. -/
def Ready (smokeServices : Option String) : Prop :=
  (∀ c ∈ look.containers, config.InState c) ∧ config.missing look smokeServices = []

/-- What is not in its state can still get there by itself. -/
def Hopeful (smokeServices : Option String) : Prop :=
  (∀ c ∈ look.containers, config.InState c ∨ config.Starting c) ∧
    config.missing look smokeServices = []

instance (smokeServices : Option String) : Decidable (config.Ready look smokeServices) :=
  inferInstanceAs (Decidable (_ ∧ _))

instance (smokeServices : Option String) : Decidable (config.Hopeful look smokeServices) :=
  inferInstanceAs (Decidable (_ ∧ _))

end Looks

variable {look : Look} {smokeServices : Option String}

theorem Ready.hopeful (h : config.Ready look smokeServices) : config.Hopeful look smokeServices :=
  ⟨fun c hc => .inl (h.1 c hc), h.2⟩

/-- The run of the script finds exactly what the configuration calls for. -/
theorem Legible.run_findings (h : config.Legible look) (base : Docker)
    (smokeServices : Option String) :
    let run := checkServicesScript config base smokeServices look.inspected
    run.result = statusOf run.stdout ∧
      ((∃ line ∈ run.stdout, line.verdict = .failed) ↔ ¬ config.Hopeful look smokeServices) ∧
      (run.stdout ≠ [] ↔ ¬ config.Ready look smokeServices) ∧
      run.stdout.map Line.head =
        (look.containers.filter fun c => ¬ config.InState c).map (fun c =>
          (if config.Starting c then .pending else .failed, c.service.val)) ++
        (config.missing look smokeServices).map fun name => (.failed, name) := by
  intro run
  obtain ⟨expected, hexpected⟩ := exists_serviceNames (config.expectedText smokeServices)
  have hrun : run = (config.scriptDocker base).checkServices look.containers expected :=
    checkServicesScript_eq h.rows h.fits h.plain hexpected
  obtain ⟨hout, hresult⟩ := Docker.checkServices_findings (config.scriptDocker base)
    look.containers expected
  rw [← hrun] at hout hresult
  rw [wordsOf_expectedText] at hexpected
  have hmissing : config.missing look smokeServices =
      (expected.filter (Docker.Missing look.containers)).map fun service => service.val := by
    unfold missing
    rw [hexpected]
    exact filter_missing look.containers expected
  have hnil : config.missing look smokeServices ≠ [] ↔
      ∃ service ∈ expected, Docker.Missing look.containers service := by
    rw [hmissing, Ne, List.map_eq_nil_iff, List.filter_eq_nil_iff]
    push Not
    simp only [decide_eq_true_eq]
  have hfailing : (∃ c ∈ look.containers, (config.scriptDocker base).Failing c) ↔
      ∃ c ∈ look.containers, ¬ config.InState c ∧ ¬ config.Starting c :=
    exists_congr fun c => and_congr_right fun hc => h.names.failing_iff hc
  have hoffending : (∃ c ∈ look.containers, (config.scriptDocker base).Offending c) ↔
      ∃ c ∈ look.containers, ¬ config.InState c :=
    exists_congr fun c => and_congr_right fun hc => h.names.offending_iff hc
  have hfailed : (∃ line ∈ (config.scriptDocker base).findings look.containers expected,
      line.verdict = .failed) ↔ _ := Docker.findings_failed
  have hlines : (config.scriptDocker base).findings look.containers expected ≠ [] ↔ _ :=
    Docker.findings_ne_nil
  rw [← hout, hfailing, ← hnil] at hfailed
  rw [← hout, hoffending, ← hnil] at hlines
  refine ⟨by rw [hresult, hout], ?_, ?_, ?_⟩
  · rw [hfailed, Hopeful, not_and_or]
    push Not
    rfl
  · rw [hlines, Ready, not_and_or]
    push Not
    rfl
  · rw [hout, Docker.findings, List.map_append, h.names.containers_heads, hmissing,
      missing_heads]

theorem Legible.result_eq_zero (h : config.Legible look) (base : Docker) :
    (checkServicesScript config base smokeServices look.inspected).result = 0 ↔
      config.Ready look smokeServices := by
  obtain ⟨hresult, hfailed, hlines, -⟩ := h.run_findings base smokeServices
  rw [hresult, statusOf_eq_zero, hfailed, hlines, not_not, not_not]
  exact and_iff_right_of_imp Ready.hopeful

theorem Legible.result_eq_two (h : config.Legible look) (base : Docker) :
    (checkServicesScript config base smokeServices look.inspected).result = 2 ↔
      config.Hopeful look smokeServices ∧ ¬ config.Ready look smokeServices := by
  obtain ⟨hresult, hfailed, hlines, -⟩ := h.run_findings base smokeServices
  rw [hresult, statusOf_eq_two, hfailed, hlines, not_not]

end ComposeConfig

section Starting

/-- A service that has started, one that has finished, and one that is not healthy yet. -/
def startingConfig : ComposeConfig where
  services := [⟨"broker", some "unless-stopped", by decide⟩, ⟨"init", some "no", by decide⟩,
    ⟨"app", some "on-failure", by decide⟩]
  distinct := by decide

def appHealth (healthy : Bool) : String :=
  if healthy then "healthy" else "starting"

def startingLook (healthy : Bool) : ComposeConfig.Look where
  inspected := [
    ⟨"1f", some "broker", "running", "0", some "healthy", "0", "now", "broker", "sha256:0", "serve",
      some ["all"]⟩,
    ⟨"2f", some "init", "exited", "0", none, "0", "now", "init", "sha256:1", "sh", none⟩,
    ⟨"3f", some "app", "running", "0", some (appHealth healthy), "0", "now", "app", "sha256:2",
      "app", none⟩]
  containers := [
    ⟨"1f", ⟨"broker", by decide⟩, "running", 0, "healthy", 0, "now", "broker", "sha256:0",
      "serve all", by decide⟩,
    ⟨"2f", ⟨"init", by decide⟩, "exited", 0, "none", 0, "now", "init", "sha256:1", "sh",
      by decide⟩,
    ⟨"3f", ⟨"app", by decide⟩, "running", 0, appHealth healthy, 0, "now", "app", "sha256:2", "app",
      by cases healthy <;> decide⟩]

theorem startingLook_legible (healthy : Bool) :
    startingConfig.Legible (startingLook healthy) where
  rows := by cases healthy <;> decide +kernel
  fits := by
    have hall : ∀ c ∈ (startingLook healthy).containers, c.exitCode = 0 ∧ c.restarts = 0 := by
      cases healthy <;> decide
    intro c hc
    obtain ⟨hexit, hrestarts⟩ := hall c hc
    exact ⟨by rw [hexit]; decide, by rw [hexit]; decide, by rw [hrestarts]; decide⟩
  plain := by
    have hall : (startingLook healthy).containers.all (fun c => c.row.fields.all fun field =>
        field.toList.all fun ch => decide (Plain ch)) = true := by
      cases healthy <;> decide +kernel
    intro c hc field hfield ch hch
    have hfields := List.all_eq_true.mp hall c hc
    have hchars := List.all_eq_true.mp hfields field hfield
    exact of_decide_eq_true (List.all_eq_true.mp hchars ch hch)
  names := by
    have hall : ∀ c ∈ (startingLook healthy).containers, validName c.service.val = true ∧
        ∀ other ∈ startingConfig.services, other.restart = some "no" →
          c.service.val.toList.length = other.name.toList.length → other.name = c.service.val := by
      cases healthy <;> decide +kernel
    intro c hc
    obtain ⟨hvalid, hother⟩ := hall c hc
    exact ⟨hvalid, fun other hmem hno hsame => hother other hmem hno hsame.1⟩

end Starting

end OrdersDemo
