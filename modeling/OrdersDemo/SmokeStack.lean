import OrdersDemo.ServiceStates
import OrdersDemo.SmokeGate

namespace OrdersDemo

/-- The smoke test of a Compose project. -/
structure Stack where
  config : ComposeConfig
  base : Docker
  smokeServices : Option String

/-- What the smoke test finds in a pass, where both service checks look at the containers. -/
structure StackInput where
  clock : ℤ
  opening : ComposeConfig.Look
  curl : String → Bool
  check : String → Bool
  closing : ComposeConfig.Look

namespace Stack

variable (stack : Stack)

/-- Both looks of the pass are in texts that the service check reads as they are. -/
def Legible (input : StackInput) : Prop :=
  stack.config.Legible input.opening ∧ stack.config.Legible input.closing

def Ready (look : ComposeConfig.Look) : Prop :=
  stack.config.Ready look stack.smokeServices

def Hopeful (look : ComposeConfig.Look) : Prop :=
  stack.config.Hopeful look stack.smokeServices

instance : DecidablePred stack.Ready :=
  fun look => inferInstanceAs (Decidable (stack.config.Ready look stack.smokeServices))

instance : DecidablePred stack.Hopeful :=
  fun look => inferInstanceAs (Decidable (stack.config.Hopeful look stack.smokeServices))

/-- `services_report=$(check-services.sh) || services_status=$?` -/
def answer (look : ComposeConfig.Look) : ServicesAnswer :=
  let run := checkServicesScript stack.config stack.base stack.smokeServices look.inspected
  ⟨run.result, String.ofList (substitute (run.stdout.flatMap fun line => line.print.toList))⟩

def pass (input : StackInput) : PassInput where
  clock := input.clock
  opening := stack.answer input.opening
  curl := input.curl
  check := input.check
  closing := stack.answer input.closing

def remaining (env : ValidEnv) (inputs : List StackInput) : List String :=
  env.remaining (inputs.map stack.pass)

/-- The last look of a pass that the smoke test survives. -/
def lastLook (env : ValidEnv) (before : List StackInput)
    (input : StackInput) : ComposeConfig.Look :=
  if stack.remaining env (before ++ [input]) = [] then input.closing else input.opening

/-- The pass starts in time, and what it looks at can all be waited for. -/
def Bears (env : ValidEnv) (clock : ℤ) (before : List StackInput)
    (input : StackInput) : Prop :=
  input.clock < env.deadline clock ∧ stack.Hopeful input.opening ∧
    (stack.remaining env (before ++ [input]) = [] → stack.Hopeful input.closing)

variable {stack} {env : ValidEnv} {clock : ℤ}

theorem answer_zero {look : ComposeConfig.Look} (h : stack.config.Legible look) :
    (stack.answer look).status = 0 ↔ stack.Ready look :=
  h.result_eq_zero stack.base

theorem answer_ok {look : ComposeConfig.Look} (h : stack.config.Legible look) :
    (stack.answer look).Ok ↔ stack.Hopeful look := by
  have htwo : (stack.answer look).status = 2 ↔ stack.Hopeful look ∧ ¬ stack.Ready look :=
    h.result_eq_two stack.base
  unfold ServicesAnswer.Ok
  rw [answer_zero h, htwo]
  constructor
  · rintro (hready | ⟨hhopeful, -⟩)
    · exact ComposeConfig.Ready.hopeful hready
    · exact hhopeful
  · intro hhopeful
    by_cases hready : stack.Ready look
    · exact .inl hready
    · exact .inr ⟨hhopeful, hready⟩

theorem remaining_concat (before : List StackInput)
    (input : StackInput) :
    env.remaining (before.map stack.pass ++ [stack.pass input]) =
      stack.remaining env (before ++ [input]) := by
  rw [remaining, List.map_append]
  rfl

theorem gatesOk_iff {before : List StackInput} {input : StackInput} (h : stack.Legible input) :
    ((stack.pass input).clock < env.deadline clock ∧
        env.GatesOk (before.map stack.pass) (stack.pass input)) ↔
      stack.Bears env clock before input := by
  unfold ValidEnv.GatesOk Bears
  rw [remaining_concat]
  exact and_congr_right fun _ => and_congr (answer_ok h.1) (imp_congr_right fun _ => answer_ok h.2)

theorem succeedsIn_iff {before : List StackInput} {input : StackInput}
    (h : ∀ other ∈ before ++ [input], stack.Legible other) :
    env.SucceedsIn clock (before.map stack.pass) (stack.pass input) ↔
      History.Causal (stack.Bears env clock) (before ++ [input]) ∧
        stack.remaining env (before ++ [input]) = [] ∧ stack.Ready input.closing := by
  have hmap : before.map stack.pass ++ [stack.pass input] = (before ++ [input]).map stack.pass := by
    rw [List.map_append]
    rfl
  have hlegible : ∀ pre other post, before ++ [input] = pre ++ other :: post →
      stack.Legible other := by
    intro pre other post he
    exact h other (by rw [he]; simp)
  unfold ValidEnv.SucceedsIn
  rw [remaining_concat, hmap, History.causal_map]
  refine and_congr ?_ (and_congr_right fun _ => answer_zero (h input (by simp)).2)
  constructor
  · intro hcausal pre other post he
    exact (gatesOk_iff (hlegible pre other post he)).mp (hcausal pre other post he)
  · intro hcausal pre other post he
    exact (gatesOk_iff (hlegible pre other post he)).mpr (hcausal pre other post he)

/-- A pass after which the loop goes on leaves `services_ready` as its last look found it. -/
theorem servicesReady_step {before : List PassInput} {input : PassInput} {s : SmokeState}
    (h : env.Waiting clock before s) (hgoes : env.Goes clock before input) :
    (s.step input).servicesReady = true ↔
      (if env.remaining (before ++ [input]) = [] then input.closing else input.opening).status =
        0 := by
  obtain ⟨hclock, ⟨hopen, hclose⟩, hcloses⟩ := hgoes
  have hopened := h.toTracks.services hopen
  obtain ⟨hchecked, hempty⟩ := hopened.signals input
  obtain ⟨notReady, pending, hsignals, -, -⟩ :=
    (s.checkServices input.opening).checkSignals_spec input
  have hready : ((s.checkServices input.opening).checkSignals input).servicesReady =
      decide (input.opening.status = 0) := by
    rw [hsignals, s.checkServices_ok hopen]
  unfold SmokeState.step SmokeState.pass
  rw [h.exited, h.deadline]
  simp only [Option.isSome_none, Bool.false_eq_true, if_false, if_pos hclock, hopened.exited]
  by_cases hremaining : env.remaining (before ++ [input]) = []
  · have hpending := hempty.mpr hremaining
    have hok := hclose hremaining
    have hnot : input.closing.status ≠ 0 := hcloses hremaining
    have hclosed := hchecked.services hok
    rw [if_pos hpending, if_pos hremaining, SmokeState.close]
    have hunready : (((s.checkServices input.opening).checkSignals input).checkServices
        input.closing).servicesReady = false := by
      rw [SmokeState.checkServices_ok _ hok]
      exact decide_eq_false hnot
    simp only [hclosed.exited, Option.isSome_none, Bool.false_eq_true, if_false, hunready]
    exact iff_of_false not_false hnot
  · have hpending := mt hempty.mp hremaining
    rw [if_neg hpending, if_neg hremaining, hready, decide_eq_true_iff]

variable (stack env clock) in
/-- The state of the smoke test after the passes of `inputs`. -/
def smokeState (inputs : List StackInput) : SmokeState :=
  env.state clock (inputs.map stack.pass)

theorem smokeState_concat (inputs : List StackInput)
    (input : StackInput) :
    stack.smokeState env clock (inputs ++ [input]) =
      (stack.smokeState env clock inputs).step (stack.pass input) := by
  unfold smokeState
  rw [List.map_append]
  exact ValidEnv.state_concat _ _

theorem exits_zero_iff {inputs : List StackInput} (h : ∀ input ∈ inputs, stack.Legible input) :
    (stack.smokeState env clock inputs).exited = some 0 ↔
      ∃ before input after, inputs = before ++ input :: after ∧
        History.Causal (stack.Bears env clock) (before ++ [input]) ∧
        stack.remaining env (before ++ [input]) = [] ∧
        stack.Ready input.closing := by
  unfold smokeState
  rw [ValidEnv.exits_zero_iff]
  constructor
  · rintro ⟨before, input, after, hsplit, hsucceeds⟩
    obtain ⟨before', rest, rfl, rfl, hrest⟩ := List.map_eq_append_iff.mp hsplit
    obtain ⟨input', after', rfl, rfl, rfl⟩ := List.map_eq_cons_iff.mp hrest
    have hlegible : ∀ other ∈ before' ++ [input'], stack.Legible other := fun other hother =>
      h other (by
        rw [List.append_cons]
        exact List.mem_append_left _ hother)
    exact ⟨before', input', after', rfl, (succeedsIn_iff hlegible).mp hsucceeds⟩
  · rintro ⟨before, input, after, rfl, hsucceeds⟩
    have hlegible : ∀ other ∈ before ++ [input], stack.Legible other := fun other hother =>
      h other (by
        rw [List.append_cons]
        exact List.mem_append_left _ hother)
    refine ⟨before.map stack.pass, stack.pass input, after.map stack.pass, by simp, ?_⟩
    exact (succeedsIn_iff hlegible).mpr hsucceeds

/-- The services are named at the deadline unless the last look found all of them ready. -/
theorem expires_after {before : List StackInput}
    {last input : StackInput} (hlast : stack.Legible last)
    (hrunning : (stack.smokeState env clock (before ++ [last])).exited = none)
    (hexpired : env.deadline clock ≤ input.clock) :
    (stack.smokeState env clock (before ++ [last] ++ [input])).exited = some 1 ∧
      ValidEnv.Names (stack.smokeState env clock (before ++ [last] ++ [input]))
        (stack.remaining env (before ++ [last]) ++
          if stack.Ready (stack.lastLook env before last) then []
          else ["services"]) := by
  have hwaiting := ValidEnv.waiting_of_running hrunning
  have hbefore : (stack.smokeState env clock before).exited = none := by
    by_contra hexited
    have hstays : (stack.smokeState env clock before).step (stack.pass last) =
        stack.smokeState env clock before := SmokeState.step_exited hexited _
    rw [smokeState_concat, hstays] at hrunning
    exact hexited hrunning
  have hwaited := ValidEnv.waiting_of_running hbefore
  have hgoes : env.Goes clock (before.map stack.pass) (stack.pass last) := by
    by_contra hstops
    have hexited := (hwaited.step (stack.pass last)).exited hstops
    rw [smokeState_concat] at hrunning
    exact hexited hrunning
  have hlook := servicesReady_step hwaited hgoes
  have hready : (env.state clock ((before ++ [last]).map stack.pass)).servicesReady = true ↔
      stack.Ready (stack.lastLook env before last) := by
    change (stack.smokeState env clock (before ++ [last])).servicesReady = true ↔ _
    have hlegible : stack.config.Legible (stack.lastLook env before last) := by
      unfold lastLook
      split
      next => exact hlast.2
      next => exact hlast.1
    rw [smokeState_concat, ← answer_zero hlegible]
    refine hlook.trans ?_
    rw [remaining_concat, lastLook]
    split <;> rfl
  have hdeadline : (stack.smokeState env clock (before ++ [last])).deadline =
      env.deadline clock := hwaiting.deadline
  have hstep : (stack.smokeState env clock (before ++ [last])).step (stack.pass input) =
      (stack.smokeState env clock (before ++ [last])).finish := by
    unfold SmokeState.step
    rw [hrunning, hdeadline]
    exact if_neg (not_lt.mpr hexpired)
  have hfinish := hwaiting.finish
  simp only [← hwaiting.ready] at hfinish
  rw [smokeState_concat, hstep]
  by_cases hlooked : stack.Ready (stack.lastLook env before last)
  · rw [if_pos (hready.mpr hlooked)] at hfinish
    rw [if_pos hlooked]
    exact hfinish
  · rw [if_neg (mt hready.mp hlooked)] at hfinish
    rw [if_neg hlooked]
    exact hfinish

end Stack

/-- The smoke test over the service check, for every run of legible looks: it succeeds in a pass
whose closing look finds each container in its state and each service there, after passes that all
started in time and never saw what cannot be waited for; a look at a crash ends it at once; and at
the deadline it names the services exactly if its last look still missed one. -/
theorem smoke_stack (stack : Stack) (env : ValidEnv) (clock : ℤ) (inputs : List StackInput)
    (h : ∀ input ∈ inputs, stack.Legible input) :
    ((stack.smokeState env clock inputs).exited = some 0 ↔
      ∃ before input after, inputs = before ++ input :: after ∧
        History.Causal (stack.Bears env clock) (before ++ [input]) ∧
        stack.remaining env (before ++ [input]) = [] ∧
        stack.Ready input.closing) ∧
    (∀ input, stack.Legible input → (stack.smokeState env clock inputs).exited = none →
      input.clock < env.deadline clock → ¬ stack.Bears env clock inputs input →
      (stack.smokeState env clock (inputs ++ [input])).exited = some 1 ∧
        ValidEnv.Names (stack.smokeState env clock (inputs ++ [input])) ["services"]) ∧
    (∀ before last input, inputs = before ++ [last] →
      (stack.smokeState env clock inputs).exited = none → env.deadline clock ≤ input.clock →
      (stack.smokeState env clock (inputs ++ [input])).exited = some 1 ∧
        ValidEnv.Names (stack.smokeState env clock (inputs ++ [input]))
          (stack.remaining env inputs ++
            if stack.Ready (stack.lastLook env before last) then [] else ["services"])) := by
  refine ⟨Stack.exits_zero_iff h, ?_, ?_⟩
  · intro input hlegible hrunning hclock hcrash
    have hstep := (ValidEnv.waiting_of_running hrunning).step (stack.pass input)
    have hgates : ¬ env.GatesOk (inputs.map stack.pass) (stack.pass input) :=
      fun hok => hcrash ((Stack.gatesOk_iff hlegible).mp ⟨hclock, hok⟩)
    rw [Stack.smokeState_concat]
    cases hstep with
    | waits hgoes => exact absurd hgoes.2.1 hgates
    | succeeds _ hok => exact absurd hok hgates
    | stops _ _ hexited hnames => exact ⟨hexited, hnames⟩
    | expires hexpired => exact absurd hclock (not_lt.mpr hexpired)
  · rintro before last input rfl hrunning hexpired
    exact Stack.expires_after (h last (by simp)) hrunning hexpired

section Starting

def startingStack : Stack := ⟨startingConfig, quietDocker, none⟩

/-- Both targets pass at once, and one service becomes healthy before the second pass. -/
def startingInputs : List StackInput :=
  [⟨0, startingLook false, fun _ => true, fun _ => true, startingLook false⟩,
    ⟨5, startingLook true, fun _ => true, fun _ => true, startingLook true⟩]

theorem startingInputs_legible : ∀ input ∈ startingInputs, startingStack.Legible input := by
  intro input hinput
  rcases List.mem_pair.mp hinput with rfl | rfl
  · exact ⟨startingLook_legible false, startingLook_legible false⟩
  · exact ⟨startingLook_legible true, startingLook_legible true⟩

theorem smoke_stack_starting :
    (startingStack.smokeState twoTargets 0 startingInputs).exited = some 0 := by
  have hhopeful : ∀ healthy, startingStack.Hopeful (startingLook healthy) := by
    intro healthy
    cases healthy <;> decide +kernel
  have hclock : 0 < twoTargets.deadline 0 ∧ 5 < twoTargets.deadline 0 := by decide +kernel
  refine (smoke_stack startingStack twoTargets 0 startingInputs startingInputs_legible).1.mpr
    ⟨startingInputs.take 1, ⟨5, startingLook true, fun _ => true, fun _ => true,
      startingLook true⟩, [], rfl, ?_, by decide +kernel, by decide +kernel⟩
  have hfirst : History.Causal (startingStack.Bears twoTargets 0) (startingInputs.take 1) :=
    History.Causal.concat (History.causal_nil _) ⟨hclock.1, hhopeful false, fun _ => hhopeful false⟩
  exact hfirst.concat ⟨hclock.2, hhopeful true, fun _ => hhopeful true⟩

end Starting

end OrdersDemo
