import OrdersDemo.SmokeSteps

namespace OrdersDemo

theorem SmokeState.step_exited {s : SmokeState} (h : s.exited ≠ none) (input : PassInput) :
    s.step input = s :=
  if_pos (Option.isSome_iff_ne_none.mpr h)

theorem smoke_exited {env : SmokeEnv} {clock : ℤ} {s : SmokeState} (h : s.exited ≠ none)
    (inputs : List PassInput) : (smoke env clock).runFrom s inputs = s := by
  induction inputs with
  | nil => rfl
  | cons input inputs ih =>
    have hstep : (smoke env clock).step s input = s := s.step_exited h input
    rw [Machine.runFrom_cons, hstep, ih]

namespace ValidEnv

variable (env : ValidEnv) (clock : ℤ)

def state (inputs : List PassInput) : SmokeState :=
  (smoke env.toSmokeEnv clock).run inputs

variable {env clock}

theorem state_append (inputs more : List PassInput) (h : (env.state clock inputs).exited ≠ none) :
    env.state clock (inputs ++ more) = env.state clock inputs := by
  unfold state at h ⊢
  rw [Machine.run_append, smoke_exited h]

theorem state_concat (inputs : List PassInput) (input : PassInput) :
    env.state clock (inputs ++ [input]) = (env.state clock inputs).step input :=
  (smoke env.toSmokeEnv clock).run_append inputs [input]

theorem Ends.exited {inputs : List PassInput} {input : PassInput} {s s' : SmokeState}
    (h : env.Ends clock inputs input s s') (hgoes : ¬ env.Goes clock inputs input) :
    s'.exited ≠ none := by
  cases h with
  | waits hgoes' => exact absurd hgoes' hgoes
  | succeeds _ _ _ _ hexited => simp [hexited]
  | stops _ _ hexited => simp [hexited]
  | expires _ hexited => simp [hexited]

theorem Ends.waiting {inputs : List PassInput} {input : PassInput} {s s' : SmokeState}
    (h : env.Ends clock inputs input s s') (hgoes : env.Goes clock inputs input) :
    env.Waiting clock (inputs ++ [input]) s' := by
  obtain ⟨hclock, hgates, hcloses⟩ := hgoes
  cases h with
  | waits _ hwaiting => exact hwaiting
  | succeeds _ _ hremaining hzero => exact absurd hzero (hcloses hremaining)
  | stops _ hstops => exact absurd hgates hstops
  | expires hexpired => omega

/-- The script waits as long as every pass goes on, and ends with the first that does not. -/
theorem state_cases (env : ValidEnv) (clock : ℤ) (inputs : List PassInput) :
    (History.Causal (env.Goes clock) inputs ∧
        env.Waiting clock inputs (env.state clock inputs)) ∨
      ∃ before input after, inputs = before ++ input :: after ∧
        History.Causal (env.Goes clock) before ∧
        env.Waiting clock before (env.state clock before) ∧ ¬ env.Goes clock before input ∧
        env.state clock inputs = env.state clock (before ++ [input]) ∧
        (env.state clock inputs).exited ≠ none := by
  induction inputs using List.reverseRecOn with
  | nil => exact Or.inl ⟨History.causal_nil _, env.start_waiting clock⟩
  | append_singleton inputs last ih =>
    rcases ih with ⟨hcausal, hwaiting⟩ |
      ⟨before, input, after, rfl, hcausal, hwaiting, hends, hstate, hexited⟩
    · have hstep := hwaiting.step last
      rw [← state_concat] at hstep
      by_cases hgoes : env.Goes clock inputs last
      · exact Or.inl ⟨hcausal.concat hgoes, hstep.waiting hgoes⟩
      · exact Or.inr ⟨inputs, last, [], rfl, hcausal, hwaiting, hgoes, rfl, hstep.exited hgoes⟩
    · right
      have hsame := state_append _ [last] hexited
      refine ⟨before, input, after ++ [last], by simp, hcausal, hwaiting, hends, ?_, ?_⟩
      · rw [hsame, hstate]
      · rwa [hsame]

theorem waiting_of_running {inputs : List PassInput}
    (h : (env.state clock inputs).exited = none) :
    env.Waiting clock inputs (env.state clock inputs) := by
  rcases state_cases env clock inputs with ⟨_, hwaiting⟩ | ⟨_, _, _, _, _, _, _, _, hexited⟩
  · exact hwaiting
  · exact absurd h hexited

theorem state_kept (env : ValidEnv) (clock : ℤ) (inputs : List PassInput) :
    env.Kept (env.state clock inputs) := by
  rcases state_cases env clock inputs with
    ⟨_, hwaiting⟩ | ⟨_, input, _, _, _, hwaiting, _, hstate, _⟩
  · exact hwaiting.kept
  · rw [hstate, state_concat]
    exact hwaiting.kept_step input

/-- The script succeeds in the pass of `input`: every pass up to it started before the deadline
and got 0 or 2 from its service checks, nothing is pending, and the closing check returns 0. -/
def SucceedsIn (env : ValidEnv) (clock : ℤ) (before : List PassInput) (input : PassInput) : Prop :=
  History.Causal
      (fun before input => input.clock < env.deadline clock ∧ env.GatesOk before input)
      (before ++ [input]) ∧
    env.remaining (before ++ [input]) = [] ∧ input.closing.status = 0

theorem exits_zero_iff (env : ValidEnv) (clock : ℤ) (inputs : List PassInput) :
    (env.state clock inputs).exited = some 0 ↔
      ∃ before input after, inputs = before ++ input :: after ∧
        env.SucceedsIn clock before input := by
  constructor
  · intro hexit
    rcases state_cases env clock inputs with
      ⟨_, hwaiting⟩ | ⟨before, input, after, rfl, hcausal, hwaiting, hends, hstate, _⟩
    · rw [hwaiting.exited] at hexit
      cases hexit
    · have hstep := hwaiting.step input
      rw [hstate, state_concat] at hexit
      refine ⟨before, input, after, rfl, ?_⟩
      cases hstep with
      | waits hgoes => exact absurd hgoes hends
      | succeeds hclock hgates hremaining hzero =>
        refine ⟨History.Causal.concat ?_ ⟨hclock, hgates⟩, hremaining, hzero⟩
        exact hcausal.imp fun _ _ hgoes => ⟨hgoes.1, hgoes.2.1⟩
      | stops _ _ hone => simp [hone] at hexit
      | expires _ hone => simp [hone] at hexit
  · rintro ⟨before, input, after, rfl, hgates, hremaining, hzero⟩
    have hsplit : before ++ input :: after = (before ++ [input]) ++ after := by simp
    have hexit : (env.state clock (before ++ [input])).exited = some 0 := by
      rcases state_cases env clock (before ++ [input]) with
        ⟨hcausal, _⟩ | ⟨before', input', after', heq, _, hwaiting, hends, hstate, _⟩
      · have hgoes := hcausal before input [] rfl
        exact absurd hzero (hgoes.2.2 hremaining)
      · obtain ⟨hclock, hok⟩ := hgates before' input' after' heq
        have hstep := hwaiting.step input'
        rw [hstate, state_concat]
        cases hstep with
        | waits hgoes => exact absurd hgoes hends
        | succeeds _ _ _ _ hexited => exact hexited
        | stops _ hstops => exact absurd hok hstops
        | expires hexpired => omega
    rw [hsplit, state_append _ after (by simp [hexit])]
    exact hexit

theorem passed_of_exits_zero {inputs : List PassInput}
    (h : (env.state clock inputs).exited = some 0) :
    ∀ target ∈ env.configured, .check target true ∈ (env.state clock inputs).trace := by
  intro target htarget
  rcases state_cases env clock inputs with
    ⟨_, hwaiting⟩ | ⟨_, input, _, _, _, hwaiting, hends, hstate, _⟩
  · rw [hwaiting.exited] at h
    cases h
  · have hkept := state_kept env clock inputs
    have hpending : (env.state clock inputs).pending = "" := by
      have hstep := hwaiting.step input
      rw [hstate, state_concat] at h ⊢
      cases hstep with
      | waits hgoes => exact absurd hgoes hends
      | succeeds _ _ _ _ _ hempty => exact hempty
      | stops _ _ hone => simp [hone] at h
      | expires _ hone => simp [hone] at h
    have hmem := hkept.pending target htarget
    rw [hpending] at hmem
    exact hmem.resolve_left List.not_mem_nil

end ValidEnv

/-- The smoke test gates on exactly what it checks: it succeeds in the first pass that leaves
nothing pending and nothing to wait for, stops at the first service check that fails, and else
expires and names what is missing. -/
theorem smoke_gate (env : ValidEnv) (clock : ℤ) (inputs : List PassInput) :
    ((env.state clock inputs).exited = some 0 ↔
      ∃ before input after, inputs = before ++ input :: after ∧
        env.SucceedsIn clock before input) ∧
      ((env.state clock inputs).exited = some 0 →
        ∀ target ∈ env.configured, .check target true ∈ (env.state clock inputs).trace) ∧
      (∀ input, (env.state clock inputs).exited = none → input.clock < env.deadline clock →
        ¬ env.GatesOk inputs input →
        (env.state clock (inputs ++ [input])).exited = some 1 ∧
          ValidEnv.Names (env.state clock (inputs ++ [input])) ["services"]) ∧
      (∀ input, (env.state clock inputs).exited = none → env.deadline clock ≤ input.clock →
        (env.state clock (inputs ++ [input])).exited = some 1 ∧
          ValidEnv.Names (env.state clock (inputs ++ [input]))
            (env.configured.filter (.check · true ∉ (env.state clock inputs).trace) ++
              if lastServices (env.state clock inputs).trace = some 0 then []
              else ["services"])) ∧
      (∀ input, (env.state clock inputs).exited = none → env.Goes clock inputs input →
        (env.state clock (inputs ++ [input])).exited = none) ∧
      (∀ more, (env.state clock inputs).exited ≠ none →
        env.state clock (inputs ++ more) = env.state clock inputs) ∧
      Latched (env.state clock inputs).trace ∧
      ∀ target ∈ env.configured, target ∈ wordsOf (env.state clock inputs).pending ∨
        .check target true ∈ (env.state clock inputs).trace := by
  have hkept := ValidEnv.state_kept env clock inputs
  refine ⟨env.exits_zero_iff clock inputs, ValidEnv.passed_of_exits_zero, ?_, ?_, ?_,
    ValidEnv.state_append inputs, hkept.latched, hkept.pending⟩
  · intro input hrunning hclock hfails
    have hstep := (ValidEnv.waiting_of_running hrunning).step input
    rw [ValidEnv.state_concat]
    cases hstep with
    | waits hgoes => exact absurd hgoes.2.1 hfails
    | succeeds _ hgates => exact absurd hgates hfails
    | stops _ _ hexited hnames => exact ⟨hexited, hnames⟩
    | expires hexpired => omega
  · intro input hrunning hexpired
    have hwaiting := ValidEnv.waiting_of_running hrunning
    have hstep := hwaiting.step input
    have hnever : env.remaining inputs =
        env.configured.filter (.check · true ∉ (env.state clock inputs).trace) := by
      apply List.filter_congr
      intro target htarget
      have hpassed := hwaiting.passed target htarget
      rw [ValidEnv.remaining, List.mem_filter, and_iff_right htarget] at hpassed
      rw [Bool.eq_iff_iff, hpassed, decide_eq_true_iff]
    rw [ValidEnv.state_concat, ← hnever]
    cases hstep with
    | waits hgoes => have := hgoes.1; omega
    | succeeds hclock => omega
    | stops hclock => omega
    | expires _ hexited hnames => exact ⟨hexited, hnames⟩
  · intro input hrunning hgoes
    have hstep := (ValidEnv.waiting_of_running hrunning).step input
    rw [← ValidEnv.state_concat] at hstep
    exact (hstep.waiting hgoes).exited

/-- An environment that asks for two targets. -/
def twoTargets : ValidEnv where
  targets := some "gres logs"
  known := by decide +kernel
  nodup := by decide +kernel

/-- One target passes while a service still starts, and the other one once it is ready. -/
def twoPasses : List PassInput :=
  [⟨0, ⟨2, ""⟩, fun _ => true, (· = "gres"), ⟨0, ""⟩⟩,
    ⟨5, ⟨0, ""⟩, fun _ => true, (· = "logs"), ⟨0, ""⟩⟩]

theorem smoke_gate_two_targets :
    (twoTargets.state 0 twoPasses).exited = some 0 ∧
      ∀ target ∈ ["gres", "logs"], .check target true ∈ (twoTargets.state 0 twoPasses).trace := by
  obtain ⟨hexits, hpassed, -⟩ := smoke_gate twoTargets 0 twoPasses
  have hclock : 0 < twoTargets.deadline 0 ∧ 5 < twoTargets.deadline 0 := by decide +kernel
  have hok : ∀ text, ServicesAnswer.Ok ⟨0, text⟩ := fun _ => Or.inl rfl
  have hfirst : History.Causal (fun before input => input.clock < twoTargets.deadline 0 ∧
      twoTargets.GatesOk before input) (twoPasses.take 1) :=
    History.Causal.concat (History.causal_nil _) ⟨hclock.1, Or.inr rfl, fun _ => hok ""⟩
  have hexit : (twoTargets.state 0 twoPasses).exited = some 0 :=
    hexits.mpr ⟨twoPasses.take 1, _, [], rfl,
      hfirst.concat ⟨hclock.2, hok "", fun _ => hok ""⟩, by decide +kernel, rfl⟩
  have hconfigured : twoTargets.configured = ["gres", "logs"] := by decide +kernel
  exact ⟨hexit, hconfigured ▸ hpassed hexit⟩

end OrdersDemo
