import OrdersDemo.SmokePasses

namespace OrdersDemo

def SmokeAct.status? : SmokeAct → Option ℕ
  | .services status => some status
  | _ => none

def lastServices (trace : List SmokeAct) : Option ℕ :=
  (trace.filterMap SmokeAct.status?).getLast?

/-- A target that has passed is not checked later. -/
def Latched (trace : List SmokeAct) : Prop :=
  trace.Pairwise fun a b => ∀ target passed, a = .check target true → b ≠ .check target passed

theorem status?_checkActs {passes : String → Bool} {targets : List String} :
    (targets.flatMap (checkActs passes)).filterMap SmokeAct.status? = [] := by
  apply List.filterMap_eq_nil_iff.mpr
  intro act hact
  obtain ⟨target, _, hmem⟩ := List.mem_flatMap.mp hact
  unfold checkActs at hmem
  split at hmem
  next =>
    rcases List.mem_cons.mp hmem with rfl | hmem
    · rfl
    · obtain rfl := List.mem_singleton.mp hmem
      rfl
  next =>
    obtain rfl := List.mem_singleton.mp hmem
    rfl

theorem check_mem_checkActs {passes : String → Bool} {targets : List String} {target : String}
    {passed : Bool} :
    .check target passed ∈ targets.flatMap (checkActs passes) ↔
      target ∈ targets ∧ passes target = passed := by
  constructor
  · intro h
    obtain ⟨other, hother, hmem⟩ := List.mem_flatMap.mp h
    unfold checkActs at hmem
    split at hmem
    next hpasses =>
      simp only [List.mem_cons, SmokeAct.check.injEq, List.not_mem_nil, reduceCtorEq,
        or_false] at hmem
      obtain ⟨rfl, rfl⟩ := hmem
      exact ⟨hother, hpasses⟩
    next hfails =>
      simp only [List.mem_cons, SmokeAct.check.injEq, List.not_mem_nil, or_false] at hmem
      obtain ⟨rfl, rfl⟩ := hmem
      exact ⟨hother, eq_false_of_ne_true hfails⟩
  · rintro ⟨hmem, rfl⟩
    apply List.mem_flatMap.mpr
    refine ⟨target, hmem, ?_⟩
    unfold checkActs
    split
    next hpasses => simp [hpasses]
    next hfails => simp [hfails]

theorem latched_checkActs {passes : String → Bool} {targets : List String}
    (h : targets.Nodup) : Latched (targets.flatMap (checkActs passes)) := by
  induction targets with
  | nil => exact List.Pairwise.nil
  | cons target targets ih =>
    have hnodup := List.nodup_cons.mp h
    rw [List.flatMap_cons, Latched, List.pairwise_append]
    refine ⟨?_, ih hnodup.2, ?_⟩
    · unfold checkActs
      split
      next => simp
      next => exact List.pairwise_singleton _ _
    · intro a ha b hb other passed hpass hcheck
      subst hpass hcheck
      have hother : other = target := by
        have hmem : SmokeAct.check other true ∈ [target].flatMap (checkActs passes) := by
          simpa using ha
        exact List.mem_singleton.mp (check_mem_checkActs.mp hmem).1
      have hlater := (check_mem_checkActs.mp hb).1
      rw [hother] at hlater
      exact hnodup.1 hlater

/-- An environment that names known targets, each once. -/
structure ValidEnv extends SmokeEnv where
  known : ∀ target ∈ wordsOf toSmokeEnv.pending, target ∈ smokeTargets
  nodup : (wordsOf toSmokeEnv.pending).Nodup

namespace ValidEnv

def configured (env : ValidEnv) : List String :=
  wordsOf env.pending

def passes (env : ValidEnv) (input : PassInput) (target : String) : Bool :=
  input.passes env.readyText target

def remaining (env : ValidEnv) (inputs : List PassInput) : List String :=
  env.configured.filter fun target => !inputs.any (env.passes · target)

theorem remaining_nil (env : ValidEnv) : env.remaining [] = env.configured := by
  simp [remaining]

theorem remaining_concat (env : ValidEnv) (inputs : List PassInput) (input : PassInput) :
    env.remaining (inputs ++ [input]) =
      (env.remaining inputs).filter (!env.passes input ·) := by
  unfold remaining
  rw [List.filter_filter]
  apply List.filter_congr
  intro target _
  simp [Bool.and_comm]

theorem remaining_nodup (env : ValidEnv) (inputs : List PassInput) :
    (env.remaining inputs).Nodup :=
  env.nodup.filter _

/-- The script still runs, and its variables tell which targets and services have passed. -/
structure Tracks (env : ValidEnv) (clock : ℤ) (inputs : List PassInput) (s : SmokeState) :
    Prop where
  exited : s.exited = none
  deadline : s.deadline = env.deadline clock
  readyServices : s.readyServices = env.readyText
  pending : wordsOf s.pending = env.remaining inputs
  ready : s.servicesReady = true ↔ lastServices s.trace = some 0
  passed : ∀ target ∈ env.configured,
    target ∈ env.remaining inputs ↔ .check target true ∉ s.trace
  latched : Latched s.trace

/-- No target is checked again or dropped before it has passed. -/
structure Kept (env : ValidEnv) (s : SmokeState) : Prop where
  latched : Latched s.trace
  pending : ∀ target ∈ env.configured,
    target ∈ wordsOf s.pending ∨ .check target true ∈ s.trace

variable {env : ValidEnv} {clock : ℤ} {inputs : List PassInput} {s : SmokeState}

theorem Tracks.kept (h : env.Tracks clock inputs s) : env.Kept s where
  latched := h.latched
  pending := by
    intro target htarget
    rw [h.pending, h.passed target htarget]
    exact (em _).symm

theorem Kept.frame {s' : SmokeState} (h : env.Kept s) (acts : List SmokeAct)
    (hpending : ∀ target ∈ wordsOf s.pending, target ∈ wordsOf s'.pending)
    (htrace : s'.trace = s.trace ++ acts) (hacts : ∀ target passed, .check target passed ∉ acts) :
    env.Kept s' where
  latched := by
    rw [htrace, Latched, List.pairwise_append]
    refine ⟨h.latched, ?_, ?_⟩
    · apply List.pairwise_of_forall_mem_list
      rintro a ha b _ target passed rfl
      exact absurd ha (hacts target true)
    · rintro a _ b hb target passed _ rfl
      exact hacts target passed hb
  pending := by
    intro target htarget
    rw [htrace]
    rcases h.pending target htarget with hmem | hmem
    · exact Or.inl (hpending target hmem)
    · exact Or.inr (List.mem_append_left acts hmem)

theorem Kept.log (h : env.Kept s) (acts : List SmokeAct)
    (hacts : ∀ target passed, .check target passed ∉ acts) : env.Kept (s.log acts) :=
  h.frame acts (fun _ => id) rfl hacts

theorem Kept.services (h : env.Kept s) (answer : ServicesAnswer) :
    env.Kept (s.checkServices answer) := by
  by_cases hok : answer.Ok
  · rw [s.checkServices_ok hok]
    exact h.frame _ (fun _ => id) rfl (by simp)
  · rw [s.checkServices_not_ok hok]
    exact h.frame _ (fun _ => id) rfl (by simp)

theorem Tracks.services (h : env.Tracks clock inputs s) {answer : ServicesAnswer}
    (hok : answer.Ok) : env.Tracks clock inputs (s.checkServices answer) := by
  rw [s.checkServices_ok hok]
  have hlast : lastServices (s.trace ++ [.services answer.status]) = some answer.status := by
    simp [lastServices, SmokeAct.status?]
  refine ⟨h.exited, h.deadline, h.readyServices, h.pending, ?_, ?_, ?_⟩
  · show decide (answer.status = 0) = true ↔ _
    rw [hlast, decide_eq_true_iff, Option.some_inj]
  · intro target htarget
    rw [h.passed target htarget]
    simp
  · exact (h.kept.log [.services answer.status] (by simp)).latched

theorem Tracks.signals (h : env.Tracks clock inputs s) (input : PassInput) :
    env.Tracks clock (inputs ++ [input]) (s.checkSignals input) ∧
      ((s.checkSignals input).pending = "" ↔ env.remaining (inputs ++ [input]) = []) := by
  obtain ⟨notReady, pending, hstate, hwords, hempty⟩ := s.checkSignals_spec input
  rw [h.pending, h.readyServices] at hstate hwords
  have hremaining : wordsOf pending = env.remaining (inputs ++ [input]) := by
    rw [hwords, remaining_concat]
    rfl
  rw [hstate]
  refine ⟨⟨h.exited, h.deadline, rfl, hremaining, ?_, ?_, ?_⟩, ?_⟩
  · have hlast : lastServices (s.trace ++
        (env.remaining inputs).flatMap (checkActs (env.passes input))) = lastServices s.trace := by
      unfold lastServices
      rw [List.filterMap_append, status?_checkActs, List.append_nil]
    show s.servicesReady = true ↔ lastServices (s.trace ++ _) = some 0
    rw [h.ready, ← hlast]
    rfl
  · intro target htarget
    have hbefore := h.passed target htarget
    have hnow : .check target true ∈
        (env.remaining inputs).flatMap (checkActs (env.passes input)) ↔ _ := check_mem_checkActs
    rw [remaining_concat, List.mem_filter]
    show _ ↔ _ ∉ s.trace ++ (env.remaining inputs).flatMap (checkActs (env.passes input))
    rw [List.mem_append, hnow, hbefore]
    by_cases hpassed : SmokeAct.check target true ∈ s.trace <;> simp [hpassed]
  · show Latched (s.trace ++ (env.remaining inputs).flatMap (checkActs (env.passes input)))
    rw [Latched, List.pairwise_append]
    refine ⟨h.latched, latched_checkActs (env.remaining_nodup inputs), ?_⟩
    rintro a ha b hb target passed rfl rfl
    have hmem := (check_mem_checkActs.mp hb).1
    have hconfigured : target ∈ env.configured := List.mem_of_mem_filter hmem
    exact (h.passed target hconfigured).mp hmem ha
  · rw [← hremaining]
    exact hempty

end ValidEnv

end OrdersDemo
