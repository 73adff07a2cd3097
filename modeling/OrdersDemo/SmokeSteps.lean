import OrdersDemo.SmokeTargets

namespace OrdersDemo

namespace ValidEnv

/-- The loop is about to test the clock after the passes of `inputs`. With ready services, some
target is still pending. -/
structure Waiting (env : ValidEnv) (clock : ℤ) (inputs : List PassInput) (s : SmokeState) :
    Prop extends Tracks env clock inputs s where
  waits : s.servicesReady = true → s.pending ≠ ""

/-- The last line of a failure, and what it names. -/
def Names (s : SmokeState) (names : List String) : Prop :=
  ∃ text, s.trace.getLast? = some (.stderr ("failed: " ++ text)) ∧ wordsOf text = names

/-- The service checks of a pass return 0 or 2. -/
def GatesOk (env : ValidEnv) (inputs : List PassInput) (input : PassInput) : Prop :=
  input.opening.Ok ∧ (env.remaining (inputs ++ [input]) = [] → input.closing.Ok)

def Goes (env : ValidEnv) (clock : ℤ) (inputs : List PassInput) (input : PassInput) : Prop :=
  input.clock < env.deadline clock ∧ env.GatesOk inputs input ∧
    (env.remaining (inputs ++ [input]) = [] → input.closing.status ≠ 0)

/-- What one test of the clock can lead to. -/
inductive Ends (env : ValidEnv) (clock : ℤ) (inputs : List PassInput) (input : PassInput)
    (s s' : SmokeState) : Prop
  | waits : env.Goes clock inputs input → env.Waiting clock (inputs ++ [input]) s' →
      Ends env clock inputs input s s'
  | succeeds : input.clock < env.deadline clock → env.GatesOk inputs input →
      env.remaining (inputs ++ [input]) = [] → input.closing.status = 0 →
      s'.exited = some 0 → s'.pending = "" → Ends env clock inputs input s s'
  | stops : input.clock < env.deadline clock → ¬ env.GatesOk inputs input →
      s'.exited = some 1 → Names s' ["services"] → Ends env clock inputs input s s'
  | expires : env.deadline clock ≤ input.clock → s'.exited = some 1 →
      Names s' (env.remaining inputs ++
        if lastServices s.trace = some 0 then [] else ["services"]) →
      Ends env clock inputs input s s'

variable {env : ValidEnv} {clock : ℤ} {inputs : List PassInput} {s : SmokeState}

theorem isWord_services : IsWord "services" := by
  refine ⟨by decide, ?_⟩
  have hall : ("services".toList.all fun c => !blank c) = true := by decide
  intro c hc
  simpa using List.all_eq_true.mp hall c hc

theorem names_stopped {answer : ServicesAnswer} (h : ¬ answer.Ok) :
    Names (s.checkServices answer) ["services"] := by
  rw [s.checkServices_not_ok h]
  exact ⟨"services", by simp, wordsOf_word isWord_services⟩

theorem wordsOf_nameServices (s : SmokeState) :
    wordsOf s.nameServices.pending =
      wordsOf s.pending ++ if s.servicesReady then [] else ["services"] := by
  unfold SmokeState.nameServices
  split
  next => rw [List.append_nil]
  next =>
    have hservices : s.pending ++ " services" = s.pending ++ " " ++ "services" := by
      rw [String.append_assoc]
      rfl
    show wordsOf (s.pending ++ " services") = _
    rw [hservices, wordsOf_append isWord_services]

theorem pending_logNotReady (s : SmokeState) : s.logNotReady.pending = s.pending := by
  unfold SmokeState.logNotReady
  split <;> rfl

/-- The failure after the loop names the pending targets, and the services unless their last check
found them ready. -/
theorem names_finish (s : SmokeState) (hfails : s.pending ≠ "" ∨ s.servicesReady = false) :
    s.finish.exited = some 1 ∧
      Names s.finish (wordsOf s.pending ++ if s.servicesReady then [] else ["services"]) := by
  unfold SmokeState.finish
  rw [if_pos hfails]
  refine ⟨rfl, dropSpace s.nameServices.logNotReady.pending, ?_, ?_⟩
  · show (s.nameServices.logNotReady.trace ++ [_]).getLast? = _
    exact List.getLast?_concat
  · rw [wordsOf_dropSpace, pending_logNotReady, wordsOf_nameServices]

theorem Waiting.finish (h : env.Waiting clock inputs s) :
    s.finish.exited = some 1 ∧
      Names s.finish (env.remaining inputs ++
        if lastServices s.trace = some 0 then [] else ["services"]) := by
  have hfails : s.pending ≠ "" ∨ s.servicesReady = false := by
    cases hready : s.servicesReady with
    | true => exact Or.inl (h.waits hready)
    | false => exact Or.inr rfl
  have hnames := names_finish s hfails
  rw [h.pending] at hnames
  simpa only [h.ready] using hnames

theorem Tracks.close {input : PassInput} (h : env.Tracks clock (inputs ++ [input]) s)
    (hclock : input.clock < env.deadline clock) (hopen : input.opening.Ok)
    (hpending : s.pending = "") (hremaining : env.remaining (inputs ++ [input]) = [])
    (before : SmokeState) : env.Ends clock inputs input before (s.close input) := by
  unfold SmokeState.close
  by_cases hclose : input.closing.Ok
  · have hclosed := h.services hclose
    have hstate := s.checkServices_ok hclose
    have hgates : env.GatesOk inputs input := ⟨hopen, fun _ => hclose⟩
    simp only [hclosed.exited, Option.isSome_none, Bool.false_eq_true, if_false]
    by_cases hzero : input.closing.status = 0
    · have hready : (s.checkServices input.closing).servicesReady = true := by
        rw [hstate]
        exact decide_eq_true hzero
      have hdone : (s.checkServices input.closing).pending = "" := by
        rw [hstate]
        exact hpending
      have hfinish : ((s.checkServices input.closing).log [.stdout "ok services"]).finish =
          { (s.checkServices input.closing).log [.stdout "ok services"] with
            exited := some 0 } := by
        simp [SmokeState.finish, SmokeState.log, hready, hdone]
      rw [if_pos hready, hfinish]
      exact .succeeds hclock hgates hremaining hzero rfl hdone
    · have hwaits : (s.checkServices input.closing).servicesReady ≠ true := by
        rw [hstate]
        exact ne_true_of_eq_false (decide_eq_false hzero)
      rw [if_neg hwaits]
      exact .waits ⟨hclock, hgates, fun _ => hzero⟩ ⟨hclosed, fun hready => absurd hready hwaits⟩
  · have hexited : (s.checkServices input.closing).exited = some 1 := by
      rw [s.checkServices_not_ok hclose]
    simp only [hexited, Option.isSome_some, if_true]
    exact .stops hclock (fun hok => hclose (hok.2 hremaining)) hexited (names_stopped hclose)

theorem Waiting.step (h : env.Waiting clock inputs s) (input : PassInput) :
    env.Ends clock inputs input s (s.step input) := by
  unfold SmokeState.step
  rw [h.exited, h.deadline]
  simp only [Option.isSome_none, Bool.false_eq_true, if_false]
  split
  next hclock =>
    unfold SmokeState.pass
    by_cases hopen : input.opening.Ok
    · have hopened := h.toTracks.services hopen
      obtain ⟨hchecked, hempty⟩ := hopened.signals input
      simp only [hopened.exited, Option.isSome_none, Bool.false_eq_true, if_false]
      split
      next hpending => exact hchecked.close hclock hopen hpending (hempty.mp hpending) s
      next hpending =>
        have hremaining := mt hempty.mpr hpending
        exact .waits ⟨hclock, ⟨hopen, fun hnone => absurd hnone hremaining⟩,
          fun hnone => absurd hnone hremaining⟩ ⟨hchecked, fun _ => hpending⟩
    · have hexited : (s.checkServices input.opening).exited = some 1 := by
        rw [s.checkServices_not_ok hopen]
      simp only [hexited, Option.isSome_some, if_true]
      exact .stops hclock (fun hok => hopen hok.1) hexited (names_stopped hopen)
  next hclock =>
    have hfinish := h.finish
    exact .expires (not_lt.mp hclock) hfinish.1 hfinish.2

theorem Kept.finish (h : env.Kept s) : env.Kept s.finish := by
  have hnamed : env.Kept s.nameServices := by
    have hpending : ∀ target ∈ wordsOf s.pending, target ∈ wordsOf s.nameServices.pending := by
      rw [wordsOf_nameServices]
      exact fun _ => List.mem_append_left _
    by_cases hready : s.servicesReady = true
    · have hsame : s.nameServices = s := if_pos hready
      rwa [hsame]
    · have htrace : s.nameServices.trace = s.trace ++ [.stderr s.servicesReport] := by
        unfold SmokeState.nameServices
        rw [if_neg hready]
        rfl
      exact h.frame _ hpending htrace (by simp)
  have hlogged : env.Kept s.nameServices.logNotReady := by
    unfold SmokeState.logNotReady
    split
    next => exact hnamed
    next => exact hnamed.log _ (by simp)
  unfold SmokeState.finish
  split
  next => exact hlogged.frame _ (fun _ => id) rfl (by simp)
  next => exact h.frame [] (fun _ => id) (List.append_nil _).symm (by simp)

theorem Kept.close (h : env.Kept s) (input : PassInput) : env.Kept (s.close input) := by
  have hclosed := h.services input.closing
  unfold SmokeState.close
  dsimp only
  split
  next => exact hclosed
  next =>
    split
    next => exact (hclosed.log _ (by simp)).finish
    next => exact hclosed

theorem Waiting.kept_step (h : env.Waiting clock inputs s) (input : PassInput) :
    env.Kept (s.step input) := by
  unfold SmokeState.step
  rw [h.exited]
  simp only [Option.isSome_none, Bool.false_eq_true, if_false]
  split
  next =>
    unfold SmokeState.pass
    by_cases hopen : input.opening.Ok
    · have hopened := h.toTracks.services hopen
      have hchecked := (hopened.signals input).1.kept
      simp only [hopened.exited, Option.isSome_none, Bool.false_eq_true, if_false]
      split
      next => exact hchecked.close input
      next => exact hchecked
    · have hexited : (s.checkServices input.opening).exited = some 1 := by
        rw [s.checkServices_not_ok hopen]
      simp only [hexited, Option.isSome_some, if_true]
      exact h.kept.services input.opening
  next => exact h.kept.finish

theorem start_waiting (env : ValidEnv) (clock : ℤ) :
    env.Waiting clock [] (env.toSmokeEnv.start clock) := by
  have hknown : (wordsOf env.pending).find? (· ∉ smokeTargets) = none := by
    apply List.find?_eq_none.mpr
    intro target htarget
    simpa using env.known target htarget
  unfold SmokeEnv.start
  simp only [hknown]
  exact
    { exited := rfl
      deadline := rfl
      readyServices := rfl
      pending := env.remaining_nil.symm
      ready := by simp [lastServices]
      passed := by simp [remaining_nil]
      latched := List.Pairwise.nil
      waits := by simp }

end ValidEnv

end OrdersDemo
