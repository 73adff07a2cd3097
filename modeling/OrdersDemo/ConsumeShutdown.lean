import OrdersDemo.RunConsume

namespace OrdersDemo

variable {E P : Type}

/-- A signal arrives while the listener of the `select!` exists, and a `select!` whose listener was
notified takes the shutdown branch. -/
def ShutdownSeen (s : ConsumeState E P) : ConsumeEvent E P → Prop
  | .signal => s.installed = true →
    (∀ record remaining, s.phase ≠ .processing record remaining) ∧ s.phase ≠ .selecting .absent
  | .wake shutdownFirst poll => s.phase = .selecting .notified →
    shutdownFirst = true ∨ poll = none
  | .process _ => True

/-- After a signal of iteration `k`, no later iteration polls the consumer, and the loop is left
or is about to be. -/
structure ShutdownInv (s : ConsumeState E P) : Prop where
  polls : ∀ p ∈ s.polls, p ≤ s.iteration
  installed : s.installed = false → s.signalled = none
  signalled : ∀ k, s.signalled = some k → (∀ p ∈ s.polls, p ≤ k) ∧
    (s.phase = .closed ∨ s.phase = .selecting .notified ∧ s.iteration = k)

section Steps

variable {cli : ProcessCli} {s : ConsumeState E P}

theorem select_notified {shutdownFirst : Bool}
    {poll : Option (Except P (List ConsumerRecord))} (h : shutdownFirst = true ∨ poll = none) :
    (s.select .notified shutdownFirst poll).phase = .closed ∧
      (s.select .notified shutdownFirst poll).signalled = s.signalled ∧
      (s.select .notified shutdownFirst poll).iteration = s.iteration ∧
      ∀ p ∈ (s.select .notified shutdownFirst poll).polls, p ∈ s.polls ∨ p = s.iteration := by
  cases shutdownFirst with
  | true => exact ⟨rfl, rfl, rfl, fun p hp => Or.inl hp⟩
  | false =>
    obtain rfl : poll = none := by simpa using h
    refine ⟨rfl, rfl, rfl, fun p hp => ?_⟩
    have hp' : p ∈ s.polls ++ [s.iteration] := hp
    simpa using hp'

theorem pollConsumer_polls (s : ConsumeState E P) (listener : Listener)
    (poll : Option (Except P (List ConsumerRecord))) :
    (s.pollConsumer listener poll).signalled = s.signalled ∧
      (∀ p ∈ (s.pollConsumer listener poll).polls, p ∈ s.polls ∨ p = s.iteration) ∧
      s.iteration ≤ (s.pollConsumer listener poll).iteration ∧
      (s.pollConsumer listener poll).installed = s.installed := by
  have hmem : ∀ p ∈ s.polls ++ [s.iteration], p ∈ s.polls ∨ p = s.iteration := fun p hp => by
    simpa using hp
  rcases poll with _ | error | records
  · exact ⟨rfl, hmem, le_rfl, rfl⟩
  · exact ⟨rfl, hmem, le_rfl, rfl⟩
  · cases records with
    | nil => exact ⟨rfl, hmem, Nat.le_succ _, rfl⟩
    | cons => exact ⟨rfl, hmem, le_rfl, rfl⟩

theorem select_polls (s : ConsumeState E P) (listener : Listener) (shutdownFirst : Bool)
    (poll : Option (Except P (List ConsumerRecord))) :
    (s.select listener shutdownFirst poll).signalled = s.signalled ∧
      (∀ p ∈ (s.select listener shutdownFirst poll).polls, p ∈ s.polls ∨ p = s.iteration) ∧
      s.iteration ≤ (s.select listener shutdownFirst poll).iteration ∧
      ((s.select listener shutdownFirst poll).installed = false → s.installed = false) := by
  have hpoll : ∀ (l : Listener) (b : Bool) (poll : Option (Except P (List ConsumerRecord))),
      (b = false → s.installed = false) →
      let s' := ConsumeState.pollConsumer { s with installed := b } l poll
      s'.signalled = s.signalled ∧ (∀ p ∈ s'.polls, p ∈ s.polls ∨ p = s.iteration) ∧
        s.iteration ≤ s'.iteration ∧ (s'.installed = false → s.installed = false) := by
    intro l b poll hb
    obtain ⟨hsig, hpolls, hiter, hinst⟩ := pollConsumer_polls { s with installed := b } l poll
    exact ⟨hsig, hpolls, hiter, fun hi => hb (hinst.symm.trans hi)⟩
  unfold ConsumeState.select
  split
  next =>
    split
    next => exact ⟨rfl, fun p hp => Or.inl hp, le_rfl, id⟩
    next => exact hpoll .waiting true poll (fun h => by cases h)
  next =>
    split
    next => exact hpoll listener s.installed poll id
    next =>
      split
      next => exact hpoll listener s.installed none id
      next => exact hpoll .waiting true none (fun h => by cases h)

theorem ShutdownInv.select (h : ShutdownInv s) {listener : Listener}
    (hp : s.phase = .selecting listener) {shutdownFirst : Bool}
    {poll : Option (Except P (List ConsumerRecord))}
    (hc : ShutdownSeen s (.wake shutdownFirst poll)) :
    ShutdownInv (s.select listener shutdownFirst poll) := by
  obtain ⟨hsig, hpolls, hiter, hinst⟩ := select_polls s listener shutdownFirst poll
  refine ⟨fun p hm => ?_, fun hi => hsig.trans (h.installed (hinst hi)), fun k hk => ?_⟩
  · rcases hpolls p hm with hm | rfl
    · exact (h.polls p hm).trans hiter
    · exact hiter
  · rw [hsig] at hk
    obtain ⟨hle, hphase⟩ := h.signalled k hk
    obtain ⟨hnotified, hk'⟩ : s.phase = .selecting .notified ∧ s.iteration = k :=
      hphase.resolve_left (by simp [hp])
    obtain rfl : listener = .notified := by
      rw [hp] at hnotified
      exact ConsumePhase.selecting.inj hnotified
    obtain ⟨hclosed, _⟩ := select_notified (s := s) (hc hp)
    refine ⟨fun p hm => ?_, Or.inl hclosed⟩
    rcases hpolls p hm with hm | rfl
    · exact hle p hm
    · exact hk'.le

/-- A signal that meets no listener ends the process, as long as none was installed. -/
theorem ShutdownInv.killed (h : ShutdownInv s) (hi : s.installed = false) :
    ShutdownInv ({ s with phase := .killed } : ConsumeState E P) := by
  have hnone := h.installed hi
  exact ⟨h.polls, fun _ => hnone, fun k hk => by simp [hnone] at hk⟩

theorem ShutdownInv.signal (h : ShutdownInv s) (hc : ShutdownSeen s .signal) :
    ShutdownInv s.signal := by
  unfold ConsumeState.signal
  split
  next listener hp =>
    split
    next hi =>
      have hl : listener ≠ .absent := fun hl => (hc hi).2 (by rw [hp, hl])
      rw [if_neg hl]
      refine ⟨h.polls, fun hi' => absurd (hi.symm.trans hi') (by decide), fun k hk => ?_⟩
      cases hs : s.signalled with
      | none =>
        obtain rfl : s.iteration = k := by simpa [hs] using hk
        exact ⟨h.polls, Or.inr ⟨rfl, rfl⟩⟩
      | some j =>
        obtain rfl : j = k := by simpa [hs] using hk
        obtain ⟨hle, hphase⟩ := h.signalled j hs
        exact ⟨hle, Or.inr ⟨rfl, (hphase.resolve_left (by simp [hp])).2⟩⟩
    next hi => exact h.killed (by simpa using hi)
  next record remaining hp =>
    split
    next hi => exact absurd hp ((hc hi).1 record remaining)
    next hi => exact h.killed (by simpa using hi)
  next => exact h

theorem ShutdownInv.process (h : ShutdownInv s) {record : ConsumerRecord}
    {remaining : List ConsumerRecord} (hp : s.phase = .processing record remaining)
    (env : ProcessEnv E) : ShutdownInv ((s.process cli env record).next remaining) := by
  have hnone : s.signalled = none := by
    cases hs : s.signalled with
    | none => rfl
    | some k =>
      obtain ⟨_, hphase | hphase⟩ := h.signalled k hs
      · simp [hp] at hphase
      · simp [hp] at hphase
  cases remaining with
  | nil =>
    refine ⟨fun p hm => (h.polls p hm).trans (Nat.le_succ _), fun _ => hnone, fun k hk => ?_⟩
    rw [show s.signalled = some k from hk] at hnone
    cases hnone
  | cons =>
    refine ⟨h.polls, fun _ => hnone, fun k hk => ?_⟩
    rw [show s.signalled = some k from hk] at hnone
    cases hnone

theorem ShutdownInv.step (h : ShutdownInv s) (e : ConsumeEvent E P) (hc : ShutdownSeen s e) :
    ShutdownInv (s.step cli e) := by
  cases e with
  | signal => exact h.signal hc
  | wake shutdownFirst poll =>
    simp only [ConsumeState.step]
    split
    next listener hp => exact h.select hp hc
    next => exact h
  | process env =>
    simp only [ConsumeState.step]
    split
    next record remaining hp => exact h.process hp env
    next => exact h

end Steps

/-- When every signal meets the listener of a `select!` that then takes the shutdown branch, no
iteration after the signal polls the consumer, and the next poll of the `select!` closes it. -/
theorem runConsume_shutdown (cli : ProcessCli) (m₀ : DemoMetrics)
    (events : List (ConsumeEvent E P))
    (hc : (runConsume E P cli m₀).Meets ShutdownSeen { metrics := m₀ } events) :
    let s := (runConsume E P cli m₀).run events
    ∀ k, s.signalled = some k →
      (∀ p ∈ s.polls, p ≤ k) ∧
      (s.phase = .closed ∨
        s.iteration = k ∧ ∀ shutdownFirst poll, ShutdownSeen s (.wake shutdownFirst poll) →
          (s.step cli (.wake shutdownFirst poll)).phase = .closed) := by
  intro s k hk
  have h : ShutdownInv s := by
    refine (runConsume E P cli m₀).runFrom_invariant_of_meets (C := ShutdownSeen)
      (I := ShutdownInv) (fun s e hc h => ShutdownInv.step h e hc) ?_ hc
    have hstart : ShutdownInv ({ metrics := m₀ } : ConsumeState E P) :=
      ⟨by simp, fun _ => rfl, by simp⟩
    exact hstart
  obtain ⟨hle, hphase⟩ := h.signalled k hk
  refine ⟨hle, hphase.imp_right fun ⟨hp, hi⟩ => ⟨hi, fun shutdownFirst poll hseen => ?_⟩⟩
  simp only [ConsumeState.step, hp]
  exact (select_notified (hseen hp)).1

section Runs

def emptyRecord : ConsumerRecord := ⟨0, 0, [], none⟩

def idleEnv : ProcessEnv Unit := ⟨fun _ _ => .error (), fun _ => 0, 0⟩

theorem runConsume_shutdown_while_waiting :
    let s := (runConsume Unit Unit idleCli {}).run
      [.wake true none, .wake false (some (.ok [emptyRecord])), .process idleEnv, .wake true none,
        .signal, .wake true (some (.ok [emptyRecord]))]
    s.signalled = some 1 ∧ s.phase = .closed ∧ ∀ p ∈ s.polls, p ≤ 1 := by
  have h := runConsume_shutdown (E := Unit) (P := Unit) idleCli {}
    [.wake true none, .wake false (some (.ok [emptyRecord])), .process idleEnv, .wake true none,
      .signal, .wake true (some (.ok [emptyRecord]))]
    (by simp [Machine.Meets, ShutdownSeen, runConsume, ConsumeState.step, ConsumeState.select,
      ConsumeState.pollConsumer, ConsumeState.next])
  exact ⟨rfl, rfl, (h 1 rfl).1⟩

theorem idle_wake (cli : ProcessCli) {s : ConsumeState E P} {listener : Listener}
    (hp : s.phase = .selecting listener) (hl : listener ≠ .notified) :
    s.step cli (.wake true none) =
      { s with
        installed := true
        polls := s.polls ++ [s.iteration]
        phase := .selecting .waiting } := by
  simp [ConsumeState.step, hp, ConsumeState.select, hl, ConsumeState.pollConsumer]

/-- A `select!` without a notified listener waits on, whatever was signalled before. -/
theorem idle_wakes {cli : ProcessCli} {m₀ : DemoMetrics} {s : ConsumeState E P}
    {listener : Listener} (hp : s.phase = .selecting listener) (hl : listener ≠ .notified)
    (n : ℕ) :
    let t := (runConsume E P cli m₀).runFrom s (List.replicate (n + 1) (.wake true none))
    s.iteration ∈ t.polls ∧ t.phase = .selecting .waiting := by
  induction n generalizing s listener with
  | zero =>
    have hstep := idle_wake cli hp hl
    intro t
    have ht : t = s.step cli (.wake true none) := rfl
    rw [ht, hstep]
    exact ⟨by simp, rfl⟩
  | succ n ih =>
    have hstep := idle_wake cli hp hl
    have hw : Listener.waiting ≠ .notified := by decide
    intro t
    have ht : t = (runConsume E P cli m₀).runFrom (s.step cli (.wake true none))
      (List.replicate (n + 1) (.wake true none)) := rfl
    rw [ht, hstep]
    exact ih rfl hw

/-- A signal that arrives while a batch is processed meets no listener, and one that arrives
together with a batch can lose its listener to that branch: the loop polls the consumer in its next
iteration, and waits on for as long as no other signal arrives. -/
theorem runConsume_loses_shutdown :
    let lost := (runConsume Unit Unit idleCli {}).run
      [.wake true none, .wake true (some (.ok [emptyRecord])), .signal, .process idleEnv]
    let raced := (runConsume Unit Unit idleCli {}).run
      [.wake true none, .signal, .wake false (some (.ok []))]
    lost.signalled = some 0 ∧ raced.signalled = some 0 ∧
    ∀ n, ∀ s ∈ [lost, raced],
      1 ∈ ((runConsume Unit Unit idleCli {}).runFrom s
        (List.replicate (n + 1) (.wake true none))).polls ∧
      ((runConsume Unit Unit idleCli {}).runFrom s
        (List.replicate (n + 1) (.wake true none))).phase = .selecting .waiting := by
  refine ⟨rfl, rfl, fun n s hs => ?_⟩
  rcases List.mem_pair.mp hs with rfl | rfl
  · exact idle_wakes rfl (by decide : Listener.absent ≠ .notified) n
  · exact idle_wakes rfl (by decide : Listener.absent ≠ .notified) n

end Runs

end OrdersDemo
