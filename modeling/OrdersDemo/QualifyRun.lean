import OrdersDemo.Library.Runbook
import OrdersDemo.QualifyFailover

namespace OrdersDemo

/-- What the script relies on: `date` tells the time, which never goes back, and `sleep 5` takes
five seconds. -/
structure Host.Clock {W : Type} (host : Host W) where
  time : W → ℕ
  shown : ∀ w, (host.epoch w).1 = time w
  dateForward : ∀ w, time w ≤ time (host.epoch w).2
  runForward : ∀ words input w, time w ≤ time (host.run words input w).2
  sleeps : ∀ input w, time w + 5 ≤ time (host.run ["sleep", "5"] input w).2

/-- `awk` prints a sum below 2 ^ 31 as it is. Some print a larger one as `2.14748e+09`. -/
def Host.SumsExact {W : Type} (host : Host W) : Prop :=
  ∀ offsets : List ℕ, offsets.sum < 2 ^ 31 → host.sum offsets = toString offsets.sum

namespace Qualify

open Runbook

def captureMilestones (phase : QualifyPhase) : List (QualifyCall × Bool) :=
  [(.metrics phase, true), (.logLabels phase, true), (.seedLog phase, true),
    (.seedLogFound phase, true), (.seedTrace phase, true), (.searchTraces phase, true),
    (.profileTypes phase, true), (.serviceMetrics phase .produce, true),
    (.serviceMetrics phase .stream, true), (.serviceMetrics phase .consume, true)]

def ledgerMilestones (phase : QualifyPhase) : List (QualifyCall × Bool) :=
  ledgerGroups.map fun group => (.consumerGroup phase group, true)

/-- What a qualification has to see, in this order: a command and whether it passes. -/
def milestones : List (QualifyCall × Bool) :=
  [(.postTraces, true), (.postLogs, true), (.smoke .before, true)] ++ captureMilestones .before ++
    ledgerMilestones .before ++
    [(.killBlockBuilder, true), (.restartBroker, true), (.startBlockBuilder, true),
      (.recreateGres, true), (.smoke .afterRecovery, true)] ++ captureMilestones .after ++
    ledgerMilestones .after ++
    [(.stopQuerier, true), (.alerts, true), (.alertActive, true), (.alertsFiring, true),
      (.startQuerier, true), (.alerts, true), (.alertActive, false), (.alertsResolved, true),
      (.smoke .final, true)]

/-- The commands of `ledger` stand before `|| true`, and `curl` stands before a pipe. -/
def tolerated : QualifyCall → Bool
  | .consumerGroup _ _ => true
  | .alerts => true
  | _ => false

def captureStart : QualifyPhase → ℕ
  | .before => 3
  | .after => 22

def ledgerStart (phase : QualifyPhase) : ℕ :=
  captureStart phase + 10

variable {W : Type} {host : Host W} {settings : QualifySettings} {fuel n : ℕ} {clock : host.Clock}
  {c : QualifyCall} {s : QualifyState W}

/-- The script has got past the first `n` milestones. -/
def Got (n : ℕ) (s : QualifyState W) : Prop :=
  At tolerated milestones (milestones.take n) s.log

/-- The script stopped early, with a failure. -/
def Stopped (r : Shell.Ending) (s : QualifyState W) : Prop :=
  Gated tolerated milestones s.log ∧ ∃ code, code ≠ 0 ∧ r = .exit code

/-- What a command leaves as it is, and that time goes on. -/
structure Onward (clock : host.Clock) (s t : QualifyState W) : Prop where
  deadline : t.deadline = s.deadline
  time : clock.time s.world ≤ clock.time t.world

theorem Onward.trans {s t u : QualifyState W} (h : Onward clock s t) (h' : Onward clock t u) :
    Onward clock s u :=
  ⟨h'.deadline.trans h.deadline, h.time.trans h'.time⟩

theorem not_stopped (s : QualifyState W) : ¬ Stopped .brk s ∧ ¬ Stopped .cont s := by
  constructor
  · rintro ⟨-, _, _, hr⟩
    cases hr
  · rintro ⟨-, _, _, hr⟩
    cases hr

theorem Got.guards_aside (hc : c ∉ milestones.map Prod.fst) :
    (guards milestones c).Sublist (milestones.take n) := by
  rw [guards_of_not_mem hc]
  exact List.nil_sublist _

theorem save_deadline {output : String} : (s.save c output).deadline = s.deadline := by
  unfold QualifyState.save
  split <;> rfl

theorem call_wp (clock : host.Clock) (hguards : (guards milestones c).Sublist (milestones.take n))
    (h : Got n s) {errexit : Bool} :
    Shell.wp (call host settings c) errexit (fun r t => ∃ code, r = Shell.settle errexit code ∧
      Got n t ∧ (milestones[n]? = some (c, passed tolerated c code) → Got (n + 1) t) ∧
        Onward clock s t ∧ t.lastStatus = code) s := by
  rw [call, Shell.wp_run]
  exact ⟨_, rfl, (h.record hguards _).mono (List.sublist_append_left _ _), fun hn => h.next hn,
    ⟨save_deadline, clock.runForward _ _ _⟩, rfl⟩

/-- The next milestone, where a failure stops the script. -/
theorem call_triple (clock : host.Clock) (hn : milestones[n]? = some (c, true)) :
    Shell.Triple (Got n) (call host settings c) (Got (n + 1)) Stopped := by
  intro s hs
  refine Shell.wp_mono (call_wp clock (guards_sublist hn) hs) ?_
  rintro r t ⟨code, rfl, ht, hnext, -, -⟩
  by_cases hcode : code = 0
  · rw [Shell.settle, if_neg (by simp [hcode])]
    exact hnext (by simpa [hcode] using hn)
  · rw [Shell.settle, if_pos ⟨rfl, hcode⟩]
    exact ⟨ht.gated, code, hcode, rfl⟩

theorem call_aside (clock : host.Clock) (hc : c ∉ milestones.map Prod.fst) :
    Shell.Triple (Got n) (call host settings c) (Got n) Stopped := by
  intro s hs
  refine Shell.wp_mono (call_wp clock (Got.guards_aside hc) hs) ?_
  rintro r t ⟨code, rfl, ht, -, -, -⟩
  by_cases hcode : code = 0
  · rw [Shell.settle, if_neg (by simp [hcode])]
    exact ht
  · rw [Shell.settle, if_pos ⟨rfl, hcode⟩]
    exact ⟨ht.gated, code, hcode, rfl⟩

theorem call_tested (clock : host.Clock) (hc : c ∉ milestones.map Prod.fst) (h : Got n s) :
    Shell.wp (call host settings c) false (fun r t => (∃ code, r = .status code) ∧ Got n t) s := by
  refine Shell.wp_mono (call_wp clock (Got.guards_aside hc) h) ?_
  rintro r t ⟨code, rfl, ht, -, -, -⟩
  exact ⟨⟨code, rfl⟩, ht⟩

theorem pause_wp (clock : host.Clock) (h : Got n s) :
    Shell.wp (call host settings .pause) true (fun r t => ∃ code, r = Shell.settle true code ∧
      Got n t ∧ t.deadline = s.deadline ∧ clock.time s.world + 5 ≤ clock.time t.world) s := by
  have hguards : (guards milestones .pause).Sublist (milestones.take n) :=
    Got.guards_aside (by decide)
  rw [call, Shell.wp_run]
  exact ⟨_, rfl, (h.record hguards _).mono (List.sublist_append_left _ _), rfl, clock.sleeps _ _⟩

theorem assign_triple {f : QualifyState W → QualifyState W} (hf : ∀ s, (f s).log = s.log) :
    Shell.Triple (Got n) (Shell.assign f) (Got n) Stopped := by
  refine .assign fun s hs => ?_
  rwa [Got, hf s]

theorem write_triple {name : String} {text : QualifyState W → String} :
    Shell.Triple (Got n) (write name text) (Got n) Stopped :=
  assign_triple fun _ => rfl

theorem test_triple {p : QualifyState W → Bool} {R : QualifyState W → Prop}
    (hp : ∀ s, Got n s → p s = true → R s) :
    Shell.Triple (Got n) (Shell.test p) R Stopped := by
  intro s hs
  rw [Shell.wp_test]
  by_cases h : p s = true
  · simpa [Shell.settle, h] using hp s hs h
  · rw [if_neg h, Shell.settle, if_pos ⟨rfl, Nat.one_ne_zero⟩]
    exact ⟨hs.gated, 1, Nat.one_ne_zero, rfl⟩

/-- A loop with a deadline ends: it gets through or it stops the script. -/
theorem poll_triple (clock : host.Clock) {m timeout : ℕ} {waiting : Shell (QualifyState W)}
    {message : String} (hfuel : timeout / 5 + 1 < fuel)
    (hwaiting : ∀ s, Got n s → Shell.wp waiting false (fun r t => ∃ code, r = .status code ∧
      Onward clock s t ∧ if code = 0 then Got n t else Got m t) s) :
    Shell.Triple (Got n) (poll host settings fuel timeout waiting message) (Got m) Stopped := by
  intro s hs
  rw [poll, Shell.wp_block_cons, readDate, Shell.wp_assign, Shell.go_status,
    Shell.wp_block_cons, Shell.wp_assign, Shell.go_status, Shell.block]
  -- each turn takes five seconds of those that are left
  refine Shell.wp_loop (I := fun k t => Got n t ∧ t.deadline ≤ clock.time t.world + 5 * k) ?_ hfuel
    ⟨hs, ?_⟩
  · rintro k s ⟨hs, hk⟩
    refine Shell.wp_mono (hwaiting s hs) ?_
    rintro _ t ⟨code, rfl, honward, ht⟩
    rw [Shell.go_status]
    split at ht
    next hcode =>
      have hdeadline : t.deadline ≤ clock.time t.world + 5 * k := by
        have htime := honward.time
        rw [honward.deadline]
        omega
      have hshown := clock.shown t.world
      have hforward := clock.dateForward t.world
      rw [if_pos hcode, Shell.wp_block_cons, Shell.wp_either, Shell.wp_seq,
        Shell.wp_assign, Shell.go_status, Shell.wp_test]
      by_cases hlate : (host.epoch t.world).1 < t.deadline
      · simp only [hlate, decide_true, ↓reduceIte, Shell.settle, Bool.false_eq_true, false_and,
          Shell.go_status, Shell.block]
        refine Shell.wp_mono (pause_wp clock (s := { t with
          epoch := (host.epoch t.world).1, world := (host.epoch t.world).2 }) ht) ?_
        rintro r u ⟨code, rfl, hu, hsame, hlater⟩
        by_cases hcode : code = 0
        · rw [Shell.settle, if_neg (by simp [hcode])]
          refine ⟨k - 1, by omega, hu, ?_⟩
          rw [hsame]
          dsimp only at hlater ⊢
          omega
        · rw [Shell.settle, if_pos ⟨rfl, hcode⟩]
          exact ⟨hu.gated, code, hcode, rfl⟩
      · simp only [hlate, decide_false, ↓reduceIte, Shell.settle, Bool.false_eq_true, false_and,
          Shell.go_status]
        exact ⟨ht.gated, 1, Nat.one_ne_zero, rfl⟩
    next hcode =>
      rw [if_neg hcode]
      exact fun _ => ht
  · have hshown := clock.shown s.world
    have hforward := clock.dateForward s.world
    show (host.epoch s.world).1 + timeout ≤ clock.time (host.epoch s.world).2 + _
    omega

theorem seed_triple (clock : host.Clock) :
    Shell.Triple (Got 0) (seedQualificationSignals host settings) (Got 2) Stopped := by
  have hset : ∀ c : QualifyCall, c ∉ milestones.map Prod.fst → Shell.Triple
      (Got 0) (.seq (call host settings c) setTraceId) (Got 0) Stopped :=
    fun c hc => (call_aside clock hc).seq (assign_triple fun _ => rfl)
  refine .cons (assign_triple fun _ => rfl) ?_
  refine .cons (.ifElse (fun _ => call_tested clock (by decide)) (hset _ (by decide))
    (.ifElse (fun _ => call_tested clock (by decide)) (hset _ (by decide))
      (hset _ (by decide)))) ?_
  refine .cons (assign_triple fun _ => rfl) ?_
  refine .cons (assign_triple fun _ => rfl) ?_
  refine .cons (assign_triple fun _ => rfl) ?_
  refine .cons (assign_triple fun _ => rfl) ?_
  refine .cons (call_triple clock rfl) ?_
  exact call_triple clock rfl

theorem call_keeps_smokeStatus {k : ℕ} :
    Shell.Keeps (fun s : QualifyState W => s.smokeStatus = k) (call host settings c) := by
  refine .run fun s hs => ?_
  show (s.save c _).smokeStatus = k
  unfold QualifyState.save
  split <;> exact hs

theorem runSmoke_triple (clock : host.Clock) {run : SmokeRun}
    (hn : milestones[n]? = some (.smoke run, true)) :
    Shell.Triple (Got n) (runSmoke host settings run) (Got (n + 1)) Stopped := by
  -- how far the script has got, for the status of the test
  let got (status : ℕ) : ℕ := if status = 0 then n + 1 else n
  have hsmoke : Shell.Triple (fun s => Got n s ∧ s.smokeStatus = 0)
      (.either (call host settings (.smoke run))
        (.assign fun s => { s with smokeStatus := s.lastStatus }))
      (fun s => Got (got s.smokeStatus) s) Stopped := by
    rintro s ⟨hs, hzero⟩
    rw [Shell.wp_either]
    refine Shell.wp_mono (call_keeps_smokeStatus.wp hzero
      (call_wp clock (guards_sublist hn) hs)) ?_
    rintro r t ⟨⟨code, rfl, ht, hnext, -, hstatus⟩, hzero⟩
    rw [Shell.settle, if_neg (by simp), Shell.go_status]
    by_cases hcode : code = 0
    · rw [if_pos hcode]
      show Got (got t.smokeStatus) t
      simpa [got, hzero] using hnext (by simpa [hcode] using hn)
    · rw [if_neg hcode, Shell.wp_assign]
      show Got (got t.lastStatus) { t with smokeStatus := t.lastStatus }
      rw [hstatus, show got code = n from if_neg hcode]
      exact ht
  have hshow : Shell.Triple (fun s => Got (got s.smokeStatus) s)
      (call host settings (.showLog run)) (fun s => Got (got s.smokeStatus) s) Stopped := by
    intro s hs
    have hcall : Shell.Triple (Got (got s.smokeStatus)) (call host settings (.showLog run))
        (Got (got s.smokeStatus)) Stopped :=
      call_aside clock (by simp [milestones, captureMilestones, ledgerMilestones])
    refine Shell.wp_mono (hcall.frame call_keeps_smokeStatus s ⟨hs, rfl⟩) fun r t ht => ?_
    cases r with
    | status code =>
      obtain ⟨ht, hstatus⟩ := ht
      show Got (got t.smokeStatus) t
      rwa [hstatus]
    | _ => exact ht
  have hstopped : ∀ r (s : QualifyState W), Stopped r s →
      Shell.Ending.returned (Got (n + 1)) Stopped r s := by
    rintro _ s ⟨hgated, code, hcode, rfl⟩
    exact ⟨hgated, code, hcode, rfl⟩
  refine .func ?_
  refine .cons (M := fun s => Got n s ∧ s.smokeStatus = 0) (.assign fun s hs => ⟨hs, rfl⟩) ?_
  refine .cons (hsmoke.weaken hstopped) ?_
  refine .cons (hshow.weaken hstopped) ?_
  intro s hs
  rw [Shell.block, Shell.wp_leave]
  cases hstatus : s.smokeStatus with
  | zero =>
    rw [hstatus] at hs
    exact hs
  | succ code => exact ⟨hs.gated, code + 1, by simp, rfl⟩

theorem call_tolerated (clock : host.Clock) (hc : tolerated c = true)
    (hn : milestones[n]? = some (c, true)) :
    Shell.Triple (Got n) (.either (call host settings c) .skip) (Got (n + 1)) Stopped := by
  refine .tolerated fun s hs => ?_
  refine Shell.wp_mono (call_wp clock (guards_sublist hn) hs) ?_
  rintro r t ⟨code, rfl, -, hnext, -, -⟩
  exact ⟨⟨code, rfl⟩, hnext (by rw [passed_of_tolerated hc, hn])⟩

theorem ledger_triple (clock : host.Clock) {phase : QualifyPhase}
    (hn : n = ledgerStart phase) :
    Shell.Triple (Got n) (ledger host settings phase) (Got (n + 4)) Stopped := by
  have hplan : ∀ i < 4, milestones[n + i]? = (ledgerMilestones phase)[i]? := by
    rw [hn]
    cases phase <;> decide
  refine .cons (assign_triple fun _ => rfl) ?_
  refine Shell.Triple.forEach_counted (I := fun i => Got (n + i)) ?_ not_stopped
  intro i group hgroup
  have hi := List.getElem?_eq_some_iff.mp hgroup
  refine call_tolerated clock rfl ?_
  rw [hplan i hi.1, ledgerMilestones, List.getElem?_map, hgroup]
  rfl

theorem seedLog_wp (clock : host.Clock) {phase : QualifyPhase} (h : Got n s)
    (hlog : milestones[n]? = some (.seedLog phase, true))
    (hfound : milestones[n + 1]? = some (.seedLogFound phase, true)) :
    Shell.wp (.either (.neg (call host settings (.seedLog phase)))
      (.neg (call host settings (.seedLogFound phase)))) false
      (fun r t => ∃ code, r = .status code ∧ Onward clock s t ∧
        if code = 0 then Got n t else Got (n + 2) t) s := by
  rw [Shell.wp_either, Shell.wp_neg]
  refine Shell.wp_mono (call_wp clock (guards_sublist hlog) h) ?_
  rintro r t ⟨code, rfl, ht, hnext, honward, -⟩
  rw [Shell.settle, if_neg (by simp), Shell.go_status, Shell.go_status]
  by_cases hcode : code = 0
  · rw [if_pos hcode, if_neg (by simp), Shell.wp_neg]
    refine Shell.wp_mono (call_wp clock (guards_sublist hfound)
      (hnext (by simpa [hcode] using hlog))) ?_
    rintro r u ⟨code, rfl, hu, hnext, honward', -⟩
    rw [Shell.settle, if_neg (by simp), Shell.go_status]
    refine ⟨_, rfl, honward.trans honward', ?_⟩
    by_cases hcode : code = 0
    · simpa [hcode] using hnext (by simpa [hcode] using hfound)
    · have hback : Got n u := hu.mono (List.take_sublist_take_left (by omega))
      simpa [hcode] using hback
  · rw [if_neg hcode, if_pos rfl]
    exact ⟨0, rfl, honward, by simpa using ht⟩

theorem seedTrace_wp (clock : host.Clock) {phase : QualifyPhase} (h : Got n s)
    (hn : milestones[n]? = some (.seedTrace phase, true)) :
    Shell.wp (.neg (call host settings (.seedTrace phase))) false
      (fun r t => ∃ code, r = .status code ∧ Onward clock s t ∧
        if code = 0 then Got n t else Got (n + 1) t) s := by
  rw [Shell.wp_neg]
  refine Shell.wp_mono (call_wp clock (guards_sublist hn) h) ?_
  rintro r t ⟨code, rfl, ht, hnext, honward, -⟩
  rw [Shell.settle, if_neg (by simp), Shell.go_status]
  refine ⟨_, rfl, honward, ?_⟩
  by_cases hcode : code = 0
  · simpa [hcode] using hnext (by simpa [hcode] using hn)
  · simpa [hcode] using ht

theorem captureQueries_triple (clock : host.Clock) {phase : QualifyPhase}
    (hfuel : settings.signalTimeout / 5 + 1 < fuel) (hn : n = captureStart phase) :
    Shell.Triple (Got n) (captureQueries host settings fuel phase) (Got (n + 10)) Stopped := by
  have hplan : ∀ i < 10, milestones[n + i]? = (captureMilestones phase)[i]? := by
    rw [hn]
    cases phase <;> decide
  refine .cons (call_triple clock (hplan 0 (by omega))) ?_
  refine .cons (call_triple clock (hplan 1 (by omega))) ?_
  refine .cons (poll_triple clock hfuel fun s hs =>
    seedLog_wp clock hs (hplan 2 (by omega)) (hplan 3 (by omega))) ?_
  refine .cons (poll_triple clock hfuel fun s hs =>
    seedTrace_wp clock hs (hplan 4 (by omega))) ?_
  refine .cons (test_triple fun _ hs _ => hs) ?_
  refine .cons (assign_triple fun _ => rfl) ?_
  refine .cons (call_triple clock (hplan 5 (by omega))) ?_
  refine .cons (call_triple clock (hplan 6 (by omega))) ?_
  refine Shell.Triple.forEach_counted (I := fun i => Got (n + (7 + i))) ?_ not_stopped
  intro i service hservice
  have hi : i < 3 := (List.getElem?_eq_some_iff.mp hservice).1
  have hdrop : (captureMilestones phase).drop 7 =
      [DemoService.produce, .stream, .consume].map fun s => (.serviceMetrics phase s, true) := rfl
  refine call_triple clock ?_
  rw [hplan (7 + i) (by omega), ← List.getElem?_drop, hdrop, List.getElem?_map, hservice]
  rfl

end Qualify

end OrdersDemo
