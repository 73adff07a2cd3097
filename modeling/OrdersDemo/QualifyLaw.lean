import OrdersDemo.QualifyRun

namespace OrdersDemo

namespace Qualify

open Runbook

variable {W : Type} {host : Host W} {settings : QualifySettings} {fuel n : ℕ} {clock : host.Clock}
  {c : QualifyCall} {s : QualifyState W}

/-- Both ledgers show offsets, and what `awk` prints of their sums did not go down. -/
def Reconciled (host : Host W) (s : QualifyState W) : Prop :=
  ∃ before after, offsetSum host (s.files "offsets-before.txt") = some before ∧
    offsetSum host (s.files "offsets-after.txt") = some after ∧ testNotBelow after before = 0

theorem offsetSum_eq_some {text sum : String} (h : offsetSum host text = some sum) :
    host.sum (ledgerOffsets text) = sum := by
  unfold offsetSum at h
  split at h
  next => exact Option.some.inj h
  next => cases h

theorem testNotBelow_eq_zero {before after : ℤ} {beforeText afterText : String}
    (hbefore : readInt beforeText.toList = some before)
    (hafter : readInt afterText.toList = some after)
    (h : testNotBelow afterText beforeText = 0) : before ≤ after := by
  by_contra hlt
  rw [testNotBelow, hbefore, hafter] at h
  simp [hlt] at h

theorem readInt_sum (sums : host.SumsExact) {offsets : List ℕ} (hsmall : offsets.sum < 2 ^ 31) :
    readInt (host.sum offsets).toList = some (offsets.sum : ℤ) := by
  have htext : toString (offsets.sum : ℤ) = toString offsets.sum := rfl
  rw [sums offsets hsmall, ← htext]
  refine readInt_toString ?_ ?_ <;> unfold intMax <;> omega

/-- No committed offset was lost, as far as the sums are small. -/
theorem Reconciled.sum_le (h : Reconciled host s) (sums : host.SumsExact)
    (hbefore : (ledgerOffsets (s.files "offsets-before.txt")).sum < 2 ^ 31)
    (hafter : (ledgerOffsets (s.files "offsets-after.txt")).sum < 2 ^ 31) :
    (ledgerOffsets (s.files "offsets-before.txt")).sum ≤
      (ledgerOffsets (s.files "offsets-after.txt")).sum := by
  obtain ⟨before, after, hb, ha, htest⟩ := h
  rw [← offsetSum_eq_some hb, ← offsetSum_eq_some ha] at htest
  exact_mod_cast testNotBelow_eq_zero (readInt_sum sums hbefore) (readInt_sum sums hafter) htest

theorem write_files {name text : String} :
    (s.write name text).files = Function.update s.files name text := rfl

theorem Reconciled.write {name text : String} (h : Reconciled host s)
    (hbefore : "offsets-before.txt" ≠ name) (hafter : "offsets-after.txt" ≠ name) :
    Reconciled host (s.write name text) := by
  unfold Reconciled
  simp only [write_files, Function.update_of_ne hbefore, Function.update_of_ne hafter]
  exact h

theorem call_keeps_reconciled (hc : ∀ name, c.file = some name →
      "offsets-before.txt" ≠ name ∧ "offsets-after.txt" ≠ name) :
    Shell.Keeps (Reconciled host) (call host settings c) := by
  refine .run fun s hs => ?_
  show Reconciled host (s.save c _)
  unfold QualifyState.save
  split
  next => exact hs
  next name hname => exact hs.write (hc name hname).1 (hc name hname).2

theorem assign_keeps_reconciled {f : QualifyState W → QualifyState W}
    (hf : ∀ s, (f s).files = s.files) : Shell.Keeps (Reconciled host) (Shell.assign f) := by
  refine .assign fun s hs => ?_
  unfold Reconciled
  rwa [hf s]

theorem write_keeps_reconciled {name : String} {text : QualifyState W → String}
    (hbefore : "offsets-before.txt" ≠ name) (hafter : "offsets-after.txt" ≠ name) :
    Shell.Keeps (Reconciled host) (write name text) :=
  .assign fun _ hs => hs.write hbefore hafter

theorem poll_keeps_reconciled {timeout : ℕ} {waiting : Shell (QualifyState W)} {message : String}
    (hwaiting : Shell.Keeps (Reconciled host) waiting) :
    Shell.Keeps (Reconciled host) (poll host settings fuel timeout waiting message) := by
  have hfail : Shell.Keeps (Reconciled host) (fail (W := W) message) := by
    refine .block ?_
    simp only [List.mem_cons, List.not_mem_nil, or_false, forall_eq_or_imp, forall_eq]
    exact ⟨assign_keeps_reconciled fun _ => rfl, .jump⟩
  refine .block ?_
  simp only [List.mem_cons, List.not_mem_nil, or_false, forall_eq_or_imp, forall_eq]
  refine ⟨assign_keeps_reconciled fun _ => rfl, assign_keeps_reconciled fun _ => rfl,
    .loop hwaiting (.block ?_)⟩
  simp only [List.mem_cons, List.not_mem_nil, or_false, forall_eq_or_imp, forall_eq]
  exact ⟨.either (.seq (assign_keeps_reconciled fun _ => rfl) .test) hfail,
    call_keeps_reconciled nofun⟩

theorem runSmoke_keeps_reconciled :
    Shell.Keeps (Reconciled host) (runSmoke host settings .final) := by
  refine .func (.block ?_)
  simp only [List.mem_cons, List.not_mem_nil, or_false, forall_eq_or_imp, forall_eq]
  refine ⟨assign_keeps_reconciled fun _ => rfl, .either (call_keeps_reconciled ?_)
    (assign_keeps_reconciled fun _ => rfl), call_keeps_reconciled nofun, .leave⟩
  rintro _ ⟨⟩
  decide

theorem serviceDownAlert_keeps_reconciled :
    Shell.Keeps (Reconciled host) (serviceDownAlert host settings) :=
  .pipe (call_keeps_reconciled nofun) (call_keeps_reconciled nofun)

theorem serviceDownAlert_wp (clock : host.Clock) (h : Got n s) {ok : Bool}
    (halerts : milestones[n]? = some (.alerts, true))
    (hn : milestones[n + 1]? = some (.alertActive, ok)) :
    Shell.wp (serviceDownAlert host settings) false (fun r t => ∃ code, r = .status code ∧
      Onward clock s t ∧ if decide (code = 0) = ok then Got (n + 2) t else Got n t) s := by
  rw [serviceDownAlert, Shell.wp_pipe]
  refine Shell.wp_mono (call_wp clock (guards_sublist halerts) h) ?_
  rintro r t ⟨code, rfl, -, hasked, honward, -⟩
  have ht : Got (n + 1) t := hasked (by rw [passed_of_tolerated rfl, halerts])
  rw [Shell.settle, if_neg (by simp), Shell.go_status]
  refine Shell.wp_mono (call_wp clock (guards_sublist hn) ht) ?_
  rintro r u ⟨code, rfl, hu, hnext, honward', -⟩
  refine ⟨code, by simp [Shell.settle], honward.trans honward', ?_⟩
  split
  next hok =>
    refine hnext ?_
    rw [hn, passed_of_not rfl, hok]
  next => exact hu.mono (List.take_sublist_take_left (by omega))

theorem alertFired_triple (clock : host.Clock) {message : String}
    (hfuel : settings.alertTimeout / 5 + 1 < fuel)
    (halerts : milestones[n]? = some (.alerts, true))
    (hn : milestones[n + 1]? = some (.alertActive, true)) :
    Shell.Triple (Got n) (poll host settings fuel settings.alertTimeout
      (.neg (serviceDownAlert host settings)) message) (Got (n + 2)) Stopped := by
  refine poll_triple clock hfuel fun s hs => ?_
  rw [Shell.wp_neg]
  refine Shell.wp_mono (serviceDownAlert_wp clock hs halerts hn) ?_
  rintro _ t ⟨code, rfl, honward, ht⟩
  refine ⟨_, rfl, honward, ?_⟩
  by_cases hcode : code = 0 <;> simpa [hcode] using ht

/-- The alert counts as resolved when `jq` does not find it, be it that `curl` failed. -/
theorem alertResolved_triple (clock : host.Clock) {message : String}
    (hfuel : settings.alertTimeout / 5 + 1 < fuel)
    (halerts : milestones[n]? = some (.alerts, true))
    (hn : milestones[n + 1]? = some (.alertActive, false)) :
    Shell.Triple (Got n) (poll host settings fuel settings.alertTimeout
      (serviceDownAlert host settings) message) (Got (n + 2)) Stopped := by
  refine poll_triple clock hfuel fun s hs => ?_
  refine Shell.wp_mono (serviceDownAlert_wp clock hs halerts hn) ?_
  rintro _ t ⟨code, rfl, honward, ht⟩
  refine ⟨code, rfl, honward, ?_⟩
  by_cases hcode : code = 0 <;> simpa [hcode] using ht

theorem sumOffsets_triple {P R : QualifyState W → Prop} {phase : QualifyPhase}
    {set : String → QualifyState W → QualifyState W} (hP : ∀ s, P s → Gated tolerated milestones s.log)
    (hR : ∀ s sum, P s → offsetSum host (s.files ("offsets-" ++ phase.name ++ ".txt")) = some sum →
      R (set sum s)) : Shell.Triple P (sumOffsets host phase set) R Stopped := by
  intro s hs
  rw [sumOffsets, Shell.wp_run]
  split
  next sum hsum => exact hR s sum hs hsum
  next => exact ⟨hP s hs, 1, Nat.one_ne_zero, rfl⟩

theorem reconcile_triple {next : Shell (QualifyState W)} {rest : List (Shell (QualifyState W))}
    {R : QualifyState W → Prop}
    (hrest : Shell.Triple (fun s => Got n s ∧ Reconciled host s) (Shell.block (next :: rest)) R
      Stopped) :
    Shell.Triple (Got n) (Shell.block (
      sumOffsets host .before (fun sum s => { s with beforeOffset := sum }) ::
      sumOffsets host .after (fun sum s => { s with afterOffset := sum }) ::
      .run (fun s => (testNotBelow s.afterOffset s.beforeOffset, s)) :: next :: rest)) R
      Stopped := by
  let first (s : QualifyState W) : Prop :=
    Got n s ∧ offsetSum host (s.files "offsets-before.txt") = some s.beforeOffset
  let second (s : QualifyState W) : Prop :=
    first s ∧ offsetSum host (s.files "offsets-after.txt") = some s.afterOffset
  refine .cons (M := first) (sumOffsets_triple (fun s hs => hs.gated)
    fun s sum hs hsum => ⟨hs, hsum⟩) ?_
  refine .cons (M := second) (sumOffsets_triple (fun s hs => hs.1.gated)
    fun s sum hs hsum => ⟨hs, hsum⟩) ?_
  refine .cons ?_ hrest
  rintro s ⟨⟨hs, hbefore⟩, hafter⟩
  rw [Shell.wp_run]
  by_cases htest : testNotBelow s.afterOffset s.beforeOffset = 0
  · rw [Shell.settle, if_neg (by simp [htest])]
    exact ⟨hs, _, _, hbefore, hafter, htest⟩
  · rw [Shell.settle, if_pos ⟨rfl, htest⟩]
    exact ⟨hs.gated, _, htest, rfl⟩

theorem qualification_triple (clock : host.Clock)
    (hsignal : settings.signalTimeout / 5 + 1 < fuel)
    (halert : settings.alertTimeout / 5 + 1 < fuel) :
    Shell.Triple (Got 0) (qualification host settings fuel)
      (fun s => Got milestones.length s ∧ Reconciled host s) Stopped := by
  refine .cons (seed_triple clock) ?_
  refine .cons (runSmoke_triple clock rfl) ?_
  refine .cons (captureQueries_triple clock hsignal rfl) ?_
  refine .cons (ledger_triple clock rfl) ?_
  refine .cons (call_triple clock rfl) ?_
  refine .cons (call_triple clock rfl) ?_
  refine .cons (call_triple clock rfl) ?_
  refine .cons (call_triple clock rfl) ?_
  refine .cons (runSmoke_triple clock rfl) ?_
  refine .cons (captureQueries_triple clock hsignal rfl) ?_
  refine .cons (ledger_triple clock rfl) ?_
  refine reconcile_triple ?_
  refine .cons (write_triple.frame (write_keeps_reconciled (by decide) (by decide))) ?_
  refine .cons ((call_triple clock rfl).frame (call_keeps_reconciled nofun)) ?_
  refine .cons ((alertFired_triple clock halert rfl rfl).frame
    (poll_keeps_reconciled (.neg serviceDownAlert_keeps_reconciled))) ?_
  refine .cons ((call_triple clock rfl).frame (call_keeps_reconciled ?_)) ?_
  · rintro _ ⟨⟩
    decide
  refine .cons ((call_triple clock rfl).frame (call_keeps_reconciled nofun)) ?_
  refine .cons ((alertResolved_triple clock halert rfl rfl).frame
    (poll_keeps_reconciled serviceDownAlert_keeps_reconciled)) ?_
  refine .cons ((call_triple clock rfl).frame (call_keeps_reconciled ?_)) ?_
  · rintro _ ⟨⟩
    decide
  refine .cons ((runSmoke_triple clock rfl).frame runSmoke_keeps_reconciled) ?_
  exact (assign_triple fun _ => rfl).frame (assign_keeps_reconciled fun _ => rfl)

def Reported (status n : ℕ) (r : Shell.Ending) (s : QualifyState W) : Prop :=
  Got n s ∧ s.files "result.json" = s.resultLine status ∧
    ∃ checks, s.log.getLast? = some (.checksums, checks) ∧
      r = .exit (if checks = 0 then status else checks)

theorem checksums_triple (clock : host.Clock) {status : ℕ} :
    Shell.Triple (fun s => Got n s ∧ s.files "result.json" = s.resultLine status)
      (call host settings .checksums) (Reported status n (.exit status)) (Reported status n) := by
  rintro s ⟨hs, hresult⟩
  have hgot : Shell.wp (call host settings .checksums) true (fun _ t => Got n t) s := by
    refine Shell.wp_mono (call_wp clock (Got.guards_aside (by decide)) hs) ?_
    exact fun _ _ ⟨_, _, ht, _⟩ => ht
  rw [call, Shell.wp_run] at hgot ⊢
  generalize host.run (QualifyCall.checksums.words settings s) (QualifyCall.checksums.input s)
    s.world = answer at hgot ⊢
  by_cases hcode : answer.1.1 = 0
  · rw [Shell.settle, if_neg (by simp [hcode])]
    exact ⟨hgot, hresult, answer.1.1, List.getLast?_concat, by rw [if_pos hcode]⟩
  · rw [Shell.settle, if_pos ⟨rfl, hcode⟩]
    exact ⟨hgot, hresult, answer.1.1, List.getLast?_concat, by rw [if_neg hcode]⟩

theorem finish_triple (clock : host.Clock) {status : ℕ} :
    Shell.Triple (Got n) (finish host settings status) (fun _ => False) (Reported status n) := by
  have hcall : ∀ c : QualifyCall, c ∉ milestones.map Prod.fst →
      Shell.Triple (Got n) (.either (call host settings c) .skip) (Got n) (Reported status n) :=
    fun c hc => .tolerated fun s hs => call_tested clock hc hs
  have hwrite : ∀ s : QualifyState W, (s.write "result.json" (s.resultLine status)).files
      "result.json" = s.resultLine status := by
    intro s
    rw [write_files, Function.update_self]
  refine .cons (hcall _ (by decide)) ?_
  refine .cons (hcall _ (by decide)) ?_
  refine .cons (hcall _ (by decide)) ?_
  refine .cons (M := Got n) (.assign fun s hs => hs) ?_
  refine .cons (M := Got n) (.assign fun s hs => hs) ?_
  refine .cons (M := fun s => Got n s ∧ s.files "result.json" = s.resultLine status)
    (.assign fun s hs => ⟨hs, hwrite s⟩) ?_
  refine .cons (checksums_triple clock) ?_
  exact fun s hs => hs

theorem finish_keeps_reconciled {status : ℕ} :
    Shell.Keeps (Reconciled host) (finish host settings status) := by
  have hcall : ∀ c : QualifyCall, (∀ name, c.file = some name →
      "offsets-before.txt" ≠ name ∧ "offsets-after.txt" ≠ name) →
      Shell.Keeps (Reconciled host) (.either (call host settings c) .skip) :=
    fun c hc => .either (call_keeps_reconciled hc) .skip
  refine .block ?_
  simp only [List.mem_cons, List.not_mem_nil, or_false, forall_eq_or_imp, forall_eq]
  refine ⟨hcall _ ?_, hcall _ ?_, hcall _ ?_, assign_keeps_reconciled fun _ => rfl,
    assign_keeps_reconciled fun _ => rfl, write_keeps_reconciled (by decide) (by decide),
    call_keeps_reconciled ?_, .jump⟩
  all_goals
    rintro _ ⟨⟩
    decide

def launchCalls : List QualifyCall :=
  [.makeDirectory, .gitRevision, .sortUnique]

/-- What is known of a run that has ended. -/
def Concluded (host : Host W) (r : Shell.Ending) (s : QualifyState W) : Prop :=
  Gated tolerated milestones s.log ∧ ∃ code, r = .exit code ∧
    (code = 0 → milestones.Sublist (answers tolerated s.log) ∧ Reconciled host s) ∧
    ((∃ c ∈ launchCalls, code ≠ 0 ∧ s.log.getLast? = some (c, code)) ∨
      ∃ status checks, s.files "result.json" = s.resultLine status ∧
        s.log.getLast? = some (.checksums, checks) ∧ (checks = 0 → code = status))

theorem launch_triple (clock : host.Clock) (hc : c ∈ launchCalls) :
    Shell.Triple (Got 0) (call host settings c) (Got 0) (Concluded host) := by
  have haside : ∀ c ∈ launchCalls, c ∉ milestones.map Prod.fst := by decide
  intro s hs
  have hgot : Shell.wp (call host settings c) true (fun _ t => Got 0 t) s := by
    refine Shell.wp_mono (call_wp clock (Got.guards_aside (haside c hc)) hs) ?_
    exact fun _ _ ⟨_, _, ht, _⟩ => ht
  rw [call, Shell.wp_run] at hgot ⊢
  generalize host.run (c.words settings s) (c.input s) s.world = answer at hgot ⊢
  by_cases hcode : answer.1.1 = 0
  · rw [Shell.settle, if_neg (by simp [hcode])]
    exact hgot
  · rw [Shell.settle, if_pos ⟨rfl, hcode⟩]
    exact ⟨hgot.gated, _, rfl, fun h => absurd h hcode,
      .inl ⟨c, hc, hcode, List.getLast?_concat⟩⟩

theorem Reported.concluded {status : ℕ} {r : Shell.Ending} (h : Reported status n r s)
    (hzero : status = 0 → milestones.Sublist (answers tolerated s.log) ∧ Reconciled host s) :
    Concluded host r s := by
  obtain ⟨hs, hresult, checks, hlast, rfl⟩ := h
  refine ⟨hs.gated, _, rfl, ?_, .inr ⟨status, checks, hresult, hlast, fun h => if_pos h⟩⟩
  intro hcode
  split at hcode
  next => exact hzero hcode
  next hchecks => exact absurd hcode hchecks

theorem reported_exit {status : ℕ} {r : Shell.Ending}
    (h : Shell.Ending.go (Reported status n) (fun _ _ => False) r s) :
    ∃ code, r.afterTrap status = .exit code ∧ Reported status n (.exit code) s := by
  cases r with
  | status code => exact h.elim
  | exit code => exact ⟨code, rfl, h⟩
  | _ =>
    obtain ⟨-, -, _, -, hr⟩ := h
    cases hr

theorem trapped_triple (clock : host.Clock) (hsignal : settings.signalTimeout / 5 + 1 < fuel)
    (halert : settings.alertTimeout / 5 + 1 < fuel) :
    Shell.Triple (Got 0)
      (.trapped (finish host settings) (qualification host settings fuel)) (fun _ => False)
      (Concluded host) := by
  intro s hs
  rw [Shell.wp_trapped]
  refine Shell.wp_mono (qualification_triple clock hsignal halert s hs) fun r t ht => ?_
  cases r with
  | status code =>
    obtain ⟨ht, hreconciled⟩ := ht
    refine Shell.wp_mono (finish_keeps_reconciled.wp hreconciled
      (finish_triple clock t ht)) ?_
    rintro r u ⟨hr, hreconciled⟩
    obtain ⟨exit, hexit, hr⟩ := reported_exit hr
    rw [hexit]
    exact hr.concluded fun _ => ⟨by simpa using hr.1.seen, hreconciled⟩
  | exit code =>
    obtain ⟨hgated, _, hcode, hr⟩ := ht
    cases hr
    have hgot : Got 0 t := ⟨List.nil_sublist _, hgated⟩
    refine Shell.wp_mono (finish_triple clock t hgot) fun r u hr => ?_
    obtain ⟨exit, hexit, hr⟩ := reported_exit hr
    rw [hexit]
    exact hr.concluded fun h => absurd h hcode
  | _ =>
    obtain ⟨-, _, -, hr⟩ := ht
    cases hr

theorem qualifyFailover_triple (clock : host.Clock)
    (hsignal : settings.signalTimeout / 5 + 1 < fuel)
    (halert : settings.alertTimeout / 5 + 1 < fuel) :
    Shell.Triple (Got 0) (qualifyFailover host settings fuel) (fun _ => False)
      (Concluded host) := by
  refine .cons (launch_triple clock (by decide)) ?_
  refine .cons (M := Got 0) (.assign fun s hs => hs) ?_
  refine .cons (M := Got 0) (.assign fun s hs => hs) ?_
  refine .cons (M := Got 0) (.assign fun s hs => hs) ?_
  refine .cons (launch_triple clock (by decide)) ?_
  refine .cons (.pipe (fun s hs => call_tested clock (by decide) hs)
    (launch_triple clock (by decide))) ?_
  exact trapped_triple clock hsignal halert

/-- The script ends. It runs each step of the qualification only after what the qualification asks
for before it, so that nothing is killed, restarted or stopped on a stack that has not passed its
tests; it succeeds only if every milestone was seen, in order, and the sum of the committed offsets
did not go down; and once it has set its trap it tells its status. -/
theorem qualify_failover (clock : host.Clock) (sums : host.SumsExact)
    (settings : QualifySettings) (fuel : ℕ) (hsignal : settings.signalTimeout / 5 + 1 < fuel)
    (halert : settings.alertTimeout / 5 + 1 < fuel) (w : W) :
    let run := qualifyFailover host settings fuel true { world := w }
    let before := (ledgerOffsets (run.2.files "offsets-before.txt")).sum
    let after := (ledgerOffsets (run.2.files "offsets-after.txt")).sum
    Gated tolerated milestones run.2.log ∧ ∃ code, run.1 = .exit code ∧
      (code = 0 → milestones.Sublist (answers tolerated run.2.log) ∧ Reconciled host run.2 ∧
        (before < 2 ^ 31 → after < 2 ^ 31 → before ≤ after)) ∧
      ((∃ c ∈ launchCalls, code ≠ 0 ∧ run.2.log.getLast? = some (c, code)) ∨
        ∃ status checks, run.2.files "result.json" = run.2.resultLine status ∧
          run.2.log.getLast? = some (.checksums, checks) ∧ (checks = 0 → code = status)) := by
  have hstart : Got 0 ({ world := w } : QualifyState W) := at_nil
  have hend := qualifyFailover_triple clock hsignal halert _ hstart
  unfold Shell.wp at hend
  dsimp only
  generalize qualifyFailover host settings fuel true { world := w } = run at hend ⊢
  rcases run with ⟨r, s⟩
  have hconcluded : Concluded host r s := by
    cases r with
    | status code => exact hend.elim
    | _ => exact hend
  obtain ⟨hgated, code, hcode, hzero, htold⟩ := hconcluded
  refine ⟨hgated, code, hcode, fun h => ?_, htold⟩
  obtain ⟨hseen, hreconciled⟩ := hzero h
  exact ⟨hseen, hreconciled, hreconciled.sum_le sums⟩

/-- A stack that recovers at once: its clock, and whether its querier is down. -/
structure SteadyStack where
  time : ℕ
  querierDown : Bool

def steadyHost : Host SteadyStack where
  run words _ w :=
    if words = ["sleep", "5"] then ((0, ""), { w with time := w.time + 5 })
    else if words = ["docker", "compose", "stop", "traces-querier"] then
      ((0, ""), { w with querierDown := true })
    else if words = ["docker", "compose", "start", "traces-querier"] then
      ((0, ""), { w with querierDown := false })
    else if words[0]? = some "jq" ∧ words[2]? = some "--arg" then
      ((if w.querierDown then 0 else 1, ""), w)
    else ((0, "demo orders 0 41\n"), w)
  epoch w := (w.time, w)
  sum offsets := toString offsets.sum

def steadyClock : steadyHost.Clock where
  time := SteadyStack.time
  shown w := rfl
  dateForward w := le_refl _
  runForward words input w := by
    unfold steadyHost
    dsimp only
    split <;> [exact Nat.le_add_right _ _; (repeat' split) <;> exact le_refl _]
  sleeps input w := le_refl _

def steadyRun : Shell.Ending × QualifyState SteadyStack :=
  qualifyFailover steadyHost ⟨"artifacts", 120, 180⟩ 40 true { world := ⟨0, false⟩ }

theorem qualify_failover_steady :
    milestones.Sublist (answers tolerated steadyRun.2.log) ∧ Reconciled steadyHost steadyRun.2 ∧
      (ledgerOffsets (steadyRun.2.files "offsets-before.txt")).sum ≤
        (ledgerOffsets (steadyRun.2.files "offsets-after.txt")).sum := by
  have hrun : steadyRun.1 = .exit 0 := by decide +kernel
  obtain ⟨-, code, hcode, hzero, -⟩ := qualify_failover steadyClock (fun _ _ => rfl)
    ⟨"artifacts", 120, 180⟩ 40 (by decide) (by decide) ⟨0, false⟩
  obtain ⟨hseen, hreconciled, hle⟩ :=
    hzero (Shell.Ending.exit.inj (hcode.symm.trans hrun))
  exact ⟨hseen, hreconciled, hle (by decide +kernel) (by decide +kernel)⟩

end Qualify

end OrdersDemo
