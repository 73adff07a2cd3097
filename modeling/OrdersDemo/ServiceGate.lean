import OrdersDemo.Library.Words
import OrdersDemo.ServiceFindings

namespace OrdersDemo.Docker

variable {docker : Docker} {v : Vars} {c : Container} {containers : List Container}

def Missing (containers : List Container) (service : ServiceName) : Prop :=
  ∀ c ∈ containers, c.service ≠ service

instance (containers : List Container) : DecidablePred (Missing containers) :=
  fun _ => inferInstanceAs (Decidable (∀ _ ∈ _, _))

def serviceNames (containers : List Container) : List (List Char) :=
  containers.map fun c => c.service.val.toList

theorem checkContainer_stdout : (docker.checkContainer v (some c)).stdout =
    v.stdout ++ if docker.Offending c then [docker.containerLine c] else [] := by
  rw [checkContainer_some]
  split_ifs with hoffending
  · exact Vars.reportLine_stdout
  · exact (List.append_nil v.stdout).symm

theorem checkContainer_seen :
    (docker.checkContainer v (some c)).seen = v.seen ++ " " ++ c.service.val := by
  rw [checkContainer_some]
  split_ifs with hoffending
  · exact Vars.reportLine_seen
  · rfl

theorem checkContainer_settled (h : v.Settled) (row : Option Container) :
    (docker.checkContainer v row).Settled := by
  cases row with
  | none => exact h
  | some c =>
    have hnoted : (docker.noted v c).Settled := h
    rw [checkContainer_some]
    split_ifs with hoffending
    · exact hnoted.reportLine
    · exact hnoted

theorem containers_stdout : ((containers.map some).foldl docker.checkContainer v).stdout =
    v.stdout ++ (containers.filter docker.Offending).map docker.containerLine := by
  induction containers generalizing v with
  | nil => simp
  | cons c containers ih =>
    rw [List.map_cons, List.foldl_cons, ih, checkContainer_stdout]
    by_cases hoffending : docker.Offending c
    · simp [hoffending]
    · simp [hoffending]

theorem containers_seen : ((containers.map some).foldl docker.checkContainer v).seen.toList =
    v.seen.toList ++ Words.joined ' ' (serviceNames containers) := by
  induction containers generalizing v with
  | nil => simp [serviceNames, Words.joined]
  | cons c containers ih =>
    rw [List.map_cons, List.foldl_cons, ih, checkContainer_seen]
    simp [serviceNames, Words.joined]

/-- The lines and the services that the container loop leaves behind. -/
structure Inspected (docker : Docker) (containers : List Container) (v : Vars) : Prop where
  stdout : v.stdout = (containers.filter docker.Offending).map docker.containerLine
  seen : v.seen.toList = Words.joined ' ' (serviceNames containers)
  settled : v.Settled

theorem inspected (docker : Docker) (containers : List Container) :
    docker.Inspected containers
      ((textLines none (containers.map some)).foldl docker.checkContainer {}) := by
  have hsettled : ∀ rows : List (Option Container),
      (rows.foldl docker.checkContainer {}).Settled := by
    intro rows
    have hstart : Vars.Settled {} := rfl
    exact List.foldlRecOn rows docker.checkContainer hstart fun v h row _ =>
      checkContainer_settled h row
  cases containers with
  | nil => exact ⟨rfl, rfl, hsettled _⟩
  | cons c containers =>
    show docker.Inspected (c :: containers)
      (((c :: containers).map some).foldl docker.checkContainer {})
    exact ⟨containers_stdout, containers_seen, hsettled _⟩

theorem hasPart_iff (service : ServiceName)
    (hseen : v.seen.toList = Words.joined ' ' (serviceNames containers)) :
    hasPart (" " ++ v.seen ++ " ") (" " ++ service.val ++ " ") ↔
      ¬Missing containers service := by
  have htext : (" " ++ v.seen ++ " ").toList =
      ' ' :: (Words.joined ' ' (serviceNames containers) ++ [' ']) := by
    simp [hseen]
  have hpart : (" " ++ service.val ++ " ").toList = ' ' :: service.val.toList ++ [' '] := by
    simp
  have hne : service.val.toList ≠ [] := by
    simpa using service.property.1
  have hnames : ∀ name ∈ serviceNames containers, ' ' ∉ name := by
    intro name hname
    obtain ⟨c, _, rfl⟩ := List.mem_map.mp hname
    exact c.service.property.2
  have hmem : service.val.toList ∈ serviceNames containers ↔
      ∃ c ∈ containers, c.service = service := by
    simp only [serviceNames, List.mem_map, String.toList_inj, ServiceName.val_inj]
  have hpadded := Words.infix_padded_iff service.property.2 hne hnames
  unfold hasPart Missing
  rw [decide_eq_true_eq, htext, hpart, hpadded, hmem]
  push Not
  rfl

theorem checkExpected_eq (docker : Docker) (service : ServiceName)
    (hseen : v.seen.toList = Words.joined ' ' (serviceNames containers)) :
    docker.checkExpected v service =
      if Missing containers service then
        { v with
          service := service.val, image := docker.image service.val
          command := docker.command service.val }.reportLine (docker.missingLine service)
      else { v with service := service.val } := by
  have hpart := hasPart_iff service hseen
  unfold checkExpected checkWord
  by_cases hmissing : Missing containers service
  · rw [if_neg (by rw [hpart]; exact not_not.mpr hmissing), if_pos hmissing]
    rfl
  · rw [if_pos (hpart.mpr hmissing), if_neg hmissing]

/-- The expected services are checked against the containers that the first loop has seen, and
the variables that `report` overwrites play no part. -/
theorem expected_stdout (docker : Docker) (expected : List ServiceName)
    (hseen : v.seen.toList = Words.joined ' ' (serviceNames containers)) :
    (expected.foldl docker.checkExpected v).stdout =
        v.stdout ++ (expected.filter (Missing containers)).map docker.missingLine ∧
      (v.Settled → (expected.foldl docker.checkExpected v).Settled) := by
  induction expected generalizing v with
  | nil => simp
  | cons service expected ih =>
    have hstep := checkExpected_eq docker service hseen
    rw [List.foldl_cons]
    by_cases hmissing : Missing containers service
    · rw [if_pos hmissing] at hstep
      have hnext : (docker.checkExpected v service).seen.toList =
          Words.joined ' ' (serviceNames containers) := by
        rw [hstep, Vars.reportLine_seen]
        exact hseen
      obtain ⟨hout, hsettled⟩ := ih hnext
      refine ⟨?_, fun h => hsettled ?_⟩
      · rw [hout, hstep, Vars.reportLine_stdout, List.filter_cons_of_pos (by simpa using hmissing),
          List.map_cons, List.append_assoc]
        rfl
      · rw [hstep]
        exact Vars.Settled.reportLine h
    · rw [if_neg hmissing] at hstep
      have hnext : (docker.checkExpected v service).seen.toList =
          Words.joined ' ' (serviceNames containers) := by
        rw [hstep]
        exact hseen
      obtain ⟨hout, hsettled⟩ := ih hnext
      refine ⟨?_, fun h => hsettled ?_⟩
      · rw [hout, hstep, List.filter_cons_of_neg (by simpa using hmissing)]
      · rw [hstep]
        exact h

def findings (docker : Docker) (containers : List Container) (expected : List ServiceName) :
    List Line :=
  (containers.filter docker.Offending).map docker.containerLine ++
    (expected.filter (Missing containers)).map docker.missingLine

theorem checkServices_findings (docker : Docker) (containers : List Container)
    (expected : List ServiceName) :
    (docker.checkServices containers expected).stdout = docker.findings containers expected ∧
      (docker.checkServices containers expected).result =
        statusOf (docker.findings containers expected) := by
  have hinspected := docker.inspected containers
  obtain ⟨hout, hsettled⟩ := expected_stdout docker expected hinspected.seen
  have hfindings : (docker.checkServices containers expected).stdout =
      docker.findings containers expected := by
    unfold findings
    rw [← hinspected.stdout]
    exact hout
  refine ⟨hfindings, ?_⟩
  rw [← hfindings]
  exact hsettled hinspected.settled

theorem findings_failed {expected : List ServiceName} :
    (∃ line ∈ docker.findings containers expected, line.verdict = .failed) ↔
      (∃ c ∈ containers, docker.Failing c) ∨ ∃ service ∈ expected, Missing containers service := by
  unfold findings
  constructor
  · rintro ⟨line, hline, hverdict⟩
    rcases List.mem_append.mp hline with hline | hline
    · obtain ⟨c, hc, rfl⟩ := List.mem_map.mp hline
      have hfailing : docker.Failing c := by
        by_contra hnot
        have hpending : (docker.containerLine c).verdict = .pending := if_neg hnot
        rw [hpending] at hverdict
        cases hverdict
      exact .inl ⟨c, (List.mem_filter.mp hc).1, hfailing⟩
    · obtain ⟨service, hservice, rfl⟩ := List.mem_map.mp hline
      obtain ⟨hmem, hmissing⟩ := List.mem_filter.mp hservice
      exact .inr ⟨service, hmem, of_decide_eq_true hmissing⟩
  · rintro (⟨c, hc, hfailing⟩ | ⟨service, hservice, hmissing⟩)
    · have hfilter : c ∈ containers.filter docker.Offending :=
        List.mem_filter.mpr ⟨hc, decide_eq_true (offending_of_failing hfailing)⟩
      exact ⟨_, List.mem_append_left _ (List.mem_map_of_mem hfilter), if_pos hfailing⟩
    · have hfilter : service ∈ expected.filter (Missing containers) :=
        List.mem_filter.mpr ⟨hservice, decide_eq_true hmissing⟩
      exact ⟨_, List.mem_append_right _ (List.mem_map_of_mem hfilter), rfl⟩

theorem findings_ne_nil {expected : List ServiceName} :
    docker.findings containers expected ≠ [] ↔
      (∃ c ∈ containers, docker.Offending c) ∨
        ∃ service ∈ expected, Missing containers service := by
  unfold findings
  rw [ne_eq, List.append_eq_nil_iff, List.map_eq_nil_iff, List.map_eq_nil_iff,
    List.filter_eq_nil_iff, List.filter_eq_nil_iff, not_and_or]
  push Not
  simp only [decide_eq_true_eq]

end OrdersDemo.Docker
