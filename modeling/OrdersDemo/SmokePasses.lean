import OrdersDemo.Library.History
import OrdersDemo.Smoke

namespace OrdersDemo

/-- A word that the shell keeps whole. -/
def IsWord (word : String) : Prop :=
  Fields.IsField blank word.toList

theorem isWord_of_mem {word text : String} (h : word ∈ wordsOf text) : IsWord word := by
  obtain ⟨chars, hchars, rfl⟩ := List.mem_map.mp h
  have hfield := Fields.isField_of_mem hchars
  rwa [IsWord, String.toList_ofList]

theorem wordsOf_word {word : String} (h : IsWord word) : wordsOf word = [word] := by
  unfold wordsOf
  rw [h.fields, List.map_singleton, String.ofList_toList]

theorem wordsOf_append {text word : String} (h : IsWord word) :
    wordsOf (text ++ " " ++ word) = wordsOf text ++ [word] := by
  have hchars : (text ++ " " ++ word).toList = text.toList ++ ' ' :: word.toList := by simp
  unfold wordsOf
  rw [hchars, Fields.fields_append_sep rfl, h.fields, List.map_append, List.map_singleton,
    String.ofList_toList]

theorem wordsOf_dropSpace (text : String) : wordsOf (dropSpace text) = wordsOf text := by
  unfold dropSpace
  split
  next rest h =>
    unfold wordsOf
    rw [h, String.toList_ofList, Fields.fields_cons_sep rfl]
  next => rfl

section Failing

variable {passes : String → Bool} {words : List String}

theorem wordsOf_addFailing (passes : String → Bool) (h : ∀ word ∈ words, IsWord word)
    (text : String) :
    wordsOf (words.foldl (SmokeState.addFailing passes) text) =
      wordsOf text ++ words.filter (!passes ·) := by
  induction words generalizing text with
  | nil => simp
  | cons word words ih =>
    have hword := h word List.mem_cons_self
    have hrest := ih fun other hother => h other (List.mem_cons_of_mem word hother)
    rw [List.foldl_cons, hrest, SmokeState.addFailing]
    by_cases hpasses : passes word = true
    · rw [if_pos hpasses, List.filter_cons_of_neg (by simp [hpasses])]
    · rw [if_neg hpasses, wordsOf_append hword, List.filter_cons_of_pos (by simp [hpasses]),
        List.append_assoc, List.singleton_append]

theorem addFailing_of_passes (h : ∀ word ∈ words, passes word = true) (text : String) :
    words.foldl (SmokeState.addFailing passes) text = text := by
  induction words with
  | nil => rfl
  | cons word words ih =>
    rw [List.foldl_cons, SmokeState.addFailing, if_pos (h word List.mem_cons_self)]
    exact ih fun other hother => h other (List.mem_cons_of_mem word hother)

theorem addFailing_eq_empty (h : ∀ word ∈ words, IsWord word) :
    words.foldl (SmokeState.addFailing passes) "" = "" ↔ ∀ word ∈ words, passes word = true := by
  constructor
  · intro hempty word hword
    by_contra hfails
    have hwords := wordsOf_addFailing passes h ""
    rw [hempty] at hwords
    have hmem : word ∈ words.filter (!passes ·) :=
      List.mem_filter.mpr ⟨hword, by simpa using hfails⟩
    have hnil : words.filter (!passes ·) = [] := hwords.symm
    rw [hnil] at hmem
    cases hmem
  · exact fun hpasses => addFailing_of_passes hpasses ""

end Failing

def PassInput.passes (readyServices : String) (input : PassInput) (target : String) : Bool :=
  if target = "ready" then (wordsOf readyServices).all input.curl else input.check target

def ServicesAnswer.Ok (answer : ServicesAnswer) : Prop :=
  answer.status = 0 ∨ answer.status = 2

/-- What one check of a target adds to the trace. -/
def checkActs (passes : String → Bool) (target : String) : List SmokeAct :=
  if passes target then [.check target true, .stdout ("ok " ++ target)]
  else [.check target false]

namespace SmokeState

variable (s : SmokeState) (input : PassInput)

theorem checkServices_ok {answer : ServicesAnswer} (h : answer.Ok) :
    s.checkServices answer = { s with
      servicesReady := answer.status = 0
      servicesReport := answer.report
      trace := s.trace ++ [.services answer.status] } := by
  rcases h with h | h <;> simp [checkServices, h, log]

theorem checkServices_not_ok {answer : ServicesAnswer} (h : ¬ answer.Ok) :
    s.checkServices answer = { s with
      servicesReport := answer.report
      trace := s.trace ++ [.services answer.status, .stderr answer.report,
        .stderr "failed: services"]
      exited := some 1 } := by
  unfold checkServices
  split
  next hzero => exact absurd (Or.inl hzero) h
  next htwo => exact absurd (Or.inr htwo) h
  next => simp [log]

theorem check_snd (target : String) :
    (s.check input target).2 = input.passes s.readyServices target := by
  unfold check PassInput.passes
  split
  next =>
    have hempty : (wordsOf s.readyServices).foldl (addFailing input.curl) "" = "" ↔
        (wordsOf s.readyServices).all input.curl = true := by
      rw [addFailing_eq_empty fun _ => isWord_of_mem, List.all_eq_true]
    rw [Bool.eq_iff_iff, ← hempty]
    exact decide_eq_true_iff
  next => rfl

theorem check_fst (target : String) :
    ∃ notReady, (s.check input target).1 = { s with notReady } := by
  unfold check
  split
  next => exact ⟨_, rfl⟩
  next => exact ⟨s.notReady, rfl⟩

theorem checkSignal_foldl (targets : List String) (next : String) :
    ∃ notReady, targets.foldl (checkSignal input) (s, next) =
      ({ s with
          notReady
          trace := s.trace ++ targets.flatMap (checkActs (input.passes s.readyServices)) },
        targets.foldl (addFailing (input.passes s.readyServices)) next) := by
  induction targets generalizing s next with
  | nil => exact ⟨s.notReady, by simp⟩
  | cons target targets ih =>
    obtain ⟨notReady, hstate⟩ := s.check_fst input target
    have hpassed := s.check_snd input target
    have hbody : checkSignal input (s, next) target =
        ({ s with
            notReady
            trace := s.trace ++ checkActs (input.passes s.readyServices) target },
          addFailing (input.passes s.readyServices) next target) := by
      unfold checkSignal checkActs addFailing
      simp only [hstate, hpassed]
      by_cases hpasses : input.passes s.readyServices target = true <;> simp [hpasses, log]
    obtain ⟨notReady', hrest⟩ := ih
      { s with
        notReady
        trace := s.trace ++ checkActs (input.passes s.readyServices) target }
      (addFailing (input.passes s.readyServices) next target)
    refine ⟨notReady', ?_⟩
    rw [List.foldl_cons, hbody, hrest, List.flatMap_cons, List.append_assoc, List.foldl_cons]

theorem checkSignals_spec :
    ∃ notReady pending, s.checkSignals input = { s with
        notReady
        pending
        trace := s.trace ++
          (wordsOf s.pending).flatMap (checkActs (input.passes s.readyServices)) } ∧
      wordsOf pending = (wordsOf s.pending).filter (!input.passes s.readyServices ·) ∧
      (pending = "" ↔ wordsOf pending = []) := by
  have hwords : ∀ word ∈ wordsOf s.pending, IsWord word := fun _ => isWord_of_mem
  obtain ⟨notReady, hloop⟩ := s.checkSignal_foldl input (wordsOf s.pending) ""
  have hpending := wordsOf_addFailing (input.passes s.readyServices) hwords ""
  refine ⟨notReady, _, ?_, (wordsOf_dropSpace _).trans hpending, ?_⟩
  · unfold checkSignals
    rw [hloop]
  · constructor
    · intro hempty
      rw [hempty]
      rfl
    · intro hnone
      rw [wordsOf_dropSpace, hpending] at hnone
      have hpasses : ∀ word ∈ wordsOf s.pending, input.passes s.readyServices word = true := by
        intro word hword
        have hkept := List.filter_eq_nil_iff.mp hnone word hword
        simpa using hkept
      rw [addFailing_of_passes hpasses]
      rfl

end SmokeState

end OrdersDemo
