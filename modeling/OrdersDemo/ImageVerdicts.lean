import OrdersDemo.VerifyImages

namespace OrdersDemo

namespace VerifyImages

variable (registry : ImageRegistry) (settings : VerifySettings)

/-- What the script says of an image. -/
inductive Verdict where
  | line (text : String)
  | complaint (text : String)
  deriving DecidableEq

def pinned (image : String) : Option String :=
  if isRelease image then (registry.digest image).toOption.map pinnedRelease else some image

def pinnedVerdict (image : String) : Option Verdict :=
  if isPinned image then (registry.inspect image).toOption.map fun inspection =>
    if inspection.platforms = [] then
      .complaint ("cannot determine the published platform for " ++ image)
    else if settings.platform ∉ inspection.platforms then
      .complaint (image ++ " does not publish " ++ settings.platform)
    else .line (accepted settings image)
  else some (.complaint ("not digest pinned: " ++ image))

def localVerdict (image : String) : Option Verdict :=
  if settings.revision = "" then none
  else (registry.actual image).toOption.map fun actual =>
    if actual = settings.platform then .line (accepted settings image)
    else .complaint (image ++ " has platform " ++ actual ++ ", expected " ++ settings.platform)

/-- The verdict on an image, unless a command fails. -/
def verdict (image : String) : Option Verdict :=
  if image = localTag settings then localVerdict registry settings image
  else (pinned registry image).bind (pinnedVerdict registry settings)

def Verdict.line? : Verdict → Option String
  | .line text => some text
  | .complaint _ => none

def Verdict.complaint? : Verdict → Option String
  | .line _ => none
  | .complaint text => some text

/-- An image may be used: it was built here from this revision for this platform, or it is pinned,
itself or through its tag, and published for this platform. -/
def Published (image : String) : Prop :=
  if image = localTag settings then
    settings.revision ≠ "" ∧ registry.actual image = .ok settings.platform
  else ∃ name, pinned registry image = some name ∧ isPinned name = true ∧
    ∃ inspection, registry.inspect name = .ok inspection ∧
      settings.platform ∈ inspection.platforms

section Loop

variable {registry : ImageRegistry} {settings : VerifySettings} {s : VerifyState}

theorem ask_ok {α : Type} {question : VerifyState → Except ℕ+ α} {answer : α}
    {set : α → VerifyState → VerifyState} {errexit : Bool} {Q : Shell.Ending → VerifyState → Prop}
    (h : question s = .ok answer) :
    Shell.wp (ask question set) errexit Q s ↔ Q (.status 0) (set answer s) := by
  rw [ask, Shell.wp_run]
  simp [h, Shell.settle]

theorem ask_error {α : Type} {question : VerifyState → Except ℕ+ α} {code : ℕ+}
    {set : α → VerifyState → VerifyState} {Q : Shell.Ending → VerifyState → Prop}
    (h : question s = .error code) : Shell.wp (ask question set) true Q s ↔ Q (.exit code) s := by
  rw [ask, Shell.wp_run]
  simp [h, Shell.settle]

/-- What a turn of the loop leaves for a verdict, from the state `s`. -/
def Turned (verdict : Option Verdict) (s : VerifyState) (r : Shell.Ending) (t : VerifyState) :
    Prop :=
  match verdict with
  | none => (∃ code, code ≠ 0 ∧ r = .exit code) ∧ t.stdout = s.stdout ∧ t.stderr = s.stderr
  | some verdict => (r = .cont ∨ ∃ code, r = .status code) ∧
      t.stdout = s.stdout ++ verdict.line?.toList ∧
      t.stderr = s.stderr ++ verdict.complaint?.toList ∧
      t.status = if verdict.complaint?.isSome then 1 else s.status

def VerifyState.Same (s t : VerifyState) : Prop :=
  t.stdout = s.stdout ∧ t.stderr = s.stderr ∧ t.status = s.status

theorem Turned.of_same {v : Option Verdict} {r : Shell.Ending} {t u : VerifyState}
    (h : Turned v t r u) (hst : VerifyState.Same s t) : Turned v s r u := by
  obtain ⟨hstdout, hstderr, hstatus⟩ := hst
  cases v with
  | none => exact ⟨h.1, h.2.1.trans hstdout, h.2.2.trans hstderr⟩
  | some v =>
    simp only [Turned, hstdout, hstderr, hstatus] at h
    exact h

theorem verifyLocal_wp : Shell.wp (verifyLocal registry settings) true (fun r t =>
    (∀ code, r ≠ .status code) ∧ Turned (localVerdict registry settings s.image) s r t) s := by
  rw [verifyLocal, Shell.wp_block_cons, Shell.wp_test, localVerdict]
  by_cases hrevision : settings.revision = ""
  · simp [hrevision, Shell.settle, Turned, Shell.Ending.go]
  · simp only [hrevision, ne_eq, not_false_eq_true, decide_true, ↓reduceIte, Shell.settle,
      not_true_eq_false, and_false, Shell.go_status]
    rw [Shell.wp_block_cons]
    cases hactual : registry.actual s.image with
    | error code =>
      rw [ask_error hactual]
      exact ⟨by simp, ⟨code, code.ne_zero, rfl⟩, rfl, rfl⟩
    | ok actual =>
      rw [ask_ok hactual, Shell.go_status, Shell.wp_block_cons, Shell.wp_ifElse,
        Shell.wp_test]
      by_cases hplatform : actual = settings.platform
      · simp [hplatform, Shell.settle, Turned, accept, Shell.block, Verdict.line?,
          Verdict.complaint?, Except.toOption]
      · simp [hplatform, Shell.settle, Turned, complain, Shell.block, Verdict.line?,
          Verdict.complaint?, Except.toOption]

theorem pinRelease_wp : Shell.wp (pinRelease registry settings) true (fun r t =>
    match (registry.digest s.image).toOption.map pinnedRelease with
    | none => (∃ code, code ≠ 0 ∧ r = .exit code) ∧ VerifyState.Same s t
    | some name => (∃ code, r = .status code) ∧ t.image = name ∧ VerifyState.Same s t) s := by
  rw [pinRelease, Shell.wp_block_cons]
  cases hdigest : registry.digest s.image with
  | error code =>
    rw [ask_error hdigest]
    exact ⟨⟨code, code.ne_zero, rfl⟩, rfl, rfl, rfl⟩
  | ok digest =>
    rw [ask_ok hdigest, Shell.go_status, Shell.wp_block_cons, Shell.wp_assign,
      Shell.go_status, Shell.block, Shell.wp_ifElse, Shell.wp_test]
    by_cases henv : settings.githubEnv.getD "" = ""
    · simp [henv, Shell.settle, VerifyState.Same, Except.toOption]
    · simp [henv, Shell.settle, VerifyState.Same, Except.toOption]

theorem verifyPinned_wp : Shell.wp (verifyPinned registry settings) true
    (Turned (pinnedVerdict registry settings s.image) s) s := by
  rw [verifyPinned, Shell.wp_block_cons, Shell.wp_ifElse, Shell.wp_test, pinnedVerdict]
  by_cases hpinned : isPinned s.image = true
  · simp only [hpinned, ↓reduceIte, Shell.settle, Bool.false_eq_true, false_and, Shell.go_status,
      Shell.wp_skip]
    rw [Shell.wp_block_cons]
    cases hinspect : registry.inspect s.image with
    | error code =>
      rw [ask_error hinspect]
      exact ⟨⟨code, code.ne_zero, rfl⟩, rfl, rfl⟩
    | ok inspection =>
      rw [ask_ok hinspect, Shell.go_status, Shell.block, Shell.wp_ifElse, Shell.wp_test]
      by_cases hempty : inspection.platforms = []
      · simp [hempty, Shell.settle, Turned, complain, Verdict.line?, Verdict.complaint?,
          Except.toOption]
      · by_cases hplatform : settings.platform ∈ inspection.platforms
        · simp [hempty, hplatform, Shell.settle, Turned, accept, Verdict.line?,
            Verdict.complaint?, Shell.wp_ifElse, Except.toOption]
        · simp [hempty, hplatform, Shell.settle, Turned, complain, Verdict.line?,
            Verdict.complaint?, Shell.wp_ifElse, Except.toOption]
  · simp [hpinned, Shell.settle, Turned, complain, Shell.block, Verdict.line?,
      Verdict.complaint?, Shell.wp_seq]

theorem verifyImage_wp (image : String) : Shell.wp (verifyImage registry settings image) true
    (Turned (verdict registry settings image) s) s := by
  have hsame : VerifyState.Same s { s with image } := ⟨rfl, rfl, rfl⟩
  rw [verifyImage, Shell.wp_block_cons, Shell.wp_assign, Shell.go_status,
    Shell.wp_block_cons, Shell.wp_ifElse, Shell.wp_test, verdict]
  by_cases hlocal : image = localTag settings
  · simp only [hlocal, decide_true, ↓reduceIte, Shell.settle, Bool.false_eq_true, false_and,
      Shell.go_status]
    refine Shell.wp_mono verifyLocal_wp ?_
    rintro r t ⟨hr, ht⟩
    cases r with
    | status code => exact absurd rfl (hr code)
    | _ => exact ht.of_same ⟨rfl, rfl, rfl⟩
  · simp only [hlocal, decide_false, ↓reduceIte, Shell.settle, Bool.false_eq_true, false_and,
      Shell.go_status, Nat.one_ne_zero]
    have hpinned : ∀ t : VerifyState, VerifyState.Same s t →
        Shell.wp (verifyPinned registry settings) true
          (Turned (pinnedVerdict registry settings t.image) s) t := fun t ht =>
      Shell.wp_mono verifyPinned_wp fun r u hu => hu.of_same ht
    rw [Shell.wp_ifElse, Shell.wp_test, pinned]
    by_cases hrelease : isRelease image = true
    · simp only [hrelease, ↓reduceIte, Shell.settle, Bool.false_eq_true, false_and,
        Shell.go_status]
      refine Shell.wp_mono pinRelease_wp fun r t ht => ?_
      dsimp only at ht
      cases hname : (registry.digest image).toOption.map pinnedRelease with
      | none =>
        rw [hname] at ht
        obtain ⟨⟨code, hcode, rfl⟩, hsame⟩ := ht
        exact ⟨⟨code, hcode, rfl⟩, hsame.1, hsame.2.1⟩
      | some name =>
        rw [hname] at ht
        obtain ⟨⟨code, rfl⟩, rfl, hsame⟩ := ht
        exact hpinned t hsame
    · simp only [hrelease, ↓reduceIte, Shell.settle, Bool.false_eq_true, false_and,
        Shell.go_status, Nat.one_ne_zero, Shell.wp_skip]
      exact hpinned { s with image } hsame

end Loop

section Law

variable (registry : ImageRegistry) (settings : VerifySettings)

def lines (images : List String) : List String :=
  images.filterMap fun image => (verdict registry settings image).bind Verdict.line?

def complaints (images : List String) : List String :=
  images.filterMap fun image => (verdict registry settings image).bind Verdict.complaint?

variable {registry settings}

theorem localVerdict_line {image text : String} :
    localVerdict registry settings image = some (.line text) ↔ text = accepted settings image ∧
      settings.revision ≠ "" ∧ registry.actual image = .ok settings.platform := by
  unfold localVerdict
  cases registry.actual image with
  | error code => simp [Except.toOption]
  | ok actual =>
    by_cases hrevision : settings.revision = ""
    · simp [hrevision]
    · by_cases hplatform : actual = settings.platform
      · simp only [hrevision, hplatform, ↓reduceIte, Except.toOption, Option.map_some,
          Option.some.injEq, Verdict.line.injEq, ne_eq, not_false_eq_true, and_true]
        exact eq_comm
      · simp [hrevision, hplatform, Except.toOption]

theorem pinnedVerdict_line {image text : String} :
    pinnedVerdict registry settings image = some (.line text) ↔ text = accepted settings image ∧
      isPinned image = true ∧ ∃ inspection, registry.inspect image = .ok inspection ∧
        settings.platform ∈ inspection.platforms := by
  unfold pinnedVerdict
  by_cases hpinned : isPinned image = true
  · cases registry.inspect image with
    | error code => simp [hpinned, Except.toOption]
    | ok inspection =>
      by_cases hplatform : settings.platform ∈ inspection.platforms
      · have hempty : inspection.platforms ≠ [] := List.ne_nil_of_mem hplatform
        simp only [hpinned, hplatform, hempty, ↓reduceIte, Except.toOption, Option.map_some,
          not_true_eq_false, Option.some.injEq, Verdict.line.injEq, Except.ok.injEq,
          exists_eq_left', and_true]
        exact eq_comm
      · simp only [hpinned, ↓reduceIte, Except.toOption, Option.map_some, hplatform,
          not_false_eq_true]
        split <;> simp [hplatform]
  · simp [hpinned]

theorem published_iff {image : String} : Published registry settings image ↔
    ∃ text, verdict registry settings image = some (.line text) := by
  unfold Published verdict
  split
  next => simp [localVerdict_line]
  next =>
    simp only [Option.bind_eq_some_iff, pinnedVerdict_line]
    constructor
    · rintro ⟨name, hname, hpinned⟩
      exact ⟨_, name, hname, rfl, hpinned⟩
    · rintro ⟨text, name, hname, -, hpinned⟩
      exact ⟨name, hname, hpinned⟩

/-- After the images `seen` the script has said what there is to say of them. -/
structure Seen (registry : ImageRegistry) (settings : VerifySettings) (seen : List String)
    (s : VerifyState) : Prop where
  answered : ∀ image ∈ seen, verdict registry settings image ≠ none
  stdout : s.stdout = lines registry settings seen
  stderr : s.stderr = complaints registry settings seen
  status : s.status = if complaints registry settings seen = [] then 0 else 1

theorem Seen.turn {seen : List String} {image : String} {s t : VerifyState} {v : Verdict}
    {r : Shell.Ending} (h : Seen registry settings seen s)
    (hv : verdict registry settings image = some v) (ht : Turned (some v) s r t) :
    Seen registry settings (seen ++ [image]) t := by
  obtain ⟨-, hstdout, hstderr, hstatus⟩ := ht
  refine ⟨?_, ?_, ?_, ?_⟩
  · intro other hother
    rcases List.mem_append.mp hother with hother | hother
    · exact h.answered other hother
    · rw [List.mem_singleton.mp hother, hv]
      exact nofun
  · rw [hstdout, h.stdout]
    cases v <;> simp [lines, hv, Verdict.line?]
  · rw [hstderr, h.stderr]
    cases v <;> simp [complaints, hv, Verdict.complaint?]
  · rw [hstatus, h.status]
    cases v <;> simp [complaints, hv, Verdict.complaint?]

/-- The loop goes through all images, or a command fails for the one after those it has seen. -/
theorem verifyEach_wp (images : List String) :
    Shell.wp (.forEach images (verifyImage registry settings)) true
      (Shell.Ending.go (fun r t => ∃ seen image rest, images = seen ++ image :: rest ∧
        verdict registry settings image = none ∧ (∃ code, code ≠ 0 ∧ r = .exit code) ∧
          ∃ s, Seen registry settings seen s ∧ t.stdout = s.stdout ∧ t.stderr = s.stderr)
        fun _ t => Seen registry settings images t) {} := by
  refine Shell.wp_forEach (I := fun rest t => ∃ seen, images = seen ++ rest ∧
    Seen registry settings seen t) ?_ ?_ ⟨[], rfl, nofun, rfl, rfl, rfl⟩
  · rintro image rest s ⟨seen, himages, hseen⟩
    refine Shell.wp_mono (verifyImage_wp image) fun r t ht => ?_
    cases hv : verdict registry settings image with
    | none =>
      rw [hv] at ht
      obtain ⟨⟨code, hcode, rfl⟩, hstdout, hstderr⟩ := ht
      exact ⟨seen, image, rest, himages, hv, ⟨code, hcode, rfl⟩, s, hseen, hstdout, hstderr⟩
    | some v =>
      rw [hv] at ht
      have hnext : ∃ seen, images = seen ++ rest ∧ Seen registry settings seen t :=
        ⟨seen ++ [image], by simpa using himages, hseen.turn hv ht⟩
      obtain ⟨rfl | ⟨code, rfl⟩, -⟩ := ht
      · exact hnext
      · exact hnext
  · rintro code t ⟨seen, himages, hseen⟩
    rw [List.append_nil] at himages
    rwa [himages]

theorem complaints_eq_nil {seen : List String}
    (h : ∀ image ∈ seen, verdict registry settings image ≠ none) :
    complaints registry settings seen = [] ↔
      ∀ image ∈ seen, Published registry settings image := by
  rw [complaints, List.filterMap_eq_nil_iff]
  refine forall₂_congr fun image himage => ?_
  rw [published_iff]
  cases hv : verdict registry settings image with
  | none => exact absurd hv (h image himage)
  | some v => cases v <;> simp [Verdict.complaint?]

/-- The whole script: how far it has got when it ends, and what it has said until then. -/
theorem verifyImages_wp (registry : ImageRegistry) (settings : VerifySettings)
    (images : List String) :
    Shell.wp (verifyImages registry settings images) true (fun r t =>
      ∃ seen rest, images = seen ++ rest ∧
        (∀ image ∈ seen, verdict registry settings image ≠ none) ∧
        (∀ image, rest.head? = some image → verdict registry settings image = none) ∧
        (∃ code, r = .exit code ∧
          (code = 0 ↔ rest = [] ∧ complaints registry settings seen = [])) ∧
        t.stdout = lines registry settings seen ∧
        t.stderr = complaints registry settings seen) {} := by
  rw [verifyImages, Shell.wp_block_cons]
  refine Shell.wp_mono (verifyEach_wp images) fun r t ht => ?_
  cases r with
  | status code =>
    rw [Shell.go_status, Shell.block, Shell.wp_leave, ht.status]
    exact ⟨images, [], (List.append_nil _).symm, ht.answered, nofun, ⟨_, rfl, by simp⟩,
      ht.stdout, ht.stderr⟩
  | exit code =>
    obtain ⟨seen, image, rest, himages, hv, ⟨_, hcode, ⟨⟩⟩, s, hseen, hstdout, hstderr⟩ := ht
    refine ⟨seen, image :: rest, himages, hseen.answered, ?_, ⟨code, rfl, by simp [hcode]⟩,
      hstdout.trans hseen.stdout, hstderr.trans hseen.stderr⟩
    rintro _ ⟨⟩
    exact hv
  | _ =>
    obtain ⟨_, _, _, _, _, ⟨_, _, hr⟩, _⟩ := ht
    cases hr

end Law

/-- The script looks at the images in turn, whatever it finds, up to one for which a command fails.
It tells the images that may be used and complains about each other one, and it succeeds exactly if
all of them may be used. -/
theorem verify_images (registry : ImageRegistry) (settings : VerifySettings)
    (images : List String) :
    let run := verifyImages registry settings images true {}
    (run.1 = .exit 0 ↔ ∀ image ∈ images, Published registry settings image) ∧
      ∃ seen rest, images = seen ++ rest ∧
        (∀ image ∈ seen, verdict registry settings image ≠ none) ∧
        (∀ image, rest.head? = some image → verdict registry settings image = none) ∧
        (∃ code, run.1 = .exit code ∧
          (code = 0 ↔ rest = [] ∧ complaints registry settings seen = [])) ∧
        run.2.stdout = lines registry settings seen ∧
        run.2.stderr = complaints registry settings seen := by
  have hend := verifyImages_wp registry settings images
  refine ⟨?_, hend⟩
  obtain ⟨seen, rest, himages, hanswered, hfailed, ⟨code, hr, hcode⟩, -⟩ := hend
  have hpublished := complaints_eq_nil hanswered
  rw [hr, Shell.Ending.exit.injEq, hcode]
  constructor
  · rintro ⟨rfl, hcomplaints⟩
    rw [himages, List.append_nil]
    exact hpublished.mp hcomplaints
  · intro hall
    rw [himages] at hall
    have hseen : ∀ image ∈ seen, Published registry settings image := fun image himage =>
      hall image (List.mem_append_left _ himage)
    cases rest with
    | nil => exact ⟨rfl, hpublished.mpr hseen⟩
    | cons image rest =>
      obtain ⟨text, htext⟩ := published_iff.mp
        (hall image (List.mem_append_right _ (.head _)))
      rw [hfailed image rfl] at htext
      cases htext

end VerifyImages

end OrdersDemo
