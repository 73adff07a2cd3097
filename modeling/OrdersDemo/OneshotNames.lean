import OrdersDemo.CheckServices
import Mathlib.Data.List.Basic

namespace OrdersDemo

/-- `grep -x` with a basic regular expression in which only the period is special. The names of
services contain no other special character. -/
def matchesLine : List Char → List Char → Bool
  | [], [] => true
  | p :: pattern, c :: line => (p = '.' || p = c) && matchesLine pattern line
  | _, _ => false

def validName (name : String) : Bool :=
  match name.toList with
  | [] => false
  | c :: cs => c.isAlphanum && cs.all fun c => c.isAlphanum || c ∈ ['.', '_', '-']

structure ComposeService where
  name : String
  restart : Option String
  valid : validName name = true

structure ComposeConfig where
  services : List ComposeService
  distinct : (services.map (·.name)).Nodup

/-- `select(.value.restart == "no") | .key` -/
def ComposeConfig.oneshots (config : ComposeConfig) : List String :=
  (config.services.filter (·.restart = some "no")).map (·.name)

def ComposeConfig.docker (config : ComposeConfig) (base : Docker) : Docker :=
  { base with
    oneshots := config.oneshots
    grepLine := fun pattern line => matchesLine pattern.toList line.toList }

/-- The other name has the same length and differs at most at periods of this one. -/
def SameButPeriods (name other : String) : Prop :=
  name.toList.length = other.toList.length ∧
    ∀ (k : ℕ) (c d : Char), name.toList[k]? = some c → other.toList[k]? = some d → c = '.' ∨ c = d

theorem matchesLine_iff {pattern text : List Char} :
    matchesLine pattern text = true ↔ pattern.length = text.length ∧
      ∀ (k : ℕ) (c d : Char), pattern[k]? = some c → text[k]? = some d → c = '.' ∨ c = d := by
  induction pattern generalizing text with
  | nil =>
    cases text with
    | nil => simp [matchesLine]
    | cons c text => simp [matchesLine]
  | cons p pattern ih =>
    cases text with
    | nil => simp [matchesLine]
    | cons c text =>
      simp only [matchesLine, Bool.and_eq_true, Bool.or_eq_true, decide_eq_true_eq, ih,
        List.length_cons]
      constructor
      · rintro ⟨hhead, hlength, htail⟩
        refine ⟨by omega, ?_⟩
        intro k a b ha hb
        cases k with
        | zero =>
          obtain rfl : p = a := by simpa using ha
          obtain rfl : c = b := by simpa using hb
          exact hhead
        | succ k => exact htail k a b (by simpa using ha) (by simpa using hb)
      · rintro ⟨hlength, hall⟩
        refine ⟨hall 0 p c rfl rfl, by omega, ?_⟩
        intro k a b ha hb
        exact hall (k + 1) a b (by simpa using ha) (by simpa using hb)

theorem sameButPeriods_refl (name : String) : SameButPeriods name name := by
  refine ⟨rfl, ?_⟩
  intro k c d hc hd
  exact Or.inr (Option.some.inj (hc.symm.trans hd))

theorem ComposeService.name_ne_empty (service : ComposeService) : service.name ≠ "" := by
  intro h
  have hvalid := service.valid
  rw [h] at hvalid
  cases hvalid

theorem isOneshot_iff {config : ComposeConfig} {base : Docker} {service : ComposeService} :
    (config.docker base).isOneshot service.name = true ↔
      ∃ other ∈ config.services, other.restart = some "no" ∧
        SameButPeriods service.name other.name := by
  have hblank : matchesLine service.name.toList "".toList = false := by
    have hne : service.name.toList ≠ [] := by
      simpa using service.name_ne_empty
    cases hlist : service.name.toList with
    | nil => exact absurd hlist hne
    | cons c cs => rfl
  have hlines : (textLines "" config.oneshots).any
        (fun line => matchesLine service.name.toList line.toList) =
      config.oneshots.any fun line => matchesLine service.name.toList line.toList := by
    unfold textLines
    split
    next h =>
      have hnil : config.oneshots = [] := List.isEmpty_iff.mp h
      rw [hnil, List.any_cons, hblank, Bool.false_or]
    next => rfl
  show (textLines "" config.oneshots).any
    (fun line => matchesLine service.name.toList line.toList) = true ↔ _
  rw [hlines, List.any_eq_true]
  constructor
  · rintro ⟨line, hline, hmatch⟩
    obtain ⟨other, hother, rfl⟩ := List.mem_map.mp hline
    obtain ⟨hmem, hrestart⟩ := List.mem_filter.mp hother
    exact ⟨other, hmem, of_decide_eq_true hrestart, matchesLine_iff.mp hmatch⟩
  · rintro ⟨other, hmem, hrestart, hsame⟩
    refine ⟨other.name, ?_, matchesLine_iff.mpr hsame⟩
    exact List.mem_map_of_mem (List.mem_filter.mpr ⟨hmem, decide_eq_true hrestart⟩)

/-- A service is classified by its own restart policy exactly when it is a one-shot itself or no
one-shot has its name up to its periods. -/
theorem isOneshot_exact_iff (config : ComposeConfig) (base : Docker) (service : ComposeService)
    (h : service ∈ config.services) :
    ((config.docker base).isOneshot service.name = true ↔ service.restart = some "no") ↔
      (service.restart = some "no" ∨ ∀ other ∈ config.services, other.restart = some "no" →
        ¬ SameButPeriods service.name other.name) := by
  rw [isOneshot_iff]
  by_cases hrestart : service.restart = some "no"
  · have hself : ∃ other ∈ config.services, other.restart = some "no" ∧
        SameButPeriods service.name other.name :=
      ⟨service, h, hrestart, sameButPeriods_refl service.name⟩
    exact iff_of_true (iff_of_true hself hrestart) (Or.inl hrestart)
  · rw [iff_false_right hrestart, or_iff_right hrestart]
    constructor
    · intro hnone other hother hno hsame
      exact hnone ⟨other, hother, hno, hsame⟩
    · rintro hall ⟨other, hother, hno, hsame⟩
      exact hall other hother hno hsame

def periodConfig : ComposeConfig where
  services := [⟨"a.b", some "unless-stopped", by decide⟩, ⟨"axb", some "no", by decide⟩]
  distinct := by decide

def plainConfig : ComposeConfig where
  services := [⟨"web", some "unless-stopped", by decide⟩, ⟨"migrate", some "no", by decide⟩]
  distinct := by decide

/-- No image has a digest, and no container has died. -/
def quietDocker : Docker where
  oneshots := []
  grepLine _ _ := false
  repoDigests _ := []
  dieExitCodes _ _ := []
  image _ := "unknown"
  command _ := ""

theorem isOneshot_exact_iff_plain :
    ((plainConfig.docker quietDocker).isOneshot "web" = true ↔
      (some "unless-stopped" : Option String) = some "no") ∧
    ((plainConfig.docker quietDocker).isOneshot "migrate" = true ↔
      (some "no" : Option String) = some "no") := by
  constructor
  · refine (isOneshot_exact_iff plainConfig quietDocker ⟨"web", some "unless-stopped", by decide⟩
      List.mem_cons_self).mpr (Or.inr fun other hother hno hsame => ?_)
    have hlength : ∀ other ∈ plainConfig.services, other.restart = some "no" →
        "web".toList.length ≠ other.name.toList.length := by
      decide
    exact hlength other hother hno hsame.1
  · exact (isOneshot_exact_iff plainConfig quietDocker ⟨"migrate", some "no", by decide⟩
      (List.mem_cons_of_mem _ List.mem_cons_self)).mpr (Or.inl rfl)

/-- The long-running service is judged as a one-shot because of the other name, and the script
passes when it has crashed with exit code 0. -/
theorem isOneshot_confuses_names :
    (∃ service ∈ periodConfig.services, service.restart ≠ some "no" ∧
      (periodConfig.docker quietDocker).isOneshot service.name = true) ∧
      (periodConfig.docker quietDocker).exitStatus
        [⟨"1f", ⟨"a.b", by decide⟩, "exited", 0, "none", 0, "now", "image", "sha256:0", "serve",
          by decide⟩] [⟨"a.b", by decide⟩] = 0 := by
  refine ⟨⟨⟨"a.b", some "unless-stopped", by decide⟩, List.mem_cons_self, by decide,
    by decide +kernel⟩, by decide +kernel⟩

end OrdersDemo
