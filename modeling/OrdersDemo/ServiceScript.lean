import OrdersDemo.ServiceText

namespace OrdersDemo

/-- Docker keeps both numbers in a Go `int`. -/
structure Container.Fits (c : Container) : Prop where
  exit_low : -intMax - 1 ≤ c.exitCode
  exit_high : c.exitCode ≤ intMax
  restarts : (c.restarts : ℤ) ≤ intMax

/-- The characters that reach the container loop as they are. -/
def Container.PlainText (c : Container) : Prop :=
  ∀ field ∈ c.row.fields, ∀ ch ∈ field.toList, Plain ch

section Lines

/-- A name of Compose reaches the loops as one line and one word. -/
theorem validName_chars {name : String} (h : validName name = true) :
    name.toList ≠ [] ∧ ∀ c ∈ name.toList, c ≠ '\n' ∧ c ≠ '\x00' ∧ blank c = false := by
  have hchar : ∀ c : Char, (c.isAlphanum || c ∈ ['.', '_', '-']) = true →
      c ≠ '\n' ∧ c ≠ '\x00' ∧ blank c = false := by
    intro c hc
    refine ⟨?_, ?_, ?_⟩
    · rintro rfl
      exact absurd hc (by decide)
    · rintro rfl
      exact absurd hc (by decide)
    · by_contra hblank
      have hcases : (c = ' ' ∨ c = '\t') ∨ c = '\n' := by
        rw [Bool.not_eq_false] at hblank
        simpa only [blank, Bool.or_eq_true, decide_eq_true_eq] using hblank
      rcases hcases with (rfl | rfl) | rfl <;> exact absurd hc (by decide)
  unfold validName at h
  split at h
  next => cases h
  next c cs heq =>
    rw [heq]
    obtain ⟨hhead, htail⟩ := Bool.and_eq_true_iff.mp h
    refine ⟨by simp, List.forall_mem_cons.mpr ⟨hchar c (by simp [hhead]), fun d hd => ?_⟩⟩
    exact hchar d (List.all_eq_true.mp htail d hd)

theorem namesText_lines {names : List String} (h : ∀ name ∈ names, validName name = true) :
    (ComposeConfig.namesText names).splitOn '\n' = textLines [] (names.map String.toList) := by
  have hnul : (jqLines (names.map String.toList)).filter (· ≠ '\x00') =
      jqLines (names.map String.toList) := by
    apply List.filter_eq_self.mpr
    intro c hc
    obtain ⟨word, hword, hc⟩ := List.mem_flatMap.mp hc
    obtain ⟨name, hname, rfl⟩ := List.mem_map.mp hword
    rcases List.mem_append.mp hc with hc | hc
    · exact decide_eq_true ((validName_chars (h name hname)).2 c hc).2.1
    · obtain rfl := List.mem_singleton.mp hc
      rfl
  unfold ComposeConfig.namesText substitute
  rw [hnul]
  cases names with
  | nil => rfl
  | cons name names =>
    refine Words.splitOn_rdropWhile (by simp) ?_
    intro line hline
    obtain ⟨name, hname, rfl⟩ := List.mem_map.mp hline
    obtain ⟨hne, hchars⟩ := validName_chars (h name hname)
    exact ⟨hne, fun hmem => (hchars _ hmem).1 rfl⟩

theorem wordsOf_namesText {names : List String} (h : ∀ name ∈ names, validName name = true) :
    wordsOf (String.ofList (ComposeConfig.namesText names)) = names := by
  have hlines := namesText_lines h
  unfold wordsOf
  rw [String.toList_ofList]
  cases names with
  | nil => rfl
  | cons name names =>
    have htext : ComposeConfig.namesText (name :: names) =
        ['\n'].intercalate ((name :: names).map String.toList) := by
      have hjoin : ['\n'].intercalate ((ComposeConfig.namesText (name :: names)).splitOn '\n') =
          ComposeConfig.namesText (name :: names) := List.intercalate_splitOn '\n'
      rw [hlines] at hjoin
      exact hjoin.symm
    have hclean : ∀ word ∈ (name :: names).map String.toList, ∀ c ∈ word, blank c = false := by
      intro word hword c hc
      obtain ⟨other, hother, rfl⟩ := List.mem_map.mp hword
      exact ((validName_chars (h other hother)).2 c hc).2.2
    have hfilled : ((name :: names).map String.toList).filter (!·.isEmpty) =
        (name :: names).map String.toList := by
      apply List.filter_eq_self.mpr
      intro word hword
      obtain ⟨other, hother, rfl⟩ := List.mem_map.mp hword
      simpa using (validName_chars (h other hother)).1
    rw [htext, Fields.fields_intercalate rfl hclean, hfilled, List.map_map]
    simp

end Lines

section Turns

variable {docker : Docker} {v : Vars}

theorem readText_row {c : Container} (h : c.Fits) (v : Vars) :
    v.readText c.row = v.read (some c) := by
  have hexit := Word.ofText_toString h.exit_low h.exit_high
  have hrestarts : Word.ofText (toString c.restarts) = .number c.restarts :=
    Word.ofText_toString (n := (c.restarts : ℤ)) (by unfold intMax; omega) h.restarts
  unfold Vars.readText Vars.read Container.row
  rw [hexit, hrestarts]

theorem readText_blank (v : Vars) : v.readText (readRow []) = v.read none := by
  have hrow : readRow [] = ⟨"", "", "", "", "", "", "", "", "", ""⟩ := by decide +kernel
  have hword : Word.ofText "" = .text "" := rfl
  rw [hrow, Vars.readText, hword]
  rfl

theorem Container.readable {c : Container} (h : c.PlainText) : c.row.Readable := by
  have hrows : judgedRows ([c].map Container.row) = [c].map Container.row :=
    judgedRows_containers fun d hd => by
      obtain rfl := List.mem_singleton.mp hd
      exact h
  exact judgedRows_eq_self_iff.mp hrows _ List.mem_cons_self

theorem checkLine_container {c : Container} (hfits : c.Fits) (hplain : c.PlainText) :
    docker.checkLine v c.row.line = docker.checkContainer v (some c) := by
  have hreadable := c.readable hplain
  have hread := readRow_line_eq_iff.mpr ⟨hreadable.plain, hreadable.gapless⟩
  unfold Docker.checkLine Docker.checkContainer
  rw [hread, readText_row hfits]

theorem checkLine_blank : docker.checkLine v [] = docker.checkContainer v none := by
  unfold Docker.checkLine Docker.checkContainer
  rw [readText_blank]

theorem checkLines_containers {containers : List Container} (hfits : ∀ c ∈ containers, c.Fits)
    (hplain : ∀ c ∈ containers, c.PlainText) (v : Vars) :
    ((inspectedText (containers.map Container.row)).splitOn '\n').foldl docker.checkLine v =
      (textLines none (containers.map some)).foldl docker.checkContainer v := by
  have hfold : ∀ (cs : List Container), (∀ c ∈ cs, c ∈ containers) → ∀ v : Vars,
      ((cs.map Container.row).map Row.line).foldl docker.checkLine v =
        (cs.map some).foldl docker.checkContainer v := by
    intro cs hcs
    induction cs with
    | nil => exact fun _ => rfl
    | cons c cs ih =>
      intro v
      have hc := hcs c List.mem_cons_self
      rw [List.map_cons, List.map_cons, List.map_cons, List.foldl_cons, List.foldl_cons,
        checkLine_container (hfits c hc) (hplain c hc)]
      exact ih (fun d hd => hcs d (List.mem_cons_of_mem c hd)) _
  rw [inspectedText_lines]
  cases containers with
  | nil =>
    show docker.checkLine v [] = docker.checkContainer v none
    exact checkLine_blank
  | cons c cs => exact hfold (c :: cs) (fun _ h => h) v

theorem checkWords_services (services : List ServiceName) (v : Vars) :
    (services.map fun service => service.val).foldl docker.checkWord v =
      services.foldl docker.checkExpected v :=
  List.foldl_map

end Turns

/-- The words of an unquoted variable are names that the lists of the script keep apart. -/
theorem exists_serviceNames (text : String) :
    ∃ services : List ServiceName, wordsOf text = services.map fun service => service.val := by
  have hword : ∀ word ∈ wordsOf text, word ≠ "" ∧ ' ' ∉ word.toList := by
    intro word hword
    obtain ⟨hne, hclean⟩ := isWord_of_mem hword
    refine ⟨fun h => hne (by rw [h]; rfl), fun hmem => ?_⟩
    have hblank := hclean ' ' hmem
    cases hblank
  generalize wordsOf text = words at hword
  induction words with
  | nil => exact ⟨[], rfl⟩
  | cons word words ih =>
    obtain ⟨services, hservices⟩ := ih fun other h => hword other (List.mem_cons_of_mem word h)
    exact ⟨⟨word, hword word List.mem_cons_self⟩ :: services, congrArg (word :: ·) hservices⟩

/-- The script on texts is the service check on the containers and the services behind them. -/
theorem checkServicesScript_eq {config : ComposeConfig} {base : Docker}
    {smokeServices : Option String} {inspected : List InspectedContainer}
    {containers : List Container} {expected : List ServiceName}
    (hrows : inspected.map (·.row) = containers.map Container.row)
    (hfits : ∀ c ∈ containers, c.Fits) (hplain : ∀ c ∈ containers, c.PlainText)
    (hexpected : wordsOf (config.expectedText smokeServices) =
      expected.map fun service => service.val) :
    checkServicesScript config base smokeServices inspected =
      (config.scriptDocker base).checkServices containers expected := by
  unfold checkServicesScript Docker.checkTexts Docker.checkServices
  rw [hrows, checkLines_containers hfits hplain, hexpected, checkWords_services]

namespace ComposeConfig

variable {config : ComposeConfig} {base : Docker}

theorem valid_names (config : ComposeConfig) (p : ComposeService → Bool) :
    ∀ name ∈ (config.services.filter p).map (·.name), validName name = true := by
  intro name hname
  obtain ⟨service, -, rfl⟩ := List.mem_map.mp hname
  exact service.valid

theorem isOneshot_scriptDocker (service : String) :
    (config.scriptDocker base).isOneshot service = (config.docker base).isOneshot service := by
  have hlines : (config.scriptDocker base).oneshots = textLines "" config.oneshots := by
    have htext := namesText_lines (config.valid_names (·.restart = some "no"))
    change ((namesText config.oneshots).splitOn '\n').map String.ofList = _
    have hsplit : (namesText config.oneshots).splitOn '\n' =
        textLines [] (config.oneshots.map String.toList) := htext
    rw [hsplit]
    unfold textLines
    cases config.oneshots with
    | nil => rfl
    | cons name names => simp
  have hne : textLines "" (textLines "" config.oneshots) = textLines "" config.oneshots := by
    cases config.oneshots <;> rfl
  unfold Docker.isOneshot
  rw [hlines, hne]
  rfl

def expectedNames (config : ComposeConfig) : Option String → List String
  | some text => if text = "" then config.longRunning else wordsOf text
  | none => config.longRunning

theorem wordsOf_expectedText (smokeServices : Option String) :
    wordsOf (config.expectedText smokeServices) = config.expectedNames smokeServices := by
  have hlong : wordsOf (String.ofList (namesText config.longRunning)) = config.longRunning :=
    wordsOf_namesText (config.valid_names _)
  unfold expectedText orDefault expectedNames
  cases smokeServices with
  | none => exact hlong
  | some text =>
    by_cases h : text = ""
    · simpa only [h, if_true] using hlong
    · simp only [h, if_false]

end ComposeConfig

end OrdersDemo
