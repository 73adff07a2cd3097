import OrdersDemo.RowReading
import OrdersDemo.Library.Words
import Mathlib.Data.List.Forall2

namespace OrdersDemo

theorem inspectedText_lines (rows : List Row) :
    (inspectedText rows).splitOn '\n' = textLines [] (rows.map Row.line) := by
  have hlines : (jqLines (rows.map fun row => tsv row.fields)).filter (· ≠ '\x00') =
      (rows.map Row.line).flatMap (· ++ ['\n']) := by
    unfold jqLines
    rw [List.filter_flatMap, List.flatMap_map, List.flatMap_map]
    apply List.flatMap_congr
    intro row _
    rw [List.filter_append]
    rfl
  unfold inspectedText substitute
  rw [hlines]
  cases rows with
  | nil => rfl
  | cons row rows =>
    refine Words.splitOn_rdropWhile (by simp) ?_
    intro line hline
    obtain ⟨row, -, rfl⟩ := List.mem_map.mp hline
    exact ⟨row.line_ne_nil, row.newline_not_mem_line⟩

theorem judgedRows_eq (rows : List Row) :
    judgedRows rows = (rows.map fun row => readRow row.line).filter fun row => row.id ≠ "" := by
  unfold judgedRows
  rw [inspectedText_lines]
  cases rows with
  | nil => decide
  | cons row rows =>
    show ((((row :: rows).map Row.line).map readRow).filter _) = _
    rw [List.map_map]
    rfl

theorem judgedRows_eq_self_iff {rows : List Row} :
    judgedRows rows = rows ↔ ∀ row ∈ rows, row.Readable := by
  rw [judgedRows_eq]
  constructor
  · intro heq
    have hall : ∀ row ∈ rows.map fun row => readRow row.line, decide (row.id ≠ "") = true := by
      rw [← List.length_filter_eq_length_iff, heq, List.length_map]
    rw [List.filter_eq_self.mpr hall] at heq
    have hread : ∀ row ∈ rows, readRow row.line = row :=
      List.map_inj_left.mp (heq.trans (List.map_id rows).symm)
    intro row hrow
    have hid := of_decide_eq_true (hall _ (List.mem_map_of_mem hrow))
    rw [hread row hrow] at hid
    obtain ⟨hplain, hgapless⟩ := readRow_line_eq_iff.mp (hread row hrow)
    exact ⟨hid, hplain, hgapless⟩
  · intro h
    have hread : (rows.map fun row => readRow row.line) = rows := by
      apply map_eq_self
      intro row hrow
      exact readRow_line_eq_iff.mpr ⟨(h row hrow).plain, (h row hrow).gapless⟩
    rw [hread]
    exact List.filter_eq_self.mpr fun row hrow => decide_eq_true (h row hrow).id_ne

/-- The row has the fields of the container, and the command that the script shows for a missing
container with the same words. -/
def InspectedContainer.ReadAs (c : InspectedContainer) (row : Row) : Prop :=
  row = c.row ∧ ∀ entrypoint command : Option (List String),
    entrypoint.getD [] ++ command.getD [] = c.words →
      row.command = missingCommand entrypoint command

theorem missingCommand_eq {entrypoint command : Option (List String)} {words : List String}
    (hwords : entrypoint.getD [] ++ command.getD [] = words)
    (h : ∀ c ∈ (commandText words).toList, Plain c) :
    missingCommand entrypoint command = commandText words := by
  have hmem : ∀ c ∈ (commandText words).toList, c ≠ '\n' ∧ c ≠ '\x00' := by
    intro c hc
    obtain ⟨-, -, hnewline, -, hnul⟩ := plain_iff.mp (h c hc)
    exact ⟨hnewline, hnul⟩
  have hnul : ((commandText words).toList ++ ['\n']).filter (· ≠ '\x00') =
      (commandText words).toList ++ ['\n'] := by
    apply List.filter_eq_self.mpr
    intro c hc
    rcases List.mem_append.mp hc with hc | hc
    · exact decide_eq_true (hmem c hc).2
    · rw [List.mem_singleton.mp hc]
      rfl
  have hnewline : ((commandText words).toList ++ ['\n']).rdropWhile (· = '\n') =
      (commandText words).toList := by
    rw [List.rdropWhile_concat_pos _ _ _ (by simp), List.rdropWhile_eq_self_iff]
    intro hne hlast
    exact (hmem _ (List.getLast_mem hne)).1 (of_decide_eq_true hlast)
  unfold missingCommand
  dsimp only
  rw [hwords]
  unfold substitute jqLines
  rw [List.flatMap_singleton, hnul, hnewline, String.ofList_toList]

/-- The loop judges each container by its own fields exactly when it can read all the rows. -/
theorem container_rows_survive_iff (containers : List InspectedContainer) :
    List.Forall₂ (fun row c => c.ReadAs row) (judgedRows (containers.map (·.row))) containers ↔
      ∀ c ∈ containers, c.row.Readable := by
  constructor
  · intro h
    have hrows : judgedRows (containers.map (·.row)) = containers.map (·.row) := by
      rw [← List.forall₂_eq_eq_eq, List.forall₂_map_right_iff]
      exact h.imp fun row c hrow => hrow.1
    exact List.forall_mem_map.mp (judgedRows_eq_self_iff.mp hrows)
  · intro h
    rw [judgedRows_eq_self_iff.mpr (List.forall_mem_map.mpr h), List.forall₂_map_left_iff,
      List.forall₂_same]
    intro c hc
    refine ⟨rfl, ?_⟩
    intro entrypoint command hwords
    have hplain := (h c hc).plain c.row.command (by simp [Row.fields])
    exact (missingCommand_eq hwords hplain).symm

theorem Container.fields_ne_empty (c : Container) {field : String} (h : field ∈ c.row.fields) :
    field ≠ "" := by
  rintro rfl
  have hfilled := c.filled
  simp only [List.mem_cons, List.not_mem_nil, or_false, not_or] at hfilled
  obtain ⟨hid, hstate, hhealth, hcreated, himage, himageId, hcommand⟩ := hfilled
  have hexit : "" ≠ toString c.exitCode := by
    cases c.exitCode <;> simp [toString, Int.repr]
  have hrestarts : "" ≠ toString c.restarts := by simp
  simp only [Row.fields, Container.row, List.mem_cons, List.not_mem_nil, or_false] at h
  rcases h with h | h | h | h | h | h | h | h | h | h
  · exact hid h
  · exact c.service.property.1 h.symm
  · exact hstate h
  · exact hexit h
  · exact hhealth h
  · exact hrestarts h
  · exact hcreated h
  · exact himage h
  · exact himageId h
  · exact hcommand h

/-- The rows of the service check reach its loop as long as their characters are plain. -/
theorem judgedRows_containers {containers : List Container}
    (h : ∀ c ∈ containers, ∀ field ∈ c.row.fields, ∀ ch ∈ field.toList, Plain ch) :
    judgedRows (containers.map Container.row) = containers.map Container.row := by
  apply judgedRows_eq_self_iff.mpr
  intro row hrow
  obtain ⟨c, hc, rfl⟩ := List.mem_map.mp hrow
  refine ⟨c.fields_ne_empty (by simp [Row.fields]), h c hc, ?_⟩
  exact List.pairwise_of_forall_mem_list
    fun a ha b _ hempty => absurd hempty (c.fields_ne_empty ha)

def printfContainer : InspectedContainer where
  id := "1f"
  serviceLabel := some "web"
  status := "running"
  exitCode := "0"
  healthStatus := none
  restartCount := "2"
  created := "now"
  configImage := "web"
  image := "sha256:0"
  path := "printf"
  args := some ["a\\n"]

/-- The script shows the backslash twice, and once when the container is missing. -/
theorem printfContainer_not_read :
    (judgedRows [printfContainer.row]).map Row.command = ["printf a\\\\n"] ∧
      missingCommand (some ["printf"]) (some ["a\\n"]) = "printf a\\n" ∧
      ¬ List.Forall₂ (fun row c => c.ReadAs row)
        (judgedRows ([printfContainer].map (·.row))) [printfContainer] := by
  have hshown : (judgedRows [printfContainer.row]).map Row.command = ["printf a\\\\n"] := by
    decide +kernel
  refine ⟨hshown, by decide +kernel, ?_⟩
  intro h
  have hrows : judgedRows [printfContainer.row] = [printfContainer.row] := by
    obtain ⟨row, rest, ⟨hrow, -⟩, hrest, heq⟩ := List.forall₂_cons_right_iff.mp h
    rw [List.forall₂_nil_right_iff.mp hrest, hrow] at heq
    exact heq
  rw [hrows] at hshown
  exact absurd hshown (by decide +kernel)

end OrdersDemo
