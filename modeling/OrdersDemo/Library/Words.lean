import Mathlib.Data.List.Infix
import Mathlib.Data.List.DropRight

namespace Words

variable {α : Type*} {sep : α}

def joined (sep : α) (words : List (List α)) : List α :=
  words.flatMap (sep :: ·)

theorem joined_append_sep (words : List (List α)) :
    joined sep words ++ [sep] = sep :: words.flatMap (· ++ [sep]) := by
  unfold joined
  induction words with
  | nil => rfl
  | cons w words ih =>
    rw [List.flatMap_cons, List.append_assoc, ih, List.flatMap_cons]
    simp only [List.cons_append, List.append_assoc, List.nil_append]

theorem infix_of_mem {w : List α} {words : List (List α)} (h : w ∈ words) :
    (sep :: w ++ [sep]) <:+: joined sep words ++ [sep] := by
  obtain ⟨before, after, rfl⟩ := List.append_of_mem h
  have hafter : ∃ rest, joined sep after ++ [sep] = sep :: rest := ⟨_, joined_append_sep after⟩
  obtain ⟨rest, hrest⟩ := hafter
  refine ⟨joined sep before, rest, ?_⟩
  have hjoined : joined sep (before ++ w :: after) ++ [sep] =
      joined sep before ++ (sep :: w ++ (joined sep after ++ [sep])) := by
    unfold joined
    simp only [List.flatMap_append, List.flatMap_cons, List.append_assoc]
  rw [hjoined, hrest]
  simp only [List.cons_append, List.append_assoc, List.nil_append]

variable [DecidableEq α]

theorem splitOn_flatMap_append {words : List (List α)} {last : List α}
    (h : ∀ w ∈ words, sep ∉ w) (hlast : sep ∉ last) :
    (words.flatMap (· ++ [sep]) ++ last).splitOn sep = words ++ [last] := by
  induction words with
  | nil => exact List.splitOn_eq_singleton hlast
  | cons w words ih =>
    have hw : sep ∉ w := h w List.mem_cons_self
    have hrest := ih fun v hv => h v (List.mem_cons_of_mem w hv)
    rw [List.flatMap_cons, List.append_assoc, List.append_assoc, List.singleton_append,
      List.splitOn_append_cons_self_of_not_mem hw, hrest, List.cons_append]

theorem splitOn_flatMap {words : List (List α)} (h : ∀ w ∈ words, sep ∉ w) :
    (words.flatMap (· ++ [sep])).splitOn sep = words ++ [[]] := by
  rw [← splitOn_flatMap_append h List.not_mem_nil, List.append_nil]

/-- Lines that are not empty are read back when the text has lost its final newline. -/
theorem splitOn_rdropWhile {words : List (List α)} (hne : words ≠ [])
    (h : ∀ w ∈ words, w ≠ [] ∧ sep ∉ w) :
    ((words.flatMap (· ++ [sep])).rdropWhile (· = sep)).splitOn sep = words := by
  obtain rfl | ⟨before, last, rfl⟩ := List.eq_nil_or_concat' words
  · exact absurd rfl hne
  · obtain ⟨hlast, hsep⟩ := h last (by simp)
    have hdrop : ((before ++ [last]).flatMap (· ++ [sep])).rdropWhile (· = sep) =
        before.flatMap (· ++ [sep]) ++ last := by
      rw [List.flatMap_append, List.flatMap_singleton, ← List.append_assoc,
        List.rdropWhile_concat_pos _ _ _ (by simp), List.rdropWhile_eq_self_iff]
      intro hnil hend
      rw [List.getLast_append_of_ne_nil _ hlast, decide_eq_true_eq] at hend
      exact hsep (hend ▸ List.getLast_mem hlast)
    rw [hdrop]
    exact splitOn_flatMap_append (fun w hw => (h w (List.mem_append_left _ hw)).2) hsep

theorem mem_splitOn_of_infix {w text : List α} (hw : sep ∉ w)
    (h : (sep :: w ++ [sep]) <:+: text) : w ∈ text.splitOn sep := by
  obtain ⟨before, after, rfl⟩ := h
  have hshape : before ++ (sep :: w ++ [sep]) ++ after = before ++ sep :: (w ++ sep :: after) := by
    simp only [List.cons_append, List.append_assoc, List.nil_append]
  rw [hshape, List.splitOn_append_cons_self, List.splitOn_append_cons_self_of_not_mem hw]
  exact List.mem_append_right _ List.mem_cons_self

/-- A word between two separators occurs in the padded text exactly when it is one of the words. -/
theorem infix_padded_iff {w : List α} {words : List (List α)} (hw : sep ∉ w) (hne : w ≠ [])
    (h : ∀ v ∈ words, sep ∉ v) :
    (sep :: w ++ [sep]) <:+: sep :: (joined sep words ++ [sep]) ↔ w ∈ words := by
  constructor
  · intro hinfix
    have hmem := mem_splitOn_of_infix hw hinfix
    have hsplit : (sep :: (joined sep words ++ [sep])).splitOn sep =
        [] :: [] :: (words ++ [[]]) := by
      rw [joined_append_sep, ← List.nil_append (sep :: sep :: _), List.splitOn_append_cons_self,
        ← List.nil_append (sep :: List.flatMap _ _), List.splitOn_append_cons_self,
        splitOn_flatMap h]
      rfl
    rw [hsplit] at hmem
    simpa [hne] using hmem
  · intro hmem
    exact (infix_of_mem hmem).trans (List.suffix_cons _ _).isInfix

end Words
