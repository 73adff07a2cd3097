import Mathlib.Data.List.DropRight

namespace Fields

variable {α : Type*} {sep : α → Bool}

/-- The non-empty fields between separators, where a run of separators counts as one. -/
def fields (sep : α → Bool) (text : List α) : List (List α) :=
  (text.splitOnP sep).filter (!·.isEmpty)

/-- A field that survives the splitting as it is. -/
def IsField (sep : α → Bool) (word : List α) : Prop :=
  word ≠ [] ∧ ∀ a ∈ word, sep a = false

/-- Reading a line into `n` variables where every separator is white space. The last variable
keeps the rest of the line without its outer separators. -/
def readWords (sep : α → Bool) : ℕ → List α → List (List α)
  | 0, _ => []
  | 1, text => [(text.dropWhile sep).rdropWhile sep]
  | n + 2, text => (text.dropWhile sep).takeWhile (!sep ·) ::
      readWords sep (n + 1) ((text.dropWhile sep).dropWhile (!sep ·))

/-- The words with the empty ones moved to the end. -/
def emptiesLast (words : List (List α)) : List (List α) :=
  words.filter (!·.isEmpty) ++
    List.replicate (words.length - (words.filter (!·.isEmpty)).length) []

@[simp] theorem fields_nil : fields sep [] = [] := rfl

theorem fields_append_sep {a : α} (h : sep a = true) (xs ys : List α) :
    fields sep (xs ++ a :: ys) = fields sep xs ++ fields sep ys := by
  unfold fields
  rw [List.splitOnP_append_cons xs ys h, List.filter_append]

theorem fields_cons_sep {a : α} (h : sep a = true) (xs : List α) :
    fields sep (a :: xs) = fields sep xs :=
  fields_append_sep h [] xs

theorem fields_of_clean {word : List α} (h : ∀ a ∈ word, sep a = false) :
    fields sep word = [word].filter (!·.isEmpty) := by
  unfold fields
  rw [List.splitOnP_eq_singleton h]

theorem IsField.fields {word : List α} (h : IsField sep word) : fields sep word = [word] := by
  rw [fields_of_clean h.2]
  simp [h.1]

theorem clean_of_mem_splitOnP {word text : List α} (h : word ∈ text.splitOnP sep) :
    ∀ a ∈ word, sep a = false := by
  induction text generalizing word with
  | nil =>
    rw [List.splitOnP_nil, List.mem_singleton] at h
    simp [h]
  | cons b text ih =>
    obtain ⟨first, rest, hsplit⟩ := List.exists_cons_of_ne_nil (List.splitOnP_ne_nil sep text)
    rw [hsplit] at ih
    rw [List.splitOnP_cons_eq_if_modifyHead, hsplit] at h
    by_cases hb : sep b = true
    · rw [if_pos hb] at h
      rcases List.mem_cons.mp h with rfl | hmem
      · simp
      · exact ih hmem
    · rw [if_neg hb, List.modifyHead_cons] at h
      rcases List.mem_cons.mp h with rfl | hmem
      · intro a ha
        rcases List.mem_cons.mp ha with rfl | ha
        · exact eq_false_of_ne_true hb
        · exact ih List.mem_cons_self a ha
      · exact ih (List.mem_cons_of_mem first hmem)

theorem isField_of_mem {word text : List α} (h : word ∈ fields sep text) : IsField sep word := by
  obtain ⟨hmem, hne⟩ := List.mem_filter.mp h
  exact ⟨by simpa using hne, clean_of_mem_splitOnP hmem⟩

theorem fields_eq_nil_iff {text : List α} : fields sep text = [] ↔ ∀ a ∈ text, sep a = true := by
  induction text with
  | nil => simp
  | cons a text ih =>
    by_cases ha : sep a = true
    · rw [fields_cons_sep ha, ih]
      simp [ha]
    · refine iff_of_false ?_ (fun hall => ha (hall a List.mem_cons_self))
      intro hnil
      obtain ⟨first, rest, hsplit⟩ := List.exists_cons_of_ne_nil (List.splitOnP_ne_nil sep text)
      unfold fields at hnil
      rw [List.splitOnP_cons_eq_if_modifyHead, if_neg ha, hsplit, List.modifyHead_cons,
        List.filter_cons_of_pos (by simp)] at hnil
      exact List.cons_ne_nil _ _ hnil

theorem fields_dropWhile (text : List α) : fields sep (text.dropWhile sep) = fields sep text := by
  induction text with
  | nil => rfl
  | cons a text ih =>
    by_cases ha : sep a = true
    · rw [List.dropWhile_cons_of_pos ha, fields_cons_sep ha, ih]
    · rw [List.dropWhile_cons_of_neg ha]

theorem fields_cons_of_neg {a : α} (ha : ¬ sep a = true) (text : List α) :
    IsField sep ((a :: text).takeWhile (!sep ·)) ∧
      fields sep (a :: text) = (a :: text).takeWhile (!sep ·) ::
        fields sep ((a :: text).dropWhile (!sep ·)) := by
  have hword : IsField sep ((a :: text).takeWhile (!sep ·)) := by
    refine ⟨?_, fun b hb => by simpa using List.mem_takeWhile_imp hb⟩
    rw [List.takeWhile_cons_of_pos (by simpa using ha)]
    exact List.cons_ne_nil _ _
  refine ⟨hword, ?_⟩
  conv_lhs => rw [← List.takeWhile_append_dropWhile (p := (!sep ·)) (l := a :: text)]
  cases hrest : (a :: text).dropWhile (!sep ·) with
  | nil => rw [List.append_nil, hword.fields, fields_nil]
  | cons b rest =>
    have hb : sep b = true := by
      have hhead := List.head_dropWhile_not (!sep ·) (l := a :: text) (by rw [hrest]; simp)
      simpa [hrest] using hhead
    rw [fields_append_sep hb, hword.fields, fields_cons_sep hb]
    rfl

theorem rdropWhile_append_seps {word seps : List α} (hword : IsField sep word)
    (hseps : ∀ a ∈ seps, sep a = true) : (word ++ seps).rdropWhile sep = word := by
  have hdrop : (word ++ seps).rdropWhile sep = word.rdropWhile sep := by
    unfold List.rdropWhile
    rw [List.reverse_append, List.dropWhile_append_of_pos fun a ha => hseps a (by simpa using ha)]
  rw [hdrop, List.rdropWhile_eq_self_iff]
  intro hne
  rw [hword.2 _ (List.getLast_mem hne)]
  exact Bool.false_ne_true

theorem neg_of_dropWhile_eq_cons {a : α} {text rest : List α}
    (h : text.dropWhile sep = a :: rest) : ¬ sep a = true := by
  have hhead := List.head_dropWhile_not sep (l := text) (by rw [h]; exact List.cons_ne_nil a rest)
  simpa [h] using hhead

/-- A line with enough variables for its fields is read field by field, and the other variables
stay empty. -/
theorem readWords_eq {n : ℕ} {text : List α} (h : (fields sep text).length ≤ n) :
    readWords sep n text =
      fields sep text ++ List.replicate (n - (fields sep text).length) [] := by
  induction n, text using readWords.induct sep with
  | case1 text =>
    have hnil : fields sep text = [] := List.length_eq_zero_iff.mp (Nat.le_zero.mp h)
    rw [hnil]
    rfl
  | case2 text =>
    rw [readWords]
    rw [← fields_dropWhile] at h ⊢
    cases hrest : text.dropWhile sep with
    | nil => rfl
    | cons a rest =>
      obtain ⟨hword, hfields⟩ := fields_cons_of_neg (neg_of_dropWhile_eq_cons hrest) rest
      rw [hrest, hfields, List.length_cons] at h
      have htail : fields sep ((a :: rest).dropWhile (!sep ·)) = [] :=
        List.length_eq_zero_iff.mp (by omega)
      rw [hfields, htail]
      have hdrop := rdropWhile_append_seps hword (fields_eq_nil_iff.mp htail)
      rw [List.takeWhile_append_dropWhile] at hdrop
      rw [hdrop]
      rfl
  | case3 n text ih =>
    rw [readWords]
    rw [← fields_dropWhile] at h ⊢
    cases hrest : text.dropWhile sep with
    | nil =>
      rw [hrest] at ih
      rw [List.dropWhile_nil] at ih ⊢
      rw [ih (Nat.zero_le _)]
      rfl
    | cons a rest =>
      obtain ⟨-, hfields⟩ := fields_cons_of_neg (neg_of_dropWhile_eq_cons hrest) rest
      rw [hrest] at ih
      rw [hrest, hfields, List.length_cons] at h
      rw [ih (by omega), hfields, List.length_cons, List.cons_append, Nat.succ_sub_succ]

theorem length_readWords (sep : α → Bool) (n : ℕ) (text : List α) :
    (readWords sep n text).length = n := by
  induction n, text using readWords.induct sep with
  | case1 text => rfl
  | case2 text => rfl
  | case3 n text ih => rw [readWords, List.length_cons, ih]

theorem filter_intercalate {p : α → Bool} {a : α} (ha : p a = true) (words : List (List α)) :
    ([a].intercalate words).filter p = [a].intercalate (words.map (List.filter p)) := by
  induction words with
  | nil => rfl
  | cons word words ih =>
    cases words with
    | nil => rw [List.map_singleton, List.intercalate_singleton, List.intercalate_singleton]
    | cons next words =>
      have hsep : [a].filter p = [a] := List.filter_cons_of_pos ha
      rw [List.intercalate_cons_cons, List.filter_append, List.filter_append, hsep, ih,
        List.map_cons, List.map_cons, List.map_cons, List.intercalate_cons_cons]

theorem fields_intercalate {a : α} (ha : sep a = true) {words : List (List α)}
    (h : ∀ word ∈ words, ∀ b ∈ word, sep b = false) :
    fields sep ([a].intercalate words) = words.filter (!·.isEmpty) := by
  induction words with
  | nil => rfl
  | cons word words ih =>
    have hword := fields_of_clean (h word List.mem_cons_self)
    cases words with
    | nil => rw [List.intercalate_singleton, hword]
    | cons next words =>
      have hrest := ih fun w hw => h w (List.mem_cons_of_mem word hw)
      rw [List.intercalate_cons_cons, List.append_assoc, List.singleton_append,
        fields_append_sep ha, hword, hrest, ← List.filter_append, List.singleton_append]

/-- Words joined by one separator each are read back with the empty ones at the end. -/
theorem readWords_intercalate {a : α} (ha : sep a = true) {words : List (List α)}
    (h : ∀ word ∈ words, ∀ b ∈ word, sep b = false) :
    readWords sep words.length ([a].intercalate words) = emptiesLast words := by
  unfold emptiesLast
  rw [← fields_intercalate ha h]
  apply readWords_eq
  rw [fields_intercalate ha h]
  exact List.length_filter_le _ _

theorem flatten_emptiesLast (words : List (List α)) :
    (emptiesLast words).flatten = words.flatten := by
  unfold emptiesLast
  rw [List.flatten_append, List.flatten_filter_not_isEmpty, List.flatten_replicate_nil,
    List.append_nil]

theorem filter_eq_nil_iff {words : List (List α)} :
    words.filter (!·.isEmpty) = [] ↔ ∀ word ∈ words, word = [] := by
  simp [List.filter_eq_nil_iff]

/-- Moving the empty words to the end changes nothing exactly when they are there already. -/
theorem emptiesLast_eq_self_iff {words : List (List α)} :
    emptiesLast words = words ↔ words.Pairwise fun v w => v = [] → w = [] := by
  unfold emptiesLast
  induction words with
  | nil => simp
  | cons word words ih =>
    cases word with
    | cons a word =>
      rw [List.filter_cons_of_pos rfl, List.length_cons, List.length_cons, Nat.add_sub_add_right,
        List.cons_append, List.cons_inj_right, ih, List.pairwise_cons]
      simp
    | nil =>
      rw [List.filter_cons_of_neg (by simp), List.pairwise_cons]
      constructor
      · intro heq
        have hnil : words.filter (!·.isEmpty) = [] := by
          cases hfilter : words.filter (!·.isEmpty) with
          | nil => rfl
          | cons v kept =>
            rw [hfilter] at heq
            have hv := (List.mem_filter.mp (hfilter ▸ List.mem_cons_self : v ∈ _)).2
            rw [List.cons_append] at heq
            rw [(List.cons.inj heq).1] at hv
            simp at hv
        have hall := filter_eq_nil_iff.mp hnil
        exact ⟨fun w hw _ => hall w hw, List.pairwise_of_forall_mem_list
          fun v _ w hw _ => hall w hw⟩
      · rintro ⟨hempty, -⟩
        have hall : ∀ w ∈ words, w = [] := fun w hw => hempty w hw rfl
        have hreplicate : words = List.replicate words.length [] :=
          List.eq_replicate_of_mem hall
        rw [filter_eq_nil_iff.mpr hall, List.nil_append, List.length_nil, Nat.sub_zero, List.length_cons,
          List.replicate_succ, ← hreplicate]

end Fields
