import OrdersDemo.ContainerRows

namespace OrdersDemo

/-- A character that neither `@tsv` nor the shell changes. -/
def Plain (c : Char) : Prop :=
  c ∉ ['\\', '\t', '\n', '\r', '\x00']

instance : DecidablePred Plain :=
  fun c => inferInstanceAs (Decidable (c ∉ ['\\', '\t', '\n', '\r', '\x00']))

/-- A row that the container loop can read back. -/
structure Row.Readable (row : Row) : Prop where
  id_ne : row.id ≠ ""
  plain : ∀ field ∈ row.fields, ∀ c ∈ field.toList, Plain c
  gapless : row.fields.Pairwise fun a b => a = "" → b = ""

/-- What is left of a character of a field when the loop reads the row. -/
def sent (c : Char) : List Char :=
  (tsvEscape c).filter (· ≠ '\x00')

theorem plain_iff {c : Char} :
    Plain c ↔ c ≠ '\\' ∧ c ≠ '\t' ∧ c ≠ '\n' ∧ c ≠ '\r' ∧ c ≠ '\x00' := by
  simp [Plain]

theorem sent_of_plain {c : Char} (h : Plain c) : sent c = [c] := by
  obtain ⟨hbackslash, htab, hnewline, hreturn, hnul⟩ := plain_iff.mp h
  simp [sent, tsvEscape, hbackslash, htab, hnewline, hreturn, hnul]

theorem eq_of_not_plain {c : Char} (h : ¬ Plain c) :
    c = '\\' ∨ c = '\t' ∨ c = '\n' ∨ c = '\r' ∨ c = '\x00' := by
  simpa [Plain] using not_not.mp h

theorem mem_sent {c d : Char} (h : d ∈ sent c) :
    d ≠ '\t' ∧ d ≠ '\n' ∧ d ≠ '\r' ∧ d ≠ '\x00' := by
  by_cases hplain : Plain c
  · rw [sent_of_plain hplain, List.mem_singleton] at h
    subst h
    exact (plain_iff.mp hplain).2
  · have hd : d = '\\' ∨ d = 't' ∨ d = 'n' ∨ d = 'r' := by
      rcases eq_of_not_plain hplain with rfl | rfl | rfl | rfl | rfl <;>
        simp [sent, tsvEscape] at h <;> tauto
    rcases hd with rfl | rfl | rfl | rfl <;> decide

theorem length_sent {c : Char} (h : c ≠ '\x00') :
    1 ≤ (sent c).length ∧ ((sent c).length = 1 → Plain c) := by
  by_cases hplain : Plain c
  · rw [sent_of_plain hplain]
    exact ⟨le_rfl, fun _ => hplain⟩
  · rcases eq_of_not_plain hplain with rfl | rfl | rfl | rfl | rfl
    · decide
    · decide
    · decide
    · decide
    · exact absurd rfl h

theorem length_flatMap_sent {text : List Char} (h : ∀ c ∈ text, c ≠ '\x00') :
    text.length ≤ (text.flatMap sent).length ∧
      ((text.flatMap sent).length = text.length → ∀ c ∈ text, Plain c) := by
  induction text with
  | nil => simp
  | cons c text ih =>
    obtain ⟨hle, hplain⟩ := ih fun d hd => h d (List.mem_cons_of_mem c hd)
    obtain ⟨hone, hc⟩ := length_sent (h c List.mem_cons_self)
    rw [List.flatMap_cons, List.length_append, List.length_cons]
    refine ⟨by omega, ?_⟩
    intro heq
    exact List.forall_mem_cons.mpr ⟨hc (by omega), hplain (by omega)⟩

/-- A text that survives has only plain characters. -/
theorem flatMap_sent_eq_self_iff {text : List Char} :
    text.flatMap sent = text ↔ ∀ c ∈ text, Plain c := by
  constructor
  · intro heq
    refine (length_flatMap_sent ?_).2 (by rw [heq])
    intro c hc
    rw [← heq] at hc
    obtain ⟨d, -, hd⟩ := List.mem_flatMap.mp hc
    exact (mem_sent hd).2.2.2
  · intro hplain
    rw [List.flatMap_congr fun c hc => sent_of_plain (hplain c hc), List.flatMap_singleton']

theorem map_eq_self {α : Type} {f : α → α} {xs : List α} (h : ∀ x ∈ xs, f x = x) :
    xs.map f = xs :=
  (List.map_congr_left h).trans (List.map_id xs)

theorem Row.fields_inj {a b : Row} : a.fields = b.fields ↔ a = b := by
  cases a
  cases b
  simp [Row.fields]

theorem fields_readRow (line : List Char) :
    (readRow line).fields = (Fields.readWords (· = '\t') 10 line).map String.ofList := by
  have hlength := Fields.length_readWords (· = '\t') 10 line
  unfold readRow
  generalize Fields.readWords (· = '\t') 10 line = words at hlength ⊢
  match words, hlength with
  | [_, _, _, _, _, _, _, _, _, _], _ => rfl

namespace Row

variable (row : Row)

/-- The line that the loop reads for a row. -/
def line : List Char :=
  (tsv row.fields).filter (· ≠ '\x00')

def sentFields : List (List Char) :=
  row.fields.map fun field => field.toList.flatMap sent

theorem line_eq : row.line = ['\t'].intercalate row.sentFields := by
  unfold line tsv sentFields
  rw [Fields.filter_intercalate (by decide), List.map_map]
  congr 1
  apply List.map_congr_left
  intro field _
  exact List.filter_flatMap

theorem line_ne_nil : row.line ≠ [] := by
  rw [line_eq]
  simp [sentFields, Row.fields]

theorem mem_sentFields {word : List Char} (h : word ∈ row.sentFields) {c : Char} (hc : c ∈ word) :
    c ≠ '\t' ∧ c ≠ '\n' ∧ c ≠ '\r' ∧ c ≠ '\x00' := by
  obtain ⟨field, -, rfl⟩ := List.mem_map.mp h
  obtain ⟨d, -, hd⟩ := List.mem_flatMap.mp hc
  exact mem_sent hd

theorem newline_not_mem_line : '\n' ∉ row.line := by
  have hwords : row.sentFields.map (List.filter (· ≠ '\n')) = row.sentFields := by
    apply map_eq_self
    intro word hword
    exact List.filter_eq_self.mpr fun c hc => decide_eq_true (row.mem_sentFields hword hc).2.1
  have hline : row.line.filter (· ≠ '\n') = row.line := by
    rw [line_eq, Fields.filter_intercalate (by decide), hwords]
  intro hmem
  exact of_decide_eq_true (List.filter_eq_self.mp hline _ hmem) rfl

theorem fields_readRow_line :
    (readRow row.line).fields = (Fields.emptiesLast row.sentFields).map String.ofList := by
  have hclean : ∀ word ∈ row.sentFields, ∀ c ∈ word, decide (c = '\t') = false :=
    fun word hword c hc => decide_eq_false (row.mem_sentFields hword hc).1
  have hread : Fields.readWords (· = '\t') 10 (['\t'].intercalate row.sentFields) =
      Fields.emptiesLast row.sentFields :=
    Fields.readWords_intercalate (by decide) hclean
  rw [fields_readRow, line_eq, hread]

end Row

/-- Texts come back from the loop exactly when they are plain and the empty ones are at the end. -/
theorem emptiesLast_sent_eq_iff {texts : List (List Char)} :
    Fields.emptiesLast (texts.map (·.flatMap sent)) = texts ↔
      (∀ text ∈ texts, ∀ c ∈ text, Plain c) ∧ texts.Pairwise fun a b => a = [] → b = [] := by
  have hsame : (∀ text ∈ texts, ∀ c ∈ text, Plain c) → texts.map (·.flatMap sent) = texts := by
    intro hplain
    apply map_eq_self
    intro text htext
    exact flatMap_sent_eq_self_iff.mpr (hplain text htext)
  constructor
  · intro heq
    have hflat : texts.flatten.flatMap sent = texts.flatten := by
      calc texts.flatten.flatMap sent = (texts.map (·.flatMap sent)).flatten := by
            rw [List.flatten_eq_flatMap, List.flatMap_assoc]
            rfl
        _ = (Fields.emptiesLast (texts.map (·.flatMap sent))).flatten :=
            (Fields.flatten_emptiesLast _).symm
        _ = texts.flatten := by rw [heq]
    have hplain : ∀ text ∈ texts, ∀ c ∈ text, Plain c := by
      intro text htext c hc
      exact flatMap_sent_eq_self_iff.mp hflat c (List.mem_flatten.mpr ⟨text, htext, hc⟩)
    rw [hsame hplain] at heq
    exact ⟨hplain, Fields.emptiesLast_eq_self_iff.mp heq⟩
  · rintro ⟨hplain, hgapless⟩
    rw [hsame hplain]
    exact Fields.emptiesLast_eq_self_iff.mpr hgapless

theorem readRow_line_eq_iff {row : Row} :
    readRow row.line = row ↔ (∀ field ∈ row.fields, ∀ c ∈ field.toList, Plain c) ∧
      row.fields.Pairwise fun a b => a = "" → b = "" := by
  have htexts : row.sentFields = (row.fields.map String.toList).map (·.flatMap sent) := by
    rw [List.map_map]
    rfl
  have hfields : ((Fields.emptiesLast row.sentFields).map String.ofList = row.fields) ↔
      Fields.emptiesLast row.sentFields = row.fields.map String.toList := by
    constructor
    · intro h
      rw [← h, List.map_map]
      simp
    · intro h
      rw [h, List.map_map]
      simp
  rw [← Row.fields_inj, Row.fields_readRow_line, hfields, htexts, emptiesLast_sent_eq_iff,
    List.forall_mem_map, List.pairwise_map]
  simp only [String.toList_eq_nil_iff]

end OrdersDemo
