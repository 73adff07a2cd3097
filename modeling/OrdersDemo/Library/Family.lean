import Mathlib.Algebra.GroupWithZero.Nat
import Mathlib.Data.List.AList

/-- A family of metrics: the metric of every label set that has been asked for. -/
abbrev Family (Label Metric : Type*) := AList fun _ : Label => Metric

namespace Family

variable {Label Metric : Type*}

/-- How many time series the family has. -/
def series (f : Family Label Metric) : ℕ :=
  f.keys.length

theorem series_le (f : Family Label Metric) {bound : List Label} (h : ∀ l ∈ f, l ∈ bound) :
    f.series ≤ bound.length := by
  have hsub : f.keys ⊆ bound := fun l hl => h l hl
  exact (List.subperm_of_subset (AList.keys_nodup f) hsub).length_le

variable [DecidableEq Label]

/-- `get_or_create(label)` with the update made on the metric it hands out. -/
def update (f : Family Label Metric) (new : Metric) (label : Label) (g : Metric → Metric) :
    Family Label Metric :=
  f.insert label (g ((f.lookup label).getD new))

def inc (f : Family Label ℕ) (label : Label) : Family Label ℕ :=
  f.update 0 label (· + 1)

def count (f : Family Label ℕ) (label : Label) : ℕ :=
  (f.lookup label).getD 0

def total (f : Family Label ℕ) : ℕ :=
  (f.entries.map Sigma.snd).sum

theorem mem_update {f : Family Label Metric} {new : Metric} {label l : Label}
    {g : Metric → Metric} : l ∈ f.update new label g ↔ l = label ∨ l ∈ f :=
  AList.mem_insert f

theorem lookup_update {f : Family Label Metric} {new : Metric} {label : Label}
    {g : Metric → Metric} :
    (f.update new label g).lookup label = some (g ((f.lookup label).getD new)) :=
  AList.lookup_insert f

theorem lookup_update_ne {f : Family Label Metric} {new : Metric} {label l : Label}
    {g : Metric → Metric} (h : l ≠ label) : (f.update new label g).lookup l = f.lookup l :=
  AList.lookup_insert_ne h

theorem mem_inc {f : Family Label ℕ} {label l : Label} :
    l ∈ f.inc label ↔ l = label ∨ l ∈ f :=
  mem_update

theorem count_inc (f : Family Label ℕ) (label l : Label) :
    (f.inc label).count l = f.count l + if l = label then 1 else 0 := by
  by_cases h : l = label
  · subst h
    simp [count, inc, lookup_update]
  · simp [count, inc, lookup_update_ne h, h]

theorem sum_kerase (label : Label) (entries : List (Sigma fun _ : Label => ℕ)) :
    ((entries.kerase label).map Sigma.snd).sum + (entries.dlookup label).getD 0 =
      (entries.map Sigma.snd).sum := by
  induction entries with
  | nil => rfl
  | cons e entries ih =>
    by_cases h : label = e.1
    · subst h
      have hd : List.dlookup e.1 (e :: entries) = some e.2 := List.dlookup_cons_eq entries e.1 e.2
      rw [hd]
      simp [Nat.add_comm]
    · have hd : List.dlookup label (e :: entries) = List.dlookup label entries :=
        List.dlookup_cons_ne entries e h
      rw [List.kerase_cons_ne h, hd]
      simp only [List.map_cons, List.sum_cons]
      omega

theorem total_inc (f : Family Label ℕ) (label : Label) : (f.inc label).total = f.total + 1 := by
  have h := sum_kerase label f.entries
  have hl : AList.lookup label f = f.entries.dlookup label := rfl
  simp only [total, inc, update, AList.entries_insert, List.map_cons, List.sum_cons, hl]
  omega

end Family
