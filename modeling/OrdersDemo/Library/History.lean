import Mathlib.Algebra.BigOperators.Group.List.Basic
import Mathlib.Algebra.GroupWithZero.Nat
import Mathlib.Order.Nat
import Mathlib.Data.List.Induction
import Mathlib.Data.List.Perm.Subperm

namespace History

variable {α : Type*}

/-- Every entry of a history stands in the relation `R` to the entries before it. -/
def Causal (R : List α → α → Prop) (t : List α) : Prop :=
  ∀ pre a post, t = pre ++ a :: post → R pre a

theorem causal_nil (R : List α → α → Prop) : Causal R [] := by
  intro pre a post h
  simp at h

theorem Causal.append {R : List α → α → Prop} {t w : List α} (h : Causal R t)
    (hw : ∀ pre a post, w = pre ++ a :: post → R (t ++ pre) a) : Causal R (t ++ w) := by
  intro pre a post he
  rcases List.append_eq_append_iff.mp he with ⟨mid, hp, hm⟩ | ⟨mid, ht, hm⟩
  · rw [hp]
    exact hw mid a post hm
  · cases mid with
    | nil =>
      have := hw [] a post (by simpa using hm.symm)
      simpa [ht] using this
    | cons b mid =>
      obtain ⟨rfl, hm⟩ := List.cons.inj hm
      exact h pre a mid ht

theorem Causal.concat {R : List α → α → Prop} {t : List α} {a : α} (h : Causal R t)
    (ha : R t a) : Causal R (t ++ [a]) := by
  apply h.append
  intro pre b post he
  cases pre with
  | nil =>
    obtain ⟨rfl, _⟩ := List.cons.inj he
    simpa using ha
  | cons c pre => simp at he

theorem Causal.imp {R Q : List α → α → Prop} {t : List α} (h : Causal R t)
    (himp : ∀ pre a, R pre a → Q pre a) : Causal Q t :=
  fun pre a post he => himp pre a (h pre a post he)

theorem causal_map {β : Type*} {R : List β → β → Prop} {f : α → β} {t : List α} :
    Causal R (t.map f) ↔ Causal (fun pre a => R (pre.map f) (f a)) t := by
  constructor
  · intro h pre a post he
    exact h (pre.map f) (f a) (post.map f) (by simp [he])
  · intro h pre b post he
    obtain ⟨pre', rest, rfl, rfl, hrest⟩ := List.map_eq_append_iff.mp he
    obtain ⟨a, post', rfl, rfl, rfl⟩ := List.map_eq_cons_iff.mp hrest
    exact h pre' a post' rfl

theorem Causal.pairwise {R : α → α → Prop} {t : List α}
    (h : Causal (fun pre b => ∀ a ∈ pre, R a b) t) : t.Pairwise R := by
  induction t using List.reverseRecOn with
  | nil => exact List.Pairwise.nil
  | append_singleton t b ih =>
    refine List.pairwise_append.mpr ⟨ih ?_, List.pairwise_singleton R b, ?_⟩
    · intro pre a post he
      exact h pre a (post ++ [b]) (by simp [he])
    · intro a ha c hc
      obtain rfl := List.mem_singleton.mp hc
      exact h t c [] rfl a ha

theorem sorted_eq_filter_append {f : α → ℕ} {t : List α} (hs : t.Pairwise (f · ≤ f ·)) (n : ℕ) :
    t = t.filter (f · < n) ++ t.filter (n ≤ f ·) := by
  induction t with
  | nil => rfl
  | cons a t ih =>
    have hs' := List.pairwise_cons.mp hs
    by_cases ha : f a < n
    · simpa [ha, Nat.not_le.mpr ha] using ih hs'.2
    · have hlow : t.filter (f · < n) = [] := by
        apply List.filter_eq_nil_iff.mpr
        intro b hb
        have := hs'.1 b hb
        simp only [decide_eq_true_eq]
        omega
      have hhigh : t.filter (n ≤ f ·) = t := by
        apply List.filter_eq_self.mpr
        intro b hb
        have := hs'.1 b hb
        simp only [decide_eq_true_eq]
        omega
      simp [ha, Nat.not_lt.mp ha, hlow, hhigh]

/-- A history sorted by an index below `n` is the concatenation of its fibres. -/
theorem eq_flatMap_fibres {f : α → ℕ} {t : List α} (hs : t.Pairwise (f · ≤ f ·)) {n : ℕ}
    (hn : ∀ a ∈ t, f a < n) : t = (List.range n).flatMap fun i => t.filter (f · = i) := by
  induction n generalizing t with
  | zero =>
    cases t with
    | nil => rfl
    | cons a t => exact absurd (hn a (by simp)) (by omega)
  | succ n ih =>
    have hlow := ih (t := t.filter (f · < n)) (hs.sublist List.filter_sublist)
      (fun a ha => by simpa using (List.mem_filter.mp ha).2)
    have hfib : ∀ i ∈ List.range n,
        (t.filter (f · < n)).filter (f · = i) = t.filter (f · = i) := by
      intro i hi
      rw [List.filter_filter]
      apply List.filter_congr
      intro a _
      have := List.mem_range.mp hi
      by_cases h : f a = i <;> simp [h, this]
    have htop : t.filter (n ≤ f ·) = t.filter (f · = n) := by
      apply List.filter_congr
      intro a ha
      have := hn a ha
      simp only [decide_eq_decide]
      omega
    have hmap : ((List.range n).flatMap fun i => (t.filter (f · < n)).filter (f · = i)) =
        (List.range n).flatMap fun i => t.filter (f · = i) := List.flatMap_congr hfib
    rw [List.range_succ, List.flatMap_append, ← hmap, ← hlow, List.flatMap_singleton, ← htop]
    exact sorted_eq_filter_append hs n

theorem sum_ite_eq (n k c : ℕ) :
    ((List.range n).map fun i => if k = i then c else 0).sum = if k < n then c else 0 := by
  induction n with
  | zero => simp
  | succ n ih =>
    rw [List.range_succ, List.map_append, List.sum_append, ih]
    rcases Nat.lt_trichotomy k n with h | rfl | h
    · simp [h, Nat.ne_of_lt h, Nat.lt_succ_of_lt h]
    · simp
    · have hn : ¬k < n := by omega
      have hs : ¬k < n + 1 := by omega
      simp [hn, hs, Nat.ne_of_gt h]

/-- Entries with an index below `n` are counted fibre by fibre. -/
theorem countP_eq_sum_fibres (p : α → Bool) {f : α → ℕ} {t : List α} {n : ℕ}
    (hn : ∀ a ∈ t, f a < n) :
    t.countP p = ((List.range n).map fun i => (t.filter (f · = i)).countP p).sum := by
  induction t with
  | nil => simp
  | cons a t ih =>
    have hone : ∀ i, ((a :: t).filter (f · = i)).countP p =
        (t.filter (f · = i)).countP p + if f a = i then (if p a then 1 else 0) else 0 := by
      intro i
      by_cases h : f a = i <;> simp [h, List.countP_cons]
    simp only [hone, List.sum_map_add, List.countP_cons]
    rw [sum_ite_eq, if_pos (hn a (by simp)), ih fun b hb => hn b (by simp [hb])]

section Fibres

variable {κ : Type*} [DecidableEq κ] {f : α → κ} {t u : List α}

/-- An order that every fibre of a history is in holds within the fibres of the history. -/
theorem pairwise_of_fibres {R : α → α → Prop} (h : ∀ k, (t.filter (f · = k)).Pairwise R) :
    t.Pairwise fun a b => f a = f b → R a b := by
  induction t with
  | nil => exact List.Pairwise.nil
  | cons a t ih =>
    refine List.pairwise_cons.mpr ⟨fun b hb he => ?_, ih fun k => ?_⟩
    · have hfibre : (a :: t).filter (f · = f a) = a :: t.filter (f · = f a) :=
        List.filter_cons_of_pos (by simp)
      have hhead := h (f a)
      rw [hfibre] at hhead
      exact (List.pairwise_cons.mp hhead).1 b (List.mem_filter.mpr ⟨hb, by simp [he]⟩)
    · exact (h k).sublist ((List.sublist_cons_self a t).filter _)

/-- A history whose fibres are parts of the fibres of another one is a part of it. -/
theorem subperm_of_fibres [DecidableEq α]
    (h : ∀ k, (t.filter (f · = k)).Sublist (u.filter (f · = k))) : t.Subperm u := by
  refine List.subperm_ext_iff.mpr fun a _ => ?_
  have hfibre : ∀ l : List α, (l.filter (f · = f a)).count a = l.count a := fun l =>
    List.count_filter (by simp)
  rw [← hfibre t, ← hfibre u]
  exact (h (f a)).count_le a

end Fibres

end History
