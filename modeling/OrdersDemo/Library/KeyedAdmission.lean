import Mathlib.Data.List.Nodup
import OrdersDemo.Library.History

namespace KeyedAdmission

/-- What happens to the numbered item of a keyed admission queue. -/
inductive Act where
  | enter (item : ℕ)
  | work (item : ℕ)
  | release (item : ℕ)
  deriving DecidableEq

def Act.item : Act → ℕ
  | .enter i => i
  | .work i => i
  | .release i => i

variable {κ : Type*} {key : ℕ → κ}

/-- Histories of a queue that admits its items in order, an item only while its key is free, and
works only on admitted items. `n` is the next item, `held` lists the admitted ones. -/
inductive Scheduled (key : ℕ → κ) : List Act → ℕ → List ℕ → Prop
  | start : Scheduled key [] 0 []
  | enter {t n held} : Scheduled key t n held → (∀ i ∈ held, key i ≠ key n) →
      Scheduled key (t ++ [.enter n]) (n + 1) (held ++ [n])
  | work {t n held i} : Scheduled key t n held → i ∈ held →
      Scheduled key (t ++ [.work i]) n held
  | release {t n held i} : Scheduled key t n held → i ∈ held →
      Scheduled key (t ++ [.release i]) n (held.filter (· ≠ i))

theorem Scheduled.works {t : List Act} {n i : ℕ} {held : List ℕ} (h : Scheduled key t n held)
    (hi : i ∈ held) (k : ℕ) : Scheduled key (t ++ List.replicate k (.work i)) n held := by
  induction k with
  | zero => simpa using h
  | succ k ih =>
    rw [List.replicate_succ', ← List.append_assoc]
    exact ih.work hi

theorem Scheduled.lt {t : List Act} {n : ℕ} {held : List ℕ} (h : Scheduled key t n held) :
    ∀ i ∈ held, i < n := by
  induction h with
  | start => simp
  | @enter t n held _ _ ih =>
    intro i hi
    rcases List.mem_append.mp hi with hi | hi
    · have := ih i hi
      omega
    · have : i = n := by simpa using hi
      omega
  | work _ _ ih => exact ih
  | release _ _ ih => exact fun i hi => ih i (List.mem_filter.mp hi).1

theorem Scheduled.item_lt {t : List Act} {n : ℕ} {held : List ℕ} (h : Scheduled key t n held) :
    ∀ a ∈ t, a.item < n := by
  induction h with
  | start => simp
  | @enter t n held _ _ ih =>
    intro a ha
    rcases List.mem_append.mp ha with ha | ha
    · have := ih a ha
      omega
    · obtain rfl := List.mem_singleton.mp ha
      exact Nat.lt_succ_self n
  | work h hi ih =>
    intro a ha
    rcases List.mem_append.mp ha with ha | ha
    · exact ih a ha
    · obtain rfl := List.mem_singleton.mp ha
      exact h.lt _ hi
  | release h hi ih =>
    intro a ha
    rcases List.mem_append.mp ha with ha | ha
    · exact ih a ha
    · obtain rfl := List.mem_singleton.mp ha
      exact h.lt _ hi

/-- While an item is held, no later item has its key. -/
theorem Scheduled.key_free {t : List Act} {n : ℕ} {held : List ℕ}
    (h : Scheduled key t n held) {i j : ℕ} (hi : i ∈ held) (hij : i < j) (hj : j < n) :
    key i ≠ key j := by
  induction h with
  | start => simp at hi
  | @enter t n held h hfree ih =>
    rcases List.mem_append.mp hi with hi | hi
    · by_cases hjn : j = n
      · exact hjn ▸ hfree i hi
      · exact ih hi (by omega)
    · have : i = n := by simpa using hi
      omega
  | work _ _ ih => exact ih hi hj
  | release _ _ ih => exact ih (List.mem_filter.mp hi).1 hj

theorem Scheduled.nodup {t : List Act} {n : ℕ} {held : List ℕ} (h : Scheduled key t n held) :
    held.Nodup := by
  induction h with
  | start => exact List.nodup_nil
  | enter h _ ih =>
    refine List.nodup_append.mpr ⟨ih, List.nodup_singleton _, ?_⟩
    intro i hi j hj
    obtain rfl := List.mem_singleton.mp hj
    exact Nat.ne_of_lt (h.lt i hi)
  | work _ _ ih => exact ih
  | release _ _ ih => exact ih.filter _

theorem Scheduled.keys_nodup {t : List Act} {n : ℕ} {held : List ℕ}
    (h : Scheduled key t n held) : (held.map key).Nodup := by
  refine List.Nodup.map_on ?_ h.nodup
  intro i hi j hj he
  rcases Nat.lt_trichotomy i j with hij | hij | hij
  · exact absurd he (h.key_free hi hij (h.lt j hj))
  · exact hij
  · exact absurd he.symm (h.key_free hj hij (h.lt i hi))

/-- A key function of period `c` keeps the held items in a window of `c`. -/
theorem Scheduled.window {t : List Act} {n c : ℕ} {held : List ℕ} (h : Scheduled key t n held)
    (hc : 0 < c) (hkey : ∀ i, key i = key (i + c)) : ∀ i ∈ held, n ≤ i + c := by
  intro i hi
  by_contra hlt
  exact h.key_free hi (by omega : i < i + c) (by omega) (hkey i)

theorem Scheduled.held_or_released {t : List Act} {n : ℕ} {held : List ℕ}
    (h : Scheduled key t n held) : ∀ i < n, i ∈ held ∨ .release i ∈ t := by
  induction h with
  | start => intro i hi; omega
  | @enter t n held _ _ ih =>
    intro i hi
    by_cases hin : i = n
    · exact Or.inl (by simp [hin])
    · exact (ih i (by omega)).imp (List.mem_append_left _) (List.mem_append_left _)
  | work _ _ ih => exact fun i hi => (ih i hi).imp_right (List.mem_append_left _)
  | @release t n held j _ _ ih =>
    intro i hi
    by_cases hij : i = j
    · exact Or.inr (by simp [hij])
    · exact (ih i hi).imp (fun hm => List.mem_filter.mpr ⟨hm, by simpa using hij⟩)
        (List.mem_append_left _)

theorem Scheduled.not_held_of_released {t : List Act} {n i : ℕ} {held : List ℕ}
    (h : Scheduled key t n held) (hr : .release i ∈ t) : i ∉ held := by
  induction h with
  | start => simp at hr
  | enter h _ ih =>
    rcases List.mem_append.mp hr with hr | hr
    · have hlt := h.item_lt _ hr
      simp only [Act.item] at hlt
      simp [ih hr, Nat.ne_of_lt hlt]
    · simp at hr
  | work _ _ ih =>
    rcases List.mem_append.mp hr with hr | hr
    · exact ih hr
    · simp at hr
  | release _ _ ih =>
    rcases List.mem_append.mp hr with hr | hr
    · exact fun hm => ih hr (List.mem_filter.mp hm).1
    · obtain rfl : i = _ := by simpa using hr
      simp

theorem Scheduled.admitted {t : List Act} {n : ℕ} {held : List ℕ} (h : Scheduled key t n held) :
    ∀ i ∈ held, .enter i ∈ t := by
  induction h with
  | start => simp
  | @enter t n held _ _ ih =>
    intro i hi
    rcases List.mem_append.mp hi with hi | hi
    · exact List.mem_append_left _ (ih i hi)
    · exact List.mem_append_right _ (by simpa using hi)
  | work _ _ ih => exact fun i hi => List.mem_append_left _ (ih i hi)
  | release _ _ ih => exact fun i hi => List.mem_append_left _ (ih i (List.mem_filter.mp hi).1)

theorem Scheduled.admitted_before {t : List Act} {n : ℕ} {held : List ℕ}
    (h : Scheduled key t n held) :
    History.Causal (fun pre a => ∀ i, a = .work i → .enter i ∈ pre) t := by
  induction h with
  | start => exact History.causal_nil _
  | enter _ _ ih => exact ih.concat fun i he => by simp at he
  | work h hi ih =>
    refine ih.concat fun i he => ?_
    obtain rfl := Act.work.inj he
    exact h.admitted _ hi
  | release _ _ ih => exact ih.concat fun i he => by simp at he

/-- Once an item is released, nothing happens to it any more. -/
theorem Scheduled.released_last {t : List Act} {n : ℕ} {held : List ℕ}
    (h : Scheduled key t n held) :
    History.Causal (fun pre a => .release a.item ∉ pre) t := by
  induction h with
  | start => exact History.causal_nil _
  | enter h _ ih =>
    refine ih.concat fun hr => ?_
    have := h.item_lt _ hr
    simp [Act.item] at this
  | work h hi ih => exact ih.concat fun hr => h.not_held_of_released hr hi
  | release h hi ih => exact ih.concat fun hr => h.not_held_of_released hr hi

/-- What happens to an item happens after every earlier item, up to it, of a same key is
released. -/
theorem Scheduled.released_before {t : List Act} {n : ℕ} {held : List ℕ}
    (h : Scheduled key t n held) :
    History.Causal (fun pre a => ∀ i j, i < j → j ≤ a.item → key i = key j →
      .release i ∈ pre) t := by
  induction h with
  | start => exact History.causal_nil _
  | @enter t n held h hfree ih =>
    refine ih.concat fun i j hij hj hk => ?_
    have hin : i < n := lt_of_lt_of_le hij hj
    refine (h.held_or_released i hin).resolve_left fun hi => ?_
    by_cases hjn : j = n
    · exact hfree i hi (hjn ▸ hk)
    · exact h.key_free hi hij (lt_of_le_of_ne hj hjn) hk
  | work h hi ih =>
    refine ih.concat fun i j hij hj hk => ?_
    have hjn := lt_of_le_of_lt hj (h.lt _ hi)
    exact (h.held_or_released i (hij.trans hjn)).resolve_left
      fun hi => h.key_free hi hij hjn hk
  | release h hi ih =>
    refine ih.concat fun i j hij hj hk => ?_
    have hjn := lt_of_le_of_lt hj (h.lt _ hi)
    exact (h.held_or_released i (hij.trans hjn)).resolve_left
      fun hi => h.key_free hi hij hjn hk

/-- What happens to the items of one key happens in item order. -/
theorem Scheduled.ordered {t : List Act} {n : ℕ} {held : List ℕ}
    (h : Scheduled key t n held) :
    t.Pairwise fun a b => key a.item = key b.item → a.item ≤ b.item := by
  apply History.Causal.pairwise
  intro pre b post he a ha hk
  by_contra hlt
  obtain ⟨front, back, hpre⟩ := List.append_of_mem ha
  have hr := h.released_before front a (back ++ b :: post) (by simp [he, hpre]) b.item a.item
    (by omega) le_rfl hk.symm
  exact h.released_last pre b post he (by simp [hpre, hr])

end KeyedAdmission
