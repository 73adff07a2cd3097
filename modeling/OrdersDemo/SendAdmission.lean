import Mathlib.Data.Finset.Card
import OrdersDemo.SendInvariant

namespace OrdersDemo

variable {S : Sender}

theorem orderKey_period (i : ℕ) : orderKey i = orderKey (i + 5) :=
  orderAt_category_eq_iff.mpr (by omega)

theorem SendInv.window {m : ℕ+} {s : SendState S} (h : SendInv m s)
    {t : PendingTask S.Delivery} (ht : t ∈ s.pending) :
    s.index - 5 ≤ t.index ∧ t.index < s.index := by
  have hi : t.index ∈ s.indices := List.mem_map_of_mem ht
  have := h.scheduled.window (by decide : 0 < 5) orderKey_period _ hi
  exact ⟨by omega, h.scheduled.lt _ hi⟩

theorem SendInv.keys_nodup {m : ℕ+} {s : SendState S} (h : SendInv m s) :
    (s.pending.map (·.key)).Nodup := by
  rw [h.keys_map]
  exact h.scheduled.keys_nodup

theorem SendInv.guard_of_idle {m : ℕ+} {s : SendState S} (h : SendInv m s)
    (hp : s.phase = .admitting) (hidle : s.pending = []) : s.guard m = true := by
  refine guard_iff.mpr ⟨by simp [hidle], ?_⟩
  rw [h.active hp, hidle]
  simp

theorem SendInv.take_perm {m : ℕ+} {s : SendState S} (h : SendInv m s)
    {t : PendingTask S.Delivery} {rest : List (PendingTask S.Delivery)}
    (hperm : (t :: rest).Perm s.pending) (o : Outcome) : rest.Perm (s.take t o).pending := by
  have hfilter := hperm.filter (·.index ≠ t.index)
  have hnodup : ((t :: rest).map (·.index)).Nodup :=
    (hperm.map PendingTask.index).nodup_iff.mpr h.scheduled.nodup
  have hrest : rest.filter (·.index ≠ t.index) = rest := by
    apply List.filter_eq_self.mpr
    intro u hu
    have hne := (List.nodup_cons.mp hnodup).1
    exact decide_eq_true fun he => hne (List.mem_map.mpr ⟨u, hu, he⟩)
  rw [List.filter_cons_of_neg (by simp), hrest] at hfilter
  exact hfilter

/-- Joining every pending delivery, whatever the flags, reopens admission. -/
theorem SendInv.guard_after_joins {m : ℕ+} {s : SendState S} (h : SendInv m s)
    (hp : s.phase = .admitting) (joins : List (PendingTask S.Delivery × Bool))
    (hperm : (joins.map Prod.fst).Perm s.pending) :
    (joins.foldl (fun s j => s.joined j.1 (.returned j.2)) s).guard m = true := by
  induction joins generalizing s with
  | nil => exact h.guard_of_idle hp (List.nil_perm.mp hperm)
  | cons j joins ih =>
    have ht : j.1 ∈ s.pending := hperm.mem_iff.mp (by simp)
    exact ih (h.joined hp ht _) hp (h.take_perm hperm (.returned j.2))

/-- At the top of the admission loop the pending set, the active keys and the next order agree,
and a closed guard only waits for deliveries that are pending. -/
theorem sendOrders_admission_invariant (m : ℕ+) (w : S.World)
    (events : List (SendEvent S.Input)) :
    let s := (sendOrders S m w).run events
    s.phase = .admitting →
      s.activeKeys = (s.pending.map (·.key)).toFinset ∧
      (s.pending.map (·.key)).Nodup ∧
      s.activeKeys.card = s.pending.length ∧
      s.pending.length ≤ (m : ℕ) ∧
      (∀ t ∈ s.pending, t.key = (orderAt t.index).category ∧
        s.index - 5 ≤ t.index ∧ t.index < s.index) ∧
      s.next = orderAt s.index ∧
      (s.guard m = false → s.pending ≠ [] ∧
        ∀ joins : List (PendingTask S.Delivery × Bool),
          (joins.map Prod.fst).Perm s.pending →
          (joins.foldl (fun s j => s.joined j.1 (.returned j.2)) s).guard m = true) := by
  intro s hp
  have h : SendInv m s := sendOrders_inv m w events
  have hcard : s.activeKeys.card = s.pending.length := by
    rw [h.active hp, List.toFinset_card_of_nodup h.keys_nodup, List.length_map]
  refine ⟨h.active hp, h.keys_nodup, hcard, h.bounded,
    fun t ht => ⟨h.keys t ht, h.window ht⟩, h.next, fun hg => ⟨?_, ?_⟩⟩
  · intro hidle
    rw [h.guard_of_idle hp hidle] at hg
    exact absurd hg (by decide)
  · exact fun joins hperm => h.guard_after_joins hp joins hperm

theorem sendOrders_admission_invariant_one_pending :
    let s := (sendOrders flagSender 1 ()).run [tickOnly]
    s.activeKeys = {"books"} ∧ s.pending.length = 1 ∧ s.guard 1 = false ∧ s.pending ≠ [] := by
  obtain ⟨hkeys, _, _, _, _, _, hguard⟩ :=
    sendOrders_admission_invariant (S := flagSender) 1 () [tickOnly] rfl
  exact ⟨hkeys.trans (by decide), rfl, by decide, (hguard (by decide)).1⟩

/-- The generator has five categories, so a free key leaves room for a fifth delivery. -/
theorem SendInv.length_lt_five {m : ℕ+} {s : SendState S} (h : SendInv m s)
    (hfree : s.next.category ∉ s.activeKeys) : s.pending.length < 5 := by
  have hnodup : (s.next.category :: s.pending.map (·.key)).Nodup := by
    refine List.nodup_cons.mpr ⟨fun hm => ?_, h.keys_nodup⟩
    obtain ⟨t, ht, he⟩ := List.mem_map.mp hm
    exact hfree (he ▸ h.held t ht)
  have hsub : s.next.category :: s.pending.map (·.key) ⊆ categories := by
    intro k hk
    rcases List.mem_cons.mp hk with rfl | hk
    · rw [h.next]
      exact orderAt_category_mem _
    · obtain ⟨t, ht, rfl⟩ := List.mem_map.mp hk
      rw [h.keys t ht]
      exact orderAt_category_mem _
  have hle := (hnodup.subperm hsub).length_le
  simp only [List.length_cons, List.length_map, categories, List.length_nil] at hle
  omega

theorem SendInv.guard_eq {m m₁ m₂ : ℕ+} {s : SendState S} (h : SendInv m s)
    (h₁ : 5 ≤ (m₁ : ℕ)) (h₂ : 5 ≤ (m₂ : ℕ)) : s.guard m₁ = s.guard m₂ := by
  rw [Bool.eq_iff_iff, guard_iff, guard_iff]
  refine and_congr_left fun hfree => ?_
  have := h.length_lt_five hfree
  omega

theorem SendInv.step_eq {m m₁ m₂ : ℕ+} {s : SendState S} (h : SendInv m s)
    (h₁ : 5 ≤ (m₁ : ℕ)) (h₂ : 5 ≤ (m₂ : ℕ)) (e : SendEvent S.Input) :
    s.step m₁ e = s.step m₂ e := by
  cases e with
  | poll i input => rfl
  | panic i => rfl
  | wake ready => simp only [SendState.step, SendState.select, h.guard_eq h₁ h₂]

theorem step_tickOnly {m : ℕ+} {s : SendState S} (hp : s.phase = .admitting) :
    s.step m tickOnly = if s.guard m then s.dispatch else s := by
  simp [SendState.step, tickOnly, hp, SendState.select, SendState.finished]

/-- While nothing completes, the first ticks dispatch one order each, up to the limit. -/
theorem ticks_dispatch {m : ℕ+} (w : S.World) {k : ℕ} (hm : k ≤ (m : ℕ)) (h5 : k ≤ 5) :
    let s := (sendOrders S m w).run (List.replicate k tickOnly)
    s.phase = .admitting ∧ s.index = k ∧ s.indices = List.range k := by
  induction k with
  | zero => exact ⟨rfl, rfl, rfl⟩
  | succ k ih =>
    obtain ⟨hp, hi, hidx⟩ := ih (by omega) (by omega)
    have h := sendOrders_inv m w (List.replicate k tickOnly)
    rw [List.replicate_succ', Machine.run_append, Machine.runFrom_cons, Machine.runFrom_nil]
    set s := (sendOrders S m w).run (List.replicate k tickOnly) with hs
    have hlen : s.pending.length = k := by
      simpa [SendState.indices] using congrArg List.length hidx
    have hfree : s.next.category ∉ s.activeKeys := by
      rw [h.active hp, h.next, hi]
      intro hm
      obtain ⟨t, ht, he⟩ := List.mem_map.mp (List.mem_toFinset.mp hm)
      have hlt := (h.window ht).2
      rw [h.keys t ht] at he
      have := orderAt_category_eq_iff.mp he
      omega
    have hg : s.guard m = true := guard_iff.mpr ⟨by omega, hfree⟩
    have hstep : (sendOrders S m w).step s tickOnly = s.dispatch := by
      change s.step m tickOnly = s.dispatch
      rw [step_tickOnly hp, hg, if_pos rfl]
    rw [hstep]
    refine ⟨hp, by simp [SendState.dispatch, hi], ?_⟩
    simp only [SendState.dispatch, SendState.indices, List.map_append, List.map_cons, List.map_nil,
      List.range_succ, hi]
    exact congrArg (· ++ [k]) hidx

theorem tick_at_limit {m : ℕ+} (w : S.World) (h5 : (m : ℕ) ≤ 5) :
    ((sendOrders S m w).run (List.replicate ((m : ℕ) + 1) tickOnly)).index = m := by
  obtain ⟨hp, hi, hidx⟩ := ticks_dispatch (S := S) w (le_refl (m : ℕ)) h5
  rw [List.replicate_succ', Machine.run_append, Machine.runFrom_cons, Machine.runFrom_nil]
  set s := (sendOrders S m w).run (List.replicate m tickOnly) with hs
  have hlen : s.pending.length = m := by
    simpa [SendState.indices] using congrArg List.length hidx
  have hg : s.guard m = false := by
    simp [SendState.guard, hlen]
  change (s.step m tickOnly).index = m
  rw [step_tickOnly hp, hg]
  exact hi

/-- Limits of five and more run alike on every schedule, and every smaller limit is told from
the next one by some schedule. -/
theorem sendOrders_limit_above_categories (w : S.World) :
    (∀ m₁ m₂ : ℕ+, 5 ≤ (m₁ : ℕ) → 5 ≤ (m₂ : ℕ) → ∀ events,
      (sendOrders S m₁ w).run events = (sendOrders S m₂ w).run events) ∧
    (∀ m : ℕ+, 5 ≤ (m : ℕ) → ∀ events,
      let s := (sendOrders S m w).run events
      s.next.category ∉ s.activeKeys → s.pending.length < (m : ℕ)) ∧
    (∀ m : ℕ+, (m : ℕ) < 5 → ∃ events,
      (sendOrders S m w).run events ≠ (sendOrders S (m + 1) w).run events) := by
  refine ⟨?_, ?_, ?_⟩
  · intro m₁ m₂ h₁ h₂ events
    exact Machine.runFrom_congr (I := SendInv m₁)
      (fun s e h => h.move (step_move m₁ s e)) (fun s e h => h.step_eq h₁ h₂ e)
      (sendOrders_inv m₁ w []) events
  · intro m hm events s hfree
    exact lt_of_lt_of_le ((sendOrders_inv m w events).length_lt_five hfree) hm
  · intro m hm
    refine ⟨List.replicate ((m : ℕ) + 1) tickOnly, fun he => ?_⟩
    have hlow := tick_at_limit (m := m) w hm.le
    have hle : (m : ℕ) + 1 ≤ ((m + 1 : ℕ+) : ℕ) := by simp
    have hhigh := (ticks_dispatch (S := S) w hle (by omega)).2.1
    rw [he, hhigh] at hlow
    omega

end OrdersDemo
