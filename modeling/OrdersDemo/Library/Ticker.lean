import Mathlib.Data.Finset.Card
import Mathlib.Data.PNat.Basic
import Mathlib.Order.Interval.Finset.Nat

/-- A periodic timer that skips the ticks it has missed. Its first deadline is its start, and an
instant up to `tolerance` after a deadline still counts as on time. -/
structure Ticker where
  period : ℕ
  start : ℕ
  deadline : ℕ
  period_pos : 0 < period

namespace Ticker

def ofPeriod (period : ℕ+) (now : ℕ) : Ticker :=
  ⟨period, now, now, period.pos⟩

/-- A timer made now; a period of zero is refused. -/
def interval (period now : ℕ) : Option Ticker :=
  if h : 0 < period then some (ofPeriod ⟨period, h⟩ now) else none

def ready (t : Ticker) (now : ℕ) : Bool :=
  t.deadline ≤ now

/-- The number of whole periods between the start and `now`. -/
def slot (t : Ticker) (now : ℕ) : ℕ :=
  (now - t.start) / t.period

/-- The first instant of the next slot, strictly after `now`. -/
def nextSlot (t : Ticker) (now : ℕ) : ℕ :=
  t.start + (t.slot now + 1) * t.period

def fire (tolerance : ℕ) (t : Ticker) (now : ℕ) : Ticker :=
  { t with
    deadline := if now ≤ t.deadline + tolerance then t.deadline + t.period else t.nextSlot now }

@[simp] theorem fire_start (tolerance : ℕ) (t : Ticker) (now : ℕ) :
    (t.fire tolerance now).start = t.start := rfl

@[simp] theorem fire_period (tolerance : ℕ) (t : Ticker) (now : ℕ) :
    (t.fire tolerance now).period = t.period := rfl

theorem fire_deadline_of_le {tolerance now : ℕ} {t : Ticker} (h : now ≤ t.deadline + tolerance) :
    (t.fire tolerance now).deadline = t.deadline + t.period :=
  if_pos h

theorem fire_deadline_of_lt {tolerance now : ℕ} {t : Ticker} (h : t.deadline + tolerance < now) :
    (t.fire tolerance now).deadline = t.nextSlot now :=
  if_neg (Nat.not_le_of_lt h)

theorem isSome_interval {period now : ℕ} : (interval period now).isSome ↔ 0 < period := by
  unfold interval
  split
  next h => exact iff_of_true rfl h
  next h => exact iff_of_false Bool.false_ne_true h

theorem lt_nextSlot (t : Ticker) (now : ℕ) : now < t.nextSlot now := by
  have h := Nat.lt_mul_of_div_lt (Nat.lt_add_one (t.slot now)) t.period_pos
  unfold nextSlot
  omega

theorem slot_mono (t : Ticker) {a b : ℕ} (h : a ≤ b) : t.slot a ≤ t.slot b :=
  Nat.div_le_div_right (Nat.sub_le_sub_right h t.start)

/-- An interval of length `len` touches at most `len / period + 2` slots. -/
theorem slot_add_le (t : Ticker) (a len : ℕ) :
    t.slot (a + len) ≤ t.slot a + len / t.period + 1 := by
  have hsub : a + len - t.start ≤ (a - t.start) + len := by omega
  have hlen := Nat.div_add_mod len t.period
  have ha := Nat.div_add_mod (a - t.start) t.period
  have hlen' := Nat.mod_lt len t.period_pos
  have ha' := Nat.mod_lt (a - t.start) t.period_pos
  unfold slot
  apply Nat.le_of_lt_succ
  rw [Nat.div_lt_iff_lt_mul t.period_pos]
  calc a + len - t.start
      ≤ (a - t.start) + len := hsub
    _ < t.period * ((a - t.start) / t.period) + t.period +
          (t.period * (len / t.period) + t.period) := by omega
    _ = ((a - t.start) / t.period + len / t.period + 1).succ * t.period := by
        rw [Nat.succ_mul, Nat.succ_mul, Nat.add_mul, Nat.mul_comm t.period, Nat.mul_comm t.period]
        omega

/-- The deadline is the first instant of some slot. -/
def Aligned (t : Ticker) : Prop :=
  ∃ k, t.deadline = t.start + k * t.period

theorem aligned_ofPeriod (period : ℕ+) (now : ℕ) : (ofPeriod period now).Aligned :=
  ⟨0, by simp [ofPeriod]⟩

theorem Aligned.fire {t : Ticker} (h : t.Aligned) (tolerance now : ℕ) :
    (t.fire tolerance now).Aligned := by
  obtain ⟨k, hk⟩ := h
  rcases Nat.lt_or_ge (t.deadline + tolerance) now with hlate | htime
  · exact ⟨t.slot now + 1, fire_deadline_of_lt hlate⟩
  · refine ⟨k + 1, ?_⟩
    rw [fire_deadline_of_le htime, hk, fire_start, fire_period, Nat.succ_mul]
    omega

/-- With a period above the tolerance, the next deadline is in a later slot than `now`. -/
theorem fire_deadline {t : Ticker} (h : t.Aligned) {tolerance now : ℕ}
    (hperiod : tolerance < t.period) (hready : t.ready now = true) :
    (t.fire tolerance now).deadline = t.nextSlot now := by
  obtain ⟨k, hk⟩ := h
  have hdue : t.deadline ≤ now := of_decide_eq_true hready
  rcases Nat.lt_or_ge (t.deadline + tolerance) now with hlate | htime
  · exact fire_deadline_of_lt hlate
  · have hslot : t.slot now = k := by
      unfold slot
      apply Nat.div_eq_of_lt_le
      · omega
      · rw [Nat.succ_mul]
        omega
    rw [fire_deadline_of_le htime, nextSlot, hslot, hk, Nat.succ_mul]
    omega

theorem slot_lt_of_nextSlot_le {t : Ticker} {a b : ℕ} (h : t.nextSlot a ≤ b) :
    t.slot a < t.slot b := by
  unfold nextSlot at h
  have hmul : (t.slot a + 1) * t.period ≤ b - t.start := by omega
  exact (Nat.le_div_iff_mul_le t.period_pos).mpr hmul

theorem slot_eq {t : Ticker} {k now : ℕ}
    (h : t.start + k * t.period ≤ now ∧ now < t.start + (k + 1) * t.period) : t.slot now = k := by
  unfold slot
  apply Nat.div_eq_of_lt_le
  · omega
  · omega

/-- Instants of different slots: a slot holds at most one. -/
theorem slot_le_one (t : Ticker) {times : List ℕ} (h : (times.map t.slot).Nodup) (k : ℕ) :
    times.countP (fun time => t.start + k * t.period ≤ time ∧
      time < t.start + (k + 1) * t.period) ≤ 1 := by
  have hslots : times.countP (t.slot · = k) = (times.map t.slot).count k := by
    rw [List.count, List.countP_map]
    rfl
  calc times.countP (fun time => t.start + k * t.period ≤ time ∧
        time < t.start + (k + 1) * t.period)
      ≤ times.countP (t.slot · = k) := by
        apply List.countP_mono_left
        intro time _ htime
        exact decide_eq_true (slot_eq (of_decide_eq_true htime))
    _ = (times.map t.slot).count k := hslots
    _ ≤ 1 := List.nodup_iff_count_le_one.mp h k

/-- Instants of different slots are spread out: a window of length `len` holds few of them. -/
theorem window_le (t : Ticker) {times : List ℕ} (h : (times.map t.slot).Nodup) (a len : ℕ) :
    times.countP (fun time => a ≤ time ∧ time ≤ a + len) ≤ len / t.period + 2 := by
  have hnodup : ((times.filter fun time => a ≤ time ∧ time ≤ a + len).map t.slot).Nodup :=
    h.sublist (List.filter_sublist.map t.slot)
  have hsubset : ((times.filter fun time => a ≤ time ∧ time ≤ a + len).map t.slot).toFinset ⊆
      Finset.Icc (t.slot a) (t.slot (a + len)) := by
    intro k hk
    obtain ⟨time, htime, rfl⟩ := List.mem_map.mp (List.mem_toFinset.mp hk)
    have hwindow : a ≤ time ∧ time ≤ a + len := by simpa using (List.mem_filter.mp htime).2
    exact Finset.mem_Icc.mpr ⟨t.slot_mono hwindow.1, t.slot_mono hwindow.2⟩
  have hcard := Finset.card_le_card hsubset
  have hspan := t.slot_add_le a len
  rw [List.toFinset_card_of_nodup hnodup, List.length_map, ← List.countP_eq_length_filter,
    Nat.card_Icc] at hcard
  generalize len / t.period = periods at hspan ⊢
  omega

/-- The timer has fired `n` times by `now`, each time in a period of its own. -/
structure Fired (n : ℕ) (t : Ticker) (now : ℕ) : Prop where
  later : t.start + n * t.period ≤ t.deadline
  passed : n * t.period ≤ now - t.start + t.period

theorem fired_ofPeriod (period : ℕ+) (start now : ℕ) : (ofPeriod period start).Fired 0 now :=
  ⟨by simp [ofPeriod], by simp⟩

theorem Fired.elapse {n now later : ℕ} {t : Ticker} (h : t.Fired n now) (hle : now ≤ later) :
    t.Fired n later :=
  ⟨h.later, h.passed.trans (by omega)⟩

theorem Fired.fire {n now : ℕ} {t : Ticker} (h : t.Fired n now) (hready : t.ready now = true)
    (tolerance : ℕ) : (t.fire tolerance now).Fired (n + 1) now := by
  have hdue : t.deadline ≤ now := of_decide_eq_true hready
  have hlater := h.later
  refine ⟨?_, ?_⟩
  · show t.start + (n + 1) * t.period ≤ (t.fire tolerance now).deadline
    rcases Nat.lt_or_ge (t.deadline + tolerance) now with hlate | htime
    · have hslot : n ≤ t.slot now := (Nat.le_div_iff_mul_le t.period_pos).mpr (by omega)
      have hmul := Nat.mul_le_mul_right t.period (Nat.add_le_add_right hslot 1)
      rw [fire_deadline_of_lt hlate, nextSlot]
      omega
    · rw [fire_deadline_of_le htime, Nat.succ_mul]
      omega
  · show (n + 1) * t.period ≤ now - t.start + t.period
    rw [Nat.succ_mul]
    omega

theorem Fired.le {n now : ℕ} {t : Ticker} (h : t.Fired n now) :
    n ≤ (now - t.start) / t.period + 1 := by
  have hpassed := h.passed
  rw [← Nat.add_div_right _ t.period_pos]
  exact (Nat.le_div_iff_mul_le t.period_pos).mpr hpassed

end Ticker
