import OrdersDemo.Pipeline
import Mathlib.Data.Nat.Periodic
import Mathlib.Data.Rat.Floor
import Mathlib.Tactic.Linarith

namespace OrdersDemo

/-- The comparison `<=`, false as soon as a NaN is involved. -/
def F64.le : F64 → F64 → Bool
  | .nan, _ => false
  | _, .nan => false
  | x, y => !y.lt x

/-- `parse_fraction`, from the number that was read. -/
def parseFraction (value : F64) : Except String F64 :=
  if (F64.fin 0).le value && value.le (.fin 1) then .ok value
  else .error "fraction must be between 0 and 1 inclusive"

structure Fraction where
  value : ℚ
  nonneg : 0 ≤ value
  le_one : value ≤ 1

def Fraction.f64 (f : Fraction) : F64 := .fin f.value

theorem parseFraction_eq_ok {value accepted : F64} :
    parseFraction value = .ok accepted ↔ value = accepted ∧ ∃ f : Fraction, accepted = f.f64 := by
  unfold parseFraction
  constructor
  · intro h
    split at h
    next hrange =>
      obtain rfl : value = accepted := Except.ok.inj h
      refine ⟨rfl, ?_⟩
      cases value with
      | nan => simp [F64.le] at hrange
      | inf negative => cases negative <;> simp [F64.le, F64.lt] at hrange
      | fin q =>
        have hq : 0 ≤ q ∧ q ≤ 1 := by simpa [F64.le, F64.lt] using hrange
        exact ⟨⟨q, hq.1, hq.2⟩, rfl⟩
    next => cases h
  · rintro ⟨rfl, f, rfl⟩
    apply if_pos
    have hlo := f.nonneg
    have hhi := f.le_one
    simp [Fraction.f64, F64.le, F64.lt, hlo, hhi]

def StageWork.configured (work : StageWork) : String → Duration
  | "validate" => work.validate
  | "enrich" => work.enrich
  | "fraud_check" => work.fraudCheck
  | "fulfill" => work.fulfill
  | _ => 0

def slowLatency : Duration := 30 * 10 ^ 6

/-- The consumer adds the slow-order latency to this stage of this order. -/
def Slowed (f : Fraction) (stage : String) (work : StageWork) (orderIndex : ℕ) : Prop :=
  stageDelay stage work orderIndex f.f64 = work.configured stage + slowLatency

instance (f : Fraction) (stage : String) (work : StageWork) :
    DecidablePred (Slowed f stage work) :=
  fun _ => inferInstanceAs (Decidable (_ = _))

/-- The number of slowed slots out of the 10,000. -/
def Fraction.slowSlots (f : Fraction) : ℕ := ⌈10000 * f.value⌉₊

theorem Fraction.slowSlots_le (f : Fraction) : f.slowSlots ≤ 10000 := by
  have h := f.le_one
  apply Nat.ceil_le.mpr
  push_cast
  linarith

theorem Fraction.clamp_f64 (f : Fraction) : f.f64.clamp (.fin 0) (.fin 1) = f.f64 := by
  have hlo : ¬ f.value < 0 := not_lt.mpr f.nonneg
  have hhi : ¬ 1 < f.value := not_lt.mpr f.le_one
  simp [Fraction.f64, F64.clamp, F64.lt, hlo, hhi]

/-- A positive slot can only be below a positive fraction, so the first test of the source only
matters for a fraction that is not accepted. -/
theorem injectLatency_iff (f : Fraction) (slot : ℕ) :
    ((F64.fin 0).lt f.f64 && (F64.fin (slot / 10000)).lt (f.f64.clamp (.fin 0) (.fin 1))) = true ↔
      slot < f.slowSlots := by
  have hslot : (0 : ℚ) ≤ slot := Nat.cast_nonneg slot
  have hscale : (slot : ℚ) / 10000 < f.value ↔ (slot : ℚ) < 10000 * f.value := by
    rw [div_lt_iff₀ (by norm_num), mul_comm]
  rw [Fraction.clamp_f64, Bool.and_eq_true, Fraction.slowSlots, Nat.lt_ceil, ← hscale]
  simp only [Fraction.f64, F64.lt, decide_eq_true_eq]
  constructor
  · exact fun h => h.2
  · intro h
    exact ⟨lt_of_le_of_lt (by positivity) h, h⟩

theorem stageDelay_eq (f : Fraction) (stage : String) (work : StageWork) (i : ℕ) :
    stageDelay stage work i f.f64 =
      work.configured stage + if i % 10000 < f.slowSlots then slowLatency else 0 := by
  have hslot : (tryFrom u32Max (i % 10000)).getD 0 = i % 10000 :=
    tryFrom_mod (by decide) (by decide)
  have hinject := injectLatency_iff f (i % 10000)
  unfold stageDelay
  simp only [hslot, hinject]
  change (if i % 10000 < f.slowSlots then work.configured stage + slowLatency
    else work.configured stage) = _
  split
  next => rfl
  next => rw [Nat.add_zero]

theorem slowed_iff {f : Fraction} {stage : String} {work : StageWork} {i : ℕ} :
    Slowed f stage work i ↔ i % 10000 < f.slowSlots := by
  rw [Slowed, stageDelay_eq, Nat.add_left_cancel_iff]
  split
  next h => exact iff_of_true rfl h
  next h => exact iff_of_false (by decide) h

theorem count_mod_lt {n m : ℕ} (h : m ≤ n) : n.count (· % n < m) = m := by
  have hfilter : (Finset.range n).filter (· % n < m) = Finset.range m := by
    ext i
    rw [Finset.mem_filter, Finset.mem_range, Finset.mem_range]
    constructor
    · intro hi
      rw [Nat.mod_eq_of_lt hi.1] at hi
      exact hi.2
    · intro hi
      have hin : i < n := by omega
      rw [Nat.mod_eq_of_lt hin]
      exact ⟨hin, hi⟩
  rw [Nat.count_eq_card_filter_range, hfilter, Finset.card_range]

/-- Each window of `n` consecutive numbers meets the `m` smallest residues `m` times. -/
theorem card_window_mod_lt {n m : ℕ} (h : m ≤ n) (start : ℕ) :
    ((Finset.Ico start (start + n)).filter (· % n < m)).card = m := by
  have hperiodic : Function.Periodic (· % n < m) n := by
    intro i
    simp
  rw [Nat.filter_Ico_card_eq_of_periodic start n _ hperiodic, count_mod_lt h]

theorem Fraction.slowSlots_mono {f g : Fraction} (h : f.value ≤ g.value) :
    f.slowSlots ≤ g.slowSlots := by
  apply Nat.ceil_mono
  linarith

/-- The slow-order tail is exactly the configured fraction of each window of 10,000 orders. -/
theorem slow_order_tail :
    (∀ value accepted : F64, parseFraction value = .ok accepted ↔
      value = accepted ∧ ∃ f : Fraction, accepted = f.f64) ∧
      (∀ (f : Fraction) (stage : String) (work : StageWork) (start : ℕ),
      ((Finset.Ico start (start + 10000)).filter (Slowed f stage work)).card =
        ⌈10000 * f.value⌉₊) ∧
      (∀ (f : Fraction) (stage stage' : String) (work work' : StageWork) (i : ℕ),
        Slowed f stage work i ↔ Slowed f stage' work' i) ∧
      (∀ (f g : Fraction) (stage : String) (work : StageWork) (i : ℕ), f.value ≤ g.value →
        Slowed f stage work i → Slowed g stage work i) ∧
      (∀ (f : Fraction) (stage : String) (work : StageWork) (i : ℕ), f.value = 0 →
        ¬ Slowed f stage work i) ∧
      (∀ (f : Fraction) (stage : String) (work : StageWork) (i : ℕ), f.value = 1 →
        Slowed f stage work i) ∧
      ∀ (f : Fraction) (stage : String) (work : StageWork) (i : ℕ), ¬ Slowed f stage work i →
        stageDelay stage work i f.f64 = work.configured stage := by
  refine ⟨fun _ _ => parseFraction_eq_ok, ?_, ?_, ?_, ?_, ?_, ?_⟩
  · intro f stage work start
    have hslots : (Finset.Ico start (start + 10000)).filter (Slowed f stage work) =
        (Finset.Ico start (start + 10000)).filter (· % 10000 < f.slowSlots) :=
      Finset.filter_congr fun i _ => slowed_iff
    rw [hslots]
    exact card_window_mod_lt f.slowSlots_le start
  · intro f stage stage' work work' i
    rw [slowed_iff, slowed_iff]
  · intro f g stage work i hfg h
    have hslots := Fraction.slowSlots_mono hfg
    have hslot := slowed_iff.mp h
    exact slowed_iff.mpr (by omega)
  · intro f stage work i hf h
    have hnone : f.slowSlots = 0 := by simp [Fraction.slowSlots, hf]
    have hslot := slowed_iff.mp h
    omega
  · intro f stage work i hf
    have hall : f.slowSlots = 10000 := by simp [Fraction.slowSlots, hf]
    have hslot : i % 10000 < 10000 := Nat.mod_lt i (by decide)
    exact slowed_iff.mpr (by omega)
  · intro f stage work i h
    have hslot := mt slowed_iff.mpr h
    rw [stageDelay_eq, if_neg hslot, Nat.add_zero]

theorem slow_order_tail_two_and_five_percent :
    Slowed ⟨1 / 20, by norm_num, by norm_num⟩ "enrich" ⟨1, 2, 3, 4⟩ 30150 := by
  have hslow : Slowed ⟨1 / 50, by norm_num, by norm_num⟩ "enrich" ⟨1, 2, 3, 4⟩ 30150 := by
    decide +kernel
  exact slow_order_tail.2.2.2.1 _ _ _ _ _ (by norm_num) hslow

end OrdersDemo
