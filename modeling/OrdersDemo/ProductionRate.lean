import OrdersDemo.Library.Ticker
import OrdersDemo.Metrics
import Mathlib.Data.Rat.Floor
import Mathlib.Tactic.Linarith

namespace OrdersDemo

/-- How a time becomes a whole number of nanoseconds. -/
inductive Rounding where
  | truncate
  | nearestTiesAway
  | nearestTiesEven
  deriving DecidableEq

namespace Rounding

def round (rounding : Rounding) (x : ℚ) : ℕ :=
  match rounding with
  | truncate => ⌊x⌋₊
  | nearestTiesAway => ⌊x + 1 / 2⌋₊
  | nearestTiesEven =>
    let k := ⌊x⌋₊
    if x - k < 1 / 2 then k
    else if 1 / 2 < x - k then k + 1
    else k + k % 2

/-- The values that are not rounded to zero. -/
def Reaches (rounding : Rounding) (x : ℚ) : Prop :=
  match rounding with
  | truncate => 1 ≤ x
  | nearestTiesAway => 1 / 2 ≤ x
  | nearestTiesEven => 1 / 2 < x

theorem round_ties_even_pos {x : ℚ} : 0 < nearestTiesEven.round x ↔ 1 / 2 < x := by
  simp only [round]
  by_cases hx : 1 ≤ x
  · have hfloor : 1 ≤ ⌊x⌋₊ := Nat.le_floor (by exact_mod_cast hx)
    have hhalf : 1 / 2 < x := by linarith
    apply iff_of_true _ hhalf
    split
    next => exact hfloor
    next =>
      split
      next => omega
      next => omega
  · have hfloor : ⌊x⌋₊ = 0 := Nat.floor_eq_zero.mpr (not_le.mp hx)
    rw [hfloor, Nat.cast_zero, sub_zero]
    split
    next hlow => exact iff_of_false (Nat.lt_irrefl 0) (not_lt.mpr hlow.le)
    next =>
      split
      next hhigh => exact iff_of_true Nat.one_pos hhigh
      next hhigh => exact iff_of_false (Nat.lt_irrefl 0) hhigh

theorem round_pos {rounding : Rounding} {x : ℚ} : 0 < rounding.round x ↔ rounding.Reaches x := by
  cases rounding with
  | truncate => exact Nat.floor_pos
  | nearestTiesAway =>
    have hfloor : 0 < ⌊x + 1 / 2⌋₊ ↔ 1 ≤ x + 1 / 2 := Nat.floor_pos
    have hhalf : 1 ≤ x + 1 / 2 ↔ 1 / 2 ≤ x := by
      constructor <;> intro h <;> linarith
    exact hfloor.trans hhalf
  | nearestTiesEven => exact round_ties_even_pos

end Rounding

def durationMax : Duration := (2 ^ 64 - 1) * 10 ^ 9 + 999999999

/-- What `run_produce` relies on in the `to_std` of the units library: a number of seconds becomes
whole nanoseconds, and one above `Duration::MAX` a fixed duration. -/
structure ToStd (rounding : Rounding) (overflow : Duration) (toStd : ℚ → Duration) : Prop where
  rounds : ∀ seconds : ℚ, 10 ^ 9 * seconds ≤ durationMax →
    toStd seconds = rounding.round (10 ^ 9 * seconds)
  overflows : ∀ seconds : ℚ, durationMax < 10 ^ 9 * seconds → toStd seconds = overflow

/-- `parse_nonnegative_frequency`, from the frequency that was read, in hertz. -/
def parseNonnegativeFrequency (value : ℚ) : Except String ℚ :=
  if value < 0 then .error "frequency must not be negative" else .ok value

/-- What `run_produce` does once it has connected. -/
inductive Production where
  | paused
  | sendOrders (period : Duration)
  deriving DecidableEq

def runProduce (toStd : ℚ → Duration) (ordersPerSec : ℚ) : Production :=
  if ordersPerSec = 0 then .paused
  else .sendOrders (toStd (1 / ordersPerSec))

/-- The `requested_orders_per_sec` of `SendReport::log`. -/
def requestedOrdersPerSec (period : Duration) : F64 :=
  if period = 0 then .inf false else .fin (1 / (period / 10 ^ 9))

/-- The producer pauses, or the timer of `send_orders` can be made and its rate reported. -/
def Schedulable (ordersPerSec : ℚ) : Production → Prop
  | .paused => ordersPerSec = 0
  | .sendOrders period =>
    0 < period ∧ (∀ now, (Ticker.interval period now).isSome) ∧
      ∃ rate, requestedOrdersPerSec period = .fin rate

theorem schedulable_sendOrders {ordersPerSec : ℚ} {period : Duration} :
    Schedulable ordersPerSec (.sendOrders period) ↔ 0 < period := by
  constructor
  · exact fun h => h.1
  · intro h
    refine ⟨h, fun now => Ticker.isSome_interval.mpr h, 1 / (period / 10 ^ 9), ?_⟩
    exact if_neg h.ne'

/-- The largest rates whose period is not rounded to zero: one order per nanosecond, or twice that
where half a nanosecond is rounded up. -/
def Rounding.Allows (rounding : Rounding) (ordersPerSec : ℚ) : Prop :=
  match rounding with
  | truncate => ordersPerSec ≤ 10 ^ 9
  | nearestTiesAway => ordersPerSec ≤ 2 * 10 ^ 9
  | nearestTiesEven => ordersPerSec < 2 * 10 ^ 9

theorem reaches_period {rounding : Rounding} {ordersPerSec : ℚ} (h : 0 < ordersPerSec) :
    rounding.Reaches (10 ^ 9 * (1 / ordersPerSec)) ↔ rounding.Allows ordersPerSec := by
  rw [mul_one_div]
  cases rounding with
  | truncate =>
    change 1 ≤ 10 ^ 9 / ordersPerSec ↔ ordersPerSec ≤ 10 ^ 9
    rw [le_div_iff₀ h, one_mul]
  | nearestTiesAway =>
    change 1 / 2 ≤ 10 ^ 9 / ordersPerSec ↔ ordersPerSec ≤ 2 * 10 ^ 9
    rw [le_div_iff₀ h]
    constructor <;> intro hle <;> linarith
  | nearestTiesEven =>
    change 1 / 2 < 10 ^ 9 / ordersPerSec ↔ ordersPerSec < 2 * 10 ^ 9
    rw [lt_div_iff₀ h]
    constructor <;> intro hlt <;> linarith

theorem Rounding.Reaches.of_le {rounding : Rounding} {x : ℚ} (h : 1 ≤ x) : rounding.Reaches x := by
  cases rounding with
  | truncate => exact h
  | nearestTiesAway =>
    change 1 / 2 ≤ x
    linarith
  | nearestTiesEven =>
    change 1 / 2 < x
    linarith

theorem ToStd.pos_iff {rounding : Rounding} {overflow : Duration} {toStd : ℚ → Duration}
    (ht : ToStd rounding overflow toStd) (seconds : ℚ) :
    0 < toStd seconds ↔ rounding.Reaches (10 ^ 9 * seconds) ∧
      (10 ^ 9 * seconds ≤ durationMax ∨ 0 < overflow) := by
  by_cases hmax : 10 ^ 9 * seconds ≤ durationMax
  · rw [ht.rounds seconds hmax, Rounding.round_pos]
    exact (and_iff_left (Or.inl hmax)).symm
  · have hlt : (durationMax : ℚ) < 10 ^ 9 * seconds := not_le.mp hmax
    have hone : (1 : ℚ) ≤ durationMax := by exact_mod_cast (by decide : 1 ≤ durationMax)
    have hreaches : rounding.Reaches (10 ^ 9 * seconds) := .of_le (hone.trans hlt.le)
    rw [ht.overflows seconds hlt]
    simp [hreaches, hmax]

theorem parseNonnegativeFrequency_eq_ok {value ordersPerSec : ℚ} :
    parseNonnegativeFrequency value = .ok ordersPerSec ↔
      value = ordersPerSec ∧ 0 ≤ ordersPerSec := by
  unfold parseNonnegativeFrequency
  constructor
  · intro h
    split at h
    next => cases h
    next hvalue =>
      obtain rfl : value = ordersPerSec := Except.ok.inj h
      exact ⟨rfl, not_lt.mp hvalue⟩
  · rintro ⟨rfl, hvalue⟩
    exact if_neg (not_lt.mpr hvalue)

/-- An accepted rate can be scheduled exactly when it is zero, or its period is not rounded to zero
and, where the library makes zero of a period above `Duration::MAX`, is not above it. -/
theorem runProduce_schedulable {rounding : Rounding} {overflow : Duration} {toStd : ℚ → Duration}
    (ht : ToStd rounding overflow toStd) (value ordersPerSec : ℚ)
    (h : parseNonnegativeFrequency value = .ok ordersPerSec) :
    Schedulable ordersPerSec (runProduce toStd ordersPerSec) ↔
      ordersPerSec = 0 ∨ rounding.Allows ordersPerSec ∧
        (10 ^ 9 * (1 / ordersPerSec) ≤ durationMax ∨ 0 < overflow) := by
  obtain ⟨rfl, hnonneg⟩ := parseNonnegativeFrequency_eq_ok.mp h
  by_cases hzero : value = 0
  · rw [runProduce, if_pos hzero]
    exact iff_of_true hzero (Or.inl hzero)
  · have hpos : 0 < value := lt_of_le_of_ne hnonneg (Ne.symm hzero)
    rw [runProduce, if_neg hzero, schedulable_sendOrders, ht.pos_iff, reaches_period hpos]
    exact (or_iff_right hzero).symm

/-- A `to_std` with a given rounding and a given answer above `Duration::MAX`. -/
def toStdOf (rounding : Rounding) (overflow : Duration) (seconds : ℚ) : Duration :=
  if 10 ^ 9 * seconds ≤ durationMax then rounding.round (10 ^ 9 * seconds) else overflow

theorem toStdOf_toStd (rounding : Rounding) (overflow : Duration) :
    ToStd rounding overflow (toStdOf rounding overflow) where
  rounds _ h := if_pos h
  overflows _ h := if_neg (not_le.mpr h)

/-- Fifty orders a second can be scheduled, and one in 10 ^ 20 seconds if `to_std` saturates. -/
theorem runProduce_schedulable_fifty :
    Schedulable 50 (runProduce (toStdOf .truncate 0) 50) ∧
      Schedulable (1 / 10 ^ 20) (runProduce (toStdOf .truncate durationMax) (1 / 10 ^ 20)) := by
  refine ⟨(runProduce_schedulable (toStdOf_toStd .truncate 0) 50 50 rfl).mpr (Or.inr ⟨?_, ?_⟩),
    (runProduce_schedulable (toStdOf_toStd .truncate durationMax) (1 / 10 ^ 20) (1 / 10 ^ 20)
      ?_).mpr (Or.inr ⟨?_, Or.inr (by decide)⟩)⟩
  · change (50 : ℚ) ≤ 10 ^ 9
    norm_num
  · exact Or.inl (by norm_num [durationMax])
  · exact parseNonnegativeFrequency_eq_ok.mpr ⟨rfl, by norm_num⟩
  · change (1 / 10 ^ 20 : ℚ) ≤ 10 ^ 9
    norm_num

/-- Five orders per nanosecond are accepted, and no rounding leaves them a period. -/
theorem runProduce_five_gigahertz :
    parseNonnegativeFrequency (5 * 10 ^ 9) = .ok (5 * 10 ^ 9) ∧
      ∀ rounding overflow, (∃ toStd, ToStd rounding overflow toStd) ∧
        ∀ toStd, ToStd rounding overflow toStd →
          runProduce toStd (5 * 10 ^ 9) = .sendOrders 0 ∧
            ¬ Schedulable (5 * 10 ^ 9) (runProduce toStd (5 * 10 ^ 9)) := by
  refine ⟨by decide +kernel, fun rounding overflow =>
    ⟨⟨_, toStdOf_toStd rounding overflow⟩, fun toStd ht => ?_⟩⟩
  have hperiod : runProduce toStd (5 * 10 ^ 9) = .sendOrders 0 := by
    rw [runProduce, if_neg (by norm_num), ht.rounds _ (by norm_num [durationMax])]
    cases rounding <;> decide +kernel
  rw [hperiod, schedulable_sendOrders]
  exact ⟨rfl, Nat.lt_irrefl 0⟩

end OrdersDemo
