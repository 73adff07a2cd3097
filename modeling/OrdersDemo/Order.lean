import Mathlib.Algebra.Order.Ring.Rat
import Mathlib.Data.List.GetD
import Mathlib.Data.List.Nodup

namespace OrdersDemo

/-- An `f64` without its rounding: a NaN, an infinity, or a finite value taken exactly. -/
inductive F64 where
  | nan
  | inf (negative : Bool)
  | fin (q : ℚ)
  deriving DecidableEq

def F64.abs : F64 → F64
  | .nan => .nan
  | .inf _ => .inf false
  | .fin q => .fin |q|

/-- The comparison `<`, false as soon as a NaN is involved. -/
def F64.lt : F64 → F64 → Bool
  | .fin p, .fin q => p < q
  | .fin _, .inf negative => !negative
  | .inf negative, .fin _ => negative
  | .inf a, .inf b => a && !b
  | _, _ => false

def F64.clamp (x lo hi : F64) : F64 :=
  let x := if x.lt lo then lo else x
  if hi.lt x then hi else x

def F64.epsilon : F64 := .fin (1 / 2 ^ 52)

structure Order where
  orderId : String
  category : String
  amount : F64
  currency : String
  tsMs : ℤ
  region : String
  paymentMethod : String
  quantity : ℤ
  customerTier : String
  warehouse : String
  deriving DecidableEq

def categories : List String := ["books", "electronics", "grocery", "toys", "garden"]

def regions : List String := ["us-east", "us-west", "eu-west", "ap-south"]

def warehouses : List String := ["wh-atl", "wh-sjc", "wh-fra", "wh-blr"]

def paymentMethods : List String := ["card", "paypal", "wire", "crypto"]

def customerTiers : List String := ["free", "pro", "enterprise"]

def usizeMax : ℕ := 2 ^ 64 - 1

def u32Max : ℕ := 2 ^ 32 - 1

def i32Max : ℕ := 2 ^ 31 - 1

def i64Max : ℕ := 2 ^ 63 - 1

/-- `T::try_from` on an unsigned value, for an integer type whose largest value is `max`. -/
def tryFrom (max x : ℕ) : Option ℕ :=
  if x ≤ max then some x else none

/-- The `format!` specification `{s:0>width}`. -/
def zeroPad (width : ℕ) (s : String) : String :=
  String.ofList (List.replicate (width - s.length) '0') ++ s

/-- `order_at`. The `u64` index is a natural number here: its counter reaches `2^64` only after
more orders than any run can send. -/
def orderAt (i : ℕ) : Order :=
  let idx (len div : ℕ) : ℕ := (tryFrom usizeMax (i / div % len)).getD 0
  let regionI := idx regions.length 2
  { orderId := "o-" ++ zeroPad 10 (toString i)
    category := categories.getD (idx categories.length 1) ""
    amount :=
      if i % 17 = 0 then .fin 0
      else .fin (((tryFrom u32Max (i % 200)).getD 0 : ℕ) + 99 / 100)
    currency := "USD"
    tsMs := 0
    region := regions.getD regionI ""
    paymentMethod := paymentMethods.getD (idx paymentMethods.length 3) ""
    quantity := ((tryFrom i32Max (1 + i % 5)).getD 1 : ℕ)
    customerTier := customerTiers.getD (idx customerTiers.length 7) ""
    warehouse := warehouses.getD regionI "" }

def isAnomalous (order : Order) : Bool :=
  order.amount.abs.lt F64.epsilon

def isSuspicious (order : Order) : Bool :=
  order.paymentMethod == "crypto" && (F64.fin 150).lt order.amount

def classifyOutcome (order : Order) : String :=
  if isAnomalous order then "anomalous"
  else if isSuspicious order then "fraud_rejected"
  else "fulfilled"

theorem tryFrom_of_le {max x : ℕ} (h : x ≤ max) : tryFrom max x = some x :=
  if_pos h

theorem tryFrom_mod {max x len : ℕ} (hlen : 0 < len) (h : len ≤ max) :
    (tryFrom max (x % len)).getD 0 = x % len := by
  have hx := Nat.mod_lt x hlen
  rw [tryFrom_of_le (by omega), Option.getD_some]

/-- No conversion of the generator falls back on its default. -/
theorem orderAt_eq (i : ℕ) : orderAt i = {
    orderId := "o-" ++ zeroPad 10 (toString i)
    category := categories.getD (i % 5) ""
    amount := if i % 17 = 0 then .fin 0 else .fin ((i % 200 : ℕ) + 99 / 100)
    currency := "USD"
    tsMs := 0
    region := regions.getD (i / 2 % 4) ""
    paymentMethod := paymentMethods.getD (i / 3 % 4) ""
    quantity := (1 + i % 5 : ℕ)
    customerTier := customerTiers.getD (i / 7 % 3) ""
    warehouse := warehouses.getD (i / 2 % 4) "" } := by
  have hindex : ∀ len div, 0 < len → len ≤ usizeMax →
      (tryFrom usizeMax (i / div % len)).getD 0 = i / div % len :=
    fun len div hpos hle => tryFrom_mod hpos hle
  have hcategory : (tryFrom usizeMax (i / 1 % categories.length)).getD 0 = i % 5 := by
    rw [hindex _ _ (by decide) (by decide), Nat.div_one]
    rfl
  have hregion : (tryFrom usizeMax (i / 2 % regions.length)).getD 0 = i / 2 % 4 :=
    hindex _ _ (by decide) (by decide)
  have hmethod : (tryFrom usizeMax (i / 3 % paymentMethods.length)).getD 0 = i / 3 % 4 :=
    hindex _ _ (by decide) (by decide)
  have htier : (tryFrom usizeMax (i / 7 % customerTiers.length)).getD 0 = i / 7 % 3 :=
    hindex _ _ (by decide) (by decide)
  have hdollars : (tryFrom u32Max (i % 200)).getD 0 = i % 200 :=
    tryFrom_mod (by decide) (by decide)
  have hquantity : (tryFrom i32Max (1 + i % 5)).getD 1 = 1 + i % 5 := by
    rw [tryFrom_of_le (by unfold i32Max; omega), Option.getD_some]
  simp only [orderAt, hcategory, hregion, hmethod, htier, hdollars, hquantity]

theorem orderAt_category (i : ℕ) : (orderAt i).category = categories.getD (i % 5) "" := by
  rw [orderAt_eq]

theorem orderAt_region (i : ℕ) : (orderAt i).region = regions.getD (i / 2 % 4) "" := by
  rw [orderAt_eq]

theorem orderAt_paymentMethod (i : ℕ) :
    (orderAt i).paymentMethod = paymentMethods.getD (i / 3 % 4) "" := by
  rw [orderAt_eq]

theorem getD_mem {xs : List String} {k : ℕ} (h : k < xs.length) : xs.getD k "" ∈ xs := by
  rw [List.getD_eq_getElem xs "" h]
  exact List.getElem_mem h

theorem orderAt_category_mem (i : ℕ) : (orderAt i).category ∈ categories := by
  rw [orderAt_category]
  exact getD_mem (Nat.mod_lt i (by decide))

theorem orderAt_region_mem (i : ℕ) : (orderAt i).region ∈ regions := by
  rw [orderAt_region]
  exact getD_mem (Nat.mod_lt _ (by decide))

theorem orderAt_paymentMethod_mem (i : ℕ) : (orderAt i).paymentMethod ∈ paymentMethods := by
  rw [orderAt_paymentMethod]
  exact getD_mem (Nat.mod_lt _ (by decide))

/-- The generator cycles the five categories, so two orders share a key exactly when their
indices agree modulo five. -/
theorem orderAt_category_eq_iff {i j : ℕ} :
    (orderAt i).category = (orderAt j).category ↔ i % 5 = j % 5 := by
  have hi : i % 5 < categories.length := Nat.mod_lt i (by decide)
  have hj : j % 5 < categories.length := Nat.mod_lt j (by decide)
  have hn : categories.Nodup := by decide
  rw [orderAt_category, orderAt_category, List.getD_eq_getElem _ _ hi, List.getD_eq_getElem _ _ hj]
  exact hn.getElem_inj_iff

theorem classifyOutcome_mem (order : Order) :
    classifyOutcome order ∈ ["anomalous", "fraud_rejected", "fulfilled"] := by
  unfold classifyOutcome
  split
  next => simp
  next => split <;> simp

example : classifyOutcome (orderAt 23) = "fulfilled" := by decide +kernel

end OrdersDemo
