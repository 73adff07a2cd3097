import OrdersDemo.ProcessOrder
import OrdersDemo.SendOrders

namespace OrdersDemo

theorem decimal_eq {digits : List Char} (h : ∀ c ∈ digits, c.isDigit) :
    decimal digits = some (Nat.ofDigitChars 10 digits 0) := by
  unfold decimal
  rw [Nat.ofDigitChars_eq_foldl]
  generalize 0 = n
  induction digits generalizing n with
  | nil => rfl
  | cons c digits ih =>
    have hc : c.isDigit := h c List.mem_cons_self
    rw [List.foldlM_cons, if_pos hc]
    exact ih (fun d hd => h d (List.mem_cons_of_mem c hd)) _

theorem parseU64_eq {s : String} (hne : s.toList ≠ []) (hdigits : ∀ c ∈ s.toList, c.isDigit) :
    parseU64 s = tryFrom u64Max (Nat.ofDigitChars 10 s.toList 0) := by
  have hplus : s.toList.head? ≠ some '+' := by
    intro hhead
    have hplus := hdigits '+' (List.mem_of_head? hhead)
    exact absurd hplus (by decide)
  have hempty : s.toList.isEmpty = false := by simpa using hne
  simp only [parseU64, if_neg hplus, hempty, decimal_eq hdigits]
  rfl

theorem toList_zeroPad (width : ℕ) (s : String) :
    (zeroPad width s).toList = List.replicate (width - s.length) '0' ++ s.toList := by
  simp [zeroPad]

theorem stripPrefix_append (p s : String) : stripPrefix p (p ++ s) = some s := by
  have hpre : p.toList.isPrefixOf (p ++ s).toList := by simp
  have hdrop : (p ++ s).toList.drop p.toList.length = s.toList := by simp
  rw [stripPrefix, if_pos hpre, hdrop, String.ofList_toList]

/-- Reading a zero-padded decimal numeral gives the number back, whatever the width. -/
theorem parseU64_zeroPad (width : ℕ) {n : ℕ} (h : n ≤ u64Max) :
    parseU64 (zeroPad width (toString n)) = some n := by
  have hlist := toList_zeroPad width (toString n)
  rw [Nat.toString_eq_repr, Nat.toList_repr] at hlist
  have hne : (zeroPad width n.repr).toList ≠ [] := by
    rw [hlist]
    exact List.append_ne_nil_of_right_ne_nil _ Nat.toDigits_ne_nil
  have hdigits : ∀ c ∈ (zeroPad width n.repr).toList, c.isDigit := by
    intro c hc
    rw [hlist] at hc
    rcases List.mem_append.mp hc with hc | hc
    · rw [List.eq_of_mem_replicate hc]
      decide
    · exact Nat.isDigit_of_mem_toDigits (by decide) (by decide) hc
  have hvalue : Nat.ofDigitChars 10 (zeroPad width n.repr).toList 0 = n := by
    rw [hlist, Nat.ofDigitChars_append, Nat.ofDigitChars_replicate_zero, Nat.mul_zero]
    exact Nat.ofDigitChars_toDigits (by decide) (by decide)
  rw [Nat.toString_eq_repr, parseU64_eq hne hdigits, hvalue]
  exact tryFrom_of_le h

theorem toNat_le_u64Max (i : UInt64) : i.toNat ≤ u64Max := by
  have := i.toNat_lt
  unfold u64Max
  omega

/-- `process_decoded_order`'s reading of an order id, before its default. -/
def parsedIndex (orderId : String) : Option ℕ :=
  (stripPrefix "o-" orderId).bind parseU64

theorem parsedIndex_orderAt {i : ℕ} (h : i ≤ u64Max) :
    parsedIndex (orderAt i).orderId = some i := by
  simp only [parsedIndex, orderAt]
  rw [stripPrefix_append, Option.bind_some]
  exact parseU64_zeroPad 10 h

section Stages

variable {E : Type} (cli : ProcessCli) (env : ProcessEnv E)

/-- The configured work of the stages. -/
def ProcessCli.work (cli : ProcessCli) : StageWork :=
  ⟨cli.validateWork, cli.enrichWork, cli.fraudCheckWork, cli.fulfillWork⟩

theorem processOrderRecord_stages {record : ConsumerRecord} {order : Order}
    (h : decoded cli env record = .ok order) (metrics : DemoMetrics) :
    (processOrderRecord cli env record metrics).2.stages =
      stages.map fun name =>
        (name, stageDelay name cli.work ((parsedIndex order.orderId).getD 0)
          cli.slowOrderFraction) := by
  unfold decoded at h
  unfold processOrderRecord processOrderInner
  rw [h]
  rfl

end Stages

/-- The consumer reads back the index of every order that the producer can send, so that it
applies to it the delays of that index. -/
theorem orderIndex_round_trip (i : UInt64) :
    parsedIndex (orderAt i.toNat).orderId = some i.toNat ∧
      (∀ j : UInt64, (orderAt i.toNat).orderId = (orderAt j.toNat).orderId → i = j) ∧
      ∀ (E : Type) (cli : ProcessCli) (env : ProcessEnv E) (record : ConsumerRecord)
        (metrics : DemoMetrics),
        decoded cli env record = .ok ((orderAt i.toNat).stamp i.toNat) →
        (processOrderRecord cli env record metrics).2.stages =
          stages.map fun name =>
            (name, stageDelay name cli.work i.toNat cli.slowOrderFraction) := by
  have hread := parsedIndex_orderAt (toNat_le_u64Max i)
  refine ⟨hread, ?_, ?_⟩
  · intro j hij
    have hother := parsedIndex_orderAt (toNat_le_u64Max j)
    rw [← hij, hread] at hother
    exact UInt64.toNat_inj.mp (Option.some.inj hother)
  · intro E cli env record metrics h
    have hid : ((orderAt i.toNat).stamp i.toNat).orderId = (orderAt i.toNat).orderId := rfl
    rw [processOrderRecord_stages cli env h, hid, hread, Option.getD_some]

theorem orderIndex_round_trip_eleven_digits :
    (processOrderRecord (E := Empty) { idleCli with slowOrderFraction := .fin (1 / 2) }
        ⟨fun _ _ => .ok ((orderAt 40000000001).stamp 40000000001), fun _ => 0, 0⟩
        ⟨0, 0, [], some .empty⟩ {}).2.stages =
      stages.map fun name => (name, stageDelay name ⟨0, 0, 0, 0⟩ 40000000001 (.fin (1 / 2))) :=
  (orderIndex_round_trip 40000000001).2.2 Empty _ _ _ _ rfl

end OrdersDemo
