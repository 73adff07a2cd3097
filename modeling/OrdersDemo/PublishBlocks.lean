import OrdersDemo.PublishAttempts
import OrdersDemo.SendAdmission

namespace OrdersDemo

def PublishEffect.key : PublishEffect → Option ByteArray
  | .anomalyWarning => none
  | .call record => record.key
  | .result record _ => record.key

/-- The log of the producer's `send`, each call and each answer with the index of its order,
restricted to the records with one key. -/
def keyLog (c : String) (t : List (SendAct PublishEffect)) : List (ℕ × PublishEffect) :=
  (effects t).filter (·.2.key = some c.toUTF8)

/-- The consecutive attempts of one order, all of the same record. -/
structure Block where
  index : ℕ
  record : ProducerRecord
  attempts : List (Option Bool)

def Block.log (b : Block) : List (ℕ × PublishEffect) :=
  (b.attempts.flatMap (attemptEffects b.record)).map (b.index, ·)

/-- The block of an order with key `c` in the log of a run: its record is the order's, an attempt
is made only after the failure of the one before, and it has ended when the delivery returns. -/
structure KeyBlock (serialize : String → Order → ByteArray) (topic c : String)
    (s : SendState (publishSender serialize topic)) (b : Block) : Prop where
  admitted : b.index < s.index
  category : (orderAt b.index).category = c
  record_topic : b.record.topic = topic
  record_key : b.record.key = some c.toUTF8
  record_value : b.record.value = some (serialize topic ((orderAt b.index).stamp b.index))
  record_headers : ∃ traceHeaders, b.record.headers = orderHeaders traceHeaders (orderAt b.index)
  some_attempt : 1 ≤ b.attempts.length
  three_attempts : b.attempts.length ≤ 3
  retried : ∀ a ∈ b.attempts.dropLast, a = some false
  acknowledged : .finish b.index (.returned true) ∈ s.trace →
    b.attempts.getLast? = some (some true)
  failed : .finish b.index (.returned false) ∈ s.trace →
    b.attempts = List.replicate 3 (some false)

section Log

variable {c : String} {t : List (SendAct PublishEffect)}

theorem mem_keyLog {i : ℕ} {e : PublishEffect} :
    (i, e) ∈ keyLog c t ↔ .effect i e ∈ t ∧ e.key = some c.toUTF8 := by
  rw [keyLog, List.mem_filter, mem_effects, decide_eq_true_iff]

theorem keyLog_fibre (i : ℕ) : (keyLog c t).filter (·.1 = i) =
    ((effectsOf i t).filter (·.key = some c.toUTF8)).map (i, ·) := by
  rw [keyLog, effectsOf]
  induction effects t with
  | nil => rfl
  | cons p l ih =>
    obtain ⟨j, e⟩ := p
    by_cases hj : j = i <;> by_cases hk : e.key = some c.toByteArray <;>
      simpa [hj, hk] using ih

theorem toUTF8_inj {s t : String} : s.toUTF8 = t.toUTF8 ↔ s = t := by
  simpa using String.toByteArray_inj

theorem filter_attempts {order : Order} {record : ProducerRecord} {k : ByteArray}
    (attempts : List (Option Bool)) :
    (warning order ++ attempts.flatMap (attemptEffects record)).filter (·.key = some k) =
      if record.key = some k then attempts.flatMap (attemptEffects record) else [] := by
  have hwarn : (warning order).filter (·.key = some k) = [] := by
    unfold warning
    split <;> simp [PublishEffect.key]
  rw [List.filter_append, hwarn, List.nil_append]
  have hkey : ∀ e ∈ attempts.flatMap (attemptEffects record), e.key = record.key := by
    intro e he
    obtain ⟨a, _, he⟩ := List.mem_flatMap.mp he
    rcases a with _ | a
    · obtain rfl := List.mem_singleton.mp he
      rfl
    · rcases List.mem_pair.mp he with rfl | rfl <;> rfl
  split
  next hk => exact List.filter_eq_self.mpr fun e he => by simpa [hkey e he] using hk
  next hk => exact List.filter_eq_nil_iff.mpr fun e he => by simpa [hkey e he] using hk

end Log

section Blocks

variable {serialize : String → Order → ByteArray} {topic c : String} {m : ℕ+}
  {s : SendState (publishSender serialize topic)}

/-- What the log with key `c` shows of one order: nothing, or its block; a delivery with that key
that has returned has its block. -/
theorem exists_block (hr : RunInv m s) (hd : DeliveriesInv s) {i : ℕ} (hi : i < s.index) :
    ∃ block : Option Block, (∀ b ∈ block, b.index = i ∧ KeyBlock serialize topic c s b) ∧
      (keyLog c s.trace).filter (·.1 = i) = block.toList.flatMap Block.log ∧
      ∀ success, .finish i (.returned success) ∈ s.trace → (orderAt i).category = c →
        block.isSome := by
  obtain ⟨state, hrun, hfin⟩ := hd.state hr hi
  rw [keyLog_fibre]
  rcases hrun.published with ⟨he, hstate⟩ | ⟨traceHeaders, attempts, ha, he⟩
  · refine ⟨none, by simp, by simp [he], fun success hf _ => ?_⟩
    rw [hfin _ hf] at hstate
    rcases hstate with h | h <;> cases h
  · rw [he, filter_attempts]
    have hkey : (publishRecord ((orderAt i).stamp i) topic (orderValue serialize topic i)
        traceHeaders).key = some c.toUTF8 ↔ (orderAt i).category = c := by
      rw [publishRecord, Option.some.injEq, toUTF8_inj]
      rfl
    split
    next hk =>
      by_cases hnil : attempts = []
      · refine ⟨none, by simp, by simp [hnil], fun success hf _ => ?_⟩
        rw [hfin _ hf, hnil] at ha
        rcases ha.returned with ⟨_, k, _, h⟩ | ⟨_, h⟩ <;> simp at h
      · refine ⟨some ⟨i, publishRecord ((orderAt i).stamp i) topic (orderValue serialize topic i)
          traceHeaders, attempts⟩, ?_, by simp [Block.log], fun _ _ _ => rfl⟩
        rintro b hb
        obtain rfl := Option.some.inj hb
        refine ⟨rfl, hi, hkey.mp hk, rfl, hk, rfl, ⟨traceHeaders, rfl⟩,
          List.length_pos_iff.mpr hnil, ha.length_le, ha.dropLast, fun hf => ?_, fun hf => ?_⟩
        · rw [hfin _ hf] at ha
          rcases ha.returned with ⟨_, k, _, rfl⟩ | ⟨h, _⟩
          · simp
          · cases h
        · rw [hfin _ hf] at ha
          rcases ha.returned with ⟨h, _⟩ | ⟨_, rfl⟩
          · cases h
          · rfl
    next hk => exact ⟨none, by simp, by simp, fun _ _ hc => absurd (hkey.mpr hc) hk⟩

/-- All calls of an order are for one record, made from the order and its trace headers. -/
theorem DeliveriesInv.calls (hr : RunInv m s) (hd : DeliveriesInv s) (i : ℕ) :
    ∃ traceHeaders, ∀ record, .effect i (.call record) ∈ s.trace →
      record = publishRecord ((orderAt i).stamp i) topic (orderValue serialize topic i)
        traceHeaders := by
  by_cases hi : i < s.index
  · obtain ⟨state, hrun, _⟩ := hd.state hr hi
    rcases hrun.published with ⟨he, _⟩ | ⟨traceHeaders, attempts, _, he⟩
    · refine ⟨[], fun record hcall => ?_⟩
      have hmem := mem_effectsOf.mpr hcall
      rw [he] at hmem
      cases hmem
    · refine ⟨traceHeaders, fun record hcall => ?_⟩
      have hmem := mem_effectsOf.mpr hcall
      rw [he] at hmem
      rcases List.mem_append.mp hmem with hwarn | hattempt
      · unfold warning at hwarn
        split at hwarn <;> simp at hwarn
      · obtain ⟨a, _, ha⟩ := List.mem_flatMap.mp hattempt
        rcases a with _ | a
        · exact PublishEffect.call.inj (List.mem_singleton.mp ha)
        · rcases List.mem_pair.mp ha with ha | ha
          · exact PublishEffect.call.inj ha
          · cases ha
  · exact ⟨[], fun record hcall => absurd (hr.send.index_lt hcall) hi⟩

theorem effect_category (hr : RunInv m s) (hd : DeliveriesInv s) {i : ℕ} {e : PublishEffect}
    (he : .effect i e ∈ s.trace) (hk : e.key = some c.toUTF8) : (orderAt i).category = c := by
  obtain ⟨block, hblock, hlog, _⟩ := exists_block (c := c) (i := i) hr hd (hr.send.index_lt he)
  have hm : (i, e) ∈ (keyLog c s.trace).filter (·.1 = i) :=
    List.mem_filter.mpr ⟨mem_keyLog.mpr ⟨he, hk⟩, by simp⟩
  rw [hlog] at hm
  cases block with
  | none => simp at hm
  | some b =>
    obtain ⟨rfl, hb⟩ := hblock b rfl
    exact hb.category

theorem keyLog_ordered (hr : RunInv m s) (hd : DeliveriesInv s) :
    (keyLog c s.trace).Pairwise (·.1 ≤ ·.1) := by
  have hord := List.pairwise_map.mp hr.send.scheduled.ordered
  have heffects : (effects s.trace).Pairwise
      fun p q => orderKey p.1 = orderKey q.1 → p.1 ≤ q.1 := by
    refine List.pairwise_filterMap.mpr (hord.imp fun {a b} hab p hp q hq => ?_)
    cases a <;> cases b <;> simp only [SendAct.effect?, reduceCtorEq] at hp hq
    obtain rfl := Option.some.inj hp
    obtain rfl := Option.some.inj hq
    exact hab
  refine (heffects.sublist List.filter_sublist).imp_of_mem fun ha hb hab => hab ?_
  obtain ⟨ha, hka⟩ := mem_keyLog.mp ha
  obtain ⟨hb, hkb⟩ := mem_keyLog.mp hb
  exact (effect_category hr hd ha hka).trans (effect_category hr hd hb hkb).symm

/-- The log of one key is the concatenation of its blocks, those of all its finished deliveries
among them. -/
theorem exists_blocks (hr : RunInv m s) (hd : DeliveriesInv s) (c : String) :
    ∃ blocks : List Block, keyLog c s.trace = blocks.flatMap Block.log ∧
      blocks.Pairwise (·.index < ·.index) ∧ (∀ b ∈ blocks, KeyBlock serialize topic c s b) ∧
      ∀ i success, .finish i (.returned success) ∈ s.trace → (orderAt i).category = c →
        ∃ b ∈ blocks, b.index = i := by
  have hblock : ∀ i, ∃ block : Option Block, i < s.index →
      (∀ b ∈ block, b.index = i ∧ KeyBlock serialize topic c s b) ∧
        (keyLog c s.trace).filter (·.1 = i) = block.toList.flatMap Block.log ∧
        ∀ success, .finish i (.returned success) ∈ s.trace → (orderAt i).category = c →
          block.isSome := by
    intro i
    by_cases hi : i < s.index
    · obtain ⟨block, h⟩ := exists_block (c := c) hr hd hi
      exact ⟨block, fun _ => h⟩
    · exact ⟨none, fun h => absurd h hi⟩
  choose f hf using hblock
  have hlt : ∀ p ∈ keyLog c s.trace, p.1 < s.index := fun p hp =>
    hr.send.index_lt (mem_keyLog.mp hp).1
  refine ⟨(List.range s.index).filterMap f, ?_, ?_, ?_, ?_⟩
  · rw [List.filterMap_eq_flatMap_toList, List.flatMap_assoc,
      History.eq_flatMap_fibres (keyLog_ordered hr hd) hlt]
    exact List.flatMap_congr fun i hi => (hf i (List.mem_range.mp hi)).2.1
  · refine List.pairwise_filterMap.mpr (List.pairwise_lt_range.imp_of_mem ?_)
    intro i j hi hj hij b hb b' hb'
    rw [((hf i (List.mem_range.mp hi)).1 b hb).1, ((hf j (List.mem_range.mp hj)).1 b' hb').1]
    exact hij
  · intro b hb
    obtain ⟨i, hi, hb⟩ := List.mem_filterMap.mp hb
    exact ((hf i (List.mem_range.mp hi)).1 b hb).2
  · intro i success hfinish hc
    have hi : i < s.index := hr.send.index_lt hfinish
    obtain ⟨b, hb⟩ := Option.isSome_iff_exists.mp ((hf i hi).2.2 success hfinish hc)
    exact ⟨b, List.mem_filterMap.mpr ⟨i, List.mem_range.mpr hi, hb⟩, ((hf i hi).1 b hb).1⟩

end Blocks

end OrdersDemo
