import OrdersDemo.PublishBlocks

namespace OrdersDemo

section Causality

variable {S : Sender} {m : ℕ+} {s : SendState S}

theorem mem_schedule_release {E : Type} {i : ℕ} {t : List (SendAct E)} :
    .release i ∈ t.map SendAct.schedule ↔ ∃ o, .join i o ∈ t := by
  simp only [List.mem_map]
  constructor
  · rintro ⟨a, ha, he⟩
    cases a with
    | join j o =>
      obtain rfl := KeyedAdmission.Act.release.inj he
      exact ⟨o, ha⟩
    | send | effect | finish => simp [SendAct.schedule] at he
  · rintro ⟨o, h⟩
    exact ⟨_, h, rfl⟩

/-- Nothing happens to an order before the earlier orders of its key are joined. -/
theorem RunInv.joined_before (h : RunInv m s) :
    History.Causal (fun pre a => ∀ i j, i < j → j ≤ a.index → orderKey i = orderKey j →
      ∃ o, .join i o ∈ pre) s.trace := by
  intro pre a post he i j hij hj hk
  have := h.send.scheduled.released_before (pre.map SendAct.schedule) a.schedule
    (post.map SendAct.schedule) (by simp [he]) i j hij (by simpa using hj) hk
  exact mem_schedule_release.mp this

theorem RunInv.finish_of_join (h : RunInv m s) {pre post : List (SendAct S.Effect)} {i : ℕ}
    {o : Outcome} (he : s.trace = pre ++ post) (hj : .join i o ∈ pre) : .finish i o ∈ pre := by
  obtain ⟨p, q, rfl⟩ := List.append_of_mem hj
  exact List.mem_append_left _ (h.trace.causal p _ (q ++ post) (by simp [he]) i o rfl)

theorem RunInv.send_before (h : RunInv m s) {pre post : List (SendAct S.Effect)}
    {a : SendAct S.Effect} {j : ℕ} (he : s.trace = pre ++ a :: post)
    (ha : a.schedule = .work j) : ∃ order, .send j order ∈ pre := by
  have hadm := h.send.scheduled.admitted_before (pre.map SendAct.schedule) a.schedule
    (post.map SendAct.schedule) (by simp [he]) j ha
  obtain ⟨b, hb, hs⟩ := List.mem_map.mp hadm
  cases b with
  | send k order =>
    obtain rfl := KeyedAdmission.Act.enter.inj hs
    exact ⟨order, hb⟩
  | effect | finish | join => simp [SendAct.schedule] at hs

theorem RunInv.effects_after_join (h : RunInv m s) {pre post : List (SendAct S.Effect)} {i : ℕ}
    {o : Outcome} (he : s.trace = pre ++ post) (hj : .join i o ∈ pre) : effectsOf i post = [] := by
  refine effectsOf_eq_nil fun e hm => ?_
  obtain ⟨p, q, rfl⟩ := List.append_of_mem hm
  refine h.send.scheduled.released_last ((pre ++ p).map SendAct.schedule) (.work i)
    (q.map SendAct.schedule) (by simp [he, SendAct.schedule]) ?_
  exact mem_schedule_release.mpr ⟨o, List.mem_append_left _ hj⟩

/-- Work on an order comes after the return and the join of every order five places before. -/
theorem DeliveriesInv.returned_before (h : RunInv m s) (hd : DeliveriesInv s)
    {pre post : List (SendAct S.Effect)} {a : SendAct S.Effect} {i j : ℕ}
    (he : s.trace = pre ++ a :: post) (ha : a.schedule = .work j) (hij : i + 5 ≤ j) :
    ∃ success, .join i (.returned success) ∈ pre := by
  obtain ⟨order, hs⟩ := h.send_before he ha
  obtain ⟨p, q, rfl⟩ := List.append_of_mem hs
  have hsplit : s.trace = p ++ .send j order :: (q ++ a :: post) := by simp [he]
  obtain ⟨o, hj⟩ := h.joined_before p _ _ hsplit i (i + 5) (by omega) hij (orderKey_period i)
  cases o with
  | returned success => exact ⟨success, List.mem_append_left _ hj⟩
  | panicked => exact absurd hj (hd.gate p _ _ hsplit j order rfl i)

end Causality

section Publish

variable {serialize : String → Order → ByteArray} {topic : String} {m : ℕ+}
  {s : SendState (publishSender serialize topic)}

theorem answered_of_returned (hd : DeliveriesInv s) {i : ℕ} {success : Bool}
    (hj : .join i (.returned success) ∈ s.trace) :
    (effectsOf i s.trace).countP PublishEffect.isCall =
      (effectsOf i s.trace).countP PublishEffect.isResult := by
  rcases (hd.joined i _ hj).published with ⟨he, _⟩ | ⟨traceHeaders, attempts, ha, he⟩
  · rw [he]
    rfl
  · rw [he, countP_isCall, countP_isResult, ha.answered]

/-- Retries keep the order of a key: every call is made with the key of its order, the log of a key
is a row of blocks, one order after the other and every finished one among them, and a delivery is
joined before the next order of its key makes an attempt. -/
theorem publish_key_order (serialize : String → Order → ByteArray) (topic : String) (m : ℕ+)
    (w : DemoMetrics) (events : List (SendEvent PublishInput)) :
    let s := (sendOrders (publishSender serialize topic) m w).run events
    (∀ i record, .effect i (.call record) ∈ s.trace →
      record.key = some (orderAt i).category.toUTF8) ∧
    (∀ c, ∃ blocks : List Block,
      keyLog c s.trace = blocks.flatMap Block.log ∧
      blocks.Pairwise (·.index < ·.index) ∧
      (∀ b ∈ blocks, KeyBlock serialize topic c s b) ∧
      ∀ i success, .finish i (.returned success) ∈ s.trace → (orderAt i).category = c →
        ∃ b ∈ blocks, b.index = i) ∧
    History.Causal (fun pre a => ∀ j record, a = .effect j (.call record) → ∀ i < j,
      (orderAt i).category = (orderAt j).category →
        ∃ o, .finish i o ∈ pre ∧ .join i o ∈ pre) s.trace ∧
    ∀ pre j record post, s.trace = pre ++ .effect j (.call record) :: post → ∀ i, i + 5 ≤ j →
      (effectsOf i pre).countP PublishEffect.isCall =
        (effectsOf i pre).countP PublishEffect.isResult ∧
      effectsOf i post = [] := by
  intro s
  have hr : RunInv m s := sendOrders_runInv (S := publishSender serialize topic) m w events
  have hd : DeliveriesInv s := sendOrders_deliveries (S := publishSender serialize topic) m w events
  refine ⟨fun i record hcall => ?_, exists_blocks hr hd, ?_, ?_⟩
  · obtain ⟨traceHeaders, hrecord⟩ := hd.calls hr i
    rw [hrecord record hcall]
    rfl
  · rintro pre _ post he j record rfl i hij hk
    obtain ⟨o, hj⟩ := hr.joined_before pre _ post he i j hij le_rfl hk
    exact ⟨o, hr.finish_of_join he hj, hj⟩
  · intro pre j record post he i hij
    obtain ⟨success, hj⟩ := hd.returned_before hr he rfl hij
    have hsplit : s.trace = (pre ++ [.effect j (.call record)]) ++ post := by simp [he]
    have hpost : effectsOf i post = [] :=
      hr.effects_after_join hsplit (List.mem_append_left _ hj)
    have hcall : effectsOf i [SendAct.effect j (PublishEffect.call record)] = [] :=
      effectsOf_works (by simp [SendAct.schedule]) (show i ≠ j by omega)
    have htrace : effectsOf i s.trace = effectsOf i pre := by
      rw [he, ← List.singleton_append, effectsOf_append, effectsOf_append, hpost, hcall,
        List.append_nil, List.append_nil]
    have := answered_of_returned hd (he ▸ List.mem_append_left _ hj)
    rw [htrace] at this
    exact ⟨this, hpost⟩

end Publish

section Retried

/-- Five orders are admitted; the first is delivered at its second attempt, and only then does the
next order of its key begin. -/
def retriedSends : List (SendEvent PublishInput) :=
  [tickOnly, tickOnly, tickOnly, tickOnly, tickOnly, .poll 0 {}, .poll 0 {},
    .poll 0 { result := some false }, .poll 0 {}, .poll 0 { result := some true }, .poll 0 {},
    .wake { join := some 0 }, tickOnly, .poll 5 {}, .poll 5 {}]

abbrev retriedProducer : SendState orderIdSender :=
  (sendOrders orderIdSender 6 ({} : DemoMetrics)).run retriedSends

theorem publish_key_order_retried :
    (∃ record, .effect 5 (.call record) ∈ retriedProducer.trace ∧
      record.key = some "books".toUTF8) ∧
    (∃ blocks : List Block, keyLog "books" retriedProducer.trace = blocks.flatMap Block.log ∧
      ∃ b ∈ blocks, b.index = 0 ∧ b.attempts.getLast? = some (some true)) ∧
    (effectsOf 0 retriedProducer.trace).countP PublishEffect.isCall = 2 ∧
    ∃ pre record post, retriedProducer.trace = pre ++ .effect 5 (.call record) :: post ∧
      ∃ o, .join 0 o ∈ pre := by
  obtain ⟨hkeys, hblocks, hcausal, -⟩ := publish_key_order
    (fun _ order => order.orderId.toUTF8) "orders" 6 {} retriedSends
  have hcall : ∃ record, .effect 5 (.call record) ∈ retriedProducer.trace :=
    ⟨_, mem_effects.mp (show (5, PublishEffect.call (publishRecord ((orderAt 5).stamp 5) "orders"
      ((orderAt 5).stamp 5).orderId.toUTF8 [])) ∈ effects retriedProducer.trace by decide +kernel)⟩
  have hfinish : (0, .returned true) ∈ finishes retriedProducer.trace := by decide +kernel
  have hbooks : (orderAt 0).category = "books" ∧ (orderAt 5).category = "books" := by
    decide +kernel
  obtain ⟨record, hcall⟩ := hcall
  refine ⟨⟨record, hcall, hbooks.2 ▸ hkeys 5 record hcall⟩, ?_, by decide +kernel, ?_⟩
  · obtain ⟨blocks, hlog, -, hkey, hreturned⟩ := hblocks "books"
    obtain ⟨b, hb, hi⟩ := hreturned 0 true (mem_finishes.mp hfinish) hbooks.1
    have hlast := (hkey b hb).acknowledged
    rw [hi] at hlast
    exact ⟨blocks, hlog, b, hb, hi, hlast (mem_finishes.mp hfinish)⟩
  · obtain ⟨pre, post, he⟩ := List.append_of_mem hcall
    obtain ⟨o, -, hj⟩ := hcausal pre _ post he 5 record rfl 0 (by decide)
      (hbooks.1.trans hbooks.2.symm)
    exact ⟨pre, record, post, he, o, hj⟩

end Retried
end OrdersDemo
