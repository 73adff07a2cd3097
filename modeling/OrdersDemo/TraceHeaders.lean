import OrdersDemo.TopicDelivery

namespace OrdersDemo

section Tasks

variable {S : Sender} {m : ℕ+} {s : SendState S}

/-- A step leaves a pending task as it is, starts it, ends it, or polls it. -/
theorem task_step (e : SendEvent S.Input) {t : PendingTask S.Delivery}
    (ht : t ∈ (s.step m e).pending) :
    t ∈ s.pending ∨ (∃ w order, t.state = .running (S.send w order).2) ∨
      (∃ o, t.state = .finished o) ∨
      ∃ input d, e = .poll t.index input ∧ (∃ u ∈ s.pending, u.index = t.index ∧
        u.state = .running d) ∧ t.state = .ofPoll (S.poll s.world d input).2.2 := by
  cases e with
  | poll i input =>
    cases hd : s.delivery i with
    | none =>
      simp only [SendState.step, hd] at ht
      exact .inl ht
    | some d =>
      simp only [SendState.step, hd] at ht
      obtain ⟨u, hu, hs, rfl⟩ := delivery_spec hd
      rcases mem_setTask.mp ht with ⟨v, hv, hvi, rfl⟩ | ⟨ht, -⟩
      · exact .inr (.inr (.inr ⟨input, d, by rw [hvi], ⟨u, hu, hvi.symm, hs⟩, rfl⟩))
      · exact .inl ht
  | panic i =>
    simp only [SendState.step] at ht
    split at ht
    next =>
      rcases mem_setTask.mp ht with ⟨v, hv, hvi, rfl⟩ | ⟨ht, -⟩
      · exact .inr (.inr (.inl ⟨_, rfl⟩))
      · exact .inl ht
    next => exact .inl ht
  | wake ready =>
    simp only [SendState.step] at ht
    split at ht
    next =>
      unfold SendState.select at ht
      split at ht
      next => exact .inl ht
      next =>
        split at ht
        next t' o _ =>
          left
          cases o <;> exact (List.mem_filter.mp ht).1
        next =>
          split at ht
          next => exact .inl ht
          next =>
            split at ht
            next =>
              rcases List.mem_append.mp ht with ht | ht
              · exact .inl ht
              · obtain rfl := List.mem_singleton.mp ht
                exact .inr (.inl ⟨_, _, rfl⟩)
            next => exact .inl ht
    next =>
      left
      unfold SendState.drain at ht
      split at ht
      next => exact ht
      next =>
        split at ht
        next t' o _ => cases o <;> exact (List.mem_filter.mp ht).1
        next => exact ht
    next => exact .inl ht

end Tasks

/-- The headers of a record come from an order and trace headers that `Q` allows. -/
def HeadersFrom (Q : List (String × String) → Prop) (record : ProducerRecord) : Prop :=
  ∃ traceHeaders order, Q traceHeaders ∧ record.headers = orderHeaders traceHeaders order

section Headers

variable {serialize : String → Order → ByteArray} {topic : String} {m : ℕ+}
  {s : SendState (publishSender serialize topic)} {Q : ℕ → List (String × String) → Prop}

/-- Every record of order `i` has been built in a poll whose trace headers `Q` allows for it. -/
structure HeadersInv (Q : ℕ → List (String × String) → Prop)
    (s : SendState (publishSender serialize topic)) : Prop where
  sending : ∀ t ∈ s.pending, ∀ order record retry,
    t.state = .running (.sending order record retry) → HeadersFrom (Q t.index) record
  called : ∀ i record, .effect i (.call record) ∈ s.trace → HeadersFrom (Q i) record

theorem poll_sending {d : PublishOrder} {metrics : DemoMetrics} {input : PublishInput}
    {order : Order} {record : ProducerRecord} {retry : SendWithRetry}
    (h : TaskState.ofPoll (d.poll metrics input).2.2 = .running (.sending order record retry)) :
    record.headers = orderHeaders input.traceHeaders order ∨
      ∃ retry', d = .sending order record retry' := by
  cases d with
  | created order' topic value =>
    left
    simp only [PublishOrder.poll, TaskState.ofPoll, TaskState.running.injEq,
      PublishOrder.sending.injEq] at h
    obtain ⟨rfl, rfl, -⟩ := h
    rfl
  | sending order' record' retry' =>
    right
    simp only [PublishOrder.poll] at h
    split at h
    next =>
      simp only [TaskState.ofPoll, TaskState.running.injEq, PublishOrder.sending.injEq] at h
      obtain ⟨rfl, rfl, -⟩ := h
      exact ⟨retry', rfl⟩
    next => simp [TaskState.ofPoll] at h
    next => simp [TaskState.ofPoll] at h
  | sent order' => simp [PublishOrder.poll, TaskState.ofPoll] at h

theorem poll_call {d : PublishOrder} {metrics : DemoMetrics} {input : PublishInput}
    {record : ProducerRecord} (h : .call record ∈ (d.poll metrics input).2.1) :
    ∃ order retry, d = .sending order record retry := by
  cases d with
  | created order topic value =>
    simp only [PublishOrder.poll] at h
    split at h <;> simp at h
  | sending order record' retry =>
    have heffects : ((PublishOrder.sending order record' retry).poll metrics input).2.1 =
        (retry.poll metrics record' input.result).2.1 := by
      simp only [PublishOrder.poll]
      split <;> simp
    rw [heffects] at h
    cases retry with
    | call attempt =>
      obtain rfl := PublishEffect.call.inj (List.mem_singleton.mp h)
      exact ⟨order, _, rfl⟩
    | waiting attempt =>
      simp only [SendWithRetry.poll] at h
      split at h <;> simp at h
  | sent order => simp [PublishOrder.poll] at h

theorem HeadersInv.step (h : HeadersInv Q s) (e : SendEvent PublishInput)
    (he : ∀ i input, e = .poll i input → Q i input.traceHeaders) :
    HeadersInv Q (s.step m e) where
  sending := by
    intro t ht order record retry hstate
    rcases task_step (S := publishSender serialize topic) e ht with
      ht | ⟨w, o, hstart⟩ | ⟨o, hend⟩ | ⟨input, d, hpoll, ⟨u, hu, hindex, hud⟩, hpolled⟩
    · exact h.sending t ht order record retry hstate
    · rw [hstart] at hstate
      cases hstate
    · rw [hend] at hstate
      cases hstate
    · rcases poll_sending (hpolled.symm.trans hstate) with hheaders | ⟨retry', rfl⟩
      · exact ⟨_, _, he _ _ hpoll, hheaders⟩
      · rw [← hindex]
        exact h.sending u hu order record retry' hud
  called := by
    intro i record hcall
    rcases effects_step (m := m) (s := s) e with hsame | ⟨j, input, t, d, -, ht, hs, rfl, hpolled⟩
    · rw [← mem_effects, hsame, mem_effects] at hcall
      exact h.called i record hcall
    · rw [hpolled] at hcall
      rcases List.mem_append.mp hcall with hcall | hcall
      · exact h.called i record hcall
      · rcases mem_ofPoll hcall with ⟨effect, hmem, heq⟩ | ⟨b, -, heq⟩
        · obtain ⟨rfl, rfl⟩ := SendAct.effect.inj heq
          obtain ⟨order, retry, rfl⟩ := poll_call hmem
          exact h.sending t ht order record retry hs
        · cases heq

end Headers

theorem demo_headers {E P : Type} {kafka : Kafka E} {m : ℕ+} {cli : ProcessCli}
    {events : List (DemoEvent E P)} {Q : ℕ → List (String × String) → Prop}
    (hpolls : ∀ i input, .produce (.poll i input) ∈ events → Q i input.traceHeaders) :
    HeadersInv Q ((demo kafka P m cli).run events).producer := by
  have hstep : ∀ (s : SendState (publishSender kafka.serialize cli.inputTopic))
      (e : SendEvent PublishInput), (∀ i input, e = .poll i input → Q i input.traceHeaders) →
      HeadersInv Q s → HeadersInv Q (s.step m e) := fun _ e he h => h.step e he
  rw [demo_producer]
  refine Machine.runFrom_invariant_of_forall _ hstep ⟨nofun, nofun⟩ ?_
  rintro e he i input rfl
  obtain ⟨event, hevent, heq⟩ := List.mem_filterMap.mp he
  cases event with
  | produce event =>
    obtain rfl : event = .poll i input := Option.some.inj heq
    exact hpolls i input hevent
  | append i record => cases heq
  | consume event => cases heq

end OrdersDemo
