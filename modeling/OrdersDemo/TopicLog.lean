import OrdersDemo.OrdersTopic

namespace OrdersDemo

section Traces

variable {S : Sender} {m : ℕ+} {s : SendState S}

theorem Move.extends {s' : SendState S} (hm : Move m s s') :
    ∃ acts, s'.trace = s.trace ++ acts := by
  cases hm with
  | stay => exact ⟨[], (List.append_nil _).symm⟩
  | poll => exact ⟨_, rfl⟩
  | panic => exact ⟨_, rfl⟩
  | stop => exact ⟨[], (List.append_nil _).symm⟩
  | @join t o => cases o <;> exact ⟨_, rfl⟩
  | dispatch => exact ⟨_, rfl⟩
  | @drain t o => cases o <;> exact ⟨_, rfl⟩
  | finish => exact ⟨[], (List.append_nil _).symm⟩

theorem effects_select (ready : Ready) : effects (s.select m ready).trace = effects s.trace := by
  unfold SendState.select
  split
  next => rfl
  next =>
    split
    next t o _ => cases o <;> simp [SendState.joined, SendState.take, effects]
    next =>
      split
      next => rfl
      next =>
        split
        next => simp [SendState.dispatch, effects]
        next => rfl

theorem effects_drain (ready : Ready) : effects (s.drain ready).trace = effects s.trace := by
  unfold SendState.drain
  split
  next => rfl
  next =>
    split
    next t o _ => cases o <;> simp [SendState.drained, SendState.take, effects]
    next => rfl

theorem effects_step (e : SendEvent S.Input) :
    effects (s.step m e).trace = effects s.trace ∨
      ∃ i input t d, e = .poll i input ∧ t ∈ s.pending ∧ t.state = .running d ∧ t.index = i ∧
        s.step m e = s.polled i d input := by
  cases e with
  | poll i input =>
    cases hd : s.delivery i with
    | none =>
      left
      simp [SendState.step, hd]
    | some d =>
      right
      obtain ⟨t, ht, hs, hi⟩ := delivery_spec hd
      exact ⟨i, input, t, d, rfl, ht, hs, hi, by simp [SendState.step, hd]⟩
  | panic i =>
    left
    simp only [SendState.step]
    split
    next => simp [SendState.panicked, effects]
    next => rfl
  | wake ready =>
    left
    simp only [SendState.step]
    split
    next => exact effects_select ready
    next => exact effects_drain ready
    next => rfl

end Traces

section Flight

variable {serialize : String → Order → ByteArray} {topic : String} {m : ℕ+}
  {s : SendState (publishSender serialize topic)} {i : ℕ} {record : ProducerRecord}

theorem inFlight_eq_some {trace : List (SendAct PublishEffect)} :
    inFlight i trace = some record ↔ (effectsOf i trace).getLast? = some (.call record) := by
  unfold inFlight
  split
  next r h => simp [h]
  next h =>
    refine iff_of_false (by simp) fun hcall => ?_
    exact h record hcall

theorem getLast?_attempts (order : Order) (record : ProducerRecord)
    (attempts : List (Option Bool)) (acknowledged : Bool) :
    (warning order ++ (attempts ++ [some acknowledged]).flatMap (attemptEffects record)).getLast? =
      some (.result record acknowledged) := by
  have hlast : (attempts ++ [some acknowledged]).flatMap (attemptEffects record) =
      (attempts.flatMap (attemptEffects record) ++ [.call record]) ++
        [.result record acknowledged] := by
    simp [attemptEffects]
  rw [hlast, ← List.append_assoc]
  exact List.getLast?_concat

/-- Nothing of a delivery that has returned is in flight. -/
theorem not_inFlight_of_joined (hd : DeliveriesInv s) {success : Bool}
    (hj : .join i (.returned success) ∈ s.trace) : inFlight i s.trace ≠ some record := by
  rw [Ne, inFlight_eq_some]
  intro hlast
  rcases (hd.joined i _ hj).published with ⟨_, h | h⟩ | ⟨traceHeaders, attempts, ha, he⟩
  · cases h
  · cases h
  · rw [he] at hlast
    rcases ha.returned with ⟨_, k, _, rfl⟩ | ⟨_, rfl⟩
    · rw [getLast?_attempts] at hlast
      cases hlast
    · rw [List.replicate_succ', getLast?_attempts] at hlast
      cases hlast

theorem index_add_five_le {i j : ℕ} (hij : i < j) (hk : orderKey i = orderKey j) : i + 5 ≤ j := by
  have hmod := orderAt_category_eq_iff.mp hk
  omega

/-- While a record of order `i` is in flight, no later order of its key has been handed to
`send`. -/
theorem call_le_inFlight (hr : RunInv m s) (hd : DeliveriesInv s)
    (hf : inFlight i s.trace = some record) {j : ℕ} {r : ProducerRecord}
    (hcall : .effect j (.call r) ∈ s.trace) (hk : orderKey i = orderKey j) : j ≤ i := by
  by_contra hlt
  obtain ⟨pre, post, he⟩ := List.append_of_mem hcall
  obtain ⟨success, hj⟩ := hd.returned_before hr he rfl
    (index_add_five_le (Nat.lt_of_not_le hlt) hk)
  have hjoin : .join i (.returned success) ∈ s.trace := he ▸ List.mem_append_left _ hj
  exact not_inFlight_of_joined hd hjoin hf

theorem callsOf_append (t u : List (SendAct PublishEffect)) :
    callsOf i (t ++ u) = callsOf i t + callsOf i u := by
  rw [callsOf, effectsOf_append, List.countP_append]
  rfl

/-- A poll shows an acknowledgement only if it answers a record in flight. -/
theorem acknowledged_of_poll (hd : DeliveriesInv s)
    {t : PendingTask PublishOrder} {d : PublishOrder} (ht : t ∈ s.pending)
    (hs : t.state = .running d) (input : PublishInput)
    (h : .result record true ∈ (d.poll s.world input).2.1) :
    input.result = some true ∧ inFlight t.index s.trace = some record := by
  rcases (hd.pending t ht).published with ⟨_, hd | hd⟩ | ⟨traceHeaders, attempts, ha, he⟩
  · obtain rfl := TaskState.running.inj (hs.symm.trans hd)
    simp only [PublishOrder.poll] at h
    split at h <;> simp at h
  · rw [hs] at hd
    cases hd
  · rw [hs] at ha
    cases ha with
    | call hk => simp [PublishOrder.poll, SendWithRetry.poll] at h
    | @waiting k hk =>
      rcases hres : input.result with _ | _ | _
      · simp [PublishOrder.poll, SendWithRetry.poll, hres] at h
      · by_cases hlast : k + 1 < 3 <;>
          simp [PublishOrder.poll, SendWithRetry.poll, hres, hlast] at h
      · refine ⟨rfl, ?_⟩
        have hrecord : record = publishRecord ((orderAt t.index).stamp t.index) topic
            (orderValue serialize topic t.index) traceHeaders := by
          simpa [PublishOrder.poll, SendWithRetry.poll, hres] using h
        rw [inFlight_eq_some, he, hrecord, List.flatMap_append, ← List.append_assoc]
        exact List.getLast?_concat
    | sent hk => simp [PublishOrder.poll] at h

end Flight

end OrdersDemo
