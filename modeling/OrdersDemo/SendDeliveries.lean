import OrdersDemo.SendDrain

namespace OrdersDemo

variable {S : Sender}

/-- One delivery on its own: its polls, whatever the others did to the world between them. -/
inductive DeliveryRun (S : Sender) (d : S.Delivery) :
    List S.Effect → TaskState S.Delivery → Prop
  | start : DeliveryRun S d [] (.running d)
  | poll {effects d'} (w : S.World) (input : S.Input) : DeliveryRun S d effects (.running d') →
      DeliveryRun S d (effects ++ (S.poll w d' input).2.1) (.ofPoll (S.poll w d' input).2.2)
  | panic {effects d'} : DeliveryRun S d effects (.running d') →
      DeliveryRun S d effects (.finished .panicked)

/-- The delivery of order `i` has come to `state` by what the trace shows of it. -/
def Delivered (trace : List (SendAct S.Effect)) (i : ℕ) (state : TaskState S.Delivery) : Prop :=
  ∃ w, DeliveryRun S (S.send w ((orderAt i).stamp i)).2 (effectsOf i trace) state

theorem Delivered.frame {trace acts : List (SendAct S.Effect)} {i : ℕ}
    {state : TaskState S.Delivery} (h : Delivered trace i state) (ha : effectsOf i acts = []) :
    Delivered (trace ++ acts) i state := by
  obtain ⟨w, h⟩ := h
  refine ⟨w, ?_⟩
  rwa [effectsOf_append, ha, List.append_nil]

theorem effectsOf_fresh {key : ℕ → String} {t : List (SendAct S.Effect)} {n : ℕ} {held : List ℕ}
    (h : KeyedAdmission.Scheduled key (t.map SendAct.schedule) n held) : effectsOf n t = [] := by
  refine effectsOf_eq_nil fun e he => ?_
  have hlt := h.item_lt _ (List.mem_map_of_mem he)
  simp [SendAct.schedule, KeyedAdmission.Act.item] at hlt

theorem effectsOf_works {E : Type} {i j : ℕ} {acts : List (SendAct E)}
    (hacts : ∀ a ∈ acts, a.schedule = .work i) (hne : j ≠ i) : effectsOf j acts = [] :=
  effectsOf_eq_nil fun _ he => hne (KeyedAdmission.Act.work.inj (hacts _ he))

/-- Every delivery, pending or joined, has run as it would alone, and a joined panic ends
admission. -/
structure DeliveriesInv (s : SendState S) : Prop where
  pending : ∀ t ∈ s.pending, Delivered s.trace t.index t.state
  joined : ∀ i o, .join i o ∈ s.trace → Delivered s.trace i (.finished o)
  gate : History.Causal (fun pre a => ∀ i order, a = .send i order →
    ∀ j, .join j .panicked ∉ pre) s.trace

theorem SendInv.join_not_pending {m : ℕ+} {s : SendState S} (h : SendInv m s) {i : ℕ}
    {o : Outcome} (hj : .join i o ∈ s.trace) : i ∉ s.indices :=
  h.scheduled.not_held_of_released (List.mem_map.mpr ⟨_, hj, rfl⟩)

section DeliveryMoves

variable {m : ℕ+} {s : SendState S}

theorem DeliveriesInv.setTask (hi : SendInv m s) (h : DeliveriesInv s)
    {t : PendingTask S.Delivery} (ht : t ∈ s.pending) (w : S.World) {st : TaskState S.Delivery}
    {acts : List (SendAct S.Effect)} (hacts : ∀ a ∈ acts, a.schedule = .work t.index)
    (hrun : Delivered (s.trace ++ acts) t.index st) :
    DeliveriesInv { s with
      world := w, pending := setTask s.pending t.index st, trace := s.trace ++ acts } where
  pending := by
    intro u hu
    rcases mem_setTask.mp hu with ⟨v, hv, hv', rfl⟩ | ⟨hu, hne⟩
    · simpa only [hv'] using hrun
    · exact (h.pending u hu).frame (effectsOf_works hacts hne)
  joined := by
    intro i o hj
    rcases List.mem_append.mp hj with hj | hj
    · have hne : i ≠ t.index := fun he =>
        hi.join_not_pending hj (he ▸ List.mem_map_of_mem ht)
      exact (h.joined i o hj).frame (effectsOf_works hacts hne)
    · exact absurd (hacts _ hj) (by simp [SendAct.schedule])
  gate := by
    refine h.gate.append ?_
    rintro pre a post rfl i order rfl
    have : (SendAct.send i order).schedule = .work t.index := hacts _ (by simp)
    simp [SendAct.schedule] at this

theorem DeliveriesInv.take (h : DeliveriesInv s) {t : PendingTask S.Delivery} {o : Outcome}
    (ht : t ∈ s.pending) (hs : t.state = .finished o) : DeliveriesInv (s.take t o) where
  pending := fun u hu => (h.pending u (List.mem_filter.mp hu).1).frame rfl
  joined := by
    intro i o' hj
    rcases List.mem_append.mp hj with hj | hj
    · exact (h.joined i o' hj).frame rfl
    · obtain ⟨rfl, rfl⟩ := SendAct.join.inj (List.mem_singleton.mp hj)
      rw [← hs]
      exact (h.pending t ht).frame rfl
  gate := h.gate.concat fun i order he => by simp at he

theorem DeliveriesInv.dispatch (hi : SendInv m s) (h : DeliveriesInv s)
    (hp : ∀ j, .join j .panicked ∉ s.trace) : DeliveriesInv s.dispatch where
  pending := by
    intro u hu
    rcases List.mem_append.mp hu with hu | hu
    · exact (h.pending u hu).frame rfl
    · obtain rfl := List.mem_singleton.mp hu
      refine Delivered.frame ⟨s.world, ?_⟩ rfl
      rw [effectsOf_fresh hi.scheduled, ← hi.next]
      exact .start
  joined := by
    intro i o hj
    rcases List.mem_append.mp hj with hj | hj
    · exact (h.joined i o hj).frame rfl
    · simp at hj
  gate := h.gate.concat fun _ _ _ => hp

theorem ofPoll_schedule {D E : Type} {i : ℕ} {effects : List E} {answer : D ⊕ Bool} :
    ∀ a ∈ SendAct.ofPoll i effects answer, a.schedule = .work i := by
  intro a ha
  rcases mem_ofPoll ha with ⟨e, _, rfl⟩ | ⟨b, _, rfl⟩ <;> rfl

theorem Delivered.poll {trace : List (SendAct S.Effect)} {i : ℕ} {d : S.Delivery}
    (h : Delivered trace i (.running d)) (w : S.World) (input : S.Input) :
    Delivered (trace ++ SendAct.ofPoll i (S.poll w d input).2.1 (S.poll w d input).2.2) i
      (.ofPoll (S.poll w d input).2.2) := by
  obtain ⟨w', h⟩ := h
  refine ⟨w', ?_⟩
  rw [effectsOf_append, effectsOf_ofPoll]
  exact h.poll w input

theorem DeliveriesInv.move {s' : SendState S} (hr : RunInv m s) (h : DeliveriesInv s)
    (hm : Move m s s') : DeliveriesInv s' := by
  cases hm with
  | stay => exact h
  | @poll t d input ht hs =>
    have hd : Delivered s.trace t.index (.running d) := hs ▸ h.pending t ht
    exact h.setTask hr.send ht _ ofPoll_schedule (hd.poll s.world input)
  | @panic t d ht hs =>
    obtain ⟨w, hd⟩ := h.pending t ht
    rw [hs] at hd
    refine h.setTask hr.send ht s.world (by simp [SendAct.schedule]) ?_
    exact Delivered.frame ⟨w, hd.panic⟩ rfl
  | stop => exact ⟨h.pending, h.joined, h.gate⟩
  | @join t o _ ht hs =>
    have := h.take ht hs
    cases o <;> exact ⟨this.pending, this.joined, this.gate⟩
  | dispatch hp _ =>
    have hnone := hr.report.taskError.mp (hr.report.admitting hp)
    exact h.dispatch hr.send fun j hj => hnone _ (mem_joins.mpr hj) rfl
  | @drain t o _ ht hs =>
    have := h.take ht hs
    cases o <;> exact ⟨this.pending, this.joined, this.gate⟩
  | finish => exact ⟨h.pending, h.joined, h.gate⟩

end DeliveryMoves

theorem sendOrders_deliveries (m : ℕ+) (w : S.World) (events : List (SendEvent S.Input)) :
    DeliveriesInv ((sendOrders S m w).run events) := by
  refine (sendOrders_invariant (m := m) (I := fun s => RunInv m s ∧ DeliveriesInv s) ⟨?_, ?_⟩
    (fun s s' h hm => ⟨h.1.move hm, h.2.move h.1 hm⟩) events).2
  · exact sendOrders_runInv m w []
  · exact ⟨by simp, by simp, History.causal_nil _⟩

theorem doneTasks_sublist {D : Type} (p : List (PendingTask D)) :
    ((doneTasks p).map Prod.fst).Sublist (p.map (·.index)) := by
  induction p with
  | nil => exact .slnil
  | cons t p ih =>
    rw [doneTasks_cons, List.map_append, List.map_cons]
    cases t.state with
    | running d => exact ih.cons _
    | finished o => exact ih.cons_cons _

theorem RunInv.finishes_nodup {m : ℕ+} {s : SendState S} (h : RunInv m s) :
    ((finishes s.trace).map Prod.fst).Nodup := by
  rw [(h.trace.finishes.map Prod.fst).nodup_iff, List.map_append]
  exact ((doneTasks_sublist _).append_left _).nodup
    (h.trace.indices.nodup_iff.mpr List.nodup_range)

theorem DeliveriesInv.finished {m : ℕ+} {s : SendState S} (hr : RunInv m s) (h : DeliveriesInv s)
    {i : ℕ} {o : Outcome} (hf : .finish i o ∈ s.trace) : Delivered s.trace i (.finished o) := by
  have hmem := hr.trace.finishes.mem_iff.mp (mem_finishes.mpr hf)
  rcases List.mem_append.mp hmem with hj | ht
  · exact h.joined i o (mem_joins.mp hj)
  · obtain ⟨t, hm, he⟩ := List.mem_filterMap.mp ht
    obtain ⟨o', ho, he⟩ := Option.map_eq_some_iff.mp he
    obtain ⟨rfl, rfl⟩ := Prod.mk.inj he
    cases hs : t.state with
    | running d => simp [hs] at ho
    | finished o =>
      obtain rfl : o = o' := by simpa [hs] using ho
      exact hs ▸ h.pending t hm

/-- Every admitted order has come to one state, which is its ending once it has finished. -/
theorem DeliveriesInv.state {m : ℕ+} {s : SendState S} (hr : RunInv m s) (h : DeliveriesInv s)
    {i : ℕ} (hi : i < s.index) :
    ∃ state, Delivered s.trace i state ∧ ∀ o, .finish i o ∈ s.trace → state = .finished o := by
  by_cases hf : ∃ o, .finish i o ∈ s.trace
  · obtain ⟨o, ho⟩ := hf
    refine ⟨_, h.finished hr ho, fun o' ho' => ?_⟩
    have := List.inj_on_of_nodup_map hr.finishes_nodup (mem_finishes.mpr ho)
      (mem_finishes.mpr ho') rfl
    rw [(Prod.mk.inj this).2]
  · have hmem : i ∈ (joins s.trace).map Prod.fst ++ s.pending.map (·.index) :=
      hr.trace.indices.mem_iff.mpr (List.mem_range.mpr hi)
    rcases List.mem_append.mp hmem with hj | ht
    · obtain ⟨⟨j, o⟩, hm, rfl⟩ := List.mem_map.mp hj
      exact ⟨_, h.joined j o (mem_joins.mp hm), fun o' ho' => absurd ⟨o', ho'⟩ hf⟩
    · obtain ⟨t, hm, rfl⟩ := List.mem_map.mp ht
      exact ⟨_, h.pending t hm, fun o' ho' => absurd ⟨o', ho'⟩ hf⟩

/-- An invariant of the shared world and of the trace needs to be checked only against calls of
`send` and polls of deliveries that run as they would alone. -/
theorem sendOrders_world {I : S.World → List (SendAct S.Effect) → Prop}
    (hsend : ∀ w t i order, I w t → I (S.send w order).1 (t ++ [.send i order]))
    (hpoll : ∀ w t i d input, I w t → Delivered t i (.running d) →
      I (S.poll w d input).1
        (t ++ SendAct.ofPoll i (S.poll w d input).2.1 (S.poll w d input).2.2))
    (hpanic : ∀ w t i, I w t → I w (t ++ [.finish i .panicked]))
    (hjoin : ∀ w t i o, I w t → I w (t ++ [.join i o]))
    {m : ℕ+} {w : S.World} (hinit : I w []) (events : List (SendEvent S.Input)) :
    let s := (sendOrders S m w).run events
    I s.world s.trace := by
  refine (sendOrders_invariant (m := m)
    (I := fun s => (RunInv m s ∧ DeliveriesInv s) ∧ I s.world s.trace)
    ⟨⟨sendOrders_runInv m w [], sendOrders_deliveries m w []⟩, hinit⟩
    (fun s s' ⟨⟨hr, hd⟩, hw⟩ hm => ⟨⟨hr.move hm, hd.move hr hm⟩, ?_⟩) events).2
  cases hm with
  | stay => exact hw
  | @poll t d input ht hs => exact hpoll _ _ _ _ _ hw (hs ▸ hd.pending t ht)
  | panic => exact hpanic _ _ _ hw
  | stop => exact hw
  | @join t o => cases o <;> exact hjoin _ _ _ _ hw
  | dispatch => exact hsend _ _ _ _ hw
  | @drain t o => cases o <;> exact hjoin _ _ _ _ hw
  | finish => exact hw

end OrdersDemo
