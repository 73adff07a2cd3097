import OrdersDemo.SendTrace

namespace OrdersDemo

variable {S : Sender}

/-- The trace accounts for every order: sent in turn, then pending or joined, and joined only
after its delivery has finished. -/
structure TraceInv (trace : List (SendAct S.Effect)) (index : ℕ)
    (pending : List (PendingTask S.Delivery)) : Prop where
  sends : sends trace = (List.range index).map fun i => (orderAt i).stamp i
  finishes : (finishes trace).Perm (joins trace ++ doneTasks pending)
  indices : ((joins trace).map Prod.fst ++ pending.map (·.index)).Perm (List.range index)
  causal : History.Causal (fun pre a => ∀ i o, a = .join i o → .finish i o ∈ pre) trace

/-- The report counts the joined deliveries, and an error stands for a joined panic. -/
structure ReportInv (s : SendState S) : Prop where
  acknowledged : s.report.acknowledged = (joins s.trace).countP (·.2 = .returned true)
  failed : s.report.failed = (joins s.trace).countP (·.2 = .returned false)
  taskError : s.taskError = none ↔ ∀ j ∈ joins s.trace, j.2 ≠ .panicked
  admitting : s.phase = .admitting → s.taskError = none
  returned : ∀ r, s.phase = .returned r → s.pending = [] ∧ r = s.result

theorem mem_ofPoll {D E : Type} {i : ℕ} {effects : List E} {answer : D ⊕ Bool} {a : SendAct E}
    (h : a ∈ SendAct.ofPoll i effects answer) :
    (∃ e ∈ effects, a = .effect i e) ∨
      ∃ success, answer = .inr success ∧ a = .finish i (.returned success) := by
  cases answer with
  | inl _ =>
    obtain ⟨e, he, rfl⟩ := List.mem_map.mp h
    exact Or.inl ⟨e, he, rfl⟩
  | inr success =>
    rcases List.mem_append.mp h with h | h
    · obtain ⟨e, he, rfl⟩ := List.mem_map.mp h
      exact Or.inl ⟨e, he, rfl⟩
    · exact Or.inr ⟨success, rfl, List.mem_singleton.mp h⟩

section TraceMoves

variable {trace : List (SendAct S.Effect)} {index : ℕ} {pending : List (PendingTask S.Delivery)}

theorem TraceInv.setTask (h : TraceInv trace index pending)
    (hn : (pending.map (·.index)).Nodup) {t : PendingTask S.Delivery} {d : S.Delivery}
    (ht : t ∈ pending) (hs : t.state = .running d) {st : TaskState S.Delivery}
    {acts : List (SendAct S.Effect)} (hsends : OrdersDemo.sends acts = [])
    (hjoins : joins acts = [])
    (hfin : OrdersDemo.finishes acts = (st.done?.map (t.index, ·)).toList) :
    TraceInv (trace ++ acts) index (OrdersDemo.setTask pending t.index st) where
  sends := by simp [h.sends, hsends]
  finishes := by
    rw [finishes_append, joins_append, hjoins, List.append_nil, hfin]
    refine (h.finishes.append_right _).trans ?_
    rw [List.append_assoc]
    exact List.Perm.append_left _ (doneTasks_setTask hn ht hs st).symm
  indices := by
    rw [joins_append, hjoins, List.append_nil, setTask_indices]
    exact h.indices
  causal := by
    refine h.causal.append ?_
    rintro pre a post rfl i o rfl
    have hm : (i, o) ∈ joins (pre ++ .join i o :: post) := mem_joins.mpr (by simp)
    rw [hjoins] at hm
    simp at hm

theorem TraceInv.take (h : TraceInv trace index pending) (hn : (pending.map (·.index)).Nodup)
    {t : PendingTask S.Delivery} {o : Outcome} (ht : t ∈ pending) (hs : t.state = .finished o) :
    TraceInv (trace ++ [.join t.index o]) index (pending.filter (·.index ≠ t.index)) where
  sends := by simpa using h.sends
  finishes := by
    have hp := h.finishes.trans (List.Perm.append_left _ (doneTasks_take hn ht hs))
    simpa using hp
  indices := by
    obtain ⟨l, r, hp, _, hf⟩ := pending_split hn ht
    refine List.Perm.trans ?_ h.indices
    rw [hf, hp]
    simp only [joins_append, joins_singleton, SendAct.join?, Option.toList_some, List.map_append,
      List.append_assoc, List.map_cons, List.map_nil, List.singleton_append]
    exact List.Perm.append_left _ List.perm_middle.symm
  causal := by
    refine h.causal.concat ?_
    rintro i o' he
    obtain ⟨rfl, rfl⟩ := SendAct.join.inj he
    apply mem_finishes.mp
    refine h.finishes.mem_iff.mpr (List.mem_append_right _ ?_)
    exact (doneTasks_take hn ht hs).mem_iff.mpr (by simp)

theorem TraceInv.dispatch (h : TraceInv trace index pending) (key : String) (d : S.Delivery) :
    TraceInv (trace ++ [.send index ((orderAt index).stamp index)]) (index + 1)
      (pending ++ [⟨index, key, .running d⟩]) where
  sends := by
    rw [sends_append, h.sends, List.range_succ, List.map_append]
    rfl
  finishes := by
    simpa [doneTasks_append, doneTasks_cons, doneTasks] using h.finishes
  indices := by
    rw [List.range_succ]
    simpa using h.indices.append_right [index]
  causal := h.causal.concat fun i o he => by simp at he

end TraceMoves

theorem TraceInv.move {m : ℕ+} {s s' : SendState S} (hi : SendInv m s)
    (h : TraceInv s.trace s.index s.pending) (hm : Move m s s') :
    TraceInv s'.trace s'.index s'.pending := by
  have hn : (s.pending.map (·.index)).Nodup := hi.scheduled.nodup
  cases hm with
  | stay => exact h
  | poll input ht hs =>
    exact h.setTask hn ht hs (sends_ofPoll _ _ _) (joins_ofPoll _ _ _) (finishes_ofPoll _ _ _)
  | panic ht hs => exact h.setTask hn ht hs rfl rfl rfl
  | stop => exact h
  | @join t o _ ht hs => cases o <;> exact h.take hn ht hs
  | dispatch =>
    have := h.dispatch s.next.category (S.send s.world (s.next.stamp s.index)).2
    rw [← hi.next] at this
    exact this
  | @drain t o _ ht hs => cases o <;> exact h.take hn ht hs
  | finish => exact h

theorem report_record (r : SendReport) (success : Bool) :
    (r.record success).acknowledged = r.acknowledged + (if success then 1 else 0) ∧
      (r.record success).failed = r.failed + (if success then 0 else 1) := by
  cases success <;> simp [SendReport.record]

theorem ReportInv.take {s : SendState S} (h : ReportInv s) (t : PendingTask S.Delivery)
    (success : Bool) :
    (s.report.record success).acknowledged =
        (joins (s.take t (.returned success)).trace).countP (·.2 = .returned true) ∧
      (s.report.record success).failed =
        (joins (s.take t (.returned success)).trace).countP (·.2 = .returned false) ∧
      (s.taskError = none ↔ ∀ j ∈ joins (s.take t (.returned success)).trace,
        j.2 ≠ .panicked) := by
  obtain ⟨ha, hf⟩ := report_record s.report success
  refine ⟨?_, ?_, ?_⟩
  · rw [ha, h.acknowledged, SendState.take, joins_append, List.countP_append]
    cases success <;> simp
  · rw [hf, h.failed, SendState.take, joins_append, List.countP_append]
    cases success <;> simp
  · rw [h.taskError, SendState.take, joins_append]
    simp [or_imp, forall_and]

theorem countP_take_panicked {s : SendState S} (t : PendingTask S.Delivery) (success : Bool) :
    (joins (s.take t .panicked).trace).countP (·.2 = .returned success) =
      (joins s.trace).countP (·.2 = .returned success) := by
  simp [SendState.take]

theorem taskError_take_panicked {s : SendState S} (t : PendingTask S.Delivery) :
    some (⟨t.index⟩ : JoinError) = none ↔
      ∀ j ∈ joins (s.take t .panicked).trace, j.2 ≠ .panicked := by
  simp [SendState.take]

theorem ReportInv.joined {s : SendState S} (h : ReportInv s) (hp : s.phase = .admitting)
    (t : PendingTask S.Delivery) (o : Outcome) : ReportInv (s.joined t o) := by
  cases o with
  | returned success =>
    obtain ⟨ha, hf, he⟩ := h.take t success
    refine ⟨ha, hf, he, h.admitting, fun r hr => ?_⟩
    change s.phase = _ at hr
    simp [hp] at hr
  | panicked =>
    exact ⟨h.acknowledged.trans (countP_take_panicked t true).symm,
      h.failed.trans (countP_take_panicked t false).symm, taskError_take_panicked t,
      fun hr => by simp [SendState.joined] at hr, fun r hr => by simp [SendState.joined] at hr⟩

theorem ReportInv.drained {s : SendState S} (h : ReportInv s) (hp : s.phase = .draining)
    (t : PendingTask S.Delivery) (o : Outcome) : ReportInv (s.drained t o) := by
  have hphase : (s.drained t o).phase = .draining := by cases o <;> exact hp
  have hadm : (s.drained t o).phase = .admitting → (s.drained t o).taskError = none := by
    simp [hphase]
  have hret : ∀ r, (s.drained t o).phase = .returned r →
      (s.drained t o).pending = [] ∧ r = (s.drained t o).result := by
    simp [hphase]
  cases o with
  | returned success =>
    obtain ⟨ha, hf, he⟩ := h.take t success
    exact ⟨ha, hf, he, hadm, hret⟩
  | panicked =>
    exact ⟨h.acknowledged.trans (countP_take_panicked t true).symm,
      h.failed.trans (countP_take_panicked t false).symm, taskError_take_panicked t, hadm, hret⟩

theorem ReportInv.frame {s s' : SendState S} (h : ReportInv s) (hj : joins s'.trace = joins s.trace)
    (hr : s'.report = s.report) (he : s'.taskError = s.taskError)
    (hadm : s'.phase = .admitting → s.phase = .admitting)
    (hret : ∀ r, s'.phase = .returned r → s'.pending = [] ∧ r = s'.result) : ReportInv s' := by
  refine ⟨?_, ?_, ?_, fun hp => he.trans (h.admitting (hadm hp)), hret⟩
  · rw [hr, hj]
    exact h.acknowledged
  · rw [hr, hj]
    exact h.failed
  · rw [he, hj]
    exact h.taskError

theorem ReportInv.move {m : ℕ+} {s s' : SendState S} (h : ReportInv s) (hm : Move m s s') :
    ReportInv s' := by
  have running {t : PendingTask S.Delivery} (ht : t ∈ s.pending) :
      ∀ r, s.phase ≠ .returned r := fun r hr => by
    have := (h.returned r hr).1
    simp [this] at ht
  cases hm with
  | stay => exact h
  | poll input ht _ =>
    exact h.frame (by simp [SendState.polled]) rfl rfl id fun r hr => absurd hr (running ht r)
  | panic ht _ =>
    exact h.frame (by simp [SendState.panicked]) rfl rfl id
      fun r hr => absurd hr (running ht r)
  | stop => exact h.frame rfl rfl rfl (by simp) (by simp)
  | join hp _ _ => exact h.joined hp _ _
  | dispatch hp _ =>
    exact h.frame (by simp [SendState.dispatch]) rfl rfl id
      fun r hr => absurd (hp.symm.trans hr) (by simp)
  | drain hp _ _ => exact h.drained hp _ _
  | finish _ hidle =>
    refine h.frame rfl rfl rfl (by simp) fun r hr => ⟨hidle, ?_⟩
    exact (Phase.returned.inj hr).symm

/-- Everything a run keeps about its deliveries, its trace and its report. -/
structure RunInv (m : ℕ+) (s : SendState S) : Prop where
  send : SendInv m s
  trace : TraceInv s.trace s.index s.pending
  report : ReportInv s

theorem RunInv.move {m : ℕ+} {s s' : SendState S} (h : RunInv m s) (hm : Move m s s') :
    RunInv m s' :=
  ⟨h.send.move hm, h.trace.move h.send hm, h.report.move hm⟩

theorem sendOrders_runInv (m : ℕ+) (w : S.World) (events : List (SendEvent S.Input)) :
    RunInv m ((sendOrders S m w).run events) := by
  refine sendOrders_invariant (I := RunInv m) ⟨sendOrders_inv m w [], ?_, ?_⟩
    (fun _ _ h hm => h.move hm) events
  · exact ⟨rfl, List.Perm.nil, List.Perm.nil, History.causal_nil _⟩
  · exact ⟨rfl, rfl, by simp [joins], fun _ => rfl, by simp⟩

end OrdersDemo
