import OrdersDemo.SendMoves

namespace OrdersDemo

variable {S : Sender}

/-- The category key of the order with index `i`. -/
def orderKey (i : ℕ) : String :=
  (orderAt i).category

/-- A delivery as an item of the admission queue keyed by category. -/
def SendAct.schedule {E : Type} : SendAct E → KeyedAdmission.Act
  | .send i _ => .enter i
  | .effect i _ => .work i
  | .finish i _ => .work i
  | .join i _ => .release i

@[simp] theorem SendAct.item_schedule {E : Type} (a : SendAct E) : a.schedule.item = a.index := by
  cases a <;> rfl

def SendState.indices (s : SendState S) : List ℕ :=
  s.pending.map (·.index)

/-- The representation invariant of `send_orders`. -/
structure SendInv (m : ℕ+) (s : SendState S) : Prop where
  next : s.next = orderAt s.index
  keys : ∀ t ∈ s.pending, t.key = orderKey t.index
  scheduled :
    KeyedAdmission.Scheduled orderKey (s.trace.map SendAct.schedule) s.index s.indices
  bounded : s.pending.length ≤ (m : ℕ)
  held : ∀ t ∈ s.pending, t.key ∈ s.activeKeys
  active : s.phase = .admitting → s.activeKeys = (s.pending.map (·.key)).toFinset

theorem SendInv.index_lt {m : ℕ+} {s : SendState S} (h : SendInv m s) {a : SendAct S.Effect}
    (ha : a ∈ s.trace) : a.index < s.index := by
  have hlt := h.scheduled.item_lt _ (List.mem_map_of_mem ha)
  rwa [SendAct.item_schedule] at hlt

theorem setTask_indices {D : Type} (p : List (PendingTask D)) (i : ℕ) (st : TaskState D) :
    (setTask p i st).map (·.index) = p.map (·.index) := by
  rw [setTask, List.map_map]
  apply List.map_congr_left
  intro t _
  by_cases h : t.index = i <;> simp [h]

theorem setTask_keys {D : Type} (p : List (PendingTask D)) (i : ℕ) (st : TaskState D) :
    (setTask p i st).map (·.key) = p.map (·.key) := by
  rw [setTask, List.map_map]
  apply List.map_congr_left
  intro t _
  by_cases h : t.index = i <;> simp [h]

theorem mem_setTask {D : Type} {p : List (PendingTask D)} {i : ℕ} {st : TaskState D}
    {t : PendingTask D} : t ∈ setTask p i st ↔
      (∃ u ∈ p, u.index = i ∧ t = { u with state := st }) ∨ (t ∈ p ∧ t.index ≠ i) := by
  simp only [setTask, List.mem_map]
  constructor
  · rintro ⟨u, hu, rfl⟩
    by_cases h : u.index = i
    · exact Or.inl ⟨u, hu, h, by simp [h]⟩
    · exact Or.inr (by simp [h, hu])
  · rintro (⟨u, hu, h, rfl⟩ | ⟨ht, h⟩)
    · exact ⟨u, hu, by simp [h]⟩
    · exact ⟨t, ht, by simp [h]⟩

theorem map_schedule_ofPoll {D E : Type} (i : ℕ) (effects : List E) (answer : D ⊕ Bool) :
    ∃ k, (SendAct.ofPoll i effects answer).map SendAct.schedule = List.replicate k (.work i) := by
  have he : (effects.map (SendAct.effect i)).map SendAct.schedule =
      List.replicate effects.length (.work i) := by
    rw [List.map_map]
    exact List.map_const'
  cases answer with
  | inl _ => exact ⟨_, he⟩
  | inr success =>
    refine ⟨effects.length + 1, ?_⟩
    rw [SendAct.ofPoll, List.map_append, he, List.replicate_succ']
    rfl

theorem guard_iff {m : ℕ+} {s : SendState S} : s.guard m = true ↔
    s.pending.length < (m : ℕ) ∧ s.next.category ∉ s.activeKeys := by
  simp [SendState.guard]

theorem SendInv.key_inj {m : ℕ+} {s : SendState S} (h : SendInv m s)
    {t u : PendingTask S.Delivery} (ht : t ∈ s.pending) (hu : u ∈ s.pending)
    (hk : t.key = u.key) : t.index = u.index := by
  rw [h.keys t ht, h.keys u hu] at hk
  exact List.inj_on_of_nodup_map h.scheduled.keys_nodup (List.mem_map_of_mem ht)
    (List.mem_map_of_mem hu) hk

theorem SendInv.keys_map {m : ℕ+} {s : SendState S} (h : SendInv m s) :
    s.pending.map (·.key) = s.indices.map orderKey := by
  rw [SendState.indices, List.map_map]
  exact List.map_congr_left fun t ht => h.keys t ht

theorem take_indices (s : SendState S) (t : PendingTask S.Delivery) (o : Outcome) :
    (s.take t o).indices = s.indices.filter (· ≠ t.index) := by
  simp only [SendState.indices, SendState.take, List.filter_map]
  rfl

theorem SendInv.take_scheduled {m : ℕ+} {s : SendState S} (h : SendInv m s)
    {t : PendingTask S.Delivery} (ht : t ∈ s.pending) (o : Outcome) :
    KeyedAdmission.Scheduled orderKey ((s.take t o).trace.map SendAct.schedule) s.index
      (s.take t o).indices := by
  rw [take_indices, SendState.take, List.map_append]
  exact h.scheduled.release (List.mem_map_of_mem ht)

theorem SendInv.take_keys {m : ℕ+} {s : SendState S} (h : SendInv m s)
    (t : PendingTask S.Delivery) (o : Outcome) :
    ∀ u ∈ (s.take t o).pending, u.key = orderKey u.index :=
  fun u hu => h.keys u (List.mem_filter.mp hu).1

theorem SendInv.take_bounded {m : ℕ+} {s : SendState S} (h : SendInv m s)
    (t : PendingTask S.Delivery) (o : Outcome) : (s.take t o).pending.length ≤ (m : ℕ) :=
  (List.length_filter_le _ _).trans h.bounded

theorem SendInv.take_active {m : ℕ+} {s : SendState S} (h : SendInv m s)
    {t : PendingTask S.Delivery} (ht : t ∈ s.pending) (hp : s.phase = .admitting) (o : Outcome) :
    s.activeKeys.erase t.key = ((s.take t o).pending.map (·.key)).toFinset := by
  ext k
  simp only [h.active hp, SendState.take, Finset.mem_erase, List.mem_toFinset, List.mem_map,
    List.mem_filter, decide_eq_true_eq]
  constructor
  · rintro ⟨hne, u, hu, rfl⟩
    refine ⟨u, ⟨hu, fun hi => hne ?_⟩, rfl⟩
    rw [h.keys u hu, h.keys t ht, hi]
  · rintro ⟨u, ⟨hu, hi⟩, rfl⟩
    exact ⟨fun hk => hi (h.key_inj hu ht hk), u, hu, rfl⟩

theorem SendInv.setTask {m : ℕ+} {s : SendState S} (h : SendInv m s) (w : S.World) (i : ℕ)
    (st : TaskState S.Delivery) {acts : List (SendAct S.Effect)} {k : ℕ}
    (hi : i ∈ s.indices) (hacts : acts.map SendAct.schedule = List.replicate k (.work i)) :
    SendInv m { s with
      world := w, pending := setTask s.pending i st, trace := s.trace ++ acts } where
  next := h.next
  keys := by
    intro t ht
    rcases mem_setTask.mp ht with ⟨u, hu, _, rfl⟩ | ⟨ht, _⟩
    · exact h.keys u hu
    · exact h.keys t ht
  scheduled := by
    simp only [SendState.indices, setTask_indices, List.map_append, hacts]
    exact h.scheduled.works hi k
  bounded := by simpa [OrdersDemo.setTask] using h.bounded
  held := by
    intro t ht
    rcases mem_setTask.mp ht with ⟨u, hu, _, rfl⟩ | ⟨ht, _⟩
    · exact h.held u hu
    · exact h.held t ht
  active := fun hp => by simpa only [setTask_keys] using h.active hp

theorem SendInv.dispatch {m : ℕ+} {s : SendState S} (h : SendInv m s) (hp : s.phase = .admitting)
    (hg : s.guard m = true) : SendInv m s.dispatch := by
  obtain ⟨hlen, hkey⟩ := guard_iff.mp hg
  have hnext : s.next.category = orderKey s.index := by rw [h.next]; rfl
  have hfree : ∀ i ∈ s.indices, orderKey i ≠ orderKey s.index := by
    intro i hi he
    obtain ⟨t, ht, rfl⟩ := List.mem_map.mp hi
    apply hkey
    rw [h.active hp, hnext, ← he, ← h.keys t ht]
    exact List.mem_toFinset.mpr (List.mem_map_of_mem ht)
  refine ⟨rfl, ?_, ?_, ?_, ?_, ?_⟩
  · intro t ht
    rcases List.mem_append.mp ht with ht | ht
    · exact h.keys t ht
    · obtain rfl := List.mem_singleton.mp ht
      exact hnext
  · simpa [SendState.dispatch, SendState.indices, SendAct.schedule] using h.scheduled.enter hfree
  · simp only [SendState.dispatch, List.length_append, List.length_singleton]
    omega
  · intro t ht
    rcases List.mem_append.mp ht with ht | ht
    · exact Finset.mem_insert_of_mem (h.held t ht)
    · obtain rfl := List.mem_singleton.mp ht
      exact Finset.mem_insert_self _ _
  · intro _
    ext k
    simp only [SendState.dispatch, h.active hp, Finset.mem_insert, List.mem_toFinset,
      List.map_append, List.map_cons, List.map_nil, List.mem_append, List.mem_singleton]
    exact or_comm

theorem SendInv.take_held {m : ℕ+} {s : SendState S} (h : SendInv m s)
    (t : PendingTask S.Delivery) (o : Outcome) :
    ∀ u ∈ (s.take t o).pending, u.key ∈ s.activeKeys :=
  fun u hu => h.held u (List.mem_filter.mp hu).1

theorem SendInv.joined {m : ℕ+} {s : SendState S} (h : SendInv m s) (hp : s.phase = .admitting)
    {t : PendingTask S.Delivery} (ht : t ∈ s.pending) (o : Outcome) :
    SendInv m (s.joined t o) := by
  cases o with
  | returned success =>
    have hkeys := h.take_active ht hp (.returned success)
    refine ⟨h.next, h.take_keys t (.returned success), h.take_scheduled ht (.returned success),
      h.take_bounded t (.returned success), ?_, fun _ => hkeys⟩
    intro u hu
    change u.key ∈ s.activeKeys.erase t.key
    rw [hkeys]
    exact List.mem_toFinset.mpr (List.mem_map_of_mem hu)
  | panicked =>
    exact ⟨h.next, h.take_keys t .panicked, h.take_scheduled ht .panicked,
      h.take_bounded t .panicked, h.take_held t .panicked, by simp [SendState.joined]⟩

theorem SendInv.drained {m : ℕ+} {s : SendState S} (h : SendInv m s) (hp : s.phase = .draining)
    {t : PendingTask S.Delivery} (ht : t ∈ s.pending) (o : Outcome) :
    SendInv m (s.drained t o) := by
  cases o with
  | returned success =>
    exact ⟨h.next, h.take_keys t (.returned success), h.take_scheduled ht (.returned success),
      h.take_bounded t (.returned success), h.take_held t (.returned success),
      by simp [SendState.drained, SendState.take, hp]⟩
  | panicked =>
    exact ⟨h.next, h.take_keys t .panicked, h.take_scheduled ht .panicked,
      h.take_bounded t .panicked, h.take_held t .panicked,
      by simp [SendState.drained, SendState.take, hp]⟩

theorem SendInv.move {m : ℕ+} {s s' : SendState S} (h : SendInv m s) (hm : Move m s s') :
    SendInv m s' := by
  cases hm with
  | stay => exact h
  | @poll t d input ht _ =>
    obtain ⟨k, hk⟩ := map_schedule_ofPoll t.index (S.poll s.world d input).2.1
      (S.poll s.world d input).2.2
    exact h.setTask _ _ _ (List.mem_map_of_mem ht) hk
  | @panic t d ht _ =>
    exact h.setTask s.world _ _ (k := 1) (List.mem_map_of_mem ht) rfl
  | stop => exact ⟨h.next, h.keys, h.scheduled, h.bounded, h.held, by simp⟩
  | join hp ht _ => exact h.joined hp ht _
  | dispatch hp hg => exact h.dispatch hp hg
  | drain hp ht _ => exact h.drained hp ht _
  | finish => exact ⟨h.next, h.keys, h.scheduled, h.bounded, h.held, by simp⟩

theorem sendOrders_inv (m : ℕ+) (w : S.World) (events : List (SendEvent S.Input)) :
    SendInv m ((sendOrders S m w).run events) :=
  sendOrders_invariant (I := SendInv m)
    ⟨rfl, by simp, .start, Nat.zero_le _, by simp, fun _ => rfl⟩ (fun _ _ h hm => h.move hm) events

end OrdersDemo
