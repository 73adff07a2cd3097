import OrdersDemo.SendInvariant

namespace OrdersDemo

variable {S : Sender}

section Observations

variable {E : Type}

@[simp] def SendAct.sent? : SendAct E → Option Order
  | .send _ order => some order
  | _ => none

@[simp] def SendAct.finish? : SendAct E → Option (ℕ × Outcome)
  | .finish i o => some (i, o)
  | _ => none

@[simp] def SendAct.join? : SendAct E → Option (ℕ × Outcome)
  | .join i o => some (i, o)
  | _ => none

@[simp] def SendAct.effect? : SendAct E → Option (ℕ × E)
  | .effect i e => some (i, e)
  | _ => none

def sends (t : List (SendAct E)) : List Order :=
  t.filterMap SendAct.sent?

/-- The deliveries that have run to completion or to a panic. -/
def finishes (t : List (SendAct E)) : List (ℕ × Outcome) :=
  t.filterMap SendAct.finish?

def joins (t : List (SendAct E)) : List (ℕ × Outcome) :=
  t.filterMap SendAct.join?

def effects (t : List (SendAct E)) : List (ℕ × E) :=
  t.filterMap SendAct.effect?

/-- What the delivery of order `i` has been seen to do. -/
def effectsOf (i : ℕ) (t : List (SendAct E)) : List E :=
  ((effects t).filter (·.1 = i)).map Prod.snd

theorem mem_joins {t : List (SendAct E)} {i : ℕ} {o : Outcome} :
    (i, o) ∈ joins t ↔ .join i o ∈ t := by
  simp only [joins, List.mem_filterMap]
  constructor
  · rintro ⟨a, ha, he⟩
    cases a <;> simp only [SendAct.join?, reduceCtorEq, Option.some.injEq, Prod.mk.injEq] at he
    obtain ⟨rfl, rfl⟩ := he
    exact ha
  · exact fun h => ⟨_, h, rfl⟩

theorem mem_finishes {t : List (SendAct E)} {i : ℕ} {o : Outcome} :
    (i, o) ∈ finishes t ↔ .finish i o ∈ t := by
  simp only [finishes, List.mem_filterMap]
  constructor
  · rintro ⟨a, ha, he⟩
    cases a <;> simp only [SendAct.finish?, reduceCtorEq, Option.some.injEq, Prod.mk.injEq] at he
    obtain ⟨rfl, rfl⟩ := he
    exact ha
  · exact fun h => ⟨_, h, rfl⟩

theorem mem_effects {t : List (SendAct E)} {i : ℕ} {e : E} :
    (i, e) ∈ effects t ↔ .effect i e ∈ t := by
  simp only [effects, List.mem_filterMap]
  constructor
  · rintro ⟨a, ha, he⟩
    cases a <;> simp only [SendAct.effect?, reduceCtorEq, Option.some.injEq, Prod.mk.injEq] at he
    obtain ⟨rfl, rfl⟩ := he
    exact ha
  · exact fun h => ⟨_, h, rfl⟩

theorem mem_effectsOf {t : List (SendAct E)} {i : ℕ} {e : E} :
    e ∈ effectsOf i t ↔ .effect i e ∈ t := by
  rw [effectsOf, List.mem_map]
  constructor
  · rintro ⟨⟨j, e⟩, hfibre, rfl⟩
    obtain ⟨hmem, hj⟩ := List.mem_filter.mp hfibre
    obtain rfl : j = i := by simpa using hj
    exact mem_effects.mp hmem
  · intro h
    exact ⟨(i, e), List.mem_filter.mpr ⟨mem_effects.mpr h, by simp⟩, rfl⟩

theorem effectsOf_eq_nil {t : List (SendAct E)} {i : ℕ} (h : ∀ e, .effect i e ∉ t) :
    effectsOf i t = [] := by
  refine List.map_eq_nil_iff.mpr (List.filter_eq_nil_iff.mpr ?_)
  rintro ⟨j, e⟩ he hj
  obtain rfl : j = i := by simpa using hj
  exact h e (mem_effects.mp he)

@[simp] theorem sends_append (t u : List (SendAct E)) : sends (t ++ u) = sends t ++ sends u :=
  List.filterMap_append

@[simp] theorem finishes_append (t u : List (SendAct E)) :
    finishes (t ++ u) = finishes t ++ finishes u :=
  List.filterMap_append

@[simp] theorem joins_append (t u : List (SendAct E)) : joins (t ++ u) = joins t ++ joins u :=
  List.filterMap_append

@[simp] theorem effects_append (t u : List (SendAct E)) :
    effects (t ++ u) = effects t ++ effects u :=
  List.filterMap_append

@[simp] theorem effectsOf_append (i : ℕ) (t u : List (SendAct E)) :
    effectsOf i (t ++ u) = effectsOf i t ++ effectsOf i u := by
  simp [effectsOf]

@[simp] theorem sends_singleton (a : SendAct E) : sends [a] = a.sent?.toList := by
  cases a <;> rfl

@[simp] theorem finishes_singleton (a : SendAct E) : finishes [a] = a.finish?.toList := by
  cases a <;> rfl

@[simp] theorem joins_singleton (a : SendAct E) : joins [a] = a.join?.toList := by
  cases a <;> rfl

@[simp] def TaskState.done? {D : Type} : TaskState D → Option Outcome
  | .running _ => none
  | .finished o => some o

/-- The deliveries in the set that have finished and wait to be joined. -/
def doneTasks {D : Type} (p : List (PendingTask D)) : List (ℕ × Outcome) :=
  p.filterMap fun t => t.state.done?.map (t.index, ·)

theorem doneTasks_append {D : Type} (p q : List (PendingTask D)) :
    doneTasks (p ++ q) = doneTasks p ++ doneTasks q :=
  List.filterMap_append

theorem doneTasks_cons {D : Type} (t : PendingTask D) (p : List (PendingTask D)) :
    doneTasks (t :: p) = (t.state.done?.map (t.index, ·)).toList ++ doneTasks p := by
  cases h : t.state <;> simp [doneTasks, h]

variable {D : Type} (i : ℕ) (effects : List E) (answer : D ⊕ Bool)

@[simp] theorem sends_ofPoll : sends (SendAct.ofPoll i effects answer) = [] := by
  cases answer <;> simp [SendAct.ofPoll, sends, List.filterMap_map]

@[simp] theorem joins_ofPoll : joins (SendAct.ofPoll i effects answer) = [] := by
  cases answer <;> simp [SendAct.ofPoll, joins, List.filterMap_map]

@[simp] theorem effects_ofPoll :
    OrdersDemo.effects (SendAct.ofPoll i effects answer) = effects.map (i, ·) := by
  cases answer <;>
    simp [SendAct.ofPoll, OrdersDemo.effects, List.filterMap_map, Function.comp_def]

theorem effectsOf_ofPoll :
    effectsOf i (SendAct.ofPoll i effects answer) = effects := by
  simp [effectsOf, List.filter_map, Function.comp_def]

@[simp] theorem finishes_ofPoll : finishes (SendAct.ofPoll i effects answer) =
    ((TaskState.ofPoll answer).done?.map (i, ·)).toList := by
  cases answer <;>
    simp [SendAct.ofPoll, finishes, List.filterMap_map, TaskState.ofPoll]

end Observations

/-- A pending task splits the set in two; replacing its state or taking it out leaves the rest. -/
theorem pending_split {D : Type} {p : List (PendingTask D)} (hn : (p.map (·.index)).Nodup)
    {t : PendingTask D} (ht : t ∈ p) :
    ∃ l r, p = l ++ t :: r ∧ (∀ st, setTask p t.index st = l ++ { t with state := st } :: r) ∧
      p.filter (·.index ≠ t.index) = l ++ r := by
  obtain ⟨l, r, rfl⟩ := List.append_of_mem ht
  rw [List.map_append, List.map_cons, List.nodup_middle, List.nodup_cons] at hn
  have hne : ∀ u ∈ l ++ r, u.index ≠ t.index := fun u hu he =>
    hn.1 (by rw [← List.map_append]; exact List.mem_map.mpr ⟨u, hu, he⟩)
  have hset : ∀ xs : List (PendingTask D), (∀ u ∈ xs, u.index ≠ t.index) → ∀ st,
      setTask xs t.index st = xs := by
    intro xs hxs st
    rw [setTask]
    conv_rhs => rw [← List.map_id xs]
    exact List.map_congr_left fun u hu => if_neg (hxs u hu)
  have hl := hset l fun u hu => hne u (List.mem_append_left _ hu)
  have hr := hset r fun u hu => hne u (List.mem_append_right _ hu)
  refine ⟨l, r, rfl, fun st => ?_, ?_⟩
  · have := hl st
    have := hr st
    simp_all [setTask]
  · have hfl : l.filter (·.index ≠ t.index) = l := List.filter_eq_self.mpr fun u hu =>
      decide_eq_true (hne u (List.mem_append_left _ hu))
    have hfr : r.filter (·.index ≠ t.index) = r := List.filter_eq_self.mpr fun u hu =>
      decide_eq_true (hne u (List.mem_append_right _ hu))
    rw [List.filter_append, List.filter_cons_of_neg (by simp), hfl, hfr]

theorem doneTasks_setTask {D : Type} {p : List (PendingTask D)} (hn : (p.map (·.index)).Nodup)
    {t : PendingTask D} {d : D} (ht : t ∈ p) (hs : t.state = .running d) (st : TaskState D) :
    (doneTasks (setTask p t.index st)).Perm
      (doneTasks p ++ (st.done?.map (t.index, ·)).toList) := by
  obtain ⟨l, r, hp, hset, _⟩ := pending_split hn ht
  rw [hset st, hp]
  simp only [doneTasks_append, doneTasks_cons, hs, TaskState.done?, Option.map_none,
    Option.toList_none, List.nil_append, List.append_assoc]
  exact List.Perm.append_left _ List.perm_append_comm

theorem doneTasks_take {D : Type} {p : List (PendingTask D)} (hn : (p.map (·.index)).Nodup)
    {t : PendingTask D} {o : Outcome} (ht : t ∈ p) (hs : t.state = .finished o) :
    (doneTasks p).Perm ((t.index, o) :: doneTasks (p.filter (·.index ≠ t.index))) := by
  obtain ⟨l, r, hp, _, hf⟩ := pending_split hn ht
  rw [hf, hp]
  simp only [doneTasks_append, doneTasks_cons, hs, TaskState.done?, Option.map_some,
    Option.toList_some, List.singleton_append]
  exact List.perm_middle

end OrdersDemo
