import OrdersDemo.Workload
import Mathlib.Data.List.Flatten
import Mathlib.Data.List.Pairwise

namespace OrdersDemo

namespace Incarnation

def ids (c : Incarnation) : List ℕ :=
  (List.range c.passes).map (c.seed + 1 + ·)

theorem mem_ids {c : Incarnation} {id : ℕ} :
    id ∈ c.ids ↔ c.seed < id ∧ id ≤ c.seed + c.passes := by
  unfold ids
  rw [List.mem_map]
  constructor
  · rintro ⟨k, hk, rfl⟩
    have hlt := List.mem_range.mp hk
    omega
  · rintro ⟨hlow, hhigh⟩
    refine ⟨id - (c.seed + 1), List.mem_range.mpr ?_, ?_⟩ <;> omega

theorem ids_sorted (c : Incarnation) : c.ids.Pairwise (· < ·) := by
  unfold ids
  rw [List.pairwise_map]
  apply List.pairwise_lt_range.imp
  intro a b hab
  omega

theorem ids_pass (c : Incarnation) :
    (⟨c.seed, c.passes + 1⟩ : Incarnation).ids = c.ids ++ [c.seed + c.passes + 1] := by
  unfold ids
  have hlast : c.seed + 1 + c.passes = c.seed + c.passes + 1 := by omega
  rw [List.range_succ, List.map_append, List.map_singleton, hlast]

/-- Both have inserted, and the ids of `c` come after those of `earlier`. -/
def After (c earlier : Incarnation) : Prop :=
  0 < c.passes → 0 < earlier.passes → earlier.seed + earlier.passes ≤ c.seed

theorem after_iff {c earlier : Incarnation} :
    c.After earlier ↔ ∀ x ∈ earlier.ids, ∀ y ∈ c.ids, x < y := by
  constructor
  · intro h x hx y hy
    have hx := mem_ids.mp hx
    have hy := mem_ids.mp hy
    have hseed := h (by omega) (by omega)
    omega
  · intro h hc hearlier
    have hx : earlier.seed + earlier.passes ∈ earlier.ids := mem_ids.mpr (by omega)
    have hy : c.seed + 1 ∈ c.ids := mem_ids.mpr (by omega)
    have hlt := h _ hx _ hy
    omega

end Incarnation

/-- Any two incarnations that have inserted, the newest first. -/
def Spaced (incarnations : List Incarnation) : Prop :=
  incarnations.Pairwise Incarnation.After

def inserted (sql : List Sql) : List ℕ :=
  sql.filterMap Sql.inserted?

def inLoop : Pc → Bool
  | .top | .counting | .reading | .pruning | .grouping | .pausing _ => true
  | _ => false

/-- The script inserts what its incarnations have counted. -/
structure KeysInv (s : WorkloadState) : Prop where
  inserts : inserted s.sql = s.incarnations.reverse.flatMap Incarnation.ids
  counted : inLoop s.pc = true →
    ∃ c earlier, s.incarnations = c :: earlier ∧ s.id = c.seed + c.passes

variable {config : WorkloadConfig} {s : WorkloadState}

theorem KeysInv.psql (h : KeysInv s) {statement : Sql} (hs : statement.inserted? = none) {pc : Pc}
    (hpc : inLoop pc = true → inLoop s.pc = true) : KeysInv { s.psql statement with pc } where
  inserts := by
    show inserted (s.sql ++ [statement]) = _
    have hnone : inserted [statement] = [] := by simp [inserted, hs]
    rw [inserted, List.filterMap_append]
    show inserted s.sql ++ inserted [statement] = _
    rw [hnone, List.append_nil, h.inserts]
    rfl
  counted := fun hin => h.counted (hpc hin)

theorem KeysInv.goto (h : KeysInv s) {now : ℕ} {pc : Pc}
    (hpc : inLoop pc = true → inLoop s.pc = true) : KeysInv { s with now, pc } :=
  ⟨h.inserts, fun hin => h.counted (hpc hin)⟩

theorem KeysInv.seed (h : KeysInv s) (seconds : ℕ) :
    KeysInv { s with
      id := seconds, incarnations := ⟨seconds, 0⟩ :: s.incarnations, pc := .top } where
  inserts := by
    show inserted s.sql = (_ :: s.incarnations).reverse.flatMap _
    rw [List.reverse_cons, List.flatMap_append, ← h.inserts]
    simp [Incarnation.ids]
  counted := fun _ => ⟨_, _, rfl, rfl⟩

theorem KeysInv.beginPass (h : KeysInv s) (hpc : s.pc = .top) : KeysInv s.beginPass := by
  obtain ⟨c, earlier, hincarnations, hid⟩ := h.counted (by rw [hpc]; rfl)
  have hinserted := h.inserts
  rw [hincarnations, List.reverse_cons, List.flatMap_append] at hinserted
  refine ⟨?_, fun _ => ⟨⟨c.seed, c.passes + 1⟩, earlier, ?_, ?_⟩⟩
  · show inserted (s.sql ++ [_]) = (countPass s.incarnations).reverse.flatMap _
    rw [inserted, List.filterMap_append, hincarnations, countPass, List.reverse_cons,
      List.flatMap_append, List.flatMap_singleton, Incarnation.ids_pass, ← List.append_assoc]
    show inserted s.sql ++ [s.id + 1] = _
    rw [hinserted, List.flatMap_singleton, hid]
  · show countPass s.incarnations = _
    rw [hincarnations]
    rfl
  · show s.id + 1 = c.seed + (c.passes + 1)
    omega

theorem KeysInv.command (h : KeysInv s) (ok : Bool) : KeysInv (s.command config ok) := by
  unfold WorkloadState.command
  cases hpc : s.pc with
  | down => exact h
  | waiting deadline =>
    dsimp only
    split
    next => exact h.psql rfl (by cases ok <;> simp [inLoop])
    next => exact h
  | creating => exact h.psql rfl (by cases ok <;> simp [inLoop])
  | seeding => exact h.seed _
  | top => exact h.beginPass hpc
  | counting => exact h.psql rfl (by simp [hpc, inLoop])
  | reading => exact h.psql rfl (by simp [hpc, inLoop])
  | pruning =>
    dsimp only
    split
    next => exact h.psql rfl (by simp [hpc, inLoop])
    next => exact h.goto (by simp [hpc, inLoop])
  | grouping => exact h.psql rfl (by simp [hpc, inLoop])
  | pausing deadline =>
    dsimp only
    split
    next => exact h.goto (by simp [hpc, inLoop])
    next => exact h

theorem KeysInv.step (h : KeysInv s) (e : WorkloadEvent) : KeysInv (s.step config e) := by
  cases e with
  | elapse duration => exact h.goto id
  | start =>
    simp only [WorkloadState.step]
    split
    next => exact h.goto (by simp [inLoop])
    next => exact h
  | kill => exact h.goto (by simp [inLoop])
  | run ok => exact h.command ok

/-- The ids grow along the whole history exactly when the incarnations are spaced. -/
theorem KeysInv.sorted_iff (h : KeysInv s) :
    (inserted s.sql).Pairwise (· < ·) ↔ Spaced s.incarnations := by
  rw [h.inserts, List.pairwise_flatMap, List.pairwise_reverse]
  simp only [← Incarnation.after_iff]
  exact and_iff_right fun c _ => c.ids_sorted

/-- At the first `INSERT` of an incarnation, the second it has read as its seed has caught up with
the seed and the passes of every earlier incarnation that inserted. -/
def FreshSeed (s : WorkloadState) : WorkloadEvent → Prop
  | .run _ => s.pc = .top → ∀ c earlier, s.incarnations = c :: earlier → c.passes = 0 →
      ∀ old ∈ earlier, 0 < old.passes → old.seed + old.passes ≤ c.seed
  | _ => True

theorem spaced_countPass {c : Incarnation} {earlier : List Incarnation} :
    Spaced (countPass (c :: earlier)) ↔ Spaced (c :: earlier) ∧
      (c.passes = 0 → ∀ old ∈ earlier, 0 < old.passes → old.seed + old.passes ≤ c.seed) := by
  unfold Spaced countPass
  rw [List.pairwise_cons, List.pairwise_cons]
  constructor
  · rintro ⟨hafter, hearlier⟩
    refine ⟨⟨?_, hearlier⟩, ?_⟩
    · intro old hold _
      exact hafter old hold (Nat.succ_pos c.passes)
    · intro _ old hold
      exact hafter old hold (Nat.succ_pos c.passes)
  · rintro ⟨⟨hafter, hearlier⟩, hfresh⟩
    refine ⟨?_, hearlier⟩
    intro old hold _ hpasses
    rcases Nat.eq_zero_or_pos c.passes with hzero | hpos
    · exact hfresh hzero old hold hpasses
    · exact hafter old hold hpos hpasses

theorem spaced_seed {seconds : ℕ} {incarnations : List Incarnation} :
    Spaced (⟨seconds, 0⟩ :: incarnations) ↔ Spaced incarnations := by
  unfold Spaced
  rw [List.pairwise_cons]
  exact and_iff_right fun _ _ hpasses => absurd hpasses (Nat.lt_irrefl 0)

theorem freshSeed_top {c : Incarnation} {earlier : List Incarnation} {ok : Bool}
    (hpc : s.pc = .top) (h : s.incarnations = c :: earlier) :
    FreshSeed s (.run ok) ↔
      (c.passes = 0 → ∀ old ∈ earlier, 0 < old.passes → old.seed + old.passes ≤ c.seed) := by
  constructor
  · exact fun hfresh => hfresh hpc c earlier h
  · intro hfresh _ c' earlier' h'
    obtain ⟨rfl, rfl⟩ := List.cons.inj (h.symm.trans h')
    exact hfresh

theorem step_spaced (e : WorkloadEvent) :
    Spaced (s.step config e).incarnations ↔ Spaced s.incarnations ∧ FreshSeed s e := by
  have hsame (h : FreshSeed s e) : Spaced s.incarnations ↔ Spaced s.incarnations ∧ FreshSeed s e :=
    (and_iff_left h).symm
  cases e with
  | elapse duration => exact hsame trivial
  | start =>
    have hincarnations : (s.step config .start).incarnations = s.incarnations := by
      simp only [WorkloadState.step]
      split <;> rfl
    rw [hincarnations]
    exact hsame trivial
  | kill => exact hsame trivial
  | run ok =>
    have hother (hpc : s.pc ≠ .top) : FreshSeed s (.run ok) := fun htop => absurd htop hpc
    show Spaced (s.command config ok).incarnations ↔ _
    unfold WorkloadState.command
    cases hpc : s.pc with
    | top =>
      show Spaced (countPass s.incarnations) ↔ _
      cases hincarnations : s.incarnations with
      | nil =>
        have hfresh : FreshSeed s (.run ok) := by
          intro _ c earlier hcons
          simp [hincarnations] at hcons
        exact (and_iff_left hfresh).symm
      | cons c earlier => rw [spaced_countPass, freshSeed_top hpc hincarnations]
    | seeding =>
      show Spaced (⟨dateSeconds s.now, 0⟩ :: s.incarnations) ↔ _
      rw [spaced_seed]
      exact hsame (hother (by simp [hpc]))
    | waiting deadline =>
      dsimp only
      split <;> exact hsame (hother (by simp [hpc]))
    | pausing deadline =>
      dsimp only
      split <;> exact hsame (hother (by simp [hpc]))
    | pruning =>
      dsimp only
      split <;> exact hsame (hother (by simp [hpc]))
    | down | creating | counting | reading | grouping => exact hsame (hother (by simp [hpc]))

/-- In every run, the ids of the workload grow exactly when each incarnation that inserts was
seeded late enough. -/
theorem workload_ids_sorted_iff (config : WorkloadConfig) (now : ℕ) (events : List WorkloadEvent) :
    (inserted ((workload config now).run events).sql).Pairwise (· < ·) ↔
      (workload config now).Meets FreshSeed (workload config now).init events := by
  have hinv : KeysInv ((workload config now).run events) := by
    apply (workload config now).run_invariant
    · exact ⟨rfl, by simp [workload, inLoop]⟩
    · intro s e h
      exact h.step e
  have hmeets := (workload config now).runFrom_iff_meets
    (I := fun s => Spaced s.incarnations) (C := FreshSeed) (fun s e => step_spaced e)
    (workload config now).init events
  rw [hinv.sorted_iff]
  exact hmeets.trans (and_iff_right List.Pairwise.nil)

/-- The script from its start to its first `INSERT`. -/
def firstInsert : List WorkloadEvent :=
  [.start, .run true, .run true, .run true, .run true]

/-- What is left of a pass that does not prune, and the next one up to its `INSERT`. -/
def nextInsert : List WorkloadEvent :=
  List.replicate 6 (.run true)

/-- With the default interval, a container that is killed after its first `INSERT` and started
again within the second inserts the same id. With an interval of zero it may have run ahead of the
clock, and then a later second does not help. -/
theorem workload_repeats_id :
    (let ids := inserted ((workload {} 0).run (firstInsert ++ .kill :: firstInsert)).sql
     ids = [1, 1] ∧ ¬ ids.Pairwise (· < ·)) ∧
      (let ids := inserted ((workload { interval := 0 } 0).run
        (firstInsert ++ nextInsert ++ nextInsert ++ [.kill, .elapse (10 ^ 9)] ++ firstInsert)).sql
       ids = [1, 2, 3, 2] ∧ ¬ ids.Pairwise (· < ·)) := by
  decide

end OrdersDemo
