import Mathlib.Order.Interval.Finset.Nat
import OrdersDemo.WorkloadKeys

namespace OrdersDemo

structure OrderRow where
  id : ℕ
  region : String
  amountCents : ℕ
  deriving DecidableEq

def orderRow (id : ℕ) : OrderRow :=
  ⟨id, regionOf id, id * 37 % 9900 + 100⟩

/-- The server behind `psql`: the rows of `demo_orders`, with the oldest first, and what becomes of
a statement. -/
structure SqlServer where
  World : Type
  Input : Type
  rows : World → List OrderRow
  exec : World → Input → Sql → Bool × World

/-- A statement that does not write to the table. -/
def Sql.quiet : Sql → Bool
  | .insert _ _ _ => false
  | .prune _ => false
  | _ => true

/-- What the workload relies on: nothing else writes to its table, whose ids are a primary key, and
a statement takes effect as a whole or not at all, whatever `psql` hears of it. -/
structure SqlServer.Lawful (server : SqlServer) : Prop where
  insert : ∀ w input id region amountCents,
    let later := (server.exec w input (.insert id region amountCents)).2
    server.rows later = server.rows w ∨ id ∉ (server.rows w).map OrderRow.id ∧
      server.rows later = server.rows w ++ [⟨id, region, amountCents⟩]
  prune : ∀ w input below,
    let later := (server.exec w input (.prune below)).2
    server.rows later = server.rows w ∨
      server.rows later = (server.rows w).filter fun row => below ≤ row.id
  quiet : ∀ w input statement, statement.quiet = true →
    server.rows (server.exec w input statement).2 = server.rows w

/-- The script with the server behind it. An observer notes the ids that were taken, and since the
last prune that took effect, the `INSERT`s and how often the script lost its place: by a new seed
or by a prune that did not take effect. -/
structure GresState (server : SqlServer) where
  script : WorkloadState
  world : server.World
  taken : List ℕ := []
  unpruned : ℕ := 0
  missed : ℕ := 0

inductive GresEvent (Input : Type) where
  | elapse (duration : Duration)
  | start
  | kill
  | run (input : Input)

namespace GresState

variable {server : SqlServer} (config : WorkloadConfig)

def rows (g : GresState server) : List OrderRow :=
  server.rows g.world

def sends (g : GresState server) : List Sql :=
  (g.script.command config true).sql.drop g.script.sql.length

def receive (input : server.Input) (g : GresState server) (statement : Sql) : GresState server :=
  let world := (server.exec g.world input statement).2
  match statement with
  | .insert id _ _ =>
    { g with
      world
      taken := if server.rows world = g.rows then g.taken else id :: g.taken
      unpruned := g.unpruned + 1 }
  | .prune below =>
    if server.rows world = g.rows.filter fun row => below ≤ row.id then
      { g with world, unpruned := 0, missed := 0 }
    else { g with world, missed := g.missed + 1 }
  | _ => { g with world }

/-- The script learns whether its statement succeeded. -/
def heard (g : GresState server) (input : server.Input) : Bool :=
  (g.sends config).all fun statement => (server.exec g.world input statement).1

def step (g : GresState server) : GresEvent server.Input → GresState server
  | .elapse duration => { g with script := g.script.step config (.elapse duration) }
  | .start => { g with script := g.script.step config .start }
  | .kill => { g with script := g.script.step config .kill }
  | .run input =>
    { (g.sends config).foldl (receive input) g with
      script := g.script.step config (.run (g.heard config input))
      missed := ((g.sends config).foldl (receive input) g).missed +
        if g.script.pc = .seeding then 1 else 0 }

end GresState

/-- `workload.sh` and the table that it writes to. -/
def gres (server : SqlServer) (config : WorkloadConfig) (now : ℕ) (world : server.World) :
    Machine (GresState server) (GresEvent server.Input) where
  init := { script := { now }, world }
  step := GresState.step config

/-- The `INSERT` of the current pass is behind the script, and its prune is not. -/
def inPass : Pc → Bool
  | .counting | .reading | .pruning => true
  | _ => false

/-- How many `INSERT`s a script can have sent since it last lost its place or came to a prune. -/
def WorkloadState.passed (s : WorkloadState) : ℕ :=
  match s.pc with
  | .top | .grouping | .pausing _ => s.id % 25
  | .counting | .reading | .pruning => (s.id - 1) % 25 + 1
  | _ => 25

theorem WorkloadState.passed_le (s : WorkloadState) : s.passed ≤ 25 := by
  unfold passed
  split <;> omega

structure TableInv {server : SqlServer} (config : WorkloadConfig) (g : GresState server) :
    Prop where
  keys : (g.rows.map OrderRow.id).Nodup
  rows : ∀ row ∈ g.rows, row = orderRow row.id ∧ row.id ∈ inserted g.script.sql
  kept : ∀ x ∈ g.taken, (∀ y ∈ inserted g.script.sql, y ≤ x + config.retain) →
    x ∈ g.rows.map OrderRow.id
  last : inPass g.script.pc = true → (inserted g.script.sql).getLast? = some g.script.id
  unpruned : g.unpruned ≤ 25 * g.missed + g.script.passed
  bounded : (inserted g.script.sql).Pairwise (· < ·) →
    g.rows.length ≤ config.retain + 1 + g.unpruned

section Steps

variable {server : SqlServer} {config : WorkloadConfig} {g : GresState server}

theorem TableInv.quiet (h : TableInv config g) {s : WorkloadState} (missed : ℕ)
    (hsql : inserted s.sql = inserted g.script.sql)
    (hlast : inPass s.pc = true → inPass g.script.pc = true ∧ s.id = g.script.id)
    (hpassed : 25 * g.missed + g.script.passed ≤ 25 * missed + s.passed) :
    TableInv config { g with script := s, missed } where
  keys := h.keys
  rows := by
    show ∀ row ∈ g.rows, row = orderRow row.id ∧ row.id ∈ inserted s.sql
    rw [hsql]
    exact h.rows
  kept := by
    show ∀ x ∈ g.taken, (∀ y ∈ inserted s.sql, y ≤ x + config.retain) → x ∈ g.rows.map OrderRow.id
    rw [hsql]
    exact h.kept
  last := by
    intro hpass
    obtain ⟨hpass, hid⟩ := hlast hpass
    show (inserted s.sql).getLast? = some s.id
    rw [hsql, hid]
    exact h.last hpass
  unpruned := h.unpruned.trans hpassed
  bounded := by
    show (inserted s.sql).Pairwise (· < ·) → g.rows.length ≤ config.retain + 1 + g.unpruned
    rw [hsql]
    exact h.bounded

theorem TableInv.world (h : TableInv config g) {world : server.World}
    (hrows : server.rows world = g.rows) : TableInv config { g with world } where
  keys := by
    show ((server.rows world).map OrderRow.id).Nodup
    rw [hrows]
    exact h.keys
  rows := by
    show ∀ row ∈ server.rows world, row = orderRow row.id ∧ row.id ∈ inserted g.script.sql
    rw [hrows]
    exact h.rows
  kept := by
    show ∀ x ∈ g.taken, (∀ y ∈ inserted g.script.sql, y ≤ x + config.retain) →
      x ∈ (server.rows world).map OrderRow.id
    rw [hrows]
    exact h.kept
  last := h.last
  unpruned := h.unpruned
  bounded := by
    show (inserted g.script.sql).Pairwise (· < ·) →
      (server.rows world).length ≤ config.retain + 1 + g.unpruned
    rw [hrows]
    exact h.bounded

/-- The ids that a prune leaves, when they were inserted in order. -/
theorem length_of_window {rows : List OrderRow} {low high : ℕ}
    (hkeys : (rows.map OrderRow.id).Nodup) (hrows : ∀ row ∈ rows, low ≤ row.id ∧ row.id ≤ high) :
    rows.length ≤ high + 1 - low := by
  have hsub : (rows.map OrderRow.id).toFinset ⊆ Finset.Icc low high := by
    intro id hid
    obtain ⟨row, hrow, rfl⟩ := List.mem_map.mp (List.mem_toFinset.mp hid)
    exact Finset.mem_Icc.mpr (hrows row hrow)
  have hcard := Finset.card_le_card hsub
  rwa [List.toFinset_card_of_nodup hkeys, List.length_map, Nat.card_Icc] at hcard

theorem le_last {ids : List ℕ} {last : ℕ} (hsorted : ids.Pairwise (· < ·))
    (hlast : ids.getLast? = some last) : ∀ id ∈ ids, id ≤ last := by
  obtain ⟨earlier, rfl⟩ := List.getLast?_eq_some_iff.mp hlast
  intro id hid
  rcases List.mem_append.mp hid with hid | hid
  · exact Nat.le_of_lt ((List.pairwise_append.mp hsorted).2.2 id hid last (.head _))
  · exact Nat.le_of_eq (List.mem_singleton.mp hid)

/-- The script sends an `INSERT`, which leaves the table alone. -/
theorem TableInv.sent (h : TableInv config g) {s : WorkloadState}
    (hsql : inserted s.sql = inserted g.script.sql ++ [s.id])
    (hpassed : g.script.passed + 1 ≤ s.passed) :
    TableInv config { g with script := s, unpruned := g.unpruned + 1 } := by
  have hold : ∀ y ∈ inserted g.script.sql, y ∈ inserted s.sql := by
    intro y hy
    rw [hsql]
    exact List.mem_append_left _ hy
  refine ⟨h.keys, fun row hrow => ⟨(h.rows row hrow).1, hold _ (h.rows row hrow).2⟩,
    fun x hx hy => h.kept x hx fun y hm => hy y (hold y hm), fun _ => ?_, ?_, fun hs => ?_⟩
  · show (inserted s.sql).getLast? = some s.id
    rw [hsql, List.getLast?_concat]
  · have hunpruned := h.unpruned
    show g.unpruned + 1 ≤ 25 * g.missed + s.passed
    omega
  · have hsorted : (inserted s.sql).Pairwise (· < ·) := hs
    rw [hsql] at hsorted
    have hbounded := h.bounded (List.pairwise_append.mp hsorted).1
    show g.rows.length ≤ config.retain + 1 + (g.unpruned + 1)
    omega

theorem TableInv.take (h : TableInv config g) {id : ℕ} {world : server.World}
    (hrows : server.rows world = g.rows ++ [orderRow id]) (hfresh : id ∉ g.rows.map OrderRow.id)
    (hsent : id ∈ inserted g.script.sql)
    (hroom : (inserted g.script.sql).Pairwise (· < ·) →
      g.rows.length + 1 ≤ config.retain + 1 + g.unpruned) :
    TableInv config { g with world, taken := id :: g.taken } where
  keys := by
    show ((server.rows world).map OrderRow.id).Nodup
    rw [hrows, List.map_append]
    exact List.Nodup.append h.keys (List.nodup_singleton _) (by simpa [orderRow] using hfresh)
  rows := by
    show ∀ row ∈ server.rows world, row = orderRow row.id ∧ row.id ∈ inserted g.script.sql
    rw [hrows]
    intro row hrow
    rcases List.mem_append.mp hrow with hrow | hrow
    · exact h.rows row hrow
    · rw [List.mem_singleton.mp hrow]
      exact ⟨rfl, hsent⟩
  kept := by
    show ∀ x ∈ id :: g.taken, (∀ y ∈ inserted g.script.sql, y ≤ x + config.retain) →
      x ∈ (server.rows world).map OrderRow.id
    rw [hrows, List.map_append]
    intro x hx hy
    rcases List.mem_cons.mp hx with rfl | hx
    · exact List.mem_append_right _ (.head _)
    · exact List.mem_append_left _ (h.kept x hx hy)
  last := h.last
  unpruned := h.unpruned
  bounded := by
    show (inserted g.script.sql).Pairwise (· < ·) →
      (server.rows world).length ≤ config.retain + 1 + g.unpruned
    rw [hrows, List.length_append, List.length_singleton]
    exact hroom

theorem TableInv.insert (lawful : server.Lawful) (h : TableInv config g) (s : WorkloadState)
    (input : server.Input) (hsql : inserted s.sql = inserted g.script.sql ++ [s.id])
    (hpassed : g.script.passed + 1 ≤ s.passed) :
    TableInv config { g.receive input
      (.insert s.id (regionOf s.id) (s.id * 37 % 9900 + 100)) with script := s } := by
  have hsent := h.sent hsql hpassed
  rcases lawful.insert g.world input s.id (regionOf s.id) (s.id * 37 % 9900 + 100) with
    hrows | ⟨hfresh, hrows⟩
  · simp only [GresState.receive, GresState.rows, hrows, ↓reduceIte]
    exact hsent.world hrows
  · simp only [GresState.receive, GresState.rows, hrows]
    rw [if_neg (by simp)]
    refine hsent.take hrows hfresh ?_ fun hs => ?_
    · show s.id ∈ inserted s.sql
      rw [hsql]
      simp
    · have hsorted : (inserted s.sql).Pairwise (· < ·) := hs
      rw [hsql] at hsorted
      have hbounded := h.bounded (List.pairwise_append.mp hsorted).1
      show g.rows.length + 1 ≤ config.retain + 1 + (g.unpruned + 1)
      omega

theorem TableInv.prune (h : TableInv config g) {s : WorkloadState} {world : server.World}
    (hrows : server.rows world =
      g.rows.filter fun row => (g.script.id : ℤ) - config.retain ≤ row.id)
    (hlast : (inserted g.script.sql).getLast? = some g.script.id)
    (hsql : inserted s.sql = inserted g.script.sql) (hout : inPass s.pc = false) :
    TableInv config { g with script := s, world, unpruned := 0, missed := 0 } where
  keys := by
    show ((server.rows world).map OrderRow.id).Nodup
    rw [hrows]
    exact (List.filter_sublist.map OrderRow.id).nodup h.keys
  rows := by
    show ∀ row ∈ server.rows world, row = orderRow row.id ∧ row.id ∈ inserted s.sql
    rw [hrows, hsql]
    exact fun row hrow => h.rows row (List.mem_of_mem_filter hrow)
  kept := by
    show ∀ x ∈ g.taken, (∀ y ∈ inserted s.sql, y ≤ x + config.retain) →
      x ∈ (server.rows world).map OrderRow.id
    rw [hrows, hsql]
    intro x hx hy
    obtain ⟨row, hrow, rfl⟩ := List.mem_map.mp (h.kept x hx hy)
    have hid := hy g.script.id (List.mem_of_getLast? hlast)
    refine List.mem_map.mpr ⟨row, List.mem_filter.mpr ⟨hrow, decide_eq_true ?_⟩, rfl⟩
    omega
  last := by simp [hout]
  unpruned := Nat.zero_le _
  bounded := by
    show (inserted s.sql).Pairwise (· < ·) → (server.rows world).length ≤ config.retain + 1 + 0
    rw [hrows, hsql]
    intro hs
    have hwindow : ∀ row ∈ g.rows.filter fun row => (g.script.id : ℤ) - config.retain ≤ row.id,
        g.script.id - config.retain ≤ row.id ∧ row.id ≤ g.script.id := by
      intro row hrow
      obtain ⟨hrow, hbelow⟩ := List.mem_filter.mp hrow
      have hlow := of_decide_eq_true hbelow
      exact ⟨by omega, le_last hs hlast _ (h.rows row hrow).2⟩
    have hlength := length_of_window ((List.filter_sublist.map OrderRow.id).nodup h.keys) hwindow
    omega

theorem TableInv.pruned (lawful : server.Lawful) (h : TableInv config g) {s : WorkloadState}
    {input : server.Input} (hlast : (inserted g.script.sql).getLast? = some g.script.id)
    (hsql : inserted s.sql = inserted g.script.sql) (hout : inPass s.pc = false)
    (hpassed : g.script.passed ≤ 25) :
    TableInv config { g.receive input (.prune (g.script.id - config.retain)) with
      script := s } := by
  unfold GresState.receive
  dsimp only
  split
  next heffect => exact h.prune heffect hlast hsql hout
  next heffect =>
    have hrows := (lawful.prune g.world input (g.script.id - config.retain)).resolve_right heffect
    have hnot : inPass s.pc ≠ true := by simp [hout]
    refine (h.world hrows).quiet (g.missed + 1) hsql (fun hpass => absurd hpass hnot) ?_
    show 25 * g.missed + g.script.passed ≤ 25 * (g.missed + 1) + s.passed
    omega

theorem receive_quiet {statement : Sql} {input : server.Input} (hquiet : statement.quiet = true) :
    g.receive input statement = { g with world := (server.exec g.world input statement).2 } := by
  cases statement with
  | insert => cases hquiet
  | prune => cases hquiet
  | _ => rfl

theorem foldl_receive_quiet (lawful : server.Lawful) (input : server.Input)
    {statements : List Sql} (hquiet : ∀ statement ∈ statements, statement.quiet = true) :
    ∃ world, server.rows world = g.rows ∧
      statements.foldl (GresState.receive input) g = { g with world } := by
  induction statements generalizing g with
  | nil => exact ⟨g.world, rfl, rfl⟩
  | cons statement statements ih =>
    obtain ⟨hfirst, hrest⟩ := List.forall_mem_cons.mp hquiet
    obtain ⟨world, hrows, hfold⟩ := ih (g := g.receive input statement) hrest
    rw [receive_quiet hfirst] at hrows hfold
    refine ⟨world, hrows.trans (lawful.quiet g.world input statement hfirst), ?_⟩
    rw [List.foldl_cons, receive_quiet hfirst, hfold]

theorem sends_quiet (htop : g.script.pc ≠ .top) (hpruning : g.script.pc ≠ .pruning) :
    ∀ statement ∈ g.sends config, statement.quiet = true := by
  unfold GresState.sends WorkloadState.command
  cases hpc : g.script.pc with
  | top => exact absurd hpc htop
  | pruning => exact absurd hpc hpruning
  | waiting deadline =>
    dsimp only
    split <;> simp [WorkloadState.psql, Sql.quiet]
  | pausing deadline =>
    dsimp only
    split <;> simp
  | _ => simp [WorkloadState.psql, Sql.quiet]

theorem sends_top (hpc : g.script.pc = .top) :
    g.sends config = [.insert (g.script.id + 1) (regionOf (g.script.id + 1))
      ((g.script.id + 1) * 37 % 9900 + 100)] := by
  simp [GresState.sends, WorkloadState.command, hpc, WorkloadState.beginPass, WorkloadState.psql]

theorem sends_pruning (hpc : g.script.pc = .pruning) : g.sends config =
    if g.script.id % 25 = 0 then [.prune (g.script.id - config.retain)] else [] := by
  unfold GresState.sends WorkloadState.command
  simp only [hpc]
  split <;> simp [WorkloadState.psql]

/-- What a command does that neither inserts nor comes to a prune. -/
theorem command_quiet (config : WorkloadConfig) {s : WorkloadState} (htop : s.pc ≠ .top)
    (hpruning : s.pc ≠ .pruning) (ok : Bool) :
    inserted (s.command config ok).sql = inserted s.sql ∧
      (inPass (s.command config ok).pc = true → inPass s.pc = true ∧
        (s.command config ok).id = s.id) ∧
      s.passed ≤ 25 * (if s.pc = .seeding then 1 else 0) + (s.command config ok).passed := by
  unfold WorkloadState.command WorkloadState.passed
  cases hpc : s.pc with
  | top => exact absurd hpc htop
  | pruning => exact absurd hpc hpruning
  | waiting deadline =>
    dsimp only
    split
    · cases ok <;> simp [WorkloadState.psql, inserted, Sql.inserted?, inPass]
    · simp [hpc, inPass]
  | pausing deadline =>
    dsimp only
    split <;> simp [hpc, inPass]
  | creating => cases ok <;> simp [WorkloadState.psql, inserted, Sql.inserted?, inPass]
  | _ => simp [hpc, WorkloadState.psql, inserted, Sql.inserted?, inPass]

theorem TableInv.step (lawful : server.Lawful) (h : TableInv config g)
    (e : GresEvent server.Input) :
    TableInv config (g.step config e) := by
  have hpassed := g.script.passed_le
  cases e with
  | elapse duration => exact h.quiet _ rfl (fun hpass => ⟨hpass, rfl⟩) (Nat.le_refl _)
  | start =>
    unfold GresState.step WorkloadState.step
    dsimp only
    split
    next hpc =>
      refine h.quiet _ rfl (by simp [inPass]) ?_
      show 25 * g.missed + _ ≤ 25 * g.missed + 25
      omega
    next => exact h
  | kill =>
    refine h.quiet _ rfl (by simp [WorkloadState.step, inPass]) ?_
    show 25 * g.missed + _ ≤ 25 * g.missed + 25
    omega
  | run input =>
    unfold GresState.step
    dsimp only
    by_cases htop : g.script.pc = .top
    · rw [sends_top htop, if_neg (by simp [htop])]
      have hcommand : ∀ ok, g.script.step config (.run ok) = g.script.beginPass := by
        simp [WorkloadState.step, WorkloadState.command, htop]
      rw [hcommand]
      refine h.insert lawful g.script.beginPass input ?_ ?_
      · simp [WorkloadState.beginPass, WorkloadState.psql, inserted, Sql.inserted?]
      · simp [WorkloadState.passed, WorkloadState.beginPass, htop]
    · by_cases hpruning : g.script.pc = .pruning
      · have hlast := h.last (by rw [hpruning]; rfl)
        by_cases hmultiple : g.script.id % 25 = 0
        · rw [sends_pruning hpruning, if_pos hmultiple, if_neg (by simp [hpruning])]
          have hcommand : ∀ ok, g.script.step config (.run ok) =
              { g.script.psql (.prune (g.script.id - config.retain)) with pc := .grouping } := by
            simp [WorkloadState.step, WorkloadState.command, hpruning, hmultiple]
          rw [hcommand]
          refine h.pruned lawful hlast ?_ rfl hpassed
          simp [WorkloadState.psql, inserted, Sql.inserted?]
        · rw [sends_pruning hpruning, if_neg hmultiple, if_neg (by simp [hpruning])]
          have hcommand : ∀ ok, g.script.step config (.run ok) =
              { g.script with pc := .grouping } := by
            simp [WorkloadState.step, WorkloadState.command, hpruning, hmultiple]
          rw [hcommand]
          refine h.quiet _ rfl (by simp [inPass]) ?_
          simp only [WorkloadState.passed, hpruning, List.foldl_nil]
          omega
      · obtain ⟨world, hrows, hfold⟩ := foldl_receive_quiet (g := g) lawful input
          (sends_quiet htop hpruning)
        rw [hfold]
        obtain ⟨hsql, hlast, hquiet⟩ := command_quiet config htop hpruning (g.heard config input)
        refine (h.world hrows).quiet _ hsql hlast ?_
        show 25 * g.missed + g.script.passed ≤
          25 * (g.missed + _) + (g.script.command config _).passed
        omega

end Steps

/-- What the script sees of an event. -/
def GresState.scriptEvent {server : SqlServer} (config : WorkloadConfig) (g : GresState server) :
    GresEvent server.Input → WorkloadEvent
  | .elapse duration => .elapse duration
  | .start => .start
  | .kill => .kill
  | .run input => .run (g.heard config input)

/-- The script runs as it does on its own. -/
theorem gres_script (server : SqlServer) (config : WorkloadConfig) (now : ℕ)
    (world : server.World) (events : List (GresEvent server.Input)) :
    ∃ seen, ((gres server config now world).run events).script =
      (workload config now).run seen := by
  induction events using List.reverseRecOn with
  | nil => exact ⟨[], rfl⟩
  | append_singleton events e ih =>
    obtain ⟨seen, hseen⟩ := ih
    let g := (gres server config now world).run events
    refine ⟨seen ++ [g.scriptEvent config e], ?_⟩
    rw [Machine.run_append, Machine.run_append, ← hseen]
    cases e <;> rfl

/-- In every run from an empty table, whatever the server does to the statements, the rows have
distinct ids and are rows of the workload, and a row that was taken stays as long as no later id is
more than the retained number above it. While the ids grow, the table holds the retained number of
rows, and 25 more for each time that the script lost its place, and once more. -/
theorem workload_table (server : SqlServer) (lawful : server.Lawful) (config : WorkloadConfig)
    (now : ℕ) (world : server.World) (hempty : server.rows world = [])
    (events : List (GresEvent server.Input)) :
    let g := (gres server config now world).run events
    (∃ seen, g.script = (workload config now).run seen) ∧
      (g.rows.map OrderRow.id).Nodup ∧
      (∀ row ∈ g.rows, row = orderRow row.id ∧ row.id ∈ inserted g.script.sql) ∧
      (∀ x ∈ g.taken, (∀ y ∈ inserted g.script.sql, y ≤ x + config.retain) →
        orderRow x ∈ g.rows) ∧
      ((inserted g.script.sql).Pairwise (· < ·) →
        g.rows.length ≤ config.retain + 1 + 25 * (g.missed + 1)) := by
  have hrows : (gres server config now world).init.rows = [] := hempty
  have hinit : TableInv config (gres server config now world).init := by
    refine ⟨?_, ?_, fun x hx => (by cases hx), fun hpass => (by cases hpass), Nat.zero_le _, ?_⟩
    · rw [hrows]
      exact List.nodup_nil
    · rw [hrows]
      simp
    · rw [hrows]
      exact fun _ => Nat.zero_le _
  have h := (gres server config now world).run_invariant (I := TableInv config) hinit
    (fun g e h => h.step lawful e) events
  have hscript := gres_script server config now world events
  generalize (gres server config now world).run events = g at h hscript
  refine ⟨hscript, h.keys, h.rows, ?_, fun hs => ?_⟩
  · intro x hx hy
    obtain ⟨row, hrow, rfl⟩ := List.mem_map.mp (h.kept x hx hy)
    rw [← (h.rows row hrow).1]
    exact hrow
  · have hbounded := h.bounded hs
    have hunpruned := h.unpruned
    have hpassed := g.script.passed_le
    omega

/-- What happens to a statement on its way: it is executed and answered, it is executed and the
answer is lost, or it is not executed. -/
inductive SqlFate where
  | answered
  | unheard
  | refused
  deriving DecidableEq

/-- What a statement makes of the table, unless it is an error. -/
def Sql.exec (rows : List OrderRow) : Sql → Option (List OrderRow)
  | .insert id region amountCents =>
    if id ∈ rows.map OrderRow.id then none else some (rows ++ [⟨id, region, amountCents⟩])
  | .prune below => some (rows.filter fun row => below ≤ row.id)
  | _ => some rows

/-- What `psql` says and what the table is then. -/
def serve (rows : List OrderRow) (fate : SqlFate) (statement : Sql) : Bool × List OrderRow :=
  match fate, statement.exec rows with
  | .refused, _ => (false, rows)
  | _, none => (false, rows)
  | fate, some rows => (fate = .answered, rows)

theorem serve_insert (rows : List OrderRow) (fate : SqlFate) (id : ℕ) (region : String)
    (amountCents : ℕ) :
    (serve rows fate (.insert id region amountCents)).2 = rows ∨ id ∉ rows.map OrderRow.id ∧
      (serve rows fate (.insert id region amountCents)).2 =
        rows ++ [⟨id, region, amountCents⟩] := by
  by_cases hid : id ∈ rows.map OrderRow.id
  · refine Or.inl ?_
    cases fate <;> simp [serve, Sql.exec, hid]
  · cases fate with
    | refused => exact Or.inl rfl
    | answered => exact Or.inr ⟨hid, by simp [serve, Sql.exec, hid]⟩
    | unheard => exact Or.inr ⟨hid, by simp [serve, Sql.exec, hid]⟩

/-- A server that keeps the rows, and whose connection may break. -/
def tableServer : SqlServer where
  World := List OrderRow
  Input := SqlFate
  rows rows := rows
  exec := serve

theorem tableServer_lawful : tableServer.Lawful where
  insert := serve_insert
  prune rows fate below := by
    cases fate with
    | refused => exact Or.inl rfl
    | _ => exact Or.inr rfl
  quiet rows fate statement hquiet := by
    cases statement with
    | insert => cases hquiet
    | prune => cases hquiet
    | _ => cases fate <;> rfl

def gresPass (fate : SqlFate) : List (GresEvent SqlFate) :=
  [.run fate, .run .answered, .run .answered, .run .answered, .run .answered,
    .elapse (5 * 10 ^ 9), .run .answered]

/-- From id 23 on, the prune at 25 keeps two rows, the answer to the `INSERT` of 25 is lost, and
that of 26 is not executed. -/
def shortGres : GresState tableServer :=
  (gres tableServer { retain := 1 } (22 * 10 ^ 9) []).run
    ([.start, .run .answered, .run .answered, .run .answered] ++ gresPass .answered ++
      gresPass .answered ++ gresPass .unheard ++ gresPass .refused)

theorem workload_table_short :
    shortGres.taken = [25, 24, 23] ∧ (shortGres.rows.map OrderRow.id).Nodup ∧
      orderRow 25 ∈ shortGres.rows ∧ shortGres.rows.length ≤ 27 := by
  have htaken : shortGres.taken = [25, 24, 23] := by decide +kernel
  have hmissed : shortGres.missed = 0 := by decide +kernel
  obtain ⟨-, hkeys, -, hkept, hbounded⟩ := workload_table tableServer tableServer_lawful
    { retain := 1 } (22 * 10 ^ 9) [] rfl
    ([.start, .run .answered, .run .answered, .run .answered] ++ gresPass .answered ++
      gresPass .answered ++ gresPass .unheard ++ gresPass .refused)
  have hlength := hbounded (by decide +kernel)
  rw [show (gres tableServer _ _ _).run _ = shortGres from rfl, hmissed] at hlength
  exact ⟨htaken, hkeys, hkept 25 (by decide +kernel) (by decide +kernel), hlength⟩

end OrdersDemo
