import OrdersDemo.Library.Machine
import OrdersDemo.Metrics

namespace OrdersDemo

/-- The statements that the workload sends through `psql`. -/
inductive Sql where
  | ready
  | createTable
  | insert (id : ℕ) (region : String) (amountCents : ℕ)
  | count
  | point (id : ℕ)
  | prune (below : ℤ)
  | grouped
  deriving DecidableEq

def Sql.inserted? : Sql → Option ℕ
  | .insert id _ _ => some id
  | _ => none

/-- The next command of the script, or no container. -/
inductive Pc where
  | down
  | waiting (deadline : ℕ)
  | creating
  | seeding
  | top
  | counting
  | reading
  | pruning
  | grouping
  | pausing (deadline : ℕ)
  deriving DecidableEq

structure WorkloadConfig where
  interval : Duration := 5 * 10 ^ 9
  retain : ℕ := 500

/-- A run of the script that got as far as its seed: the second it read, and its passes so far. -/
structure Incarnation where
  seed : ℕ
  passes : ℕ
  deriving DecidableEq

/-- The clock, the script, the statements it has sent, and its incarnations with the newest
first. -/
structure WorkloadState where
  now : ℕ
  pc : Pc := .down
  id : ℕ := 0
  sql : List Sql := []
  incarnations : List Incarnation := []

/-- The clock moves on, the container is started or killed, or the script runs its next command,
whose `psql` succeeds or fails. -/
inductive WorkloadEvent where
  | elapse (duration : Duration)
  | start
  | kill
  | run (ok : Bool)

/-- `date +%s` -/
def dateSeconds (now : ℕ) : ℕ :=
  now / 10 ^ 9

def regionOf (id : ℕ) : String :=
  match id % 3 with
  | 0 => "us-east"
  | 1 => "us-west"
  | _ => "eu-central"

def countPass : List Incarnation → List Incarnation
  | [] => []
  | c :: earlier => ⟨c.seed, c.passes + 1⟩ :: earlier

namespace WorkloadState

def psql (statement : Sql) (s : WorkloadState) : WorkloadState :=
  { s with sql := s.sql ++ [statement] }

def beginPass (s : WorkloadState) : WorkloadState :=
  let id := s.id + 1
  { s.psql (.insert id (regionOf id) (id * 37 % 9900 + 100)) with
    id
    incarnations := countPass s.incarnations
    pc := .counting }

/-- The next command. Only the statements before the loop look at the status of `psql`. -/
def command (config : WorkloadConfig) (ok : Bool) (s : WorkloadState) : WorkloadState :=
  match s.pc with
  | .down => s
  | .waiting deadline =>
    if deadline ≤ s.now then
      { s.psql .ready with pc := if ok then .creating else .waiting (s.now + 2 * 10 ^ 9) }
    else s
  | .creating => { s.psql .createTable with pc := if ok then .seeding else .down }
  | .seeding =>
    { s with
      id := dateSeconds s.now
      incarnations := ⟨dateSeconds s.now, 0⟩ :: s.incarnations
      pc := .top }
  | .top => s.beginPass
  | .counting => { s.psql .count with pc := .reading }
  | .reading => { s.psql (.point s.id) with pc := .pruning }
  | .pruning =>
    { (if s.id % 25 = 0 then s.psql (.prune (s.id - config.retain)) else s) with pc := .grouping }
  | .grouping => { s.psql .grouped with pc := .pausing (s.now + config.interval) }
  | .pausing deadline => if deadline ≤ s.now then { s with pc := .top } else s

def step (config : WorkloadConfig) (s : WorkloadState) : WorkloadEvent → WorkloadState
  | .elapse duration => { s with now := s.now + duration }
  | .start => if s.pc = .down then { s with pc := .waiting s.now } else s
  | .kill => { s with pc := .down }
  | .run ok => s.command config ok

end WorkloadState

/-- `workload.sh` in a container that is killed and started again at any time. -/
def workload (config : WorkloadConfig) (now : ℕ) : Machine WorkloadState WorkloadEvent where
  init := { now }
  step := WorkloadState.step config

end OrdersDemo
