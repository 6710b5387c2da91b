import ConPaaS.Lib.Fallible
import ConPaaS.Lib.Transition
import ConPaaS.TaskFarm.Sampling

namespace ConPaaS

open Keyed Transition

/-- The sampling phase with its workers: the job each of them works at, and
the results that came in, by cluster. -/
structure SamplingFarm where
  master : Sampler
  working : Table (Prod.fst : IbisIdentifier × String → IbisIdentifier)
  results : List (String × String)
  deriving DecidableEq

/-- The result a message brings. -/
def Message.result : Message → List (String × String)
  | .jobRequest _ => []
  | .jobResult received origin => [(origin.cluster, received.jobID)]

namespace Sampler

/-- The entry of the worker on a node. -/
def worker (m : Sampler) (node : IbisIdentifier) : Option WorkerStats :=
  (m.clusters.get? node.cluster).bind fun c => c.workers.get? node.node

def isDone (m : Sampler) (jobID : String) : Bool := (m.jobs.get? jobID).any BagJob.done

/-- The node a job was last sent to. -/
def sentTo (m : Sampler) (jobID : String) : Option String := (m.jobs.get? jobID).bind BagJob.node

/-- The sampling points and extra points of all clusters. -/
def points (m : Sampler) : List String := m.clusters.rows.flatMap SamplingCluster.points

def samplingPoints (m : Sampler) : List String := m.clusters.rows.flatMap fun c => c.samplingPoints.rows

/-- The state in which the sampling phase begins: the replicated jobs are apart
from the tasks, no job is done and nothing is with the clusters. -/
structure Starts (m : Sampler) : Prop where
  distinct : (m.replicatedTasks ++ m.tasks).Nodup
  objects : ∀ jobID ∈ m.replicatedTasks ++ m.tasks, (m.jobs.get? jobID).isSome
  undone : ∀ job ∈ m.jobs.rows, job.done = false
  idle : ∀ c ∈ m.clusters.rows, c.workers.rows = [] ∧ c.regressionPoints.rows = [] ∧ c.points = [] ∧
    c.replicatedTasksCounter = 0
  finishedTasks : m.finishedTasks.rows = []
  counters : m.totalSamplingPointsCounter = 0 ∧ m.totalSamplingSubmittedCounter = 0
  noReplicatedJobs : m.replicatedTasks.length = m.noReplicatedJobs
  noSampleJobs : m.noReplicatedJobs ≤ m.noSampleJobs
  goes : m.undone = true

theorem drawReplicated_perm {draws : List Nat} {tasks replicated rest : List String}
    (run : drawReplicated draws tasks = .ok (replicated, rest)) :
    (replicated ++ rest).Perm tasks ∧ replicated.length = draws.length := by
  induction draws generalizing tasks replicated with
  | nil =>
    cases run
    exact ⟨.refl _, rfl⟩
  | cons draw draws ih =>
    unfold drawReplicated at run
    split at run
    · cases run
    rename_i task chosen
    obtain ⟨⟨others, left⟩, later, closing⟩ := Fallible.bind_ok.mp run
    cases closing
    obtain ⟨perm, length⟩ := ih later
    obtain ⟨bound, value⟩ := List.getElem?_eq_some_iff.mp chosen
    refine ⟨(perm.cons task).trans ?_, congrArg (· + 1) length⟩
    rw [← value]
    exact List.getElem_cons_eraseIdx_perm bound

/-- The constructor leads to such a state, for jobs and clusters that were not
used before. -/
theorem create_starts {bag : Table BagJob.jobID} {clusters : Table SamplingCluster.clusterAlias}
    {noSampleJobs noReplicatedJobs noInitialWorkers : Nat} {draws : Nat → Nat} {m : Sampler}
    (undone : ∀ job ∈ bag.rows, job.done = false)
    (unused : ∀ c ∈ clusters.rows, c.regressionPoints.rows = [] ∧ c.points = [] ∧ c.replicatedTasksCounter = 0)
    (run : create bag clusters noSampleJobs noReplicatedJobs noInitialWorkers draws = .ok m) : m.Starts := by
  unfold create at run
  split at run
  · cases run
  rename_i enough
  obtain ⟨⟨replicated, rest⟩, drawn, run⟩ := Fallible.bind_ok.mp run
  dsimp only at run
  split at run
  · cases run
  cases run
  obtain ⟨perm, length⟩ := drawReplicated_perm drawn
  rw [List.length_map, List.length_range] at length
  constructor
  case distinct => exact perm.nodup_iff.mpr bag.keyed
  case objects =>
    intro jobID member
    obtain ⟨job, stored, rfl⟩ := List.mem_map.mp (perm.mem_iff.mp member)
    exact Option.isSome_iff_exists.mpr ⟨job, Table.get?_of_mem stored⟩
  case undone => exact undone
  case idle =>
    intro c member
    obtain ⟨before, stored, rfl⟩ := List.mem_map.mp member
    exact ⟨rfl, unused before stored⟩
  case finishedTasks => rfl
  case counters => exact ⟨rfl, rfl⟩
  case noReplicatedJobs => exact length
  case noSampleJobs => exact Nat.le_of_not_lt enough
  case goes => rfl

end Sampler

namespace SamplingFarm

/-- A farm before its first turn. -/
def start (master : Sampler) : SamplingFarm := ⟨master, .empty, []⟩

/-- A message by the rules: a job request comes from a node whose worker is
new or let go, a result from the node that works at the job. -/
def byRules (farm : SamplingFarm) (turn : SamplingTurn) : Bool :=
  match turn.message with
  | none => true
  | some (.jobRequest origin) => (farm.master.worker origin).all WorkerStats.isFinished
  | some (.jobResult received origin) => farm.working.get? origin = some (origin, received.jobID)

/-- A node works at the job it is sent, and at nothing until then. -/
def handOut (farm : SamplingFarm) (origin : IbisIdentifier) (nextJob : Option String) : SamplingFarm :=
  let idle := farm.working.erase origin
  { farm with
    master := farm.master.setNode origin nextJob
    working :=
      match nextJob with
      | none => idle
      | some jobID => idle.put (origin, jobID) }

/-- The first half of a turn, up to the sending of the reply. -/
def reply (farm : SamplingFarm) (turn : SamplingTurn) : Except SamplingFault SamplingFarm :=
  match turn.message with
  | none => .ok farm
  | some message => do
    let (master, nextJob) ← farm.master.handle turn message
    .ok ({ farm with master, results := farm.results ++ message.result }.handOut message.origin nextJob)

/-- A lost worker works at nothing. -/
def loseConnections : List (IbisIdentifier × Int) → SamplingFarm → Except SamplingFault SamplingFarm
  | [], farm => .ok farm
  | (lost, time) :: rest, farm => do
    let master ← farm.master.handleLostConnection lost time
    loseConnections rest { farm with master, working := farm.working.erase lost }

/-- The origin of a message whose reply could not be sent. -/
def refused (turn : SamplingTurn) : Option IbisIdentifier :=
  if turn.delivery = .connectionFailed then turn.message.map Message.origin else none

/-- The second half of a turn: what became of the reply, and `areWeDone`. -/
def conclude (farm : SamplingFarm) (turn : SamplingTurn) : Except SamplingFault SamplingFarm :=
  match refused turn with
  | some origin => do
    let master ← farm.master.connectionFailed turn origin
    .ok { farm with master, working := farm.working.erase origin }
  | none => do
    let farm ← farm.loseConnections turn.lost
    let master ← farm.master.checkDone turn.connected
    .ok { farm with master }

/-- A turn, with what it means for the workers. -/
def next (farm : SamplingFarm) (turn : SamplingTurn) : Except SamplingFault SamplingFarm := do
  let farm ← farm.reply turn
  farm.conclude turn

/-- The turns of the loop of `run`, as long as it goes on. -/
def Step (farm : SamplingFarm) (turn : SamplingTurn) (result : SamplingFarm) : Prop :=
  farm.master.undone = true ∧ farm.next turn = .ok result

theorem loseConnections_master (lost : List (IbisIdentifier × Int)) (farm : SamplingFarm) :
    (farm.loseConnections lost).map master = farm.master.handleLostConnections lost := by
  induction lost generalizing farm with
  | nil => rfl
  | cons entry rest ih =>
    simp only [loseConnections, Sampler.handleLostConnections, bind, Except.bind]
    cases farm.master.handleLostConnection entry.1 entry.2 with
    | error fault => rfl
    | ok m => exact ih _

theorem conclude_master (farm : SamplingFarm) (turn : SamplingTurn) :
    (farm.conclude turn).map master =
      match refused turn with
      | some origin => farm.master.connectionFailed turn origin
      | none => farm.master.areWeDone turn := by
  unfold conclude
  split
  · rename_i origin _
    simp only [bind, Except.bind]
    cases farm.master.connectionFailed turn origin <;> rfl
  · simp only [Sampler.areWeDone, ← loseConnections_master, bind, Except.bind]
    cases farm.loseConnections turn.lost with
    | error fault => rfl
    | ok after =>
      simp only [Except.map]
      cases after.master.checkDone turn.connected <;> rfl

/-- The master in a farm takes the turns of the code. -/
theorem next_master (farm : SamplingFarm) (turn : SamplingTurn) :
    (farm.next turn).map master = farm.master.runOnce turn := by
  unfold next reply Sampler.runOnce
  cases received : turn.message with
  | none =>
    refine (conclude_master farm turn).trans ?_
    simp only [refused, received, Option.map_none, ite_self]
  | some message =>
    simp only [bind, Except.bind]
    cases farm.master.handle turn message with
    | error fault => rfl
    | ok answer =>
      refine (conclude_master _ turn).trans ?_
      cases sent : turn.delivery <;> simp [refused, received, sent, handOut]

end SamplingFarm

/-- A turn of the sampling phase in which nothing but a message happens. -/
def quietSampling (time : Int) (message : Option Message) : SamplingTurn where
  message
  delivery := .sent
  lost := []
  connected := []
  draw := 0
  requestTime := time
  uptimeTime := time
  releaseTime := time
  failTime := time

/-- A bag of four naps, one of which is run on the only cluster to compare. -/
def fourNaps : Sampler where
  jobs := ⟨[.create ["3"] "/bin/sleep" "0", .create ["5"] "/bin/sleep" "1", .create ["7"] "/bin/sleep" "2",
    .create ["9"] "/bin/sleep" "3"], by decide⟩
  tasks := ["1", "2", "3"]
  replicatedTasks := ["0"]
  finishedTasks := .empty
  clusters := ⟨[⟨"das", ⟨60, 2, Rate.hour_positive, Rate.two_nonneg⟩, 0, 1, .empty, 0, .empty, 0, .empty, .empty⟩], by decide⟩
  noReplicatedJobs := 1
  noSampleJobs := 2
  totalSamplingPointsCounter := 0
  totalSamplingSubmittedCounter := 0
  timer := []
  undone := true

theorem fourNaps_starts : fourNaps.Starts where
  distinct := by decide
  objects := by decide
  undone := by decide
  idle := by
    intro c member
    simp only [fourNaps, List.mem_singleton] at member
    subst member
    exact ⟨rfl, rfl, rfl, rfl⟩
  finishedTasks := rfl
  counters := ⟨rfl, rfl⟩
  noReplicatedJobs := rfl
  noSampleJobs := by decide
  goes := rfl

end ConPaaS
