import ConPaaS.Lib.Transition
import ConPaaS.TaskFarm.TailPhase

namespace ConPaaS

open Keyed Transition

/-- The execution phase with its workers: the job each of them works at, and
the jobs of the results that came in, the latest first. -/
structure TailFarm where
  master : TailMaster
  working : Table (Prod.fst : IbisIdentifier × String → IbisIdentifier)
  results : List String
  deriving DecidableEq

/-- The job a message brings the result of. -/
def Message.reported : Message → List String
  | .jobRequest _ => []
  | .jobResult received _ => [received.jobID]

/-- A job that has no replica and no result. -/
structure TailJob.Single (job : TailJob) : Prop where
  replicated : job.replicated = false
  notYetFinished : job.notYetFinished = true
  replicaNodes : job.replicaNodes.rows = []
  starttimes : job.starttimes.rows = []

namespace TailMaster

/-- The entry of the worker on a node. -/
def worker (m : TailMaster) (node : IbisIdentifier) : Option WorkerStats :=
  (m.clusters.get? node.cluster).bind fun c => c.workers.get? node.node

/-- A cluster of the bag. -/
def knows (m : TailMaster) (cluster : String) : Bool := (m.clusters.get? cluster).isSome

/-- The state in which the phase begins: the tasks are distinct jobs, none of
them replicated or finished, and nothing is with the clusters. -/
structure Starts (m : TailMaster) : Prop where
  distinct : m.tasks.Nodup
  objects : ∀ jobID ∈ m.tasks, ∃ job, m.jobs.get? jobID = some job ∧ job.Single
  idle : ∀ c ∈ m.clusters.rows, c.workers.rows = [] ∧ c.subsetJobs.rows = []
  jobsDone : m.jobsDone = 0

end TailMaster

namespace TailFarm

/-- A farm before its first turn. -/
def start (master : TailMaster) : TailFarm := ⟨master, .empty, []⟩

/-- A message by the rules: nodes belong to the clusters of the bag, a job
request comes from a node whose worker is new or let go, a result from the node
that works at the job. -/
def byRules (farm : TailFarm) (turn : TailTurn) : Bool :=
  (∀ spi ∈ turn.connected, farm.master.knows spi.cluster) &&
    match turn.message with
    | none => true
    | some (.jobRequest origin) =>
      farm.master.knows origin.cluster && (farm.master.worker origin).all WorkerStats.isFinished
    | some (.jobResult received origin) => farm.working.get? origin = some (origin, received.jobID)

/-- A node works at the job it is sent, and at nothing until then. -/
def handOut (farm : TailFarm) (origin : IbisIdentifier) (nextJob : Option String) : TailFarm :=
  let idle := farm.working.erase origin
  { farm with
    master := farm.master.setNode origin nextJob
    working :=
      match nextJob with
      | none => idle
      | some jobID => idle.put (origin, jobID) }

/-- The first half of a turn, up to the sending of the reply. -/
def reply (farm : TailFarm) (turn : TailTurn) : Except TailFault TailFarm :=
  match turn.message with
  | none => .ok farm
  | some message => do
    let (master, nextJob) ← farm.master.handle turn message
    .ok ({ farm with master, results := message.reported ++ farm.results }.handOut message.origin nextJob)

/-- The state after a loss the master has dealt with. A lost worker works at nothing. -/
def lose (farm : TailFarm) (lost : IbisIdentifier) (master : TailMaster) : TailFarm :=
  { farm with master, working := farm.working.erase lost }

def loseConnections : List (IbisIdentifier × Int) → TailFarm → Except TailFault TailFarm
  | [], farm => .ok farm
  | (lost, time) :: rest, farm => do
    let master ← farm.master.handleLostConnection lost time
    loseConnections rest (farm.lose lost master)

/-- The origin of a message whose reply could not be sent. -/
def refused (turn : TailTurn) : Option IbisIdentifier :=
  if turn.delivery = .connectionFailed then turn.message.map Message.origin else none

/-- What a turn without a message ends with. -/
def settle (turn : TailTurn) (master : TailMaster) : TailMaster :=
  match turn.message with
  | none => master.decideWithMovingAverage turn.decision
  | some _ => master

/-- The second half of a turn: what became of the reply, and `areWeDone`. -/
def conclude (farm : TailFarm) (turn : TailTurn) : Except TailFault TailFarm :=
  match refused turn with
  | some origin => do
    let master ← farm.master.connectionFailed turn origin
    .ok (farm.lose origin master)
  | none => do
    let farm ← farm.loseConnections turn.lost
    let master ← farm.master.checkDone turn.connected
    .ok { farm with master := settle turn master }

/-- A turn, with what it means for the workers. -/
def next (farm : TailFarm) (turn : TailTurn) : Except TailFault TailFarm := do
  let farm ← farm.reply turn
  farm.conclude turn

/-- The turns of the loop of `run`, as long as it goes on. -/
def Step (farm : TailFarm) (turn : TailTurn) (result : TailFarm) : Prop :=
  farm.master.undone = true ∧ farm.next turn = .ok result

/-- The master sees the loss of a worker as what it is: it has an entry for the
worker and, unless it let the worker go, the job it finds is the one the worker
works at, and not as the replica of a job that has no result. -/
def noticed (farm : TailFarm) (lost : IbisIdentifier) : Bool :=
  match (farm.master.clusters.get? lost.cluster).bind fun c => (c.workers.get? lost.node).map (c, ·) with
  | none => false
  | some (c, ws) =>
    ws.isFinished ||
      match farm.master.jobOfLost lost c with
      | .error _ => true
      | .ok none => farm.working.get? lost = none
      | .ok (some job) =>
        farm.working.get? lost = some (lost, job.jobID) && (job.isOn lost.node || !job.notYetFinished)

/-- The job the master takes back from a node is the one it could not send, and
runs nowhere else. -/
def returned (farm : TailFarm) (origin : IbisIdentifier) : Bool :=
  match farm.master.clusters.get? origin.cluster with
  | none => true
  | some c =>
    match farm.master.jobOfRefused origin c with
    | .error _ => true
    | .ok none => farm.working.get? origin = none
    | .ok (some job) => farm.working.get? origin = some (origin, job.jobID) && !job.replicated

/-- Each loss of a turn is noticed, in the state in which the master deals with it. -/
def eachNoticed : List (IbisIdentifier × Int) → TailFarm → Bool
  | [], _ => true
  | (lost, time) :: rest, farm =>
    farm.noticed lost &&
      match farm.master.handleLostConnection lost time with
      | .error _ => true
      | .ok master => eachNoticed rest (farm.lose lost master)

/-- The condition on the losses of a whole turn. -/
def lossesNoticed (farm : TailFarm) (turn : TailTurn) : Bool :=
  match farm.reply turn with
  | .error _ => true
  | .ok replied =>
    match refused turn with
    | some origin => replied.returned origin
    | none => replied.eachNoticed turn.lost

theorem loseConnections_master (lost : List (IbisIdentifier × Int)) (farm : TailFarm) :
    (farm.loseConnections lost).map master = farm.master.handleLostConnections lost := by
  induction lost generalizing farm with
  | nil => rfl
  | cons entry rest ih =>
    simp only [loseConnections, TailMaster.handleLostConnections, bind, Except.bind]
    cases farm.master.handleLostConnection entry.1 entry.2 with
    | error fault => rfl
    | ok m => exact ih _

theorem conclude_master (farm : TailFarm) (turn : TailTurn) :
    (farm.conclude turn).map master =
      match refused turn with
      | some origin => farm.master.connectionFailed turn origin
      | none => (farm.master.areWeDone turn).map (settle turn) := by
  unfold conclude
  split
  · rename_i origin _
    simp only [bind, Except.bind]
    cases farm.master.connectionFailed turn origin <;> rfl
  · simp only [TailMaster.areWeDone, ← loseConnections_master, bind, Except.bind]
    cases farm.loseConnections turn.lost with
    | error fault => rfl
    | ok after =>
      simp only [Except.map]
      cases after.master.checkDone turn.connected <;> rfl

/-- The master in a farm takes the turns of the code. -/
theorem next_master (farm : TailFarm) (turn : TailTurn) :
    (farm.next turn).map master = farm.master.runOnce turn := by
  unfold next reply TailMaster.runOnce
  cases received : turn.message with
  | none =>
    refine (conclude_master farm turn).trans ?_
    simp only [refused, received, Option.map_none, ite_self, bind, Except.bind]
    cases farm.master.areWeDone turn <;> simp [Except.map, settle, received]
  | some message =>
    simp only [bind, Except.bind]
    cases farm.master.handle turn message with
    | error fault => rfl
    | ok answer =>
      refine (conclude_master _ turn).trans ?_
      have unsettled (run : Except TailFault TailMaster) : run.map (settle turn) = run := by
        cases run <;> simp [Except.map, settle, received]
      cases sent : turn.delivery <;> simp [refused, received, sent, handOut, unsettled]

end TailFarm

end ConPaaS
