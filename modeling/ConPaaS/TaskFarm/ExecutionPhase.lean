import ConPaaS.TaskFarm.Cluster

namespace ConPaaS

open Keyed

/-- The exceptions that end the thread of the master. -/
inductive Fault
  | nullPointer | illegalArgument
  deriving DecidableEq, Repr

inductive Phase
  | started | finished
  deriving DecidableEq, Repr

/-- What the master shows to its front end. -/
structure ServiceState where
  moneySpent : ℚ
  moneySpentSampling : ℚ
  noCompletedTasks : Int
  noTotalTasks : Int
  phase : Phase
  deriving DecidableEq, Repr

/-- The master of the execution phase with the bag it works on. A finished
task is null when a result came for a job its cluster did not hold. `undone`
is the variable of `run`, `clock` the time of the latest turn of its loop. -/
structure Master where
  tasks : List Job
  finishedTasks : Table (Option.map Job.jobID)
  clusters : Table Cluster.clusterAlias
  jobsDone : Int
  totalNumberTasks : Int
  noInitialWorkers : Int
  subsetLength : Int
  actualStartTime : Int
  serviceState : ServiceState
  undone : Bool
  clock : Int
  deriving DecidableEq

/-- What a decision does to a worker: it will be terminated, or it will not
be after all. -/
inductive Mark
  | terminated (timeToDie : Int)
  | kept
  deriving DecidableEq, Repr

/-- What `decideWithMovingAverage` leaves behind in the clusters and on the
workers. -/
structure Decision where
  pendingNodes : String → Int
  noATUPlan : String → Int
  marks : IbisIdentifier → Option Mark

/-- What the master receives. -/
inductive Message
  | jobRequest (origin : IbisIdentifier)
  | jobResult (received : JobResult) (origin : IbisIdentifier)

def Message.origin : Message → IbisIdentifier
  | .jobRequest origin => origin
  | .jobResult _ origin => origin

/-- How the sending of a reply ends. -/
inductive Delivery
  | sent | connectionFailed | ioFailed
  deriving DecidableEq, Repr

/-- What the surroundings of the master contribute to one turn of the loop of
`run`: the message, if one comes in time, the fate of the reply, the lost
connections with the times at which they are dealt with, the nodes still
connected, and the times read from the clocks. -/
structure Turn where
  message : Option Message
  delivery : Delivery
  lost : List (IbisIdentifier × Int)
  connected : List IbisIdentifier
  decision : Decision
  draw : Nat
  requestTime : Int
  nanoTime : Int
  releaseTime : Int
  failTime : Int
  checkTime : Int

namespace WorkerStats

/-- A worker under the marks some decision leaves. -/
def decided (ws : WorkerStats) : Option Mark → WorkerStats
  | none => ws
  | some (.terminated timeToDie) => { ws.markTerminated with timeToDie }
  | some .kept => ws.unmarkTerminated

theorem decided_node (ws : WorkerStats) (mark : Option Mark) : (ws.decided mark).node = ws.node := by
  rcases mark with - | - | - <;> rfl

end WorkerStats

namespace Cluster

/-- A cluster under the pending nodes, the plan and the marks some decision leaves. -/
def decided (cluster : Cluster) (decision : Decision) : Cluster :=
  { cluster with
    pendingNodes := decision.pendingNodes cluster.clusterAlias
    noATUPlan := decision.noATUPlan cluster.clusterAlias
    workers := cluster.workers.map (fun ws => ws.decided (decision.marks ⟨cluster.clusterAlias, ws.node⟩))
      fun ws => ws.decided_node _ }

end Cluster

namespace Master

/-- A change of one cluster that leaves it under its name. -/
def update (m : Master) (cluster : String) (change : Cluster → Cluster)
    (same : ∀ c, (change c).clusterAlias = c.clusterAlias := by intro _; rfl) : Master :=
  { m with clusters := m.clusters.modify cluster change same }

/-- `decideWithMovingAverage`, for whatever it decides. -/
def decideWithMovingAverage (m : Master) (decision : Decision) : Master :=
  { m with clusters := m.clusters.map (fun c => c.decided decision) }

/-- A task leaves the queue for a node. -/
def handOut (m : Master) (index : Nat) (origin : IbisIdentifier) (nextJob : Job) : Master :=
  { m with
    tasks := m.tasks.eraseIdx index
    clusters := m.clusters.modify origin.cluster (fun c => c.assign m.subsetLength origin.node nextJob) }

/-- `findNextJob`: a random task is handed out. -/
def findNextJob (m : Master) (turn : Turn) (origin : IbisIdentifier) : Except Fault (Master × Option Job) :=
  let index := turn.draw % m.tasks.length
  match m.tasks[index]? with
  | none => .error .illegalArgument
  | some task =>
    let nextJob := { task with startTime := turn.nanoTime }
    .ok (m.handOut index origin nextJob, some nextJob)

/-- The end of both handlers: without tasks the worker is released, and `none`
stands for a `NoJob`. -/
def releaseOrNext (m : Master) (turn : Turn) (origin : IbisIdentifier) : Except Fault (Master × Option Job) :=
  if m.tasks = [] then
    .ok (m.update origin.cluster (fun c => c.sayGoodbye origin.node turn.releaseTime), none)
  else m.findNextJob turn origin

/-- A new node is entered. -/
def enroll (m : Master) (turn : Turn) (origin : IbisIdentifier) : Master :=
  m.update origin.cluster fun c => (c.enroll m.noInitialWorkers m.actualStartTime turn.requestTime origin).counted

/-- A known node is taken again. -/
def reenroll (m : Master) (turn : Turn) (origin : IbisIdentifier) : Master :=
  m.update origin.cluster fun c => (c.reenroll m.actualStartTime turn.requestTime origin).counted

/-- `handleJobRequest`. A node the cluster did not wait for is dismissed,
through the entry of its worker, which a new node does not have. -/
def handleJobRequest (m : Master) (turn : Turn) (origin : IbisIdentifier) : Except Fault (Master × Option Job) :=
  match m.clusters.get? origin.cluster with
  | none => .error .nullPointer
  | some cluster =>
    match cluster.workers.get? origin.node with
    | none => if cluster.pendingNodes = 0 then .error .nullPointer else (m.enroll turn origin).releaseOrNext turn origin
    | some _ =>
      if cluster.pendingNodes = 0 then
        .ok (m.update origin.cluster (fun c => c.terminateWorker origin.node turn.requestTime), none)
      else (m.reenroll turn origin).releaseOrNext turn origin

/-- A result is booked, with the job its cluster holds under that id. -/
def finishJob (m : Master) (received : JobResult) (origin : IbisIdentifier) (job : Option Job) : Master :=
  { m with jobsDone := m.jobsDone + 1, finishedTasks := m.finishedTasks.add job }.update origin.cluster fun c =>
    (c.withWorker origin.node fun ws => ws.addJobStats received.runtime).doneJob received

/-- `handleJobResult`. -/
def handleJobResult (m : Master) (turn : Turn) (received : JobResult) (origin : IbisIdentifier) :
    Except Fault (Master × Option Job) :=
  match m.clusters.get? origin.cluster with
  | none => .error .nullPointer
  | some cluster =>
    match cluster.workers.get? origin.node with
    | none => .error .nullPointer
    | some _ =>
      ((m.finishJob received origin (cluster.getJob received)).decideWithMovingAverage turn.decision).releaseOrNext turn
        origin

def handle (m : Master) (turn : Turn) : Message → Except Fault (Master × Option Job)
  | .jobRequest origin => m.handleJobRequest turn origin
  | .jobResult received origin => m.handleJobResult turn received origin

/-- `nextJob.setNode`: the job in the map is the job that is sent. -/
def setNode (m : Master) (origin : IbisIdentifier) : Option Job → Master
  | none => m
  | some nextJob => m.update origin.cluster (fun c => c.setNode nextJob.jobID origin.node)

/-- The job of a failed node goes back to the tasks. This is the body of the
loop over the held jobs, which ends with the first job found. -/
def requeue (m : Master) (cluster : Cluster) (node : String) (time : Int) : Master :=
  match cluster.jobOn node with
  | none => m
  | some j =>
    { m with tasks := m.tasks ++ [j] }.update cluster.clusterAlias (fun c => c.withoutJob node time j)

/-- `handleLostConnections`. -/
def handleLostConnections : List (IbisIdentifier × Int) → Master → Except Fault Master
  | [], m => .ok m
  | (lost, time) :: rest, m =>
    match m.clusters.get? lost.cluster with
    | none => .error .nullPointer
    | some cluster =>
      match cluster.workers.get? lost.node with
      | none => handleLostConnections rest m
      | some ws =>
        if ws.isFinished then handleLostConnections rest m
        else handleLostConnections rest (m.requeue cluster lost.node time)

/-- The handler of a `ConnectionFailedException`. -/
def connectionFailed (m : Master) (turn : Turn) (origin : IbisIdentifier) : Except Fault Master :=
  match m.clusters.get? origin.cluster with
  | none => .error .nullPointer
  | some cluster => .ok (m.requeue cluster origin.node turn.failTime)

/-- The loop of `areWeDone` over the connected nodes: it ends with the first
that asked for no job yet or still has one. -/
def awaited (m : Master) : List IbisIdentifier → Except Fault Bool
  | [] => .ok false
  | spi :: rest =>
    match m.clusters.get? spi.cluster with
    | none => .error .nullPointer
    | some cluster =>
      match cluster.workers.get? spi.node with
      | none => .ok true
      | some ws => if ws.isFinished then m.awaited rest else .ok true

/-- `areWeDone`. -/
def areWeDone (m : Master) (turn : Turn) : Except Fault Master :=
  match m.handleLostConnections turn.lost with
  | .error fault => .error fault
  | .ok m =>
    if m.tasks = [] ∧ m.jobsDone = m.totalNumberTasks then
      match m.awaited turn.connected with
      | .error fault => .error fault
      | .ok awaited => .ok { m with undone := awaited }
    else .ok { m with undone := true }

/-- The total price of the workers at a given time. -/
def price (m : Master) (now : Int) : ℚ := (m.clusters.rows.map fun c => c.price now).sum

/-- `updateFrontEndCache`, less the deduction from the credit of the user. -/
def updateFrontEndCache (m : Master) (now : Int) : Master :=
  let noCompletedTasks : Int := m.finishedTasks.rows.length
  { m with
    serviceState :=
      { m.serviceState with
        moneySpent := m.price now + m.serviceState.moneySpentSampling
        noCompletedTasks := noCompletedTasks
        phase := if noCompletedTasks = m.serviceState.noTotalTasks then .finished else m.serviceState.phase } }

/-- The time of the latest cost check or failure is kept as the clock. -/
def clocked (m : Master) (now : Int) : Master := { m with clock := now }

/-- One turn of the loop of `run`. -/
def runOnce (m : Master) (turn : Turn) : Except Fault Master :=
  match turn.message with
  | none =>
    match m.areWeDone turn with
    | .error fault => .error fault
    | .ok m => .ok ((m.decideWithMovingAverage turn.decision).clocked turn.checkTime)
  | some message =>
    match m.handle turn message with
    | .error fault => .error fault
    | .ok (m, nextJob) =>
      let m := m.setNode (message.origin) nextJob
      match turn.delivery with
      | .sent =>
        match m.areWeDone turn with
        | .error fault => .error fault
        | .ok m => .ok ((m.updateFrontEndCache turn.checkTime).clocked turn.checkTime)
      | .connectionFailed =>
        match m.connectionFailed turn (message.origin) with
        | .error fault => .error fault
        | .ok m => .ok (m.clocked turn.checkTime)
      | .ioFailed =>
        match m.areWeDone turn with
        | .error fault => .error fault
        | .ok m => .ok (m.clocked turn.checkTime)

end Master

end ConPaaS
