import ConPaaS.TaskFarm.BagOfTasks
import ConPaaS.TaskFarm.ExecutionPhase

namespace ConPaaS

open Keyed

/-- The exceptions that end the sampling phase. -/
inductive SamplingFault
  | nullPointer | illegalArgument | indexOutOfBounds | runtime (text : String)
  deriving DecidableEq, Repr

/-- A map from ids to jobs. The jobs are objects, shared by all maps they are
in, and a map is given by its ids. -/
abbrev Points := Table (id : String → String)

/-- `Job.setNode`. -/
def BagJob.setNode (node : String) (job : BagJob) : BagJob := { job with node := some node }

/-- What a result leaves in the job: its run time in seconds on the cluster. -/
def BagJob.record (cluster : String) (received : JobResult) (job : BagJob) : BagJob :=
  { job with
    runtimes := (cluster, received.runtime.tdiv 1000000000) :: job.runtimes.filter fun entry => entry.1 ≠ cluster
    done := true }

/-- A cluster as the sampling phase sees it. -/
structure SamplingCluster where
  clusterAlias : String
  rate : Rate
  crtNodes : Int
  pendingNodes : Int
  regressionPoints : Points
  replicatedTasksCounter : Nat
  samplingPoints : Points
  samplingPointsCounter : Nat
  extraPoints : Points
  workers : Table WorkerStats.node
  deriving DecidableEq

/-- The master of the sampling phase. `jobs` are the objects of the bag, the
other fields name them by their ids. `timer` lists the workers that will be
terminated and the delays. -/
structure Sampler where
  jobs : Table BagJob.jobID
  tasks : List String
  replicatedTasks : List String
  finishedTasks : Points
  clusters : Table SamplingCluster.clusterAlias
  noReplicatedJobs : Nat
  noSampleJobs : Nat
  totalSamplingPointsCounter : Nat
  totalSamplingSubmittedCounter : Nat
  timer : List (IbisIdentifier × Int)
  undone : Bool
  deriving DecidableEq

/-- What the surroundings contribute to one turn of the loop of `run`. -/
structure SamplingTurn where
  message : Option Message
  delivery : Delivery
  lost : List (IbisIdentifier × Int)
  connected : List IbisIdentifier
  draw : Nat
  requestTime : Int
  uptimeTime : Int
  releaseTime : Int
  failTime : Int

namespace SamplingCluster

/-- A change of one worker that leaves the worker on its node. -/
def withWorker (cluster : SamplingCluster) (node : String) (change : WorkerStats → WorkerStats)
    (same : ∀ ws, (change ws).node = ws.node := by intro _; rfl) : SamplingCluster :=
  { cluster with workers := cluster.workers.modify node change same }

/-- The part of `handleJobRequest` that books the node. -/
def register (cluster : SamplingCluster) (origin : IbisIdentifier) (currentTimeMillis : Int) : SamplingCluster :=
  { cluster with
    workers :=
      match cluster.workers.get? origin.node with
      | none => cluster.workers.put (WorkerStats.create origin.node currentTimeMillis origin)
      | some _ => cluster.workers.modify origin.node fun ws => ws.reacquire cluster.rate.timeUnit currentTimeMillis
    crtNodes := cluster.crtNodes + 1
    pendingNodes := cluster.pendingNodes - 1 }

/-- Some map of the cluster has the job of a result. -/
def knows (cluster : SamplingCluster) (jobID : String) : Bool :=
  jobID ∈ cluster.regressionPoints.rows ∨ jobID ∈ cluster.samplingPoints.rows ∨ jobID ∈ cluster.extraPoints.rows

/-- A result is one of a sampling point. The replicated jobs are looked up first. -/
def samples (cluster : SamplingCluster) (jobID : String) : Bool :=
  jobID ∉ cluster.regressionPoints.rows ∧ jobID ∈ cluster.samplingPoints.rows

def countResult (cluster : SamplingCluster) (jobID : String) : SamplingCluster :=
  { cluster with
    replicatedTasksCounter :=
      cluster.replicatedTasksCounter + if jobID ∈ cluster.regressionPoints.rows then 1 else 0
    samplingPointsCounter := cluster.samplingPointsCounter + if cluster.samples jobID then 1 else 0 }

/-- A result is booked in its cluster and for its worker. -/
def bookResult (cluster : SamplingCluster) (received : JobResult) (node : String) : SamplingCluster :=
  (cluster.countResult received.jobID).withWorker node (fun ws => ws.addJobStats received.runtime) received.addJobStats_node

/-- The milliseconds left of the time unit a worker is in, less a minute. -/
def timeLeftATU (cluster : SamplingCluster) (ws : WorkerStats) (now : Int) : Int :=
  cluster.rate.timeUnit * 60000 - (ws.getUptime now).tmod (cluster.rate.timeUnit * 60000) - 60000

/-- A worker is let go. -/
def finish (cluster : SamplingCluster) (node : String) (endTime : Int) : SamplingCluster :=
  { cluster.withWorker node (fun ws => ws.workerFinished endTime) (WorkerStats.workerFinished_node endTime) with crtNodes := cluster.crtNodes - 1 }

/-- What `sayGB` changes. -/
def sayGoodbye (cluster : SamplingCluster) (node : String) (endTime : Int) : SamplingCluster :=
  (cluster.finish node endTime).withWorker node (fun ws => ws.setLatestJobStartTime 0) WorkerStats.jobless_node

def putRegression (cluster : SamplingCluster) (jobID : String) : SamplingCluster :=
  { cluster with regressionPoints := cluster.regressionPoints.put jobID }

def putSampling (cluster : SamplingCluster) (jobID : String) : SamplingCluster :=
  { cluster with samplingPoints := cluster.samplingPoints.put jobID }

def putExtra (cluster : SamplingCluster) (jobID : String) : SamplingCluster :=
  { cluster with extraPoints := cluster.extraPoints.put jobID }

def dropRegression (cluster : SamplingCluster) (jobID : String) : SamplingCluster :=
  { cluster with regressionPoints := cluster.regressionPoints.erase jobID }

def dropSampling (cluster : SamplingCluster) (jobID : String) : SamplingCluster :=
  { cluster with samplingPoints := cluster.samplingPoints.erase jobID }

def dropExtra (cluster : SamplingCluster) (jobID : String) : SamplingCluster :=
  { cluster with extraPoints := cluster.extraPoints.erase jobID }

/-- The sampling points and the extra points: the jobs that are run in no
other cluster. -/
def points (cluster : SamplingCluster) : List String := cluster.samplingPoints.rows ++ cluster.extraPoints.rows

end SamplingCluster

namespace Sampler

/-- A change of one cluster that leaves it under its name. -/
def update (m : Sampler) (cluster : String) (change : SamplingCluster → SamplingCluster)
    (same : ∀ c, (change c).clusterAlias = c.clusterAlias := by intro _; rfl) : Sampler :=
  { m with clusters := m.clusters.modify cluster change same }

/-- The loop of the constructor: the replicated tasks are drawn from the bag. -/
def drawReplicated : List Nat → List String → Except SamplingFault (List String × List String)
  | [], tasks => .ok ([], tasks)
  | draw :: draws, tasks =>
    match tasks[draw % tasks.length]? with
    | none => .error .illegalArgument
    | some task => do
      let (replicated, rest) ← drawReplicated draws (tasks.eraseIdx (draw % tasks.length))
      .ok (task :: replicated, rest)

/-- The constructor of the class, less the cost bounds. `noSampleJobs` is the
size it computes for the sample, `draws` are the numbers of its generator. -/
def create (bag : Table BagJob.jobID) (clusters : Table SamplingCluster.clusterAlias)
    (noSampleJobs noReplicatedJobs noInitialWorkers : Nat) (draws : Nat → Nat) : Except SamplingFault Sampler := do
  let tasks := bag.rows.map BagJob.jobID
  if noSampleJobs < noReplicatedJobs then .error (.runtime "Bag too small!")
  else
    let (replicatedTasks, rest) ← drawReplicated ((List.range noReplicatedJobs).map draws) tasks
    if tasks.length < 2 * (noSampleJobs * clusters.rows.length) then
      .error (.runtime "Size of the BoT too small for the number of clusters")
    else
      let fresh (c : SamplingCluster) : SamplingCluster :=
        { c with workers := .empty, crtNodes := 0, pendingNodes := noInitialWorkers }
      .ok { jobs := bag
            tasks := rest
            replicatedTasks
            finishedTasks := .empty
            clusters := clusters.map fresh
            noReplicatedJobs
            noSampleJobs
            totalSamplingPointsCounter := 0
            totalSamplingSubmittedCounter := 0
            timer := []
            undone := true }

/-- `sayGB`. -/
def sayGB (m : Sampler) (turn : SamplingTurn) (origin : IbisIdentifier) : Sampler :=
  m.update origin.cluster fun c => c.sayGoodbye origin.node turn.releaseTime

/-- The next replicated job is noted in its cluster. -/
def handOutRegression (m : Sampler) (origin : IbisIdentifier) (nextJob : String) : Sampler :=
  m.update origin.cluster fun c => c.putRegression nextJob

/-- A task becomes a sampling point. -/
def handOutSampling (m : Sampler) (origin : IbisIdentifier) (index : Nat) (nextJob : String) : Sampler :=
  { m with
    tasks := m.tasks.eraseIdx index
    totalSamplingSubmittedCounter := m.totalSamplingSubmittedCounter + 1 }.update origin.cluster
    fun c => c.putSampling nextJob

/-- A task becomes an extra point, for the rest of the time unit. -/
def handOutExtra (m : Sampler) (origin : IbisIdentifier) (index : Nat) (nextJob : String) (entry : IbisIdentifier × Int) :
    Sampler :=
  { m with tasks := m.tasks.eraseIdx index, timer := m.timer ++ [entry] }.update origin.cluster
    fun c => c.putExtra nextJob

/-- `findNextJob`. `none` stands for a `NoJob`. The only exception that is
caught in it is the one for an empty list of tasks. -/
def findNextJob (m : Sampler) (turn : SamplingTurn) (origin : IbisIdentifier) :
    Except SamplingFault (Sampler × Option String) :=
  match m.clusters.get? origin.cluster with
  | none => .error .nullPointer
  | some cluster =>
    let size := cluster.regressionPoints.rows.length
    let index := turn.draw % m.tasks.length
    if size < m.noReplicatedJobs then
      match m.replicatedTasks[size]? with
      | none => .error .indexOutOfBounds
      | some nextJob => .ok (m.handOutRegression origin nextJob, some nextJob)
    else if m.totalSamplingSubmittedCounter < m.noSampleJobs - m.noReplicatedJobs then
      match m.tasks[index]? with
      | none => .error .illegalArgument
      | some nextJob => .ok (m.handOutSampling origin index nextJob, some nextJob)
    else
      match cluster.workers.get? origin.node with
      | none => .error .nullPointer
      | some ws =>
        let timeLeftATU := cluster.timeLeftATU ws turn.uptimeTime
        if 0 < timeLeftATU then
          match m.tasks[index]? with
          | none => .ok (m.sayGB turn origin, none)
          | some nextJob => .ok (m.handOutExtra origin index nextJob (ws.ii, timeLeftATU), some nextJob)
        else .ok (m.sayGB turn origin, none)

/-- `handleJobRequest`. -/
def handleJobRequest (m : Sampler) (turn : SamplingTurn) (origin : IbisIdentifier) :
    Except SamplingFault (Sampler × Option String) :=
  match m.clusters.get? origin.cluster with
  | none => .error (.runtime ("Cannot find the cluster with alias " ++ origin.cluster))
  | some _ => (m.update origin.cluster fun c => c.register origin turn.requestTime).findNextJob turn origin

/-- A result is booked in the job, whichever map has it. -/
def recordResult (m : Sampler) (received : JobResult) (origin : IbisIdentifier) (cluster : SamplingCluster) : Sampler :=
  { m with
    totalSamplingPointsCounter := m.totalSamplingPointsCounter + if cluster.samples received.jobID then 1 else 0
    jobs := m.jobs.modify received.jobID (BagJob.record origin.cluster received)
    finishedTasks := m.finishedTasks.add received.jobID }.update origin.cluster
    fun c => c.bookResult received origin.node

/-- `handleJobResult`. -/
def handleJobResult (m : Sampler) (turn : SamplingTurn) (received : JobResult) (origin : IbisIdentifier) :
    Except SamplingFault (Sampler × Option String) :=
  match m.clusters.get? origin.cluster with
  | none => .error .nullPointer
  | some cluster =>
    match cluster.workers.get? origin.node with
    | none => .error .nullPointer
    | some _ =>
      if cluster.knows received.jobID then (m.recordResult received origin cluster).findNextJob turn origin
      else .error .nullPointer

def handle (m : Sampler) (turn : SamplingTurn) : Message → Except SamplingFault (Sampler × Option String)
  | .jobRequest origin => m.handleJobRequest turn origin
  | .jobResult received origin => m.handleJobResult turn received origin

/-- `nextJob.setNode`. -/
def setNode (m : Sampler) (origin : IbisIdentifier) : Option String → Sampler
  | none => m
  | some nextJob => { m with jobs := m.jobs.modify nextJob (BagJob.setNode origin.node) }

/-- The first job of a map that was sent to a node and is not done. -/
def failedIn (m : Sampler) (points : Points) (node : String) : Option String :=
  points.rows.find? fun jobID => (m.jobs.get? jobID).any fun job => !job.done && job.node = some node

/-- `findFailedJob`. Replicated jobs do not return to the tasks. -/
def findFailedJob (m : Sampler) (cluster : SamplingCluster) (node : String) : Sampler :=
  match m.failedIn cluster.extraPoints node with
  | some jobID =>
    { m with tasks := m.tasks ++ [jobID] }.update cluster.clusterAlias
      fun c => c.dropExtra jobID
  | none =>
    match m.failedIn cluster.samplingPoints node with
    | some jobID =>
      { m with tasks := m.tasks ++ [jobID] }.update cluster.clusterAlias
        fun c => c.dropSampling jobID
    | none =>
      match m.failedIn cluster.regressionPoints node with
      | some jobID =>
        m.update cluster.clusterAlias fun c => c.dropRegression jobID
      | none => m

/-- A worker is lost with its job. -/
def loseWorker (m : Sampler) (cluster : SamplingCluster) (node : String) (time : Int) : Sampler :=
  (m.findFailedJob cluster node).update cluster.clusterAlias fun c => c.finish node time

/-- The body of the loop of `handleLostConnections`. -/
def handleLostConnection (m : Sampler) (lost : IbisIdentifier) (time : Int) : Except SamplingFault Sampler :=
  match m.clusters.get? lost.cluster with
  | none => .error .nullPointer
  | some cluster =>
    match cluster.workers.get? lost.node with
    | none => .error .nullPointer
    | some ws => if ws.isFinished then .ok m else .ok (m.loseWorker cluster lost.node time)

/-- `handleLostConnections`. -/
def handleLostConnections : List (IbisIdentifier × Int) → Sampler → Except SamplingFault Sampler
  | [], m => .ok m
  | (lost, time) :: rest, m => do
    let m ← m.handleLostConnection lost time
    handleLostConnections rest m

/-- The handler of a `ConnectionFailedException`. -/
def connectionFailed (m : Sampler) (turn : SamplingTurn) (origin : IbisIdentifier) : Except SamplingFault Sampler :=
  match m.clusters.get? origin.cluster with
  | none => .error .nullPointer
  | some cluster =>
    match cluster.workers.get? origin.node with
    | none => .error .nullPointer
    | some _ => .ok (m.loseWorker cluster origin.node turn.failTime)

/-- The loop of `areWeDone` over the connected nodes: it ends with the first
that asked for no job yet or still has one. -/
def awaited (m : Sampler) : List IbisIdentifier → Except SamplingFault Bool
  | [] => .ok false
  | spi :: rest =>
    match m.clusters.get? spi.cluster with
    | none => .error .nullPointer
    | some cluster =>
      match cluster.workers.get? spi.node with
      | none => .ok true
      | some ws => if ws.isFinished then m.awaited rest else .ok true

/-- What `areWeDone` does after the lost connections. -/
def checkDone (m : Sampler) (connected : List IbisIdentifier) : Except SamplingFault Sampler :=
  if (∀ c ∈ m.clusters.rows, c.replicatedTasksCounter = m.noReplicatedJobs) ∧
      m.totalSamplingPointsCounter + m.noReplicatedJobs = m.noSampleJobs then do
    let awaited ← m.awaited connected
    .ok { m with undone := awaited }
  else .ok { m with undone := true }

/-- `areWeDone`. -/
def areWeDone (m : Sampler) (turn : SamplingTurn) : Except SamplingFault Sampler := do
  let m ← m.handleLostConnections turn.lost
  m.checkDone turn.connected

/-- One turn of the loop of `run`, less the front end. -/
def runOnce (m : Sampler) (turn : SamplingTurn) : Except SamplingFault Sampler :=
  match turn.message with
  | none => m.areWeDone turn
  | some message => do
    let (m, nextJob) ← m.handle turn message
    let m := m.setNode message.origin nextJob
    match turn.delivery with
    | .sent => m.areWeDone turn
    | .connectionFailed => m.connectionFailed turn message.origin
    | .ioFailed => m.areWeDone turn

end Sampler

end ConPaaS
