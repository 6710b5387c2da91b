import ConPaaS.TaskFarm.Sampling
import Mathlib.Data.List.Sort

namespace ConPaaS

open Keyed

/-- The exceptions that end the execution phase with replication. -/
inductive TailFault
  | nullPointer | illegalArgument | noSuchElement
  deriving DecidableEq, Repr

/-- A task with what replication keeps in it: the node of its original, the
node and the start of its replica by cluster, and whether a result is awaited. -/
structure TailJob where
  jobID : String
  node : Option String
  startTime : Int
  replicated : Bool
  replicaNodes : Table (Prod.fst : String × String → String)
  starttimes : Table (Prod.fst : String × Int → String)
  notYetFinished : Bool
  deriving DecidableEq

namespace TailJob

/-- `Job.setNode`. -/
def setNode (origin : IbisIdentifier) (job : TailJob) : TailJob :=
  if job.replicated then { job with replicaNodes := job.replicaNodes.put (origin.cluster, origin.node) }
  else { job with node := some origin.node }

/-- `Job.originalDied`: the replica becomes the original. -/
def originalDied (job : TailJob) : Except TailFault TailJob :=
  match job.replicaNodes.rows, job.starttimes.rows with
  | (_, node) :: _, (_, startTime) :: _ =>
    .ok { job with replicated := false, node := some node, replicaNodes := .empty, startTime, starttimes := .empty }
  | _, _ => .error .noSuchElement

/-- `Job.replicaDied`. -/
def replicaDied (job : TailJob) : TailJob := { job with replicated := false, replicaNodes := .empty, starttimes := .empty }

/-- The part of `findNextJob` that is about the job. -/
def started (startTime : Int) (job : TailJob) : TailJob := { job with startTime }

/-- The part of `findNextJobToReplicate` that is about the job. -/
def replicate (cluster : String) (startTime : Int) (job : TailJob) : TailJob :=
  { job with replicated := true, starttimes := job.starttimes.put (cluster, startTime) }

/-- A result of a replicated job came in. -/
def resultIn (job : TailJob) : TailJob := if job.replicated then { job with notYetFinished := false } else job

/-- The original was sent to a node of this name. -/
def isOn (node : String) (job : TailJob) : Bool := job.node = some node

/-- The replica was sent to a node of a cluster. -/
def isReplicaOn (lost : IbisIdentifier) (job : TailJob) : Bool :=
  job.replicated && job.replicaNodes.get? lost.cluster = some (lost.cluster, lost.node)

theorem setNode_jobID (origin : IbisIdentifier) (job : TailJob) : (job.setNode origin).jobID = job.jobID := by
  unfold setNode
  split <;> rfl

theorem resultIn_jobID (job : TailJob) : job.resultIn.jobID = job.jobID := by
  unfold resultIn
  split <;> rfl

end TailJob

/-- The run time of a job in seconds as it is estimated for a free node: all of
it where the job runs, all of it on the free node, and the part that is over. -/
structure Estimate where
  source : ℚ
  target : ℚ
  elapsed : ℚ

/-- What the surroundings contribute to a turn, with the estimates for the jobs
a replica may be made of. -/
structure TailTurn extends Turn where
  estimates : String → Estimate

/-- A cluster as this phase sees it. The jobs are objects, shared by the maps of
all clusters they are sent to, and a map is given by its ids. -/
structure TailCluster where
  clusterAlias : String
  rate : Rate
  crtNodes : Int
  pendingNodes : Int
  timestamp : Int
  noATUPlan : Int
  subsetJobs : Points
  samplingPoints : List String
  samplingPointsCounter : Int
  totalRuntimeSampleJobs : Int
  noDoneJobs : Int
  totalRuntimeDoneJobs : Int
  workers : Table WorkerStats.node
  deriving DecidableEq

namespace TailCluster

/-- A change of one worker that leaves the worker on its node. -/
def withWorker (cluster : TailCluster) (node : String) (change : WorkerStats → WorkerStats)
    (same : ∀ ws, (change ws).node = ws.node := by intro _; rfl) : TailCluster :=
  { cluster with workers := cluster.workers.modify node change same }

def doneJob (cluster : TailCluster) (jobRes : JobResult) : TailCluster :=
  let sampled := cluster.samplingPoints.contains jobRes.jobID
  { cluster with
    samplingPointsCounter := cluster.samplingPointsCounter + if sampled then 1 else 0
    totalRuntimeSampleJobs := cluster.totalRuntimeSampleJobs + if sampled then jobRes.runtime.tdiv 1000000000 else 0
    subsetJobs := cluster.subsetJobs.erase jobRes.jobID
    noDoneJobs := cluster.noDoneJobs + 1
    totalRuntimeDoneJobs := cluster.totalRuntimeDoneJobs + jobRes.runtime.tdiv 1000000000 }

/-- A result is booked in its cluster and for its worker. -/
def bookResult (cluster : TailCluster) (received : JobResult) (node : String) : TailCluster :=
  (cluster.withWorker node (fun ws => ws.addJobStats received.runtime) received.addJobStats_node).doneJob received

/-- The minutes of the current time unit left at a start time. -/
def offsetAt (cluster : TailCluster) (actualStartTime startTime : Int) : Int :=
  cluster.rate.timeUnit - ((startTime - actualStartTime).tmod (cluster.rate.timeUnit * 60000)).tdiv 60000

/-- The entry of a node that is new. -/
def newWorker (cluster : TailCluster) (noInitialWorkers actualStartTime startTime : Int) (origin : IbisIdentifier) :
    WorkerStats :=
  let timestamp := cluster.timestamp + 1
  let initial := timestamp ≤ noInitialWorkers
  { WorkerStats.create origin.node startTime origin with
    offset := if initial then 0 else cluster.offsetAt actualStartTime startTime
    isInitWorker := initial
    timestamp
    noATUPlan := cluster.noATUPlan }

/-- The entry of a node that is taken again. -/
def knownWorker (cluster : TailCluster) (actualStartTime startTime : Int) (origin : IbisIdentifier) (ws : WorkerStats) :
    WorkerStats :=
  { ws.reacquire cluster.rate.timeUnit startTime with
    ii := origin
    offset := cluster.offsetAt actualStartTime startTime
    timestamp := cluster.timestamp + 1
    noATUPlan := cluster.noATUPlan }

/-- The part of `handleJobRequest` that books the node. -/
def register (cluster : TailCluster) (noInitialWorkers actualStartTime startTime : Int) (origin : IbisIdentifier) :
    TailCluster :=
  { cluster with
    workers :=
      match cluster.workers.get? origin.node with
      | none => cluster.workers.put (cluster.newWorker noInitialWorkers actualStartTime startTime origin)
      | some _ => cluster.workers.modify origin.node (cluster.knownWorker actualStartTime startTime origin)
    timestamp := cluster.timestamp + 1
    crtNodes := cluster.crtNodes + 1
    pendingNodes := cluster.pendingNodes - 1 }

/-- A worker is let go. -/
def finish (cluster : TailCluster) (node : String) (endTime : Int) : TailCluster :=
  { cluster.withWorker node (fun ws => ws.workerFinished endTime) (WorkerStats.workerFinished_node endTime) with crtNodes := cluster.crtNodes - 1 }

/-- `releaseNode`. -/
def releaseNode (cluster : TailCluster) (node : String) (endTime : Int) : TailCluster :=
  (cluster.finish node endTime).withWorker node (fun ws => ws.setLatestJobStartTime 0) WorkerStats.jobless_node

/-- The part of `findNextJobToReplicate` that notes where the job goes. -/
def hold (cluster : TailCluster) (node jobID : String) (startTime : Int) : TailCluster :=
  { cluster.withWorker node (fun ws => ws.setLatestJobStartTime startTime) with
    subsetJobs := cluster.subsetJobs.put jobID }

/-- The part of `findNextJob` that notes where the job goes. -/
def assign (cluster : TailCluster) (subsetLength : Int) (node jobID : String) (startTime : Int) : TailCluster :=
  { cluster.hold node jobID startTime with
    samplingPoints :=
      if cluster.samplingPoints.length < subsetLength && !cluster.samplingPoints.contains jobID then
        jobID :: cluster.samplingPoints
      else cluster.samplingPoints }

/-- A job is taken out of the map. -/
def drop (cluster : TailCluster) (jobID : String) : TailCluster :=
  { cluster with subsetJobs := cluster.subsetJobs.erase jobID }

/-- A cluster under the pending nodes, the plan and the marks some decision leaves. -/
def decided (cluster : TailCluster) (decision : Decision) : TailCluster :=
  { cluster with
    pendingNodes := decision.pendingNodes cluster.clusterAlias
    noATUPlan := decision.noATUPlan cluster.clusterAlias
    workers := cluster.workers.map (fun ws => ws.decided (decision.marks ⟨cluster.clusterAlias, ws.node⟩))
      fun ws => ws.decided_node _ }

end TailCluster

/-- `ExecutionTailPhaseMaster` with the bag it works on. `jobs` are the objects
of the bag, the other fields name them by their ids. -/
structure TailMaster where
  jobs : Table TailJob.jobID
  tasks : List String
  clusters : Table TailCluster.clusterAlias
  jobsDone : Int
  totalNumberTasks : Int
  noInitialWorkers : Int
  subsetLength : Int
  actualStartTime : Int
  undone : Bool
  deriving DecidableEq

namespace TailMaster

/-- A change of one cluster that leaves it under its name. -/
def update (m : TailMaster) (cluster : String) (change : TailCluster → TailCluster)
    (same : ∀ c, (change c).clusterAlias = c.clusterAlias := by intro _; rfl) : TailMaster :=
  { m with clusters := m.clusters.modify cluster change same }

/-- The values of `subsetJobs`, in the order in which the map is walked. -/
def held (m : TailMaster) (c : TailCluster) : List TailJob := c.subsetJobs.rows.filterMap m.jobs.get?

/-- `decideWithMovingAverage`, for whatever it decides. -/
def decideWithMovingAverage (m : TailMaster) (decision : Decision) : TailMaster :=
  { m with clusters := m.clusters.map (fun c => c.decided decision) }

def releaseNode (m : TailMaster) (turn : TailTurn) (origin : IbisIdentifier) : TailMaster :=
  m.update origin.cluster fun c => c.releaseNode origin.node turn.releaseTime

/-- A task leaves the queue for a node. -/
def handOut (m : TailMaster) (turn : TailTurn) (origin : IbisIdentifier) (index : Nat) (nextJob : String) : TailMaster :=
  { m with
    jobs := m.jobs.modify nextJob (TailJob.started turn.nanoTime)
    tasks := m.tasks.eraseIdx index }.update origin.cluster
    fun c => c.assign m.subsetLength origin.node nextJob turn.nanoTime

/-- `findNextJob`. -/
def findNextJob (m : TailMaster) (turn : TailTurn) (origin : IbisIdentifier) :
    Except TailFault (TailMaster × Option String) :=
  let index := turn.draw % m.tasks.length
  match m.tasks[index]? with
  | none => .error .illegalArgument
  | some nextJob => .ok (m.handOut turn origin index nextJob, some nextJob)

/-- `isCandidate`: on the free node the job would be done sooner. -/
def isCandidate (turn : TailTurn) (job : TailJob) : Bool :=
  (turn.estimates job.jobID).target < (turn.estimates job.jobID).source - (turn.estimates job.jobID).elapsed

/-- The loop of `findNextJobToReplicate` over the jobs of a cluster. The
estimates need the worker that runs the job. -/
def candidatesOf (turn : TailTurn) (workers : Table WorkerStats.node) : List TailJob → Except TailFault (List TailJob)
  | [] => .ok []
  | job :: rest =>
    if job.replicated then candidatesOf turn workers rest
    else
      match job.node.bind fun node => workers.get? node with
      | none => .error .nullPointer
      | some _ => do
        let others ← candidatesOf turn workers rest
        .ok (if isCandidate turn job then job :: others else others)

/-- The loop over the clusters. The cluster of the free node is left out. -/
def candidates (m : TailMaster) (turn : TailTurn) (own : String) : List TailCluster → Except TailFault (List TailJob)
  | [] => .ok []
  | c :: rest =>
    if c.clusterAlias = own then m.candidates turn own rest
    else do
      let here ← candidatesOf turn c.workers (m.held c)
      let others ← m.candidates turn own rest
      .ok (here ++ others)

/-- The order of `selectJobLargestTauSmallestElapsedETFirst`. -/
def sooner (turn : TailTurn) (a b : TailJob) : Bool :=
  (turn.estimates b.jobID).target < (turn.estimates a.jobID).target ∨
    (turn.estimates a.jobID).target = (turn.estimates b.jobID).target ∧
      (turn.estimates a.jobID).elapsed ≤ (turn.estimates b.jobID).elapsed

/-- `selectJobToReplicate`, if there are candidates: they are sorted, and the
first is taken. -/
def selectJobToReplicate (turn : TailTurn) (candidates : List TailJob) : Option TailJob :=
  (candidates.insertionSort fun a b => sooner turn a b = true).head?

/-- A second node is noted for a job. -/
def replicate (m : TailMaster) (turn : TailTurn) (origin : IbisIdentifier) (nextJob : String) : TailMaster :=
  { m with jobs := m.jobs.modify nextJob (TailJob.replicate origin.cluster turn.nanoTime) }.update origin.cluster
    fun c => c.hold origin.node nextJob turn.nanoTime

/-- `findNextJobToReplicate`. -/
def findNextJobToReplicate (m : TailMaster) (turn : TailTurn) (origin : IbisIdentifier) :
    Except TailFault (TailMaster × Option String) := do
  let candidates ← m.candidates turn origin.cluster m.clusters.rows
  match selectJobToReplicate turn candidates with
  | none => .ok (m.releaseNode turn origin, none)
  | some job => .ok (m.replicate turn origin job.jobID, some job.jobID)

/-- The test of `releaseNow`. -/
def allDone (m : TailMaster) : Bool := m.tasks = [] ∧ m.jobsDone = m.totalNumberTasks

/-- The node is entered, or taken again. -/
def register (m : TailMaster) (turn : TailTurn) (origin : IbisIdentifier) : TailMaster :=
  m.update origin.cluster fun c => c.register m.noInitialWorkers m.actualStartTime turn.requestTime origin

/-- `handleJobRequest`. `none` stands for a `NoJob`. A node the cluster did not
wait for is dismissed without an entry. -/
def handleJobRequest (m : TailMaster) (turn : TailTurn) (origin : IbisIdentifier) :
    Except TailFault (TailMaster × Option String) :=
  match m.clusters.get? origin.cluster with
  | none => .error .nullPointer
  | some cluster =>
    if cluster.pendingNodes = 0 then .ok (m, none)
    else
      let m := m.register turn origin
      if m.allDone then .ok (m.releaseNode turn origin, none)
      else m.findNextJob turn origin

/-- A result is booked. The second result of a replicated job is not counted. -/
def bookResult (m : TailMaster) (received : JobResult) (origin : IbisIdentifier) (finished : TailJob) : TailMaster :=
  { m with
    jobsDone := m.jobsDone + if finished.replicated && !finished.notYetFinished then 0 else 1
    jobs := m.jobs.modify received.jobID TailJob.resultIn TailJob.resultIn_jobID }.update origin.cluster
    fun c => c.bookResult received origin.node

/-- `handleJobResult` after the result is booked. -/
def releaseOrNext (m : TailMaster) (turn : TailTurn) (origin : IbisIdentifier) :
    Except TailFault (TailMaster × Option String) :=
  if m.allDone then .ok (m.releaseNode turn origin, none)
  else if m.tasks = [] then m.findNextJobToReplicate turn origin
  else m.findNextJob turn origin

/-- `Cluster.getJob`: null for a job the cluster does not hold. -/
def getJob (m : TailMaster) (cluster : TailCluster) (received : JobResult) : Option TailJob :=
  (cluster.subsetJobs.get? received.jobID).bind m.jobs.get?

/-- `handleJobResult`. -/
def handleJobResult (m : TailMaster) (turn : TailTurn) (received : JobResult) (origin : IbisIdentifier) :
    Except TailFault (TailMaster × Option String) :=
  match m.clusters.get? origin.cluster with
  | none => .error .nullPointer
  | some cluster =>
    match m.getJob cluster received with
    | none => .error .nullPointer
    | some finished =>
      match cluster.workers.get? origin.node with
      | none => .error .nullPointer
      | some _ => ((m.bookResult received origin finished).decideWithMovingAverage turn.decision).releaseOrNext turn origin

def handle (m : TailMaster) (turn : TailTurn) : Message → Except TailFault (TailMaster × Option String)
  | .jobRequest origin => m.handleJobRequest turn origin
  | .jobResult received origin => m.handleJobResult turn received origin

/-- `nextJob.setNode`. -/
def setNode (m : TailMaster) (origin : IbisIdentifier) : Option String → TailMaster
  | none => m
  | some nextJob => { m with jobs := m.jobs.modify nextJob (TailJob.setNode origin) (TailJob.setNode_jobID origin) }

/-- A walk over the jobs of a cluster that asks for the node of each, and ends
with the first that meets a condition. -/
def firstJob (wanted : TailJob → Bool) : List TailJob → Except TailFault (Option TailJob)
  | [] => .ok none
  | job :: rest =>
    match job.node with
    | none => .error .nullPointer
    | some _ => if wanted job then .ok (some job) else firstJob wanted rest

/-- The job whose loss `handleLostConnections` sees in the loss of a worker. -/
def jobOfLost (m : TailMaster) (lost : IbisIdentifier) (cluster : TailCluster) : Except TailFault (Option TailJob) :=
  firstJob (fun job => job.isOn lost.node || job.isReplicaOn lost) (m.held cluster)

/-- The job that goes back to the tasks when a reply cannot be sent. -/
def jobOfRefused (m : TailMaster) (origin : IbisIdentifier) (cluster : TailCluster) : Except TailFault (Option TailJob) :=
  firstJob (TailJob.isOn origin.node) (m.held cluster)

/-- The original of a job is lost. -/
def loseOriginal (m : TailMaster) (cluster : String) (job : TailJob) : Except TailFault TailMaster :=
  let m := m.update cluster fun c => c.drop job.jobID
  if !job.replicated then .ok { m with tasks := m.tasks ++ [job.jobID] }
  else if job.notYetFinished then do
    let heir ← job.originalDied
    .ok { m with jobs := m.jobs.put heir }
  else .ok m

/-- The replica of a job is lost. -/
def loseReplica (m : TailMaster) (job : TailJob) : TailMaster :=
  if job.notYetFinished then { m with jobs := m.jobs.modify job.jobID TailJob.replicaDied } else m

/-- The body of the loop of `handleLostConnections`. -/
def handleLostConnection (m : TailMaster) (lost : IbisIdentifier) (time : Int) : Except TailFault TailMaster :=
  match m.clusters.get? lost.cluster with
  | none => .error .nullPointer
  | some cluster =>
    match cluster.workers.get? lost.node with
    | none => .error .nullPointer
    | some ws =>
      if ws.isFinished then .ok m
      else do
        match ← m.jobOfLost lost cluster with
        | none => .ok m
        | some job =>
          let m ← if job.isOn lost.node then m.loseOriginal lost.cluster job else .ok (m.loseReplica job)
          .ok (m.update lost.cluster fun c => c.finish lost.node time)

/-- `handleLostConnections`. -/
def handleLostConnections : List (IbisIdentifier × Int) → TailMaster → Except TailFault TailMaster
  | [], m => .ok m
  | (lost, time) :: rest, m => do
    let m ← m.handleLostConnection lost time
    handleLostConnections rest m

/-- The handler of a `ConnectionFailedException`. -/
def connectionFailed (m : TailMaster) (turn : TailTurn) (origin : IbisIdentifier) : Except TailFault TailMaster :=
  match m.clusters.get? origin.cluster with
  | none => .error .nullPointer
  | some cluster => do
    match ← m.jobOfRefused origin cluster with
    | none => .ok m
    | some job =>
      match cluster.workers.get? origin.node with
      | none => .error .nullPointer
      | some _ =>
        .ok ({ m with tasks := m.tasks ++ [job.jobID] }.update origin.cluster
          fun c => (c.drop job.jobID).finish origin.node turn.failTime)

/-- The loop of `areWeDone` over the connected nodes. It tells whether there is
one that has not ended, and tells all of these to die. -/
def awaited (m : TailMaster) : List IbisIdentifier → Except TailFault Bool
  | [] => .ok false
  | spi :: rest =>
    match m.clusters.get? spi.cluster with
    | none => .error .nullPointer
    | some cluster => do
      let others ← m.awaited rest
      .ok (((cluster.workers.get? spi.node).any fun ws => !ws.isFinished) || others)

/-- What `areWeDone` does after the lost connections. -/
def checkDone (m : TailMaster) (connected : List IbisIdentifier) : Except TailFault TailMaster :=
  if m.allDone then do
    let awaited ← m.awaited connected
    .ok { m with undone := awaited }
  else .ok { m with undone := true }

/-- `areWeDone`. -/
def areWeDone (m : TailMaster) (turn : TailTurn) : Except TailFault TailMaster := do
  let m ← m.handleLostConnections turn.lost
  m.checkDone turn.connected

/-- One turn of the loop of `run`. -/
def runOnce (m : TailMaster) (turn : TailTurn) : Except TailFault TailMaster :=
  match turn.message with
  | none => do
    let m ← m.areWeDone turn
    .ok (m.decideWithMovingAverage turn.decision)
  | some message => do
    let (m, nextJob) ← m.handle turn message
    let m := m.setNode message.origin nextJob
    match turn.delivery with
    | .sent => m.areWeDone turn
    | .connectionFailed => m.connectionFailed turn message.origin
    | .ioFailed => m.areWeDone turn

end TailMaster

end ConPaaS
