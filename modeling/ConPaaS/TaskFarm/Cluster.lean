import ConPaaS.Lib.Table
import Mathlib.Data.Rat.Floor

namespace ConPaaS

open Keyed

/-- The location of a worker process: its node, and the cluster above it. -/
structure IbisIdentifier where
  cluster : String
  node : String
  deriving DecidableEq, Repr

/-- A task. `node` is where it was last sent, null before that. -/
structure Job where
  jobID : String
  node : Option String
  startTime : Int
  deriving DecidableEq, Repr

/-- A finished task with its run time in nanoseconds. -/
structure JobResult where
  jobID : String
  runtime : Int
  deriving DecidableEq, Repr

/-- A worker as the master knows it. Times are in milliseconds, the run time
in nanoseconds. -/
structure WorkerStats where
  node : String
  startTime : Int
  ii : IbisIdentifier
  noJobs : Int
  uptime : Int
  runtime : Int
  done : Bool
  willTerminate : Bool
  latestJobStartTime : Int
  timestamp : Int
  oldtimestamp : Int
  offset : Int
  isInitWorker : Bool
  noATUPlan : Int
  timeToDie : Int
  deriving DecidableEq, Repr

/-- The accounting time units an uptime reaches into. -/
def atus (uptime timeUnit : Int) : Int := ⌈(uptime : ℚ) / 60000 / timeUnit⌉

namespace WorkerStats

/-- The constructor of the class. -/
def create (node : String) (startTime : Int) (ii : IbisIdentifier) : WorkerStats where
  node := node
  startTime := startTime
  ii := ii
  noJobs := 0
  uptime := 0
  runtime := 0
  done := false
  willTerminate := false
  latestJobStartTime := 0
  timestamp := 0
  oldtimestamp := 0
  offset := 0
  isInitWorker := false
  noATUPlan := 0
  timeToDie := 0

def isFinished (ws : WorkerStats) : Bool := ws.done

def addJobStats (ws : WorkerStats) (r : Int) : WorkerStats :=
  { ws with noJobs := ws.noJobs + 1, runtime := ws.runtime + r, latestJobStartTime := 0 }

def workerFinished (ws : WorkerStats) (endTime : Int) : WorkerStats :=
  { ws with done := true, uptime := ws.uptime + (endTime - ws.startTime), timestamp := 0 }

/-- The uptime at a given time of the clock. -/
def getUptime (ws : WorkerStats) (now : Int) : Int := if ws.done then ws.uptime else ws.uptime + (now - ws.startTime)

def setLatestJobStartTime (ws : WorkerStats) (latestJobStartTime : Int) : WorkerStats := { ws with latestJobStartTime }

/-- A node is taken again: the time it was up before is rounded up to whole
time units, which are paid. -/
def reacquire (ws : WorkerStats) (timeUnit currentTimeMillis : Int) : WorkerStats :=
  { ws with
    done := false
    uptime := atus ws.uptime timeUnit * timeUnit * 60000
    startTime := currentTimeMillis
    willTerminate := false }

def markTerminated (ws : WorkerStats) : WorkerStats :=
  { ws with willTerminate := true, oldtimestamp := ws.timestamp, timestamp := 0 }

def unmarkTerminated (ws : WorkerStats) : WorkerStats :=
  { ws with willTerminate := false, timestamp := ws.oldtimestamp }

theorem workerFinished_node (endTime : Int) (ws : WorkerStats) : (ws.workerFinished endTime).node = ws.node := rfl

theorem jobless_node (ws : WorkerStats) : (ws.setLatestJobStartTime 0).node = ws.node := rfl

end WorkerStats

theorem JobResult.addJobStats_node (received : JobResult) (ws : WorkerStats) :
    (ws.addJobStats received.runtime).node = ws.node := rfl

/-- What a cluster charges: `costUnit` for each `timeUnit` minutes begun. -/
structure Rate where
  timeUnit : Int
  costUnit : ℚ
  positive : 0 < timeUnit
  nonneg : 0 ≤ costUnit
  deriving DecidableEq

theorem Rate.hour_positive : (0 : Int) < 60 := by decide

theorem Rate.two_nonneg : (0 : ℚ) ≤ 2 := by norm_num

/-- A cluster, with the workers the master keeps for it. The sampling points
are given by their ids. -/
structure Cluster where
  clusterAlias : String
  rate : Rate
  crtNodes : Int
  pendingNodes : Int
  timestamp : Int
  noATUPlan : Int
  subsetJobs : Table Job.jobID
  samplingPoints : List String
  samplingPointsCounter : Int
  totalRuntimeSampleJobs : Int
  noDoneJobs : Int
  totalRuntimeDoneJobs : Int
  workers : Table WorkerStats.node
  deriving DecidableEq

namespace Cluster

/-- `Cluster.getJob`: null for a job the cluster does not hold. -/
def getJob (cluster : Cluster) (received : JobResult) : Option Job := cluster.subsetJobs.get? received.jobID

def doneJob (cluster : Cluster) (jobRes : JobResult) : Cluster :=
  let sampled := cluster.samplingPoints.contains jobRes.jobID
  { cluster with
    samplingPointsCounter := cluster.samplingPointsCounter + if sampled then 1 else 0
    totalRuntimeSampleJobs := cluster.totalRuntimeSampleJobs + if sampled then jobRes.runtime.tdiv 1000000000 else 0
    subsetJobs := cluster.subsetJobs.erase jobRes.jobID
    noDoneJobs := cluster.noDoneJobs + 1
    totalRuntimeDoneJobs := cluster.totalRuntimeDoneJobs + jobRes.runtime.tdiv 1000000000 }

/-- A change of one worker that leaves the worker on its node. -/
def withWorker (cluster : Cluster) (node : String) (change : WorkerStats → WorkerStats)
    (same : ∀ ws, (change ws).node = ws.node := by intro _; rfl) : Cluster :=
  { cluster with workers := cluster.workers.modify node change same }

/-- `terminateWorker`: the worker is marked, to be killed at the end of its
time unit or at once. -/
def terminateWorker (cluster : Cluster) (node : String) (now : Int) : Cluster :=
  let change (ws : WorkerStats) : WorkerStats :=
    let timeLeftATU := cluster.rate.timeUnit * 60000 - (ws.getUptime now).tmod (cluster.rate.timeUnit * 60000) - 60000
    { ws.markTerminated with timeToDie := now + max timeLeftATU 0 }
  cluster.withWorker node change

/-- The minutes of the current time unit left at a start time. -/
def offsetAt (cluster : Cluster) (actualStartTime startTime : Int) : Int :=
  cluster.rate.timeUnit - ((startTime - actualStartTime).tmod (cluster.rate.timeUnit * 60000)).tdiv 60000

/-- The part of `handleJobRequest` that enters a new worker. -/
def enroll (cluster : Cluster) (noInitialWorkers actualStartTime startTime : Int) (origin : IbisIdentifier) : Cluster :=
  let timestamp := cluster.timestamp + 1
  let initial := timestamp ≤ noInitialWorkers
  let ws :=
    { WorkerStats.create origin.node startTime origin with
      offset := if initial then 0 else cluster.offsetAt actualStartTime startTime
      isInitWorker := initial
      timestamp := timestamp
      noATUPlan := cluster.noATUPlan }
  { cluster with workers := cluster.workers.put ws, timestamp := timestamp }

/-- The part of `handleJobRequest` that takes a known worker again. -/
def reenroll (cluster : Cluster) (actualStartTime startTime : Int) (origin : IbisIdentifier) : Cluster :=
  let timestamp := cluster.timestamp + 1
  let change (ws : WorkerStats) : WorkerStats :=
    { ws.reacquire cluster.rate.timeUnit startTime with
      ii := origin
      offset := cluster.offsetAt actualStartTime startTime
      timestamp := timestamp
      noATUPlan := cluster.noATUPlan }
  { cluster with workers := cluster.workers.modify origin.node change, timestamp := timestamp }

/-- A request is counted: one node more, one pending node less. -/
def counted (cluster : Cluster) : Cluster :=
  { cluster with crtNodes := cluster.crtNodes + 1, pendingNodes := cluster.pendingNodes - 1 }

/-- A worker is let go. -/
def finish (cluster : Cluster) (node : String) (endTime : Int) : Cluster :=
  { cluster.withWorker node (fun ws => ws.workerFinished endTime) with crtNodes := cluster.crtNodes - 1 }

/-- The end of `releaseNow`. -/
def sayGoodbye (cluster : Cluster) (node : String) (endTime : Int) : Cluster :=
  (cluster.finish node endTime).withWorker node (fun ws => ws.setLatestJobStartTime 0)

/-- The part of `findNextJob` that notes where the job went. -/
def assign (cluster : Cluster) (subsetLength : Int) (node : String) (nextJob : Job) : Cluster :=
  let cluster := cluster.withWorker node (fun ws => ws.setLatestJobStartTime nextJob.startTime)
  { cluster with
    subsetJobs := cluster.subsetJobs.put nextJob
    samplingPoints :=
      if cluster.samplingPoints.length < subsetLength && !cluster.samplingPoints.contains nextJob.jobID then
        nextJob.jobID :: cluster.samplingPoints
      else cluster.samplingPoints }

/-- `Job.setNode` for the job held under an id. -/
def setNode (cluster : Cluster) (jobID node : String) : Cluster :=
  { cluster with subsetJobs := cluster.subsetJobs.modify jobID (fun j => { j with node := some node }) }

/-- The first job sent to a node, in the order in which the map is walked. -/
def jobOn (cluster : Cluster) (node : String) : Option Job := cluster.subsetJobs.rows.find? fun j => j.node = some node

/-- The job of a failed node is taken out and its worker is finished. -/
def withoutJob (cluster : Cluster) (node : String) (endTime : Int) (j : Job) : Cluster :=
  { cluster.finish node endTime with subsetJobs := cluster.subsetJobs.erase j.jobID }

/-- The cost of one worker at a given time. -/
def costOf (cluster : Cluster) (now : Int) (ws : WorkerStats) : ℚ :=
  atus (ws.getUptime now) cluster.rate.timeUnit * cluster.rate.costUnit

/-- The cost of the workers of a cluster. -/
def price (cluster : Cluster) (now : Int) : ℚ := (cluster.workers.rows.map (cluster.costOf now)).sum

end Cluster

end ConPaaS
