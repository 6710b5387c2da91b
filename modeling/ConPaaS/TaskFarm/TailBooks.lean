import ConPaaS.TaskFarm.TailFarm
import Mathlib.Data.List.Dedup

namespace ConPaaS

open Keyed

/-- How far a job has come. It waits, runs on one node or on two, still runs as
original or as replica after the other brought the result, was lost as such a
replica, or is over. -/
inductive Progress
  | queued
  | running (original : IbisIdentifier)
  | doubled (original replica : IbisIdentifier)
  | original (node : IbisIdentifier)
  | replica (node : IbisIdentifier)
  | forgotten (node : IbisIdentifier)
  | finished
  deriving DecidableEq

namespace Progress

/-- The nodes that work at the job. -/
def nodes : Progress → List IbisIdentifier
  | queued | forgotten _ | finished => []
  | running node | original node | replica node => [node]
  | doubled first second => [first, second]

/-- The clusters that have the job in their map. -/
def holders : Progress → List String
  | queued | finished => []
  | running node | original node | replica node | forgotten node => [node.cluster]
  | doubled first second => [first.cluster, second.cluster]

/-- A result came in. -/
def reported : Progress → Bool
  | queued | running _ | doubled _ _ => false
  | original _ | replica _ | forgotten _ | finished => true

/-- What the object of the job says at this point. -/
def Fits (job : TailJob) : Progress → Prop
  | queued => job.Single
  | running node => job.Single ∧ job.node = some node.node
  | doubled first second =>
    first.cluster ≠ second.cluster ∧ job.replicated = true ∧ job.notYetFinished = true ∧ job.node = some first.node ∧
      job.replicaNodes.rows = [(second.cluster, second.node)] ∧
      ∃ startTime, job.starttimes.rows = [(second.cluster, startTime)]
  | original node => job.replicated = true ∧ job.notYetFinished = false ∧ job.node = some node.node
  | replica _ | forgotten _ => job.replicated = true ∧ job.notYetFinished = false ∧ job.node.isSome = true
  | finished => True

/-- A node brings the result. -/
def report (node : IbisIdentifier) : Progress → Progress
  | doubled first second => if node = first then replica second else original first
  | _ => finished

/-- A node is lost, and the clusters no longer have the job for it. -/
def lose (node : IbisIdentifier) : Progress → Progress
  | running _ => queued
  | doubled first second => running (if node = first then second else first)
  | _ => finished

/-- A node leaves the job, and with it its cluster. -/
structure Leaves (node : IbisIdentifier) (before after : Progress) : Prop where
  nodes : ∀ other, other ∈ after.nodes ↔ other ∈ before.nodes ∧ other ≠ node
  holders : ∀ cluster, cluster ∈ after.holders ↔ cluster ∈ before.holders ∧ cluster ≠ node.cluster

/-- A node joins the job, and its cluster has the job for it. -/
structure Joins (node : IbisIdentifier) (before after : Progress) : Prop where
  nodes : ∀ other, other ∈ after.nodes ↔ other ∈ before.nodes ∨ other = node
  holders : ∀ cluster, cluster ∈ after.holders ↔ cluster ∈ before.holders ∨ cluster = node.cluster
  reported : after.reported = before.reported
  sent : after ≠ queued

variable {progress : Progress} {node : IbisIdentifier} {job : TailJob}

theorem joins_queued (node : IbisIdentifier) : Joins node queued (running node) := by
  constructor <;> simp [nodes, holders, Progress.reported]

theorem joins_running (first second : IbisIdentifier) : Joins second (running first) (doubled first second) := by
  constructor <;> simp [nodes, holders, Progress.reported]

theorem leaves_alone {before after : Progress} (alone : before.nodes = [node]) (held : before.holders = [node.cluster])
    (nobody : after.nodes = []) (nowhere : after.holders = []) : Leaves node before after := by
  constructor <;> simp [alone, held, nobody, nowhere]

/-- Of two nodes in different clusters one stays. -/
theorem leaves_pair {before after : Progress} {stays : IbisIdentifier} (apart : node.cluster ≠ stays.cluster)
    (pair : ∀ other, other ∈ before.nodes ↔ other = node ∨ other = stays)
    (held : ∀ cluster, cluster ∈ before.holders ↔ cluster = node.cluster ∨ cluster = stays.cluster)
    (one : after.nodes = [stays]) (there : after.holders = [stays.cluster]) : Leaves node before after := by
  have distinct : stays ≠ node := fun same => apart (congrArg IbisIdentifier.cluster same.symm)
  constructor
  · intro other
    rw [pair, one, List.mem_singleton]
    constructor
    · rintro rfl
      exact ⟨.inr rfl, distinct⟩
    · rintro ⟨rfl | same, other⟩
      · exact absurd rfl other
      · exact same
  · intro cluster
    rw [held, there, List.mem_singleton]
    constructor
    · rintro rfl
      exact ⟨.inr rfl, apart.symm⟩
    · rintro ⟨rfl | same, other⟩
      · exact absurd rfl other
      · exact same

theorem leaves_report (works : node ∈ progress.nodes) (fits : progress.Fits job) :
    Leaves node progress (progress.report node) := by
  cases progress with
  | queued | forgotten | finished => cases works
  | running | original | replica =>
    obtain rfl := List.mem_singleton.mp works
    exact leaves_alone rfl rfl rfl rfl
  | doubled first second =>
    by_cases here : node = first
    · subst here
      exact leaves_pair fits.1 (by simp [nodes]) (by simp [holders]) (by simp [report, nodes])
        (by simp [report, holders])
    · obtain rfl : node = second := by simpa [nodes, here] using works
      exact leaves_pair fits.1.symm (by simp [nodes, or_comm]) (by simp [holders, or_comm])
        (by simp [report, nodes, here]) (by simp [report, holders, here])

theorem leaves_lose (works : node ∈ progress.nodes) (fits : progress.Fits job) :
    Leaves node progress (progress.lose node) := by
  cases progress with
  | queued | forgotten | finished => cases works
  | running | original | replica =>
    obtain rfl := List.mem_singleton.mp works
    exact leaves_alone rfl rfl rfl rfl
  | doubled first second =>
    by_cases here : node = first
    · subst here
      exact leaves_pair fits.1 (by simp [nodes]) (by simp [holders]) (by simp [lose, nodes]) (by simp [lose, holders])
    · obtain rfl : node = second := by simpa [nodes, here] using works
      exact leaves_pair fits.1.symm (by simp [nodes, or_comm]) (by simp [holders, or_comm]) (by simp [lose, nodes, here])
        (by simp [lose, holders, here])

theorem reported_report (node : IbisIdentifier) (progress : Progress) : (progress.report node).reported = true := by
  cases progress with
  | doubled first second => by_cases here : node = first <;> simp [report, reported, here]
  | _ => rfl

theorem report_ne_queued (node : IbisIdentifier) (progress : Progress) : progress.report node ≠ queued := by
  intro waits
  have reported := reported_report node progress
  rw [waits] at reported
  cases reported

theorem fits_report (works : node ∈ progress.nodes) (fits : progress.Fits job) :
    (progress.report node).Fits job.resultIn := by
  cases progress with
  | queued | forgotten | finished => cases works
  | running | original | replica => trivial
  | doubled first second =>
    obtain ⟨_, replicated, _, sent, _⟩ := fits
    have ended : job.resultIn = { job with notYetFinished := false } := if_pos replicated
    rw [ended]
    by_cases here : node = first
    · simp [report, here, Fits, replicated, sent]
    · simp [report, here, Fits, replicated, sent]

/-- A job some node works at has a result before it is over if and only if its
second result will not count. -/
theorem reported_iff (works : node ∈ progress.nodes) (fits : progress.Fits job) :
    progress.reported = (job.replicated && !job.notYetFinished) := by
  cases progress with
  | queued | forgotten | finished => cases works
  | running => simp [reported, fits.1.replicated]
  | doubled => simp [reported, fits.2.2.1]
  | original | replica => simp [reported, fits.1, fits.2.1]

end Progress

namespace TailCluster

variable {c : TailCluster} {node : String}

/-- A node of the cluster has a worker that was not let go. -/
def Lives (c : TailCluster) (node : String) : Prop := ∃ ws, c.workers.get? node = some ws ∧ ws.done = false

theorem Lives.withWorker (lives : c.Lives node) (other : String) (change : WorkerStats → WorkerStats)
    (kept : ∀ ws, (change ws).done = ws.done) (same : ∀ ws, (change ws).node = ws.node := by intro _; rfl) :
    (c.withWorker other change same).Lives node := by
  obtain ⟨ws, known, busy⟩ := lives
  refine ⟨if node = other then change ws else ws, Table.get?_modify_of known change same, ?_⟩
  split
  · exact (kept ws).trans busy
  · exact busy

theorem Lives.withWorker_ne (lives : c.Lives node) {other : String} (apart : node ≠ other)
    (change : WorkerStats → WorkerStats) (same : ∀ ws, (change ws).node = ws.node := by intro _; rfl) :
    (c.withWorker other change same).Lives node := by
  obtain ⟨ws, known, busy⟩ := lives
  exact ⟨ws, (Table.get?_modify_ne c.workers apart change same).trans known, busy⟩

theorem Lives.releaseNode (lives : c.Lives node) {other : String} (apart : node ≠ other) (endTime : Int) :
    (c.releaseNode other endTime).Lives node := by
  have finished : (c.finish other endTime).Lives node := lives.withWorker_ne apart _ (by intro _; rfl)
  exact finished.withWorker_ne apart _ (by intro _; rfl)

theorem Lives.hold (lives : c.Lives node) (other jobID : String) (startTime : Int) :
    (c.hold other jobID startTime).Lives node :=
  lives.withWorker other (fun ws => ws.setLatestJobStartTime startTime) (fun _ => rfl) (by intro _; rfl)

theorem Lives.decided (lives : c.Lives node) (decision : Decision) : (c.decided decision).Lives node := by
  obtain ⟨ws, known, busy⟩ := lives
  refine ⟨_, Table.get?_map known _ fun ws => ws.decided_node _, ?_⟩
  rcases decision.marks ⟨c.clusterAlias, ws.node⟩ with - | - | - <;> exact busy

theorem Lives.register {origin : IbisIdentifier} (lives : c.Lives node) (apart : node ≠ origin.node)
    (noInitialWorkers actualStartTime startTime : Int) :
    (c.register noInitialWorkers actualStartTime startTime origin).Lives node := by
  obtain ⟨ws, known, busy⟩ := lives
  refine ⟨ws, ?_, busy⟩
  unfold TailCluster.register
  dsimp only
  split
  · exact (Table.get?_put_ne c.workers apart).trans known
  · exact (Table.get?_modify_ne c.workers apart _ _).trans known

theorem register_lives (c : TailCluster) (origin : IbisIdentifier) (noInitialWorkers actualStartTime startTime : Int) :
    (c.register noInitialWorkers actualStartTime startTime origin).Lives origin.node := by
  unfold TailCluster.register Lives
  dsimp only
  split
  · exact ⟨_, Table.get?_put_self c.workers (c.newWorker noInitialWorkers actualStartTime startTime origin), rfl⟩
  · rename_i ws known
    exact ⟨_, Table.get?_modify_self known _ _, rfl⟩

end TailCluster

namespace TailMaster

variable {m : TailMaster} {cluster : String} {change : TailCluster → TailCluster}

/-- A cluster has a job in its map. -/
def Holds (m : TailMaster) (cluster jobID : String) : Prop :=
  ∃ c, m.clusters.get? cluster = some c ∧ jobID ∈ c.subsetJobs.rows

/-- A node has a worker that was not let go. -/
def Live (m : TailMaster) (node : IbisIdentifier) : Prop :=
  ∃ c, m.clusters.get? node.cluster = some c ∧ c.Lives node.node

theorem holds_update {other jobID : String} (same : ∀ c, (change c).clusterAlias = c.clusterAlias := by intro _; rfl) :
    (m.update cluster change same).Holds other jobID ↔
      ∃ c, m.clusters.get? other = some c ∧ jobID ∈ (if other = cluster then change c else c).subsetJobs.rows := by
  simp only [Holds, update, Table.get?_modify_map, Option.map_eq_some_iff]
  constructor
  · rintro ⟨_, ⟨c, found, rfl⟩, held⟩
    exact ⟨c, found, held⟩
  · rintro ⟨c, found, held⟩
    exact ⟨_, ⟨c, found, rfl⟩, held⟩

theorem holds_update_same {other jobID : String} (kept : ∀ c, (change c).subsetJobs = c.subsetJobs)
    (same : ∀ c, (change c).clusterAlias = c.clusterAlias := by intro _; rfl) :
    (m.update cluster change same).Holds other jobID ↔ m.Holds other jobID := by
  refine (holds_update same).trans (exists_congr fun c => and_congr_right fun _ => ?_)
  split
  · rw [kept]
  · rfl

theorem holds_update_erase {other jobID gone : String} (erased : ∀ c, (change c).subsetJobs = c.subsetJobs.erase gone)
    (same : ∀ c, (change c).clusterAlias = c.clusterAlias := by intro _; rfl) :
    (m.update cluster change same).Holds other jobID ↔ m.Holds other jobID ∧ ¬(other = cluster ∧ jobID = gone) := by
  rw [holds_update same, Holds, ← exists_and_right]
  refine exists_congr fun c => ?_
  rw [and_assoc]
  refine and_congr_right fun _ => ?_
  split
  · rename_i here
    rw [erased, Table.mem_erase]
    simp [here]
  · rename_i there
    simp [there]

theorem holds_update_put {other jobID new : String} (put : ∀ c, (change c).subsetJobs = c.subsetJobs.put new)
    {c : TailCluster} (found : m.clusters.get? cluster = some c)
    (same : ∀ c, (change c).clusterAlias = c.clusterAlias := by intro _; rfl) :
    (m.update cluster change same).Holds other jobID ↔ m.Holds other jobID ∨ other = cluster ∧ jobID = new := by
  rw [holds_update same]
  by_cases here : other = cluster
  · subst here
    simp only [Holds, found, Option.some.injEq, exists_eq_left', if_true, put, Table.mem_put, id_eq, true_and]
    by_cases named : jobID = new <;> simp [named]
  · simp [Holds, here]

theorem knows_update {other : String} (same : ∀ c, (change c).clusterAlias = c.clusterAlias := by intro _; rfl) :
    (m.update cluster change same).knows other = m.knows other := by
  rw [knows, update, Table.get?_modify_map m.clusters cluster other change same, Option.isSome_map, knows]

theorem knows_decideWithMovingAverage (decision : Decision) (other : String) :
    (m.decideWithMovingAverage decision).knows other = m.knows other := by
  rw [Bool.eq_iff_iff, knows, knows, Option.isSome_iff_exists, Option.isSome_iff_exists]
  constructor
  · rintro ⟨_, found⟩
    obtain ⟨old, inside, rfl⟩ := List.mem_map.mp (Table.get?_mem found)
    have named := Table.get?_key found
    exact ⟨old, Table.get?_iff.mpr ⟨inside, named⟩⟩
  · rintro ⟨c, found⟩
    exact ⟨_, Table.get?_map found _ (by intro _; rfl)⟩

theorem holds_decideWithMovingAverage {other jobID : String} (decision : Decision) :
    (m.decideWithMovingAverage decision).Holds other jobID ↔ m.Holds other jobID := by
  constructor
  · rintro ⟨_, found, held⟩
    obtain ⟨old, inside, rfl⟩ := List.mem_map.mp (Table.get?_mem found)
    have named := Table.get?_key found
    exact ⟨old, Table.get?_iff.mpr ⟨inside, named⟩, held⟩
  · rintro ⟨c, found, held⟩
    exact ⟨_, Table.get?_map found _ (by intro _; rfl), held⟩

theorem Live.decideWithMovingAverage {node : IbisIdentifier} (live : m.Live node) (decision : Decision) :
    (m.decideWithMovingAverage decision).Live node := by
  obtain ⟨c, found, lives⟩ := live
  exact ⟨_, Table.get?_map found _ (by intro _; rfl), lives.decided decision⟩

theorem Live.update {node : IbisIdentifier} (live : m.Live node)
    (kept : ∀ c, node.cluster = cluster → c.Lives node.node → (change c).Lives node.node)
    (same : ∀ c, (change c).clusterAlias = c.clusterAlias := by intro _; rfl) : (m.update cluster change same).Live node := by
  obtain ⟨c, found, lives⟩ := live
  refine ⟨_, Table.get?_modify_of found change same, ?_⟩
  split
  · rename_i here
    exact kept c here lives
  · exact lives

theorem Live.bookResult {node : IbisIdentifier} (live : m.Live node) (received : JobResult) (origin : IbisIdentifier)
    (finished : TailJob) : (m.bookResult received origin finished).Live node :=
  live.update (fun _ _ lives => lives.withWorker origin.node (fun ws => ws.addJobStats received.runtime) (fun _ => rfl)
    (by intro _; rfl)) (by intro _; rfl)

end TailMaster

namespace TailFarm

variable {start : TailMaster} {farm after : TailFarm} {origin : IbisIdentifier} {jobID : String} {progress : Progress}
  {job : TailJob} {turn : TailTurn}

/-- A node works at a job. -/
def Runs (farm : TailFarm) (node : IbisIdentifier) (jobID : String) : Prop := farm.working.get? node = some (node, jobID)

/-- What the farm shows of a job at some point of its progress. -/
structure Stands (farm : TailFarm) (jobID : String) (progress : Progress) : Prop where
  object : ∃ job, farm.master.jobs.get? jobID = some job ∧ progress.Fits job
  queued : jobID ∈ farm.master.tasks ↔ progress = .queued
  held : ∀ cluster, farm.master.Holds cluster jobID ↔ cluster ∈ progress.holders
  runs : ∀ node, farm.Runs node jobID ↔ node ∈ progress.nodes
  reported : jobID ∈ farm.results ↔ progress.reported = true

/-- What the farm shows of a job that is not in the bag. -/
structure Foreign (farm : TailFarm) (jobID : String) : Prop where
  queued : jobID ∉ farm.master.tasks
  held : ∀ cluster, ¬farm.master.Holds cluster jobID
  runs : ∀ node, ¬farm.Runs node jobID
  reported : jobID ∉ farm.results

/-- Nothing the farm shows of a job changes. -/
structure Untouched (farm after : TailFarm) (jobID : String) : Prop where
  object : after.master.jobs.get? jobID = farm.master.jobs.get? jobID
  queued : jobID ∈ after.master.tasks ↔ jobID ∈ farm.master.tasks
  held : ∀ cluster, after.master.Holds cluster jobID ↔ farm.master.Holds cluster jobID
  runs : ∀ node, after.Runs node jobID ↔ farm.Runs node jobID
  reported : jobID ∈ after.results ↔ jobID ∈ farm.results

/-- The books of the phase: every job of the bag is at some point of its
progress, the nodes at work have their workers in the clusters there have always
been, and the counter counts the jobs that have a result. -/
structure Books (start : TailMaster) (farm : TailFarm) : Prop where
  stands : ∀ jobID ∈ start.tasks, ∃ progress, Stands farm jobID progress
  foreign : ∀ jobID ∉ start.tasks, Foreign farm jobID
  distinct : farm.master.tasks.Nodup
  live : ∀ node jobID, farm.Runs node jobID → farm.master.Live node
  knows : ∀ cluster, farm.master.knows cluster = start.knows cluster
  counted : farm.master.jobsDone = farm.results.dedup.length

theorem Stands.untouched (stands : Stands farm jobID progress) (untouched : Untouched farm after jobID) :
    Stands after jobID progress where
  object := untouched.object ▸ stands.object
  queued := untouched.queued.trans stands.queued
  held := fun cluster => (untouched.held cluster).trans (stands.held cluster)
  runs := fun node => (untouched.runs node).trans (stands.runs node)
  reported := untouched.reported.trans stands.reported

theorem Foreign.untouched (foreign : Foreign farm jobID) (untouched : Untouched farm after jobID) :
    Foreign after jobID where
  queued := fun waits => foreign.queued (untouched.queued.mp waits)
  held := fun cluster held => foreign.held cluster ((untouched.held cluster).mp held)
  runs := fun node runs => foreign.runs node ((untouched.runs node).mp runs)
  reported := fun reported => foreign.reported (untouched.reported.mp reported)

theorem starts_books (starts : start.Starts) : Books start (TailFarm.start start) := by
  have unheld (cluster jobID : String) : ¬start.Holds cluster jobID := by
    rintro ⟨c, found, held⟩
    rw [(starts.idle c (Table.get?_mem found)).2] at held
    cases held
  constructor
  case stands =>
    intro jobID member
    exact ⟨.queued, starts.objects jobID member, iff_of_true member rfl,
      fun cluster => iff_of_false (unheld cluster jobID) List.not_mem_nil,
      fun node => iff_of_false nofun List.not_mem_nil, iff_of_false List.not_mem_nil nofun⟩
  case foreign =>
    intro jobID outside
    exact ⟨outside, fun cluster => unheld cluster jobID, nofun, List.not_mem_nil⟩
  case distinct => exact starts.distinct
  case live => nofun
  case knows => exact fun _ => rfl
  case counted => exact starts.jobsDone

/-- One job goes on and the others stay where they are. -/
theorem Books.progressed (books : Books start farm) (member : jobID ∈ start.tasks) (stands : Stands after jobID progress)
    (others : ∀ other, other ≠ jobID → Untouched farm after other) (distinct : after.master.tasks.Nodup)
    (live : ∀ node jobID, after.Runs node jobID → after.master.Live node)
    (knows : ∀ cluster, after.master.knows cluster = farm.master.knows cluster)
    (counted : after.master.jobsDone = after.results.dedup.length) : Books start after where
  stands := by
    intro other inside
    by_cases here : other = jobID
    · exact here ▸ ⟨progress, stands⟩
    · obtain ⟨kept, old⟩ := books.stands other inside
      exact ⟨kept, old.untouched (others other here)⟩
  foreign := fun other outside =>
    (books.foreign other outside).untouched (others other fun same => outside (same ▸ member))
  distinct := distinct
  live := live
  knows := fun cluster => (knows cluster).trans (books.knows cluster)
  counted := counted

/-- A change of the clusters that is about no job. -/
theorem Books.kept (books : Books start farm) {master : TailMaster} (jobs : master.jobs = farm.master.jobs)
    (tasks : master.tasks = farm.master.tasks) (jobsDone : master.jobsDone = farm.master.jobsDone)
    (held : ∀ cluster jobID, master.Holds cluster jobID ↔ farm.master.Holds cluster jobID)
    (knows : ∀ cluster, master.knows cluster = farm.master.knows cluster)
    (live : ∀ node jobID, farm.Runs node jobID → farm.master.Live node → master.Live node) :
    Books start { farm with master } := by
  have untouched (jobID : String) : Untouched farm { farm with master } jobID :=
    ⟨congrArg (fun jobs => jobs.get? jobID) jobs, iff_of_eq (congrArg (jobID ∈ ·) tasks), fun cluster => held cluster jobID,
      fun _ => .rfl, .rfl⟩
  constructor
  case stands =>
    intro jobID member
    obtain ⟨progress, stands⟩ := books.stands jobID member
    exact ⟨progress, stands.untouched (untouched jobID)⟩
  case foreign => exact fun jobID outside => (books.foreign jobID outside).untouched (untouched jobID)
  case distinct => exact tasks ▸ books.distinct
  case live => exact fun node jobID runs => live node jobID runs (books.live node jobID runs)
  case knows => exact fun cluster => (knows cluster).trans (books.knows cluster)
  case counted => exact jobsDone.trans books.counted

theorem Books.update (books : Books start farm) (cluster : String) (change : TailCluster → TailCluster)
    (kept : ∀ c, (change c).subsetJobs = c.subsetJobs)
    (lives : ∀ c node jobID, farm.Runs node jobID → node.cluster = cluster → c.Lives node.node → (change c).Lives node.node)
    (same : ∀ c, (change c).clusterAlias = c.clusterAlias := by intro _; rfl) :
    Books start { farm with master := farm.master.update cluster change same } :=
  books.kept rfl rfl rfl (fun _ _ => TailMaster.holds_update_same kept same) (fun _ => TailMaster.knows_update same)
    fun node jobID runs live => live.update (fun c here => lives c node jobID runs here) same

theorem Books.decideWithMovingAverage (books : Books start farm) (decision : Decision) :
    Books start { farm with master := farm.master.decideWithMovingAverage decision } :=
  books.kept rfl rfl rfl (fun _ _ => TailMaster.holds_decideWithMovingAverage decision)
    (TailMaster.knows_decideWithMovingAverage decision) fun _ _ _ live => live.decideWithMovingAverage decision

theorem idle_apart {node : IbisIdentifier} (idle : farm.working.get? origin = none) (runs : farm.Runs node jobID)
    (here : node.cluster = origin.cluster) : node.node ≠ origin.node := by
  intro same
  obtain ⟨cluster, name⟩ := node
  obtain ⟨cluster', name'⟩ := origin
  cases here
  cases same
  exact absurd (idle.symm.trans runs) nofun

theorem runs_erase {working : Table (Prod.fst : IbisIdentifier × String → IbisIdentifier)} {node : IbisIdentifier} :
    (working.erase origin).get? node = some (node, jobID) ↔ working.get? node = some (node, jobID) ∧ node ≠ origin := by
  by_cases here : node = origin
  · subst here
    simp [Table.get?_erase_self]
  · simp [Table.get?_erase_ne working here, here]

theorem runs_put {working : Table (Prod.fst : IbisIdentifier × String → IbisIdentifier)} {node : IbisIdentifier}
    {new : String} (idle : working.get? origin = none) :
    ((working.erase origin).put (origin, new)).get? node = some (node, jobID) ↔
      working.get? node = some (node, jobID) ∨ node = origin ∧ jobID = new := by
  by_cases here : node = origin
  · subst here
    rw [show ((working.erase node).put (node, new)).get? node = some (node, new) from Table.get?_put_self _ (node, new)]
    simp [idle, eq_comm]
  · rw [Table.get?_put_ne (a := (origin, new)) _ here, Table.get?_erase_ne working here]
    simp [here]

end TailFarm

end ConPaaS
