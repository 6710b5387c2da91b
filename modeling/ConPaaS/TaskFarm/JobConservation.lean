import ConPaaS.Lib.Transition
import ConPaaS.TaskFarm.Leases

namespace ConPaaS

open Keyed Transition

/-- The ids of the jobs a cluster holds. -/
def Cluster.heldIds (c : Cluster) : List String := c.subsetJobs.rows.map Job.jobID

theorem Cluster.setNode_heldIds (c : Cluster) (jobID node : String) : (c.setNode jobID node).heldIds = c.heldIds :=
  Table.keys_modify _ _ _

theorem Cluster.not_held {c : Cluster} {job : Job} (absent : job.jobID ∉ c.heldIds) :
    c.subsetJobs.get? job.jobID = none :=
  Table.get?_none_iff.mpr fun _ inside same => absent (same ▸ List.mem_map_of_mem inside)

theorem Cluster.assign_heldIds {c : Cluster} {job : Job} (absent : job.jobID ∉ c.heldIds) (subsetLength : Int)
    (node : String) : (c.assign subsetLength node job).heldIds = job.jobID :: c.heldIds :=
  congrArg (List.map Job.jobID) (Table.put_fresh (Cluster.not_held absent))

namespace Master

variable {start m : Master} {origin : IbisIdentifier} {due : String → List String}

/-- The ids of the jobs that are with workers. -/
def assigned (m : Master) : List String := m.clusters.rows.flatMap Cluster.heldIds

/-- The keys of the finished tasks. -/
def finishedIds (m : Master) : List (Option String) := m.finishedTasks.rows.map (Option.map Job.jobID)

/-- The state in which the execution phase begins: the bag holds distinct
jobs, none of which is finished, and no cluster has a worker or a job. -/
structure Starts (m : Master) : Prop where
  distinct : (m.tasks.map Job.jobID).Nodup
  remaining : ∀ task ∈ m.tasks, some task.jobID ∉ m.finishedIds
  jobsDone : m.jobsDone = 0
  idle : ∀ c ∈ m.clusters.rows, c.crtNodes = 0 ∧ c.workers.rows = [] ∧ c.subsetJobs.rows = []

/-- The books of the master in the middle of a turn: every job of the bag is
waiting, with a worker or done, and `due` names the nodes that wait for a job. -/
structure Ledger (start m : Master) (due : String → List String) : Prop where
  owes : ∀ c ∈ m.clusters.rows, c.Owes (due c.clusterAlias)
  account : ∃ done : List String,
    (m.tasks.map Job.jobID ++ m.assigned ++ done).Perm (start.tasks.map Job.jobID) ∧
      m.finishedIds.Perm (done.map some ++ start.finishedIds) ∧ m.jobsDone = done.length

/-- No node is due a job. -/
def settled : String → List String := fun _ => []

/-- The node a message came from is due a job. -/
def dueAt (origin : IbisIdentifier) : String → List String :=
  fun cluster => if cluster = origin.cluster then [origin.node] else []

theorem Starts.ledger (starts : start.Starts) : Ledger start start settled := by
  have none : start.assigned = [] := by
    refine List.flatMap_eq_nil_iff.mpr fun c member => ?_
    simp [Cluster.heldIds, (starts.idle c member).2.2]
  refine ⟨fun c member => ?_, [], by simp [none], by simp, by simp [starts.jobsDone]⟩
  obtain ⟨crtNodes, workers, jobs⟩ := starts.idle c member
  exact ⟨by simp [settled, workers, jobs, Cluster.unfinished], by simp [workers, crtNodes, Cluster.unfinished]⟩

/-- Only the tasks, the clusters and what is finished are in the books. -/
theorem Ledger.of_eq {other : Master} (books : Ledger start m due) (tasks : other.tasks = m.tasks)
    (clusters : other.clusters = m.clusters) (finished : other.finishedTasks = m.finishedTasks)
    (jobsDone : other.jobsDone = m.jobsDone) : Ledger start other due := by
  obtain ⟨owes, done, jobs, ids, count⟩ := books
  refine ⟨by rwa [clusters], done, ?_, ?_, by rwa [jobsDone]⟩
  · rwa [tasks, assigned, clusters]
  · rwa [finishedIds, finished]

/-- Changing one cluster changes the assigned jobs by what it changes there. -/
theorem assigned_update {cluster : String} {c : Cluster} (found : m.clusters.get? cluster = some c)
    (change : Cluster → Cluster) (before after : List String)
    (ids : (before ++ (change c).heldIds).Perm (after ++ c.heldIds))
    (same : ∀ c, (change c).clusterAlias = c.clusterAlias := by intro _; rfl) :
    (before ++ (m.update cluster change same).assigned).Perm (after ++ m.assigned) := by
  have old := (Table.rows_perm found).flatMap_right Cluster.heldIds
  have new := (Table.modify_perm found change same).flatMap_right Cluster.heldIds
  rw [List.flatMap_cons] at old new
  refine (new.append_left before).trans (.trans ?_ (old.append_left after).symm)
  rw [← List.append_assoc, ← List.append_assoc]
  exact ids.append_right _

/-- A change of one cluster that keeps its jobs moves the debt of the cluster. -/
theorem Ledger.update {cluster : String} (books : Ledger start m due) {change : Cluster → Cluster}
    {due' : String → List String} (others : ∀ other, other ≠ cluster → due' other = due other)
    (changed : ∀ c, m.clusters.get? cluster = some c → c.Owes (due cluster) → (change c).Owes (due' cluster))
    (same : ∀ c, (change c).clusterAlias = c.clusterAlias := by intro _; rfl)
    (ids : ∀ c, (change c).heldIds = c.heldIds := by intro _; rfl) :
    Ledger start (m.update cluster change same) due' := by
  obtain ⟨owes, done, jobs, finished, count⟩ := books
  refine ⟨Table.forall_modify same (fun c member here => ?_) fun c member there => ?_, done, ?_, finished, count⟩
  · subst here
    rw [same]
    exact changed c (Table.get?_of_mem member) (owes c member)
  · rw [others _ there]
    exact owes c member
  · have kept : (m.update cluster change same).assigned = m.assigned := by
      show (m.clusters.rows.map fun c => if c.clusterAlias = cluster then change c else c).flatMap Cluster.heldIds = _
      rw [List.flatMap_map]
      refine List.flatMap_congr fun c _ => ?_
      split
      · exact ids c
      · rfl
    rwa [kept]

theorem Ledger.decideWithMovingAverage (books : Ledger start m due) (decision : Decision) :
    Ledger start (m.decideWithMovingAverage decision) due := by
  obtain ⟨owes, done, jobs, finished, count⟩ := books
  refine ⟨fun c member => ?_, done, ?_, finished, count⟩
  · obtain ⟨old, inside, rfl⟩ := List.mem_map.mp member
    exact (owes old inside).decided decision
  · have kept : (m.decideWithMovingAverage decision).assigned = m.assigned := by
      show (m.clusters.rows.map fun c => c.decided decision).flatMap Cluster.heldIds = _
      rw [List.flatMap_map]
      rfl
    rwa [kept]

theorem Ledger.distinct (books : Ledger start m due) (starts : start.Starts) :
    ∃ done : List String, (m.tasks.map Job.jobID ++ m.assigned ++ done).Nodup ∧
      (∀ id ∈ m.assigned, some id ∉ m.finishedIds) := by
  obtain ⟨_, done, jobs, finished, _⟩ := books
  have distinct := jobs.nodup_iff.mpr starts.distinct
  refine ⟨done, distinct, fun id held ended => ?_⟩
  rcases List.mem_append.mp (finished.mem_iff.mp ended) with here | before
  · obtain ⟨_, inside, same⟩ := List.mem_map.mp here
    cases same
    exact (List.nodup_append.mp distinct).2.2 id (List.mem_append_right _ held) id inside rfl
  · have ofBag := jobs.mem_iff.mp (List.mem_append_left _ (List.mem_append_right _ held))
    obtain ⟨task, member, rfl⟩ := List.mem_map.mp ofBag
    exact starts.remaining task member before

theorem mem_assigned {cluster : String} {c : Cluster} (found : m.clusters.get? cluster = some c) {id : String}
    (held : id ∈ c.heldIds) : id ∈ m.assigned :=
  List.mem_flatMap.mpr ⟨c, Table.get?_mem found, held⟩

theorem setNode_handOut (m : Master) (index : Nat) (origin : IbisIdentifier) (nextJob : Job) :
    (m.handOut index origin nextJob).setNode origin (some nextJob) =
      { m with
        tasks := m.tasks.eraseIdx index
        clusters := m.clusters.modify origin.cluster
          (fun c => (c.assign m.subsetLength origin.node nextJob).setNode nextJob.jobID origin.node) } :=
  congrArg (fun clusters => { m with tasks := m.tasks.eraseIdx index, clusters })
    (Table.modify_modify m.clusters _ _ _ (by intro _; rfl) (by intro _; rfl))

theorem dueAt_other {other : String} (apart : other ≠ origin.cluster) : dueAt origin other = settled other :=
  if_neg apart

theorem dueAt_self : dueAt origin origin.cluster = [origin.node] := if_pos rfl

/-- A task is handed to the node that is due it. -/
theorem Ledger.handOut (books : Ledger start m (dueAt origin)) (starts : start.Starts) {c : Cluster}
    (found : m.clusters.get? origin.cluster = some c) {index : Nat} {task nextJob : Job}
    (chosen : m.tasks[index]? = some task) (id : nextJob.jobID = task.jobID) :
    Ledger start ((m.handOut index origin nextJob).setNode origin (some nextJob)) settled := by
  obtain ⟨bound, value⟩ := List.getElem?_eq_some_iff.mp chosen
  obtain ⟨_, distinct, _⟩ := books.distinct starts
  obtain ⟨owes, done, jobs, finished, count⟩ := books
  have tasks : (m.tasks.map Job.jobID).Perm (nextJob.jobID :: (m.tasks.eraseIdx index).map Job.jobID) := by
    rw [id, ← value]
    exact ((List.getElem_cons_eraseIdx_perm bound).map Job.jobID).symm
  have absent : nextJob.jobID ∉ m.assigned := fun held =>
    (List.nodup_append.mp (List.nodup_append.mp distinct).1).2.2 _ (tasks.mem_iff.mpr (List.mem_cons_self ..)) _ held rfl
  have free (c : Cluster) (member : c ∈ m.clusters.rows) : nextJob.jobID ∉ c.heldIds := fun held =>
    absent (List.mem_flatMap.mpr ⟨c, member, held⟩)
  rw [setNode_handOut]
  refine ⟨Table.forall_modify (by exact fun _ => rfl) (fun c member here => ?_) fun c member there => ?_, done, ?_,
    finished, count⟩
  · have owed := owes c member
    rw [here, dueAt_self] at owed
    exact owed.assign (Cluster.not_held (free c member)) m.subsetLength
  · rw [← dueAt_other there]
    exact owes c member
  · have ids : ((c.assign m.subsetLength origin.node nextJob).setNode nextJob.jobID origin.node).heldIds =
        nextJob.jobID :: c.heldIds :=
      (Cluster.setNode_heldIds _ _ _).trans (Cluster.assign_heldIds (free c (Table.get?_mem found)) _ _)
    refine .trans (.append_right _ ?_) jobs
    have moved := assigned_update found
      (fun c => (c.assign m.subsetLength origin.node nextJob).setNode nextJob.jobID origin.node) [] [nextJob.jobID]
      (.of_eq ids) (by intro _; rfl)
    refine .trans (.append_left _ moved) ?_
    exact List.perm_middle.trans (tasks.symm.append_right _)

theorem Ledger.findNextJob (books : Ledger start m (dueAt origin)) (starts : start.Starts) {c : Cluster}
    (found : m.clusters.get? origin.cluster = some c) {turn : Turn} {result : Master} {nextJob : Option Job}
    (run : m.findNextJob turn origin = .ok (result, nextJob)) :
    Ledger start (result.setNode origin nextJob) settled := by
  unfold Master.findNextJob at run
  dsimp only at run
  split at run
  · cases run
  · rename_i task chosen
    cases run
    exact books.handOut starts found chosen rfl

/-- Both handlers end with every node either working or let go. -/
theorem Ledger.releaseOrNext (books : Ledger start m (dueAt origin)) (starts : start.Starts) {c : Cluster}
    (found : m.clusters.get? origin.cluster = some c) {turn : Turn} {result : Master} {nextJob : Option Job}
    (run : m.releaseOrNext turn origin = .ok (result, nextJob)) :
    Ledger start (result.setNode origin nextJob) settled := by
  unfold Master.releaseOrNext at run
  split at run
  · cases run
    refine books.update (fun _ apart => (dueAt_other apart).symm) (fun c _ owes => ?_) (by intro _; rfl) (by intro _; rfl)
    rw [dueAt_self] at owes
    exact owes.sayGoodbye turn.releaseTime
  · exact books.findNextJob starts found run

/-- A node may ask for a job when its worker has ended, or when its cluster
waits for no node and dismisses it. -/
def Lease (m : Master) (origin : IbisIdentifier) : Prop :=
  ∀ c ws, m.clusters.get? origin.cluster = some c → c.workers.get? origin.node = some ws → ws.done = false →
    c.pendingNodes = 0

/-- A node reports a job it holds. -/
def Holds (m : Master) (received : JobResult) (origin : IbisIdentifier) : Prop :=
  ∃ c job, m.clusters.get? origin.cluster = some c ∧ c.getJob received = some job ∧ job.node = some origin.node

theorem found_update {cluster : String} {c : Cluster} (found : m.clusters.get? cluster = some c)
    (change : Cluster → Cluster) (same : ∀ c, (change c).clusterAlias = c.clusterAlias := by intro _; rfl) :
    (m.update cluster change same).clusters.get? cluster = some (change c) :=
  Table.get?_modify_self found change same

/-- What a job request can lead to. -/
theorem handleJobRequest_cases (lease : m.Lease origin) {turn : Turn} {result : Master} {nextJob : Option Job}
    (run : m.handleJobRequest turn origin = .ok (result, nextJob)) :
    (result = m.update origin.cluster (fun c => c.terminateWorker origin.node turn.requestTime) ∧ nextJob = none) ∨
      ∃ c, m.clusters.get? origin.cluster = some c ∧
        ((c.workers.get? origin.node = none ∧
            (m.enroll turn origin).releaseOrNext turn origin = .ok (result, nextJob)) ∨
          ∃ ws, c.workers.get? origin.node = some ws ∧ ws.done = true ∧
            (m.reenroll turn origin).releaseOrNext turn origin = .ok (result, nextJob)) := by
  unfold Master.handleJobRequest at run
  split at run
  · cases run
  rename_i c found
  split at run
  · rename_i absent
    split at run
    · cases run
    · exact Or.inr ⟨c, found, Or.inl ⟨absent, run⟩⟩
  · rename_i ws known
    split at run
    · cases run
      exact Or.inl ⟨rfl, rfl⟩
    · rename_i awaited
      refine Or.inr ⟨c, found, Or.inr ⟨ws, known, ?_, run⟩⟩
      cases busy : ws.done with
      | true => rfl
      | false => exact absurd (lease c ws found known busy) awaited

theorem Ledger.enroll (books : Ledger start m settled) {c : Cluster} (found : m.clusters.get? origin.cluster = some c)
    (absent : c.workers.get? origin.node = none) (turn : Turn) :
    Ledger start (m.enroll turn origin) (dueAt origin) := by
  refine books.update (fun _ apart => dueAt_other apart) (fun c' found' owes => ?_) (by intro _; rfl) (by intro _; rfl)
  cases found.symm.trans found'
  rw [dueAt_self]
  exact owes.enroll absent _ _ _

theorem Ledger.reenroll (books : Ledger start m settled) {c : Cluster} {ws : WorkerStats}
    (found : m.clusters.get? origin.cluster = some c) (known : c.workers.get? origin.node = some ws)
    (ended : ws.done = true) (turn : Turn) : Ledger start (m.reenroll turn origin) (dueAt origin) := by
  refine books.update (fun _ apart => dueAt_other apart) (fun c' found' owes => ?_) (by intro _; rfl) (by intro _; rfl)
  cases found.symm.trans found'
  rw [dueAt_self]
  exact owes.reenroll known ended _ _

theorem Ledger.handleJobRequest (books : Ledger start m settled) (starts : start.Starts) (lease : m.Lease origin)
    {turn : Turn} {result : Master} {nextJob : Option Job}
    (run : m.handleJobRequest turn origin = .ok (result, nextJob)) :
    Ledger start (result.setNode origin nextJob) settled := by
  rcases handleJobRequest_cases lease run with ⟨rfl, rfl⟩ | ⟨c, found, ⟨absent, run⟩ | ⟨ws, known, ended, run⟩⟩
  · exact books.update (fun _ _ => rfl) (fun c _ owes => owes.terminateWorker _ _) (by intro _; rfl) (by intro _; rfl)
  · exact (books.enroll found absent turn).releaseOrNext starts (found_update found _ (by intro _; rfl)) run
  · exact (books.reenroll found known ended turn).releaseOrNext starts (found_update found _ (by intro _; rfl)) run

/-- A job that comes back is finished, once. -/
theorem Ledger.finishJob (books : Ledger start m settled) (starts : start.Starts) {received : JobResult} {c : Cluster}
    {job : Job} (found : m.clusters.get? origin.cluster = some c) (held : c.getJob received = some job)
    (sent : job.node = some origin.node) :
    Ledger start (m.finishJob received origin (c.getJob received)) (dueAt origin) := by
  obtain ⟨done, distinct, unfinished⟩ := books.distinct starts
  obtain ⟨owes, done, jobs, finished, count⟩ := books
  obtain ⟨member, id⟩ := Table.get?_iff.mp held
  have assigned : job.jobID ∈ m.assigned := mem_assigned found (List.mem_map_of_mem member)
  have fresh : m.finishedTasks.get? (Option.map Job.jobID (some job)) = none :=
    Table.get?_none_iff.mpr fun row inside equal => unfinished _ assigned (List.mem_map.mpr ⟨row, inside, equal⟩)
  have ids : (job.jobID ::
      ((c.withWorker origin.node fun ws => ws.addJobStats received.runtime).doneJob received).heldIds).Perm
      c.heldIds := by
    have split := (Table.rows_perm held).map Job.jobID
    rw [List.map_cons] at split
    exact split.symm
  refine ⟨Table.forall_modify (by exact fun _ => rfl) (fun c' inside here => ?_) fun c' inside there => ?_,
    job.jobID :: done, ?_, ?_, ?_⟩
  · have same' : c' = c := Option.some.inj ((here ▸ Table.get?_of_mem inside).symm.trans found)
    subst same'
    have balanced : c'.Owes [] := owes c' inside
    show Cluster.Owes _ (dueAt origin c'.clusterAlias)
    rw [here, dueAt_self]
    exact (balanced.addJobStats origin.node received.runtime).doneJob held sent
  · rw [dueAt_other there]
    exact owes c' inside
  · refine .trans (List.perm_middle.trans ?_) jobs
    have moved := assigned_update found
      (fun c => (c.withWorker origin.node fun ws => ws.addJobStats received.runtime).doneJob received) [job.jobID] [] ids
      (by intro _; rfl)
    exact ((List.perm_middle.symm.trans (.append_left _ moved)).append_right done)
  · have rows : (m.finishedTasks.add (c.getJob received)).rows = some job :: m.finishedTasks.rows := by
      rw [held]
      exact Table.add_fresh fresh
    show ((m.finishedTasks.add (c.getJob received)).rows.map (Option.map Job.jobID)).Perm _
    rw [rows]
    exact finished.cons _
  · show m.jobsDone + 1 = _
    rw [count]
    rfl

theorem Ledger.handleJobResult (books : Ledger start m settled) (starts : start.Starts) {received : JobResult}
    (holds : m.Holds received origin) {turn : Turn} {result : Master} {nextJob : Option Job}
    (run : m.handleJobResult turn received origin = .ok (result, nextJob)) :
    Ledger start (result.setNode origin nextJob) settled := by
  obtain ⟨c, job, found, held, sent⟩ := holds
  simp only [Master.handleJobResult, found] at run
  split at run
  · cases run
  · have returned := books.finishJob starts found held sent
    have decided := returned.decideWithMovingAverage turn.decision
    exact decided.releaseOrNext starts (Table.get?_map (found_update found _ (by intro _; rfl)) _ (by intro _; rfl)) run

/-- The job of a failed node waits again. -/
theorem Ledger.requeue (books : Ledger start m settled) {cluster : String} {c : Cluster}
    (found : m.clusters.get? cluster = some c) (node : String) (time : Int) :
    Ledger start (m.requeue c node time) settled := by
  unfold Master.requeue
  split
  · exact books
  rename_i job failed
  have named : c.clusterAlias = cluster := Table.get?_key found
  obtain ⟨owes, done, jobs, finished, count⟩ := books
  refine ⟨Table.forall_modify (by exact fun _ => rfl) (fun c' inside here => ?_) fun c' inside _ => owes c' inside, done,
    ?_, finished, count⟩
  · have same : c' = c := m.clusters.unique inside (Table.get?_mem found) here
    subst same
    exact (owes c' inside).withoutJob failed time
  · have ids : (job.jobID :: (c.withoutJob node time job).heldIds).Perm c.heldIds := by
      have split := (Table.rows_perm (Table.get?_of_mem (List.mem_of_find?_eq_some failed))).map Job.jobID
      rw [List.map_cons] at split
      exact split.symm
    have moved := assigned_update (named ▸ found) (fun c => c.withoutJob node time job) [job.jobID] [] ids
      (by intro _; rfl)
    refine .trans (.append_right done ?_) jobs
    show ((m.tasks ++ [job]).map Job.jobID ++ _).Perm _
    rw [List.map_append, List.append_assoc]
    exact moved.append_left _

theorem Ledger.handleLostConnections (lost : List (IbisIdentifier × Int)) {m result : Master}
    (books : Ledger start m settled) (run : Master.handleLostConnections lost m = .ok result) :
    Ledger start result settled := by
  induction lost generalizing m with
  | nil =>
    cases run
    exact books
  | cons report rest ih =>
    unfold Master.handleLostConnections at run
    split at run
    · cases run
    rename_i c found
    split at run
    · exact ih books run
    · split at run
      · exact ih books run
      · exact ih (books.requeue found _ _) run

theorem Ledger.areWeDone (books : Ledger start m settled) {turn : Turn} {result : Master}
    (run : m.areWeDone turn = .ok result) : Ledger start result settled := by
  unfold Master.areWeDone at run
  split at run
  · cases run
  rename_i after lost
  have kept := Ledger.handleLostConnections _ books lost
  split at run
  · split at run
    · cases run
    · cases run
      exact kept.of_eq rfl rfl rfl rfl
  · cases run
    exact kept.of_eq rfl rfl rfl rfl

/-- The messages a node may send. -/
def Proper (m : Master) : Message → Prop
  | .jobRequest origin => m.Lease origin
  | .jobResult received origin => m.Holds received origin

/-- A turn of the loop, in a run in which nodes send proper messages. -/
theorem Ledger.runOnce (books : Ledger start m settled) (starts : start.Starts) {turn : Turn}
    (proper : ∀ message, turn.message = some message → m.Proper message) {result : Master}
    (run : m.runOnce turn = .ok result) : Ledger start result settled := by
  unfold Master.runOnce at run
  split at run
  · split at run
    · cases run
    rename_i after done
    cases run
    exact ((books.areWeDone done).decideWithMovingAverage _).of_eq rfl rfl rfl rfl
  rename_i message received
  split at run
  · cases run
  rename_i after nextJob handled
  have settled : Ledger start (after.setNode message.origin nextJob) settled := by
    cases message with
    | jobRequest origin => exact books.handleJobRequest starts (proper _ received) handled
    | jobResult received' origin => exact books.handleJobResult starts (proper _ received) handled
  dsimp only at run
  split at run
  · split at run
    · cases run
    rename_i checked done
    cases run
    exact (settled.areWeDone done).of_eq rfl rfl rfl rfl
  · unfold connectionFailed at run
    split at run
    · cases run
    rename_i requeued failed
    split at failed
    · cases failed
    rename_i c found
    cases failed
    cases run
    exact (settled.requeue found _ _).of_eq rfl rfl rfl rfl
  · split at run
    · cases run
    rename_i checked done
    cases run
    exact (settled.areWeDone done).of_eq rfl rfl rfl rfl

/-- How often a job is found in the task queue, in the jobs of a cluster and
in the finished tasks. -/
def placesOf (m : Master) (jobID : String) : Nat :=
  (m.tasks.map Job.jobID).count jobID + (m.clusters.rows.map fun c => c.heldIds.count jobID).sum +
    if m.finishedIds.contains (some jobID) then 1 else 0

/-- Nothing is lost and nothing is done twice: each job of the bag is in one
place, jobs with workers and unfinished workers belong together one to one, and
the counters count what they are kept for. -/
structure Conserved (start m : Master) : Prop where
  places : ∀ job ∈ start.tasks, m.placesOf job.jobID = 1
  holder : ∀ c ∈ m.clusters.rows, ∀ job ∈ c.subsetJobs.rows,
    ∃! ws, ws ∈ c.workers.rows ∧ ws.isFinished = false ∧ job.node = some ws.node
  held : ∀ c ∈ m.clusters.rows, ∀ ws ∈ c.workers.rows, ws.isFinished = false →
    ∃! job, job ∈ c.subsetJobs.rows ∧ job.node = some ws.node
  jobsDone : m.jobsDone = (start.tasks.filter fun job => some job.jobID ∈ m.finishedIds).length
  crtNodes : ∀ c ∈ m.clusters.rows, c.crtNodes = (c.workers.rows.filter fun ws => !ws.isFinished).length

/-- The finished jobs of this phase are the ones entered as done. -/
theorem finished_iff (starts : start.Starts) {done : List String}
    (finished : m.finishedIds.Perm (done.map some ++ start.finishedIds)) {job : Job} (member : job ∈ start.tasks) :
    some job.jobID ∈ m.finishedIds ↔ job.jobID ∈ done := by
  have before := starts.remaining job member
  rw [finished.mem_iff, List.mem_append]
  simp [before]

theorem Ledger.conserved (books : Ledger start m settled) (starts : start.Starts) : Conserved start m := by
  obtain ⟨owes, done, jobs, finished, count⟩ := books
  have distinct := jobs.nodup_iff.mpr starts.distinct
  have doneOnce : done.Nodup := (List.nodup_append.mp distinct).2.1
  refine ⟨fun job member => ?_, fun c stored job => (owes c stored).holder, fun c stored ws inside busy => ?_, ?_,
    fun c stored => ?_⟩
  · have once := jobs.count_eq job.jobID
    rw [List.count_append, List.count_append, assigned, List.count_flatMap,
      List.count_eq_one_of_mem starts.distinct (List.mem_map_of_mem member)] at once
    have ended : done.count job.jobID = if some job.jobID ∈ m.finishedIds then 1 else 0 := by
      simp only [finished_iff starts finished member]
      split
      · rename_i inside
        exact List.count_eq_one_of_mem doneOnce inside
      · rename_i outside
        exact List.count_eq_zero_of_not_mem outside
    simp only [placesOf, List.contains_iff_mem]
    rwa [ended] at once
  · exact (owes c stored).held_once inside busy
  · have kept : done.Perm ((start.tasks.filter fun job => some job.jobID ∈ m.finishedIds).map Job.jobID) := by
      refine (List.perm_ext_iff_of_nodup doneOnce (starts.distinct.sublist (List.filter_sublist.map _))).mpr fun id => ?_
      constructor
      · intro inside
        obtain ⟨job, member, rfl⟩ := List.mem_map.mp (jobs.mem_iff.mp (List.mem_append_right _ inside))
        refine List.mem_map_of_mem (List.mem_filter.mpr ⟨member, ?_⟩)
        exact decide_eq_true ((finished_iff starts finished member).mpr inside)
      · intro inside
        obtain ⟨job, chosen, rfl⟩ := List.mem_map.mp inside
        obtain ⟨member, ended⟩ := List.mem_filter.mp chosen
        exact (finished_iff starts finished member).mp (of_decide_eq_true ended)
    rw [count, kept.length_eq, List.length_map]
  · rw [(owes c stored).crtNodes, Cluster.unfinished, List.length_map]

/-- The turns of the loop of `run`, as long as it goes on. -/
def Step (m : Master) (turn : Turn) (result : Master) : Prop := m.undone = true ∧ m.runOnce turn = .ok result

/-- The entry of the worker on a node. -/
def worker (m : Master) (node : IbisIdentifier) : Option WorkerStats :=
  (m.clusters.get? node.cluster).bind fun c => c.workers.get? node.node

/-- A result for the job its sender holds. -/
def holds (m : Master) (received : JobResult) (origin : IbisIdentifier) : Bool :=
  ((m.clusters.get? origin.cluster).bind fun c => c.getJob received).any fun job => job.node = some origin.node

/-- A message by the rules: a job request comes from a node whose lease has
ended, a result from the node that holds the job. -/
def byRules (m : Master) (turn : Turn) : Bool :=
  match turn.message with
  | none => true
  | some (.jobRequest origin) => (m.worker origin).all WorkerStats.isFinished
  | some (.jobResult received origin) => m.holds received origin

theorem holds_iff {received : JobResult} : m.holds received origin = true ↔ m.Holds received origin := by
  simp only [holds, Holds, Option.any_eq_true, Option.bind_eq_some_iff, decide_eq_true_eq]
  constructor
  · rintro ⟨job, ⟨c, found, held⟩, sent⟩
    exact ⟨c, job, found, held, sent⟩
  · rintro ⟨c, job, found, held, sent⟩
    exact ⟨job, ⟨c, found, held⟩, sent⟩

theorem proper_of_byRules {turn : Turn} (rules : m.byRules turn = true) (message : Message)
    (received : turn.message = some message) : m.Proper message := by
  unfold byRules at rules
  rw [received] at rules
  cases message with
  | jobRequest origin =>
    intro c ws found known busy
    have ended : m.worker origin = some ws := by rw [worker, found, Option.bind_some, known]
    have finished : ws.isFinished = true := by simpa [ended] using rules
    exact absurd finished (by simp [WorkerStats.isFinished, busy])
  | jobResult received origin => exact holds_iff.mp rules

/-- Whatever requests, results, failed replies and lost connections come in
whatever order, every reachable state of the execution phase keeps its books. -/
theorem jobs_conserved {turns : List Turn} (starts : start.Starts)
    (run : Run (Guarded (fun m turn => m.byRules turn = true) Step) start turns m) : Conserved start m := by
  have preserved {before after : Master} {turn : Turn} (books : Ledger start before settled)
      (rules : before.byRules turn = true) (taken : Step before turn after) : Ledger start after settled :=
    books.runOnce starts (proper_of_byRules rules) taken.2
  exact (run.guarded_invariant starts.ledger preserved).conserved starts

/-- The state after a turn, if it ends without an exception. -/
def next (m : Master) (turn : Turn) : Master := (m.runOnce turn).toOption.getD m

theorem step_next {turn : Turn} (goes : m.undone = true) (ends : (m.runOnce turn).isOk = true) :
    Step m turn (m.next turn) := by
  refine ⟨goes, ?_⟩
  unfold next
  cases run : m.runOnce turn with
  | error fault => simp [run, Except.isOk, Except.toBool] at ends
  | ok result => rfl

end Master

/-- A master with two tasks that waits for two nodes of one cluster. -/
def twoTasks : Master where
  tasks := [⟨"a", none, 0⟩, ⟨"b", none, 0⟩]
  finishedTasks := .empty
  clusters := ⟨[⟨"das", ⟨60, 2, by decide, by norm_num⟩, 0, 2, 0, 1, .empty, [], 0, 0, 0, 0, .empty⟩], by decide⟩
  jobsDone := 0
  totalNumberTasks := 2
  noInitialWorkers := 1
  subsetLength := 1
  actualStartTime := 0
  serviceState := ⟨0, 0, 0, 2, .started⟩
  undone := true
  clock := 0

/-- A turn in which nothing but a message happens. -/
def quietTurn (time : Int) (message : Message) : Turn where
  message := some message
  delivery := .sent
  lost := []
  connected := []
  decision := ⟨fun _ => 2, fun _ => 1, fun _ => none⟩
  draw := 0
  requestTime := time
  nanoTime := time
  releaseTime := time
  failTime := time
  checkTime := time

/-- Two nodes ask for jobs, the reply to the second fails, and the first is
lost after its result. -/
def failingTurns : List Turn :=
  [quietTurn 1000 (.jobRequest ⟨"das", "n1"⟩),
    { quietTurn 2000 (.jobRequest ⟨"das", "n2"⟩) with delivery := .connectionFailed },
    { quietTurn 3000 (.jobResult ⟨"a", 5⟩ ⟨"das", "n1"⟩) with lost := [(⟨"das", "n1"⟩, 3000)] }]

theorem twoTasks_starts : twoTasks.Starts where
  distinct := by decide
  remaining := by decide
  jobsDone := rfl
  idle := by
    intro c member
    simp only [twoTasks, List.mem_singleton] at member
    subst member
    exact ⟨rfl, rfl, rfl⟩

theorem failingTurns_conserved : Master.Conserved twoTasks (failingTurns.foldl Master.next twoTasks) := by
  have run : Run (Guarded (fun m turn => m.byRules turn = true) Master.Step) twoTasks failingTurns
      (failingTurns.foldl Master.next twoTasks) := by
    refine .next (.next (.next .start ⟨?_, Master.step_next ?_ ?_⟩) ⟨?_, Master.step_next ?_ ?_⟩)
      ⟨?_, Master.step_next ?_ ?_⟩ <;> decide +kernel
  exact Master.jobs_conserved twoTasks_starts run

end ConPaaS
