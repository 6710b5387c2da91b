import ConPaaS.TaskFarm.ExecutionPhase

namespace ConPaaS

open Keyed

namespace Cluster

variable {c : Cluster} {node : String} {ws : WorkerStats} {due : List String}

/-- The nodes of some workers that are not finished. -/
def unfinished (workers : List WorkerStats) : List String :=
  (workers.filter fun ws => !ws.isFinished).map WorkerStats.node

/-- The unfinished workers of a cluster hold its jobs, one each, but for the
nodes that are due a job. The counter of nodes counts these workers. -/
structure Owes (c : Cluster) (due : List String) : Prop where
  held : ((unfinished c.workers.rows).map some).Perm (due.map some ++ c.subsetJobs.rows.map Job.node)
  crtNodes : c.crtNodes = (unfinished c.workers.rows).length

theorem unfinished_cons (ws : WorkerStats) (rest : List WorkerStats) :
    unfinished (ws :: rest) = if ws.done then unfinished rest else ws.node :: unfinished rest := by
  unfold unfinished
  cases ended : ws.done <;> simp [WorkerStats.isFinished, ended]

theorem unfinished_perm {workers others : List WorkerStats} (same : workers.Perm others) :
    (unfinished workers).Perm (unfinished others) := (same.filter _).map _

theorem mem_unfinished {workers : List WorkerStats} :
    node ∈ unfinished workers ↔ ∃ ws ∈ workers, ws.done = false ∧ ws.node = node := by
  simp [unfinished, WorkerStats.isFinished, and_assoc]

/-- A change that finishes nobody and takes nobody back is not seen. -/
theorem unfinished_map {workers : List WorkerStats} {change : WorkerStats → WorkerStats}
    (ended : ∀ ws, (change ws).done = ws.done) (same : ∀ ws, (change ws).node = ws.node) :
    unfinished (workers.map change) = unfinished workers := by
  induction workers with
  | nil => rfl
  | cons ws rest ih => rw [List.map_cons, unfinished_cons, unfinished_cons, ih, ended, same]

theorem unfinished_kept {change : WorkerStats → WorkerStats} (same : ∀ ws, (change ws).node = ws.node)
    (ended : ∀ ws, (change ws).done = ws.done) :
    unfinished (c.withWorker node change same).workers.rows = unfinished c.workers.rows := by
  refine unfinished_map (fun ws => ?_) fun ws => ?_
  · split
    · exact ended ws
    · rfl
  · split
    · exact same ws
    · rfl

/-- An unfinished worker stands apart from the others. -/
theorem unfinished_split (found : c.workers.get? node = some ws) (busy : ws.done = false) :
    (unfinished c.workers.rows).Perm (node :: unfinished (c.workers.erase node).rows) := by
  have split := unfinished_perm (Table.rows_perm found)
  rwa [unfinished_cons, busy, Table.get?_key found] at split

theorem unfinished_of_done (found : c.workers.get? node = some ws) (ended : ws.done = true) :
    (unfinished c.workers.rows).Perm (unfinished (c.workers.erase node).rows) := by
  have split := unfinished_perm (Table.rows_perm found)
  rwa [unfinished_cons, ended, if_pos rfl] at split

theorem Owes.worker (owes : c.Owes (node :: due)) :
    ∃ ws, c.workers.get? node = some ws ∧ ws.done = false := by
  have member : some node ∈ (unfinished c.workers.rows).map some := owes.held.mem_iff.mpr (by simp)
  obtain ⟨other, inside, same⟩ := List.mem_map.mp member
  cases same
  obtain ⟨ws, stored, busy, rfl⟩ := mem_unfinished.mp inside
  exact ⟨ws, Table.get?_of_mem stored, busy⟩

/-- Only the unfinished workers, the held jobs and the counter matter. -/
theorem Owes.of_eq {other : Cluster} (owes : c.Owes due)
    (workers : unfinished other.workers.rows = unfinished c.workers.rows)
    (jobs : other.subsetJobs.rows = c.subsetJobs.rows) (crtNodes : other.crtNodes = c.crtNodes) : other.Owes due :=
  ⟨by rw [workers, jobs]; exact owes.held, by rw [crtNodes, workers]; exact owes.crtNodes⟩

/-- Taking one node more into the unfinished workers leaves it due a job. -/
theorem Owes.taken {other : Cluster} (owes : c.Owes due)
    (workers : (unfinished other.workers.rows).Perm (node :: unfinished c.workers.rows))
    (jobs : other.subsetJobs.rows = c.subsetJobs.rows) (crtNodes : other.crtNodes = c.crtNodes + 1) :
    other.Owes (node :: due) := by
  constructor
  · rw [jobs]
    exact (workers.map some).trans (owes.held.cons (some node))
  · have length := workers.length_eq
    rw [List.length_cons] at length
    have count := owes.crtNodes
    omega

/-- A new node asks for a job. -/
theorem Owes.enroll (owes : c.Owes due) {origin : IbisIdentifier} (absent : c.workers.get? origin.node = none)
    (noInitialWorkers actualStartTime startTime : Int) :
    (c.enroll noInitialWorkers actualStartTime startTime origin).counted.Owes (origin.node :: due) := by
  refine owes.taken ?_ rfl rfl
  have rows : (c.enroll noInitialWorkers actualStartTime startTime origin).counted.workers.rows =
      _ :: c.workers.rows := Table.put_fresh absent
  rw [rows, unfinished_cons]
  exact .refl _

/-- A finished node asks for a job. -/
theorem Owes.reenroll (owes : c.Owes due) {origin : IbisIdentifier} (found : c.workers.get? origin.node = some ws)
    (ended : ws.done = true) (actualStartTime startTime : Int) :
    (c.reenroll actualStartTime startTime origin).counted.Owes (origin.node :: due) := by
  refine owes.taken ?_ rfl rfl
  have changed := unfinished_perm (Table.modify_perm found (fun ws => { ws.reacquire c.rate.timeUnit startTime with
    ii := origin
    offset := c.offsetAt actualStartTime startTime
    timestamp := c.timestamp + 1
    noATUPlan := c.noATUPlan }))
  rw [unfinished_cons, if_neg (by simp [WorkerStats.reacquire])] at changed
  have node : ws.node = origin.node := Table.get?_key found
  have rest := (unfinished_of_done found ended).symm.cons origin.node
  rw [← node] at rest ⊢
  exact changed.trans (by simpa only [WorkerStats.reacquire, node] using rest)

/-- A job that comes back leaves its node due another. -/
theorem Owes.withoutHeld {other : Cluster} (owes : c.Owes due) {job : Job} {jobID : String}
    (held : c.subsetJobs.get? jobID = some job) (sent : job.node = some node)
    (workers : unfinished other.workers.rows = unfinished c.workers.rows)
    (jobs : other.subsetJobs = c.subsetJobs.erase jobID) (crtNodes : other.crtNodes = c.crtNodes) :
    other.Owes (node :: due) := by
  constructor
  · rw [workers, jobs]
    refine owes.held.trans ?_
    have split := (Table.rows_perm held).map Job.node
    rw [List.map_cons, sent] at split
    exact (split.append_left _).trans List.perm_middle
  · rw [crtNodes, workers]
    exact owes.crtNodes

theorem Owes.doneJob (owes : c.Owes due) {received : JobResult} {job : Job}
    (held : c.getJob received = some job) (sent : job.node = some node) : (c.doneJob received).Owes (node :: due) :=
  owes.withoutHeld held sent rfl rfl rfl

/-- A node that is due a job is let go. -/
theorem Owes.finish (owes : c.Owes (node :: due)) (endTime : Int) : (c.finish node endTime).Owes due := by
  obtain ⟨ws, found, busy⟩ := owes.worker
  have split := unfinished_split found busy
  have changed := unfinished_perm (Table.modify_perm found (fun ws => ws.workerFinished endTime))
  rw [unfinished_cons] at changed
  constructor
  · have held := ((split.map some).symm.trans owes.held)
    simp only [List.map_cons, List.cons_append] at held
    exact (changed.map some).trans held.cons_inv
  · have before := split.length_eq
    have after : (unfinished (c.finish node endTime).workers.rows).length =
        (unfinished (c.workers.erase node).rows).length := changed.length_eq
    have count := owes.crtNodes
    rw [List.length_cons] at before
    rw [after]
    change c.crtNodes - 1 = _
    omega

theorem Owes.sayGoodbye (owes : c.Owes (node :: due)) (endTime : Int) : (c.sayGoodbye node endTime).Owes due :=
  (owes.finish endTime).of_eq (unfinished_kept _ fun _ => rfl) rfl rfl

/-- A node that is due a job gets one, under the id of a job the cluster does
not hold. -/
theorem Owes.assign (owes : c.Owes (node :: due)) {job : Job} (fresh : c.subsetJobs.get? job.jobID = none)
    (subsetLength : Int) : ((c.assign subsetLength node job).setNode job.jobID node).Owes due := by
  have stored : (c.assign subsetLength node job).subsetJobs.get? job.jobID = some job := Table.get?_put_self _ _
  have jobs := (Table.modify_perm stored (fun j => { j with node := some node })).map Job.node
  have rest : (c.assign subsetLength node job).subsetJobs.erase job.jobID = c.subsetJobs :=
    (Table.erase_put _ _).trans (Table.erase_absent fresh)
  have workers : unfinished ((c.assign subsetLength node job).setNode job.jobID node).workers.rows =
      unfinished c.workers.rows :=
    show unfinished (c.withWorker node (fun ws => ws.setLatestJobStartTime job.startTime)).workers.rows =
      unfinished c.workers.rows from unfinished_kept _ fun _ => rfl
  constructor
  · rw [rest, List.map_cons] at jobs
    rw [workers]
    refine owes.held.trans (.trans ?_ (jobs.symm.append_left _))
    exact List.perm_middle.symm
  · rw [workers]
    exact owes.crtNodes

theorem Owes.terminateWorker (owes : c.Owes due) (node : String) (now : Int) : (c.terminateWorker node now).Owes due :=
  owes.of_eq (unfinished_kept _ fun _ => rfl) rfl rfl

theorem Owes.addJobStats (owes : c.Owes due) (node : String) (runtime : Int) :
    (c.withWorker node (fun ws => ws.addJobStats runtime)).Owes due :=
  owes.of_eq (unfinished_kept _ fun _ => rfl) rfl rfl

theorem Owes.decided (owes : c.Owes due) (decision : Decision) : (c.decided decision).Owes due := by
  refine owes.of_eq (unfinished_map (fun ws => ?_) fun ws => ws.decided_node _) rfl rfl
  rcases decision.marks ⟨c.clusterAlias, ws.node⟩ with - | - | - <;> rfl

/-- A failed node loses its job and is let go. -/
theorem Owes.withoutJob (owes : c.Owes due) {job : Job} (failed : c.jobOn node = some job) (endTime : Int) :
    (c.withoutJob node endTime job).Owes due := by
  have member := List.mem_of_find?_eq_some failed
  have sent : job.node = some node := by simpa using List.find?_some failed
  have lost : Owes { c with subsetJobs := c.subsetJobs.erase job.jobID } (node :: due) :=
    owes.withoutHeld (Table.get?_of_mem member) sent rfl rfl rfl
  exact lost.finish endTime

/-- Each held job has one unfinished worker. -/
theorem Owes.holder (owes : c.Owes []) {job : Job} (held : job ∈ c.subsetJobs.rows) :
    ∃! ws, ws ∈ c.workers.rows ∧ ws.isFinished = false ∧ job.node = some ws.node := by
  have member : job.node ∈ (unfinished c.workers.rows).map some :=
    owes.held.mem_iff.mpr (List.mem_map_of_mem held)
  obtain ⟨other, inside, same⟩ := List.mem_map.mp member
  obtain ⟨ws, stored, busy, rfl⟩ := mem_unfinished.mp inside
  refine ⟨ws, ⟨stored, busy, same.symm⟩, ?_⟩
  rintro ws' ⟨stored', _, sent⟩
  exact c.workers.unique stored' stored (Option.some.inj (sent.symm.trans same.symm))

theorem unfinished_nodup (c : Cluster) : (unfinished c.workers.rows).Nodup :=
  c.workers.keyed.sublist (List.filter_sublist.map WorkerStats.node)

/-- Each unfinished worker holds one job. -/
theorem Owes.held_once (owes : c.Owes []) (stored : ws ∈ c.workers.rows) (busy : ws.isFinished = false) :
    ∃! job, job ∈ c.subsetJobs.rows ∧ job.node = some ws.node := by
  have nodes : ((unfinished c.workers.rows).map some).Perm (c.subsetJobs.rows.map Job.node) := owes.held
  have member : some ws.node ∈ c.subsetJobs.rows.map Job.node :=
    nodes.mem_iff.mp (List.mem_map_of_mem (mem_unfinished.mpr ⟨ws, stored, busy, rfl⟩))
  have distinct : (c.subsetJobs.rows.map Job.node).Nodup :=
    nodes.nodup_iff.mp (c.unfinished_nodup.map (Option.some_injective _))
  obtain ⟨job, held, sent⟩ := List.mem_map.mp member
  refine ⟨job, ⟨held, sent⟩, ?_⟩
  rintro other ⟨held', sent'⟩
  exact List.inj_on_of_nodup_map distinct held' held (sent'.trans sent.symm)

end Cluster

end ConPaaS
