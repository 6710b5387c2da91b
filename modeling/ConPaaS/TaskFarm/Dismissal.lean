import ConPaaS.TaskFarm.JobConservation

namespace ConPaaS

open Keyed Transition

namespace Master

variable {start m : Master} {turn : Turn} {turns : List Turn} {origin : IbisIdentifier} {c : Cluster}

/-- What is left of a node's dismissal: nothing is changed but that the node
will terminate, now or later. -/
structure Dismissed (m after : Master) (origin : IbisIdentifier) (now : Int) : Prop where
  tasks : after.tasks = m.tasks
  subsetJobs : after.clusters.rows.map Cluster.subsetJobs = m.clusters.rows.map Cluster.subsetJobs
  crtNodes : after.clusters.rows.map Cluster.crtNodes = m.clusters.rows.map Cluster.crtNodes
  pendingNodes : after.clusters.rows.map Cluster.pendingNodes = m.clusters.rows.map Cluster.pendingNodes
  scheduled : ∃ ws, after.worker origin = some ws ∧ ws.willTerminate = true ∧ now ≤ ws.timeToDie

/-- A job request to a cluster without pending nodes is answered with a `NoJob`
that leaves the master as it was and dismisses the node. -/
def Answered (m : Master) (turn : Turn) : Prop :=
  ∀ origin c, turn.message = some (.jobRequest origin) → m.clusters.get? origin.cluster = some c → c.pendingNodes = 0 →
    ∃ after, m.handleJobRequest turn origin = .ok (after, none) ∧ m.Dismissed after origin turn.requestTime

/-- Such a request comes from a node the master has an entry for. -/
def SurplusKnown (m : Master) (turn : Turn) : Prop :=
  ∀ origin c, turn.message = some (.jobRequest origin) → m.clusters.get? origin.cluster = some c → c.pendingNodes = 0 →
    (m.worker origin).isSome = true

theorem rows_update {β : Type} {cluster : String} (change : Cluster → Cluster) (part : Cluster → β)
    (kept : ∀ c, part (change c) = part c) (same : ∀ c, (change c).clusterAlias = c.clusterAlias := by intro _; rfl) :
    (m.update cluster change same).clusters.rows.map part = m.clusters.rows.map part := by
  show (m.clusters.rows.map fun c => if c.clusterAlias = cluster then change c else c).map part = _
  refine List.map_map.trans (List.map_congr_left fun c _ => ?_)
  rw [Function.comp_apply]
  split
  · exact kept c
  · rfl

/-- A node that has an entry is terminated through it. -/
theorem dismissed_known (found : m.clusters.get? origin.cluster = some c) {ws : WorkerStats}
    (known : c.workers.get? origin.node = some ws) (now : Int) :
    m.Dismissed (m.update origin.cluster fun c => c.terminateWorker origin.node now) origin now := by
  let change (c : Cluster) := c.terminateWorker origin.node now
  refine ⟨rfl, rows_update change _ fun _ => rfl, rows_update change _ fun _ => rfl, rows_update change _ fun _ => rfl, ?_⟩
  have cluster : (m.update origin.cluster fun c => c.terminateWorker origin.node now).clusters.get? origin.cluster =
      some (c.terminateWorker origin.node now) := Table.get?_modify_self found _
  have entry : ∃ marked, (c.terminateWorker origin.node now).workers.get? origin.node = some marked ∧
      marked.willTerminate = true ∧ now ≤ marked.timeToDie :=
    ⟨_, Table.get?_modify_self known _, rfl, Int.le_add_of_nonneg_right (le_max_right _ _)⟩
  obtain ⟨marked, entry, scheduled⟩ := entry
  exact ⟨marked, by rw [worker, cluster, Option.bind_some, entry], scheduled⟩

theorem handleJobRequest_new (found : m.clusters.get? origin.cluster = some c) (full : c.pendingNodes = 0)
    (new : c.workers.get? origin.node = none) : m.handleJobRequest turn origin = .error .nullPointer := by
  simp only [handleJobRequest, found, new, full, if_true]

theorem handleJobRequest_known (found : m.clusters.get? origin.cluster = some c) (full : c.pendingNodes = 0)
    {ws : WorkerStats} (known : c.workers.get? origin.node = some ws) :
    m.handleJobRequest turn origin =
      .ok (m.update origin.cluster (fun c => c.terminateWorker origin.node turn.requestTime), none) := by
  simp only [handleJobRequest, found, known, full, if_true]

theorem answered_iff : m.Answered turn ↔ m.SurplusKnown turn := by
  refine forall_congr' fun origin => forall_congr' fun c => forall_congr' fun asked => forall_congr' fun found =>
    forall_congr' fun full => ?_
  have entry : m.worker origin = c.workers.get? origin.node := by rw [worker, found, Option.bind_some]
  rw [entry]
  cases known : c.workers.get? origin.node with
  | none =>
    refine iff_of_false ?_ (by simp)
    rintro ⟨after, answered, -⟩
    rw [handleJobRequest_new found full known] at answered
    cases answered
  | some ws => exact iff_of_true ⟨_, handleJobRequest_known found full known, dismissed_known found known _⟩ rfl

/-- All along a run surplus nodes are dismissed exactly if all along it they
are known. -/
theorem surplus_answered_iff (start : Master) (turns : List Turn) :
    (∀ before turn rest m, turns = before ++ turn :: rest → Run Step start before m → m.Answered turn) ↔
      ∀ before turn rest m, turns = before ++ turn :: rest → Run Step start before m → m.SurplusKnown turn :=
  forall_congr' fun _ => forall_congr' fun _ => forall_congr' fun _ => forall_congr' fun _ => forall_congr' fun _ =>
    forall_congr' fun _ => answered_iff

end Master

/-- The plan shrinks to no node while two are on their way. -/
def shrinkingTurn : Turn :=
  { quietTurn 1000 (.jobRequest ⟨"das", "n1"⟩) with message := none, decision := ⟨fun _ => 0, fun _ => 1, fun _ => none⟩ }

/-- The first of the two then ends the loop of the master. -/
theorem newNode_not_dismissed :
    ∃ m, Run Master.Step twoTasks [shrinkingTurn] m ∧ twoTasks.Starts ∧
      (m.clusters.get? "das").map Cluster.pendingNodes = some 0 ∧
      m.handleJobRequest (quietTurn 2000 (.jobRequest ⟨"das", "n1"⟩)) ⟨"das", "n1"⟩ = .error .nullPointer ∧
      m.runOnce (quietTurn 2000 (.jobRequest ⟨"das", "n1"⟩)) = .error .nullPointer :=
  ⟨twoTasks.next shrinkingTurn, .single (Master.step_next (by decide +kernel) (by decide +kernel)), twoTasks_starts,
    by decide +kernel⟩

end ConPaaS
