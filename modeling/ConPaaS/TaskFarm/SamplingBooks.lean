import ConPaaS.TaskFarm.SamplingFarm

namespace ConPaaS

open Keyed Transition

/-! ### The objects of the bag -/

namespace Sampler

variable {m : Sampler} {jobID other : String} {origin : IbisIdentifier}

theorem isDone_setNode (m : Sampler) (origin : IbisIdentifier) (nextJob : Option String) (jobID : String) :
    (m.setNode origin nextJob).isDone jobID = m.isDone jobID := by
  cases nextJob with
  | none => rfl
  | some sent =>
    simp only [isDone, setNode]
    by_cases here : jobID = sent
    · rw [here, Table.get?_modify _ _ (BagJob.setNode origin.node) (fun _ => rfl), Option.any_map]
      rfl
    · rw [Table.get?_modify_ne _ here (BagJob.setNode origin.node) (fun _ => rfl)]

theorem sentTo_setNode (object : ∃ job, m.jobs.get? jobID = some job) :
    (m.setNode origin (some jobID)).sentTo jobID = some origin.node := by
  obtain ⟨job, found⟩ := object
  simp only [sentTo, setNode]
  rw [Table.get?_modify _ _ (BagJob.setNode origin.node) (fun _ => rfl), found]
  rfl

theorem sentTo_setNode_ne (apart : jobID ≠ other) : (m.setNode origin (some other)).sentTo jobID = m.sentTo jobID := by
  simp only [sentTo, setNode]
  rw [Table.get?_modify_ne _ apart (BagJob.setNode origin.node) (fun _ => rfl)]

theorem isDone_recordResult {received : JobResult} {c : SamplingCluster}
    (object : ∃ job, m.jobs.get? received.jobID = some job) (jobID : String) :
    (m.recordResult received origin c).isDone jobID = (jobID == received.jobID || m.isDone jobID) := by
  obtain ⟨job, found⟩ := object
  simp only [isDone, recordResult, update]
  by_cases here : jobID = received.jobID
  · rw [here, Table.get?_modify _ _ (BagJob.record origin.cluster received) (fun _ => rfl), found]
    simp [BagJob.record]
  · rw [Table.get?_modify_ne _ here (BagJob.record origin.cluster received) (fun _ => rfl)]
    simp [here]

theorem sentTo_recordResult (m : Sampler) (received : JobResult) (origin : IbisIdentifier) (c : SamplingCluster)
    (jobID : String) : (m.recordResult received origin c).sentTo jobID = m.sentTo jobID := by
  simp only [sentTo, recordResult, update]
  by_cases here : jobID = received.jobID
  · rw [here, Table.get?_modify _ _ (BagJob.record origin.cluster received) (fun _ => rfl), Option.bind_map]
    rfl
  · rw [Table.get?_modify_ne _ here (BagJob.record origin.cluster received) (fun _ => rfl)]

/-- What a map has for a failed node: a job that is not done and was sent there. -/
theorem failedIn_some {points : Points} {node : String} (failed : m.failedIn points node = some jobID) :
    jobID ∈ points.rows ∧ m.isDone jobID = false ∧ m.sentTo jobID = some node := by
  refine ⟨List.mem_of_find?_eq_some failed, ?_⟩
  have holds := List.find?_some failed
  obtain ⟨job, found, undone⟩ := (Option.any_eq_true _ _).mp holds
  simp only [Bool.and_eq_true, Bool.not_eq_true', decide_eq_true_eq] at undone
  simp [isDone, sentTo, found, undone.1, undone.2]

theorem failedIn_none {points : Points} {node : String} (none : m.failedIn points node = none) {jobID : String}
    (member : jobID ∈ points.rows) (undone : m.isDone jobID = false) : m.sentTo jobID ≠ some node := by
  intro sent
  have refused := List.find?_eq_none.mp none jobID member
  obtain ⟨job, found, there⟩ := Option.bind_eq_some_iff.mp sent
  simp only [isDone, found, Option.any_some] at undone
  exact refused (by simp [found, undone, there])

/-! ### The workers of the clusters -/

theorem worker_update {cluster : String} {c : SamplingCluster} (found : m.clusters.get? cluster = some c)
    (change : SamplingCluster → SamplingCluster) (node : String)
    (same : ∀ c, (change c).clusterAlias = c.clusterAlias := by intro _; rfl) :
    (m.update cluster change same).worker ⟨cluster, node⟩ = (change c).workers.get? node := by
  simp only [worker, update]
  rw [Table.get?_modify_self found change same, Option.bind_some]

theorem worker_update_ne {cluster : String} {node : IbisIdentifier} (change : SamplingCluster → SamplingCluster)
    (same : ∀ c, (change c).clusterAlias = c.clusterAlias)
    (kept : node.cluster = cluster → ∀ c, (change c).workers.get? node.node = c.workers.get? node.node) :
    (m.update cluster change same).worker node = m.worker node := by
  simp only [worker, update]
  by_cases here : node.cluster = cluster
  · rw [here, Table.get?_modify m.clusters cluster change same, Option.bind_map]
    exact congrArg _ (funext (kept here))
  · rw [Table.get?_modify_ne _ here change same]

/-- Wherever its nodes are known, a cluster that is changed keeps the others. -/
theorem points_update {cluster : String} (m : Sampler) (change : SamplingCluster → SamplingCluster)
    (kept : ∀ c, (change c).points = c.points)
    (same : ∀ c, (change c).clusterAlias = c.clusterAlias := by intro _; rfl) :
    (m.update cluster change same).points = m.points :=
  Table.flatMap_modify_same m.clusters cluster change SamplingCluster.points kept same

end Sampler

/-! ### The books of the sampling phase -/

namespace SamplingFarm

variable {start : Sampler} {farm : SamplingFarm} {origin : IbisIdentifier} {cluster jobID : String} {c : SamplingCluster}

/-- A task that is not replicated waits, or it is a point of one cluster. There
it is done, or the worker it was sent to works at it. -/
structure Books (start : Sampler) (farm : SamplingFarm) : Prop where
  replicatedTasks : farm.master.replicatedTasks = start.replicatedTasks
  numbers : farm.master.noReplicatedJobs = start.noReplicatedJobs ∧ farm.master.noSampleJobs = start.noSampleJobs
  objects : ∀ jobID ∈ start.replicatedTasks ++ start.tasks, ∃ job, farm.master.jobs.get? jobID = some job
  replicated : ∀ c ∈ farm.master.clusters.rows, ∀ jobID ∈ c.regressionPoints.rows, jobID ∈ start.replicatedTasks
  account : (farm.master.tasks ++ farm.master.points).Perm start.tasks
  waiting : ∀ jobID ∈ farm.master.tasks, farm.master.isDone jobID = false
  outstanding : ∀ c ∈ farm.master.clusters.rows, ∀ jobID ∈ c.points, farm.master.isDone jobID = false →
    ∃ node, farm.master.sentTo jobID = some node ∧ (⟨c.clusterAlias, node⟩, jobID) ∈ farm.working.rows
  held : ∀ origin jobID, (origin, jobID) ∈ farm.working.rows → jobID ∉ start.replicatedTasks →
    farm.master.isDone jobID = false ∧ farm.master.sentTo jobID = some origin.node ∧
      ∃ c, farm.master.clusters.get? origin.cluster = some c ∧ jobID ∈ c.points
  busy : ∀ origin jobID, (origin, jobID) ∈ farm.working.rows →
    ∃ ws, farm.master.worker origin = some ws ∧ ws.done = false
  finished : ∀ jobID, jobID ∈ farm.master.finishedTasks.rows ↔ farm.master.isDone jobID = true
  total : farm.master.totalSamplingPointsCounter = farm.master.samplingPoints.countP farm.master.isDone

theorem Books.begin (starts : start.Starts) : Books start (SamplingFarm.start start) := by
  have none : start.points = [] := List.flatMap_eq_nil_iff.mpr fun c member => (starts.idle c member).2.2.1
  have undone (jobID : String) : start.isDone jobID = false := by
    simp only [Sampler.isDone, Option.any_eq_false]
    intro job found
    exact starts.undone job (Table.get?_mem found)
  constructor
  case replicatedTasks => rfl
  case numbers => exact ⟨rfl, rfl⟩
  case objects => exact fun jobID member => Option.isSome_iff_exists.mp (starts.objects jobID member)
  case replicated =>
    intro c member jobID noted
    rw [(starts.idle c member).2.1] at noted
    cases noted
  case account =>
    show (start.tasks ++ start.points).Perm start.tasks
    rw [none, List.append_nil]
  case waiting => exact fun jobID _ => undone jobID
  case outstanding =>
    intro c member jobID noted
    rw [(starts.idle c member).2.2.1] at noted
    cases noted
  case held =>
    intro _ _ works
    cases works
  case busy =>
    intro _ _ works
    cases works
  case finished =>
    intro jobID
    show jobID ∈ start.finishedTasks.rows ↔ start.isDone jobID = true
    simp [starts.finishedTasks, undone]
  case total =>
    show start.totalSamplingPointsCounter = start.samplingPoints.countP start.isDone
    rw [starts.counters.1, List.countP_eq_zero.mpr fun jobID _ => by simp [undone]]

theorem Books.distinct (books : Books start farm) (starts : start.Starts) :
    (farm.master.tasks ++ farm.master.points).Nodup :=
  books.account.nodup_iff.mpr (List.nodup_append.mp starts.distinct).2.1

theorem Books.points_nodup (books : Books start farm) (starts : start.Starts) : farm.master.points.Nodup :=
  (List.nodup_append.mp (books.distinct starts)).2.1

/-- Neither a waiting task nor a point is a replicated job. -/
theorem Books.own (books : Books start farm) (starts : start.Starts)
    (member : jobID ∈ farm.master.tasks ++ farm.master.points) : jobID ∉ start.replicatedTasks := fun replicated =>
  (List.nodup_append.mp starts.distinct).2.2 jobID replicated jobID (books.account.mem_iff.mp member) rfl

theorem Books.apart (books : Books start farm) (starts : start.Starts) (waits : jobID ∈ farm.master.tasks) :
    jobID ∉ farm.master.points := fun noted =>
  (List.nodup_append.mp (books.distinct starts)).2.2 jobID waits jobID noted rfl

theorem mem_points {m : Sampler} (found : m.clusters.get? cluster = some c) (noted : jobID ∈ c.points) :
    jobID ∈ m.points := List.mem_flatMap.mpr ⟨c, Table.get?_mem found, noted⟩

/-- One worker at most works at a job that is not replicated. -/
theorem Books.holder_unique (books : Books start farm) (starts : start.Starts) (own : jobID ∉ start.replicatedTasks)
    {other : IbisIdentifier} (works : (origin, jobID) ∈ farm.working.rows) (worksToo : (other, jobID) ∈ farm.working.rows) :
    other = origin := by
  obtain ⟨_, sent, c, found, noted⟩ := books.held origin jobID works own
  obtain ⟨_, sentToo, d, foundToo, notedToo⟩ := books.held other jobID worksToo own
  have one : d = c :=
    Table.flatMap_unique (books.points_nodup starts) (Table.get?_mem foundToo) (Table.get?_mem found) notedToo noted
  have cluster : other.cluster = origin.cluster := by
    rw [← Table.get?_key foundToo, one, Table.get?_key found]
  have node : other.node = origin.node := Option.some.inj (sentToo.symm.trans sent)
  cases other
  cases origin
  simp_all

/-- A change of one cluster that touches none of its points. -/
theorem Books.update (books : Books start farm) (change : SamplingCluster → SamplingCluster)
    (same : ∀ c, (change c).clusterAlias = c.clusterAlias)
    (regression : ∀ c, (change c).regressionPoints.rows ⊆ c.regressionPoints.rows)
    (sampling : ∀ c, (change c).samplingPoints = c.samplingPoints)
    (extra : ∀ c, (change c).extraPoints = c.extraPoints)
    (busy : ∀ origin jobID, (origin, jobID) ∈ farm.working.rows →
      (farm.master.update cluster change same).worker origin = farm.master.worker origin ∨
        ∃ ws, (farm.master.update cluster change same).worker origin = some ws ∧ ws.done = false) :
    Books start { farm with master := farm.master.update cluster change same } := by
  have points (c : SamplingCluster) : (change c).points = c.points := by
    simp only [SamplingCluster.points, sampling, extra]
  constructor
  case replicatedTasks => exact books.replicatedTasks
  case numbers => exact books.numbers
  case objects => exact books.objects
  case replicated =>
    refine Table.forall_modify same (fun c member _ => ?_) fun c member _ => books.replicated c member
    exact fun jobID noted => books.replicated c member jobID (regression c noted)
  case account =>
    show (farm.master.tasks ++ (farm.master.update cluster change same).points).Perm start.tasks
    rw [Sampler.points_update farm.master change points same]
    exact books.account
  case waiting => exact books.waiting
  case outstanding =>
    refine Table.forall_modify same (fun c member _ => ?_) fun c member _ => books.outstanding c member
    rw [points, same]
    exact books.outstanding c member
  case held =>
    intro origin jobID works own
    obtain ⟨undone, sent, c, found, noted⟩ := books.held origin jobID works own
    refine ⟨undone, sent, _, Table.get?_modify_of found change same, ?_⟩
    split
    · rwa [points]
    · exact noted
  case busy =>
    intro origin jobID works
    rcases busy origin jobID works with kept | busy
    · rw [kept]
      exact books.busy origin jobID works
    · exact busy
  case finished => exact books.finished
  case total =>
    have kept : (farm.master.update cluster change same).samplingPoints = farm.master.samplingPoints :=
      Table.flatMap_modify_same farm.master.clusters cluster change _ (fun c => by rw [sampling]) same
    show _ = (farm.master.update cluster change same).samplingPoints.countP farm.master.isDone
    rw [kept]
    exact books.total

/-- A worker that works at a replicated job or at nothing may stop. -/
theorem Books.release (books : Books start farm)
    (free : ∀ jobID, (origin, jobID) ∈ farm.working.rows → jobID ∈ start.replicatedTasks)
    (starts : start.Starts) : Books start { farm with working := farm.working.erase origin } := by
  refine ⟨books.replicatedTasks, books.numbers, books.objects, books.replicated, books.account, books.waiting, ?_, ?_, ?_,
    books.finished, books.total⟩
  · intro c member jobID noted undone
    obtain ⟨node, sent, works⟩ := books.outstanding c member jobID noted undone
    refine ⟨node, sent, Table.mem_erase.mpr ⟨works, fun here => ?_⟩⟩
    have own := books.own starts (List.mem_append_right _ (mem_points (Table.get?_of_mem member) noted))
    exact own (free jobID (by rwa [← here]))
  · exact fun origin jobID works => books.held origin jobID (Table.mem_erase.mp works).1
  · exact fun origin jobID works => books.busy origin jobID (Table.mem_erase.mp works).1

/-- The rest of the tasks and the points of the others, when a job goes from
the tasks to a cluster. -/
theorem handOut_account {m : Sampler} (found : m.clusters.get? cluster = some c) {index : Nat}
    (chosen : m.tasks[index]? = some jobID) {change : SamplingCluster → SamplingCluster}
    (same : ∀ c, (change c).clusterAlias = c.clusterAlias) (points : (change c).points.Perm (jobID :: c.points)) :
    (m.tasks.eraseIdx index ++ (m.update cluster change same).points).Perm (m.tasks ++ m.points) := by
  obtain ⟨bound, value⟩ := List.getElem?_eq_some_iff.mp chosen
  have moved := Table.flatMap_modify found change SamplingCluster.points [] [jobID] points same
  have tasks := List.getElem_cons_eraseIdx_perm bound
  rw [value] at tasks
  exact (moved.append_left _).trans (List.perm_middle.trans (tasks.append_right _))

/-- A task that waits becomes a point of the cluster it is sent to. -/
theorem Books.handOut (books : Books start farm) (starts : start.Starts) (idle : farm.working.get? origin = none)
    (busy : ∃ ws, farm.master.worker origin = some ws ∧ ws.done = false)
    (found : farm.master.clusters.get? origin.cluster = some c) {index : Nat}
    (chosen : farm.master.tasks[index]? = some jobID) (change : SamplingCluster → SamplingCluster)
    (same : ∀ c, (change c).clusterAlias = c.clusterAlias)
    (regression : ∀ c, (change c).regressionPoints = c.regressionPoints) (workers : ∀ c, (change c).workers = c.workers)
    (points : (change c).points.Perm (jobID :: c.points))
    (sampling : (change c).samplingPoints.rows.countP farm.master.isDone =
      c.samplingPoints.rows.countP farm.master.isDone) (submitted : Nat) (timer : List (IbisIdentifier × Int)) :
    Books start ({ farm with
      master := { farm.master with
        tasks := farm.master.tasks.eraseIdx index
        totalSamplingSubmittedCounter := submitted
        timer }.update origin.cluster change same }.handOut origin (some jobID)) := by
  have waits : jobID ∈ farm.master.tasks := List.mem_of_getElem? chosen
  have own := books.own starts (List.mem_append_left _ waits)
  have object := books.objects jobID
    (List.mem_append_right _ (books.account.mem_iff.mp (List.mem_append_left _ waits)))
  have fresh := books.apart starts waits
  have others : farm.working.erase origin = farm.working := Table.erase_absent idle
  have old (d : SamplingCluster) (member : d ∈ farm.master.clusters.rows) (other : String) (noted : other ∈ d.points)
      (undone : farm.master.isDone other = false) :
      ∃ node, (farm.master.setNode origin (some jobID)).sentTo other = some node ∧
        (⟨d.clusterAlias, node⟩, other) ∈ ((farm.working.erase origin).put (origin, jobID)).rows := by
    rw [others]
    obtain ⟨node, sent, works⟩ := books.outstanding d member other noted undone
    have apart : other ≠ jobID := by
      rintro rfl
      exact fresh (mem_points (Table.get?_of_mem member) noted)
    refine ⟨node, (Sampler.sentTo_setNode_ne apart).trans sent, Table.mem_put.mpr (Or.inr ⟨works, ?_⟩)⟩
    exact Table.get?_none_iff.mp idle _ works
  constructor
  case replicatedTasks => exact books.replicatedTasks
  case numbers => exact books.numbers
  case objects =>
    intro other member
    obtain ⟨job, stored⟩ := books.objects other member
    exact ⟨_, Table.get?_modify_of stored (BagJob.setNode origin.node) fun _ => rfl⟩
  case replicated =>
    refine Table.forall_modify same (fun c member _ => ?_) fun c member _ => books.replicated c member
    rw [regression]
    exact books.replicated c member
  case account =>
    exact (handOut_account found chosen same points).trans books.account
  case waiting =>
    intro other member
    refine (Sampler.isDone_setNode _ origin (some jobID) other).trans ?_
    exact books.waiting other ((List.eraseIdx_sublist _ _).mem member)
  case outstanding =>
    refine Table.forall_modify same (fun d member here other noted undone => ?_) fun d member _ other noted undone => ?_
    · have one : d = c := farm.master.clusters.unique member (Table.get?_mem found) (here.trans (Table.get?_key found).symm)
      subst one
      rw [same]
      rcases List.mem_cons.mp (points.mem_iff.mp noted) with rfl | noted
      · refine ⟨origin.node, Sampler.sentTo_setNode object, Table.mem_put.mpr (Or.inl ?_)⟩
        rw [here]
      · exact old d member other noted ((Sampler.isDone_setNode _ origin (some jobID) other).symm.trans undone)
    · exact old d member other noted ((Sampler.isDone_setNode _ origin (some jobID) other).symm.trans undone)
  case held =>
    intro node other works own
    rcases Table.mem_put.mp works with entry | ⟨before, _⟩
    · cases entry
      refine ⟨(Sampler.isDone_setNode _ origin (some jobID) jobID).trans (books.waiting jobID waits),
        Sampler.sentTo_setNode object, change c, Table.get?_modify_self found change same, ?_⟩
      exact points.mem_iff.mpr (List.mem_cons_self ..)
    · obtain ⟨undone, sent, d, foundToo, noted⟩ := books.held node other (Table.mem_erase.mp before).1 own
      have apart : other ≠ jobID := by
        rintro rfl
        exact fresh (mem_points foundToo noted)
      refine ⟨(Sampler.isDone_setNode _ origin (some jobID) other).trans undone,
        (Sampler.sentTo_setNode_ne apart).trans sent, _, Table.get?_modify_of foundToo change same, ?_⟩
      split
      · rename_i here
        have one : d = c := Option.some.inj ((here ▸ foundToo).symm.trans found)
        rw [one] at noted ⊢
        exact points.mem_iff.mpr (List.mem_cons_of_mem _ noted)
      · exact noted
  case busy =>
    intro node other works
    have kept (node : IbisIdentifier) :
        (farm.master.update origin.cluster change same).worker node = farm.master.worker node :=
      Sampler.worker_update_ne change same fun _ c => by rw [workers]
    rcases Table.mem_put.mp works with entry | ⟨before, _⟩
    · cases entry
      exact (kept origin).symm ▸ busy
    · exact (kept node).symm ▸ books.busy node other (Table.mem_erase.mp before).1
  case finished =>
    intro other
    have kept := Sampler.isDone_setNode farm.master origin (some jobID) other
    exact (books.finished other).trans (Eq.congr_left kept.symm)
  case total =>
    have counts := Table.countP_modify found change (fun c => c.samplingPoints.rows) farm.master.isDone
      (congrArg (· + 0) sampling) same
    refine books.total.trans (counts.symm.trans ?_)
    exact List.countP_congr fun other _ =>
      Eq.congr_left (Sampler.isDone_setNode farm.master origin (some jobID) other).symm

/-- A replicated job is sent to a worker. -/
theorem Books.handOutReplicated (books : Books start farm) (starts : start.Starts)
    (busy : ∃ ws, farm.master.worker origin = some ws ∧ ws.done = false) (idle : farm.working.get? origin = none)
    (replicated : jobID ∈ start.replicatedTasks) :
    Books start ({ farm with master := farm.master.handOutRegression origin jobID }.handOut origin (some jobID)) := by
  have others : farm.working.erase origin = farm.working := Table.erase_absent idle
  have named (c : SamplingCluster) : (c.putRegression jobID).clusterAlias = c.clusterAlias := rfl
  have kept (other : String) := Sampler.isDone_setNode farm.master origin (some jobID) other
  constructor
  case replicatedTasks => exact books.replicatedTasks
  case numbers => exact books.numbers
  case objects =>
    intro other member
    obtain ⟨job, stored⟩ := books.objects other member
    exact ⟨_, Table.get?_modify_of stored (BagJob.setNode origin.node) fun _ => rfl⟩
  case replicated =>
    refine Table.forall_modify named (fun c member _ other noted => ?_) fun c member _ => books.replicated c member
    rcases Table.mem_put.mp noted with rfl | ⟨before, _⟩
    · exact replicated
    · exact books.replicated c member other before
  case account =>
    refine .trans (.of_eq (congrArg (farm.master.tasks ++ ·) ?_)) books.account
    exact Sampler.points_update farm.master (fun c => c.putRegression jobID) (fun _ => rfl) named
  case waiting => exact fun other member => (kept other).trans (books.waiting other member)
  case outstanding =>
    have old (d : SamplingCluster) (member : d ∈ farm.master.clusters.rows) (other : String) (noted : other ∈ d.points)
        (undone : (farm.master.setNode origin (some jobID)).isDone other = false) :
        ∃ node, (farm.master.setNode origin (some jobID)).sentTo other = some node ∧
          (⟨d.clusterAlias, node⟩, other) ∈ ((farm.working.erase origin).put (origin, jobID)).rows := by
      obtain ⟨node, sent, works⟩ := books.outstanding d member other noted ((kept other).symm.trans undone)
      have own := books.own starts (List.mem_append_right _ (mem_points (Table.get?_of_mem member) noted))
      have apart : other ≠ jobID := fun same => own (same ▸ replicated)
      refine ⟨node, (Sampler.sentTo_setNode_ne apart).trans sent, Table.mem_put.mpr (Or.inr ?_)⟩
      rw [others]
      exact ⟨works, Table.get?_none_iff.mp idle _ works⟩
    exact Table.forall_modify named (fun d member _ => old d member) fun d member _ => old d member
  case held =>
    intro node other works own
    rcases Table.mem_put.mp works with entry | ⟨before, _⟩
    · cases entry
      exact absurd replicated own
    · obtain ⟨undone, sent, d, found, noted⟩ := books.held node other (Table.mem_erase.mp before).1 own
      have apart : other ≠ jobID := fun same => own (same ▸ replicated)
      refine ⟨(kept other).trans undone, (Sampler.sentTo_setNode_ne apart).trans sent, _,
        Table.get?_modify_of found _ named, ?_⟩
      split <;> exact noted
  case busy =>
    intro node other works
    have same (node : IbisIdentifier) :
        (farm.master.handOutRegression origin jobID).worker node = farm.master.worker node :=
      Sampler.worker_update_ne (fun c => c.putRegression jobID) named fun _ _ => rfl
    rcases Table.mem_put.mp works with entry | ⟨before, _⟩
    · cases entry
      exact (same origin).symm ▸ busy
    · exact (same node).symm ▸ books.busy node other (Table.mem_erase.mp before).1
  case finished => exact fun other => (books.finished other).trans (Eq.congr_left (kept other).symm)
  case total =>
    have points : (farm.master.handOutRegression origin jobID).samplingPoints = farm.master.samplingPoints :=
      Table.flatMap_modify_same farm.master.clusters origin.cluster (fun c => c.putRegression jobID) _ (fun _ => rfl) named
    refine books.total.trans (.trans ?_ (congrArg (List.countP _) points.symm))
    exact List.countP_congr fun other _ => Eq.congr_left (kept other).symm

/-- A point that its worker could not finish waits again. -/
theorem Books.takeBack (books : Books start farm) (starts : start.Starts) (works : (origin, jobID) ∈ farm.working.rows)
    (own : jobID ∉ start.replicatedTasks) (found : farm.master.clusters.get? origin.cluster = some c)
    (change : SamplingCluster → SamplingCluster) (same : ∀ c, (change c).clusterAlias = c.clusterAlias)
    (regression : ∀ c, (change c).regressionPoints = c.regressionPoints) (workers : ∀ c, (change c).workers = c.workers)
    (points : c.points.Perm (jobID :: (change c).points))
    (sampling : (change c).samplingPoints.rows.countP farm.master.isDone =
      c.samplingPoints.rows.countP farm.master.isDone) :
    Books start { farm with
      master := { farm.master with tasks := farm.master.tasks ++ [jobID] }.update origin.cluster change same
      working := farm.working.erase origin } := by
  obtain ⟨undone, sent, _⟩ := books.held origin jobID works own
  have unique := Table.get?_of_mem works
  have mine : jobID ∈ c.points := points.mem_iff.mpr (List.mem_cons_self ..)
  have distinct : (jobID :: (change c).points).Nodup :=
    points.nodup_iff.mp ((List.nodup_flatMap.mp (books.points_nodup starts)).1 c (Table.get?_mem found))
  constructor
  case replicatedTasks => exact books.replicatedTasks
  case numbers => exact books.numbers
  case objects => exact books.objects
  case replicated =>
    refine Table.forall_modify same (fun c member _ => ?_) fun c member _ => books.replicated c member
    rw [regression]
    exact books.replicated c member
  case account =>
    have moved := Table.flatMap_modify found change SamplingCluster.points [jobID] [] points.symm same
    show (farm.master.tasks ++ [jobID] ++ (farm.master.update origin.cluster change same).points).Perm start.tasks
    rw [List.append_assoc]
    exact (moved.append_left _).trans books.account
  case waiting =>
    intro other member
    rcases List.mem_append.mp member with before | here
    · exact books.waiting other before
    · rw [List.mem_singleton.mp here]
      exact undone
  case outstanding =>
    have old (d : SamplingCluster) (member : d ∈ farm.master.clusters.rows) (other : String) (noted : other ∈ d.points)
        (apart : other ≠ jobID) (waits : farm.master.isDone other = false) :
        ∃ node, farm.master.sentTo other = some node ∧
          (⟨d.clusterAlias, node⟩, other) ∈ (farm.working.erase origin).rows := by
      obtain ⟨node, sent, works⟩ := books.outstanding d member other noted waits
      refine ⟨node, sent, Table.mem_erase.mpr ⟨works, fun here => apart ?_⟩⟩
      have entry := (Table.get?_of_mem works).symm.trans (here ▸ unique)
      exact congrArg Prod.snd (Option.some.inj entry)
    refine Table.forall_modify same (fun d member here other after => ?_) fun d member there other after => ?_
    · have one : d = c := farm.master.clusters.unique member (Table.get?_mem found) (here.trans (Table.get?_key found).symm)
      subst one
      rw [same]
      refine old d member other (points.mem_iff.mpr (List.mem_cons_of_mem _ after)) fun equal => ?_
      exact (List.nodup_cons.mp distinct).1 (equal ▸ after)
    · refine old d member other after fun equal => ?_
      have one : d = c :=
        Table.flatMap_unique (books.points_nodup starts) member (Table.get?_mem found) (equal ▸ after) mine
      exact there (by rw [one, Table.get?_key found])
  case held =>
    intro node other before ownToo
    obtain ⟨worksToo, elsewhere⟩ := Table.mem_erase.mp before
    obtain ⟨undone, sent, d, foundToo, noted⟩ := books.held node other worksToo ownToo
    refine ⟨undone, sent, _, Table.get?_modify_of foundToo change same, ?_⟩
    split
    · rename_i here
      have one : d = c := Option.some.inj ((here ▸ foundToo).symm.trans found)
      subst one
      rcases List.mem_cons.mp (points.mem_iff.mp noted) with equal | kept
      · exact absurd (books.holder_unique starts own works (equal ▸ worksToo)) elsewhere
      · exact kept
    · exact noted
  case busy =>
    intro node other before
    have kept : (farm.master.update origin.cluster change same).worker node = farm.master.worker node :=
      Sampler.worker_update_ne change same fun _ c => by rw [workers]
    exact kept.symm ▸ books.busy node other (Table.mem_erase.mp before).1
  case finished => exact books.finished
  case total =>
    have counts := Table.countP_modify found change (fun c => c.samplingPoints.rows) farm.master.isDone
      (congrArg (· + 0) sampling) same
    exact books.total.trans counts.symm

theorem Books.points_split (farm : SamplingFarm) :
    (farm.master.samplingPoints ++ farm.master.clusters.rows.flatMap fun c => c.extraPoints.rows).Perm
      farm.master.points := List.flatMap_append_perm _ _ _

theorem Books.samplingPoints_nodup (books : Books start farm) (starts : start.Starts) :
    farm.master.samplingPoints.Nodup :=
  (List.nodup_append.mp ((points_split farm).nodup_iff.mpr (books.points_nodup starts))).1

theorem mem_points_of_sampling (sampled : jobID ∈ farm.master.samplingPoints) : jobID ∈ farm.master.points :=
  (Books.points_split farm).mem_iff.mp (List.mem_append_left _ sampled)

/-- The master counts a result as one of a sampling point when it is one. -/
theorem Books.samples_iff (books : Books start farm) (starts : start.Starts)
    (works : (origin, jobID) ∈ farm.working.rows) (found : farm.master.clusters.get? origin.cluster = some c) :
    c.samples jobID = true ↔ jobID ∈ farm.master.samplingPoints := by
  simp only [SamplingCluster.samples, decide_eq_true_eq]
  constructor
  · rintro ⟨_, sampled⟩
    exact List.mem_flatMap.mpr ⟨c, Table.get?_mem found, sampled⟩
  · intro sampled
    have own := books.own starts (List.mem_append_right _ (mem_points_of_sampling sampled))
    obtain ⟨d, member, inside⟩ := List.mem_flatMap.mp sampled
    obtain ⟨_, _, c', foundToo, noted⟩ := books.held origin jobID works own
    cases foundToo.symm.trans found
    have one : d = c := Table.flatMap_unique (books.points_nodup starts) member (Table.get?_mem found)
      (List.mem_append_left _ inside) noted
    exact ⟨fun regression => own (books.replicated c (Table.get?_mem found) jobID regression), one ▸ inside⟩

/-- One element more that counts is counted as often as it is there. -/
theorem countP_insert {l : List String} {p : String → Bool} {a : String} (new : a ∈ l → p a = false) :
    l.countP (fun x => x == a || p x) = l.countP p + l.count a := by
  induction l with
  | nil => rfl
  | cons x rest ih =>
    have rest := ih fun inside => new (List.mem_cons_of_mem _ inside)
    rw [List.countP_cons, List.countP_cons, List.count_cons, rest]
    by_cases here : x = a
    · subst here
      simp [new (List.mem_cons_self ..)]
      omega
    · simp [here]
      omega

/-- A result is booked, and its worker waits for a job. -/
theorem Books.recordResult (books : Books start farm) (starts : start.Starts) {received : JobResult}
    (works : (origin, received.jobID) ∈ farm.working.rows) (found : farm.master.clusters.get? origin.cluster = some c) :
    Books start { farm with
      master := farm.master.recordResult received origin c
      working := farm.working.erase origin } := by
  have noted (own : received.jobID ∉ start.replicatedTasks) : received.jobID ∈ farm.master.points := by
    obtain ⟨_, _, d, stored, inside⟩ := books.held origin received.jobID works own
    exact mem_points stored inside
  have inBag : received.jobID ∈ start.replicatedTasks ++ start.tasks := by
    by_cases own : received.jobID ∈ start.replicatedTasks
    · exact List.mem_append_left _ own
    · exact List.mem_append_right _ (books.account.mem_iff.mp (List.mem_append_right _ (noted own)))
  have object := books.objects received.jobID inBag
  have done (jobID : String) : (farm.master.recordResult received origin c).isDone jobID =
      (jobID == received.jobID || farm.master.isDone jobID) := Sampler.isDone_recordResult object jobID
  have unique := Table.get?_of_mem works
  have named (d : SamplingCluster) : (d.bookResult received origin.node).clusterAlias = d.clusterAlias := rfl
  constructor
  case replicatedTasks => exact books.replicatedTasks
  case numbers => exact books.numbers
  case objects =>
    intro other member
    obtain ⟨job, stored⟩ := books.objects other member
    exact ⟨_, Table.get?_modify_of stored (BagJob.record origin.cluster received) fun _ => rfl⟩
  case replicated =>
    exact Table.forall_modify named (fun d member _ => books.replicated d member) fun d member _ => books.replicated d member
  case account =>
    refine .trans (.of_eq (congrArg (farm.master.tasks ++ ·) ?_)) books.account
    exact Sampler.points_update farm.master (fun d => d.bookResult received origin.node) (fun _ => rfl) named
  case waiting =>
    intro other member
    refine (done other).trans ?_
    have apart : other ≠ received.jobID := by
      rintro rfl
      exact books.apart starts member (noted (books.own starts (List.mem_append_left _ member)))
    rw [books.waiting other member, Bool.or_false, beq_eq_false_iff_ne]
    exact apart
  case outstanding =>
    have old (d : SamplingCluster) (member : d ∈ farm.master.clusters.rows) (other : String) (noted : other ∈ d.points)
        (undone : (farm.master.recordResult received origin c).isDone other = false) :
        ∃ node, (farm.master.recordResult received origin c).sentTo other = some node ∧
          (⟨d.clusterAlias, node⟩, other) ∈ (farm.working.erase origin).rows := by
      rw [done other, Bool.or_eq_false_iff, beq_eq_false_iff_ne] at undone
      obtain ⟨node, sent, works⟩ := books.outstanding d member other noted undone.2
      refine ⟨node, (Sampler.sentTo_recordResult _ _ _ _ _).trans sent, Table.mem_erase.mpr ⟨works, fun here => ?_⟩⟩
      have entry := (Table.get?_of_mem works).symm.trans (here ▸ unique)
      exact undone.1 (congrArg Prod.snd (Option.some.inj entry))
    exact Table.forall_modify named (fun d member _ => old d member) fun d member _ => old d member
  case held =>
    intro node other before own
    obtain ⟨worksToo, elsewhere⟩ := Table.mem_erase.mp before
    obtain ⟨undone, sent, d, stored, inside⟩ := books.held node other worksToo own
    have apart : other ≠ received.jobID := by
      rintro rfl
      exact elsewhere (books.holder_unique starts own works worksToo)
    refine ⟨(done other).trans ?_, (Sampler.sentTo_recordResult _ _ _ _ _).trans sent, _,
      Table.get?_modify_of stored _ named, ?_⟩
    · rw [undone, Bool.or_false, beq_eq_false_iff_ne]
      exact apart
    · split <;> exact inside
  case busy =>
    intro node other before
    obtain ⟨ws, known, busy⟩ := books.busy node other (Table.mem_erase.mp before).1
    have elsewhere := (Table.mem_erase.mp before).2
    have kept : (farm.master.recordResult received origin c).worker node = farm.master.worker node := by
      refine Sampler.worker_update_ne (fun d => d.bookResult received origin.node) named fun here d => ?_
      refine Table.get?_modify_ne _ (fun same => elsewhere ?_) _
      cases node
      cases origin
      simp_all
    exact ⟨ws, kept.trans known, busy⟩
  case finished =>
    intro other
    show other ∈ (farm.master.finishedTasks.add received.jobID).rows ↔ _
    rw [done other, Bool.or_eq_true, beq_iff_eq, ← books.finished other]
    exact Table.mem_add
  case total =>
    have points : (farm.master.recordResult received origin c).samplingPoints = farm.master.samplingPoints :=
      Table.flatMap_modify_same farm.master.clusters origin.cluster (fun d => d.bookResult received origin.node) _
        (fun _ => rfl) named
    show farm.master.totalSamplingPointsCounter + _ = (farm.master.recordResult received origin c).samplingPoints.countP _
    rw [points, List.countP_congr fun other _ => Eq.congr_left (done other), countP_insert, books.total]
    · by_cases sampled : received.jobID ∈ farm.master.samplingPoints
      · rw [if_pos ((books.samples_iff starts works found).mpr sampled),
          List.count_eq_one_of_mem (books.samplingPoints_nodup starts) sampled]
      · rw [if_neg fun samples => sampled ((books.samples_iff starts works found).mp samples),
          List.count_eq_zero_of_not_mem sampled]
    · intro sampled
      exact (books.held origin _ works (books.own starts (List.mem_append_right _ (mem_points_of_sampling sampled)))).1

/-- A change of the worker on a node where nothing is worked at. -/
theorem Books.atNode (books : Books start farm) (idle : farm.working.get? origin = none)
    (change : SamplingCluster → SamplingCluster) (same : ∀ c, (change c).clusterAlias = c.clusterAlias)
    (regression : ∀ c, (change c).regressionPoints = c.regressionPoints)
    (sampling : ∀ c, (change c).samplingPoints = c.samplingPoints)
    (extra : ∀ c, (change c).extraPoints = c.extraPoints)
    (others : ∀ c node, node ≠ origin.node → (change c).workers.get? node = c.workers.get? node) :
    Books start { farm with master := farm.master.update origin.cluster change same } := by
  refine books.update change same (fun c => by rw [regression]; exact List.Subset.refl _) sampling extra
    fun node jobID works => Or.inl ?_
  have elsewhere : node ≠ origin := fun here => Table.get?_none_iff.mp idle _ works here
  refine Sampler.worker_update_ne change same fun here c => others c node.node fun same => elsewhere ?_
  cases node
  cases origin
  simp_all

/-- A worker that works at nothing is let go. -/
theorem Books.finish (books : Books start farm) (idle : farm.working.get? origin = none) (time : Int) :
    Books start { farm with master := farm.master.update origin.cluster fun c => c.finish origin.node time } :=
  books.atNode idle (fun c => c.finish origin.node time) (fun _ => rfl) (fun _ => rfl) (fun _ => rfl) (fun _ => rfl)
    fun _ _ apart => Table.get?_modify_ne _ apart _

/-- The failed worker is known by the undone job that was sent to it. -/
theorem Books.works_of_failed (books : Books start farm) (found : farm.master.clusters.get? origin.cluster = some c)
    (noted : jobID ∈ c.points) (undone : farm.master.isDone jobID = false)
    (sent : farm.master.sentTo jobID = some origin.node) : (origin, jobID) ∈ farm.working.rows := by
  obtain ⟨node, sentToo, works⟩ := books.outstanding c (Table.get?_mem found) jobID noted undone
  rw [Option.some.inj (sentToo.symm.trans sent), Table.get?_key found] at works
  exact works

/-- What is found of the failed worker is its job, if that is not a replicated one. -/
theorem Books.findFailedJob (books : Books start farm) (starts : start.Starts)
    (found : farm.master.clusters.get? origin.cluster = some c) :
    Books start { farm with
      master := farm.master.findFailedJob c origin.node
      working := farm.working.erase origin } := by
  have named : c.clusterAlias = origin.cluster := Table.get?_key found
  unfold Sampler.findFailedJob
  rw [named]
  split
  · rename_i jobID failed
    obtain ⟨inside, undone, sent⟩ := Sampler.failedIn_some failed
    have noted : jobID ∈ c.points := List.mem_append_right _ inside
    have own := books.own starts (List.mem_append_right _ (mem_points found noted))
    refine books.takeBack starts (books.works_of_failed found noted undone sent) own found
      (fun c => c.dropExtra jobID) (fun _ => rfl) (fun _ => rfl) (fun _ => rfl) ?_ rfl
    have split := (Table.rows_perm (Table.get?_of_mem inside)).append_left c.samplingPoints.rows
    exact split.trans List.perm_middle
  rename_i noExtra
  split
  · rename_i jobID failed
    obtain ⟨inside, undone, sent⟩ := Sampler.failedIn_some failed
    have noted : jobID ∈ c.points := List.mem_append_left _ inside
    have own := books.own starts (List.mem_append_right _ (mem_points found noted))
    have split := Table.rows_perm (Table.get?_of_mem inside)
    refine books.takeBack starts (books.works_of_failed found noted undone sent) own found
      (fun c => c.dropSampling jobID) (fun _ => rfl) (fun _ => rfl) (fun _ => rfl) (split.append_right _) ?_
    have counts := split.countP_eq farm.master.isDone
    rw [List.countP_cons_of_neg (by simp [undone])] at counts
    exact counts.symm
  rename_i noSampling
  have released : Books start { farm with working := farm.working.erase origin } := by
    refine books.release (fun jobID works => ?_) starts
    by_contra own
    obtain ⟨undone, sent, d, stored, noted⟩ := books.held origin jobID works own
    cases stored.symm.trans found
    rcases List.mem_append.mp noted with sampled | extra
    · exact Sampler.failedIn_none noSampling sampled undone sent
    · exact Sampler.failedIn_none noExtra extra undone sent
  split
  · rename_i jobID failed
    refine released.update (fun c => c.dropRegression jobID) (fun _ => rfl) (fun _ => List.filter_subset_self _) (fun _ => rfl)
      (fun _ => rfl) fun node other _ => Or.inl ?_
    exact Sampler.worker_update_ne (fun c => c.dropRegression jobID) (fun _ => rfl) fun _ _ => rfl
  · exact released

/-- A worker is lost, with its job if it had one. -/
theorem Books.loseWorker (books : Books start farm) (starts : start.Starts)
    (found : farm.master.clusters.get? origin.cluster = some c) (time : Int) :
    Books start { farm with
      master := farm.master.loseWorker c origin.node time
      working := farm.working.erase origin } := by
  unfold Sampler.loseWorker
  rw [Table.get?_key found]
  exact (books.findFailedJob starts found).finish (Table.get?_erase_self _ _) time

end SamplingFarm

end ConPaaS
