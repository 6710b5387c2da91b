import ConPaaS.TaskFarm.TailBooks

namespace ConPaaS

open Keyed

namespace TailFarm

variable {start : TailMaster} {farm after : TailFarm} {origin : IbisIdentifier} {jobID : String} {before next : Progress}
  {job : TailJob} {turn : TailTurn}

theorem Books.stands_of_waits (books : Books start farm) (waits : jobID ∈ farm.master.tasks) :
    jobID ∈ start.tasks ∧ Stands farm jobID .queued := by
  have member : jobID ∈ start.tasks := by
    by_contra outside
    exact (books.foreign jobID outside).queued waits
  obtain ⟨progress, stands⟩ := books.stands jobID member
  exact ⟨member, stands.queued.mp waits ▸ stands⟩

theorem Books.stands_of_runs (books : Books start farm) (runs : farm.Runs origin jobID) :
    jobID ∈ start.tasks ∧ ∃ progress, Stands farm jobID progress ∧ origin ∈ progress.nodes := by
  have member : jobID ∈ start.tasks := by
    by_contra outside
    exact (books.foreign jobID outside).runs origin runs
  obtain ⟨progress, stands⟩ := books.stands jobID member
  exact ⟨member, progress, stands, (stands.runs origin).mp runs⟩

/-- What the books say of the job of a node. -/
theorem Books.job_of_runs (books : Books start farm) (runs : farm.Runs origin jobID)
    (stored : farm.master.jobs.get? jobID = some job) :
    jobID ∈ start.tasks ∧ ∃ progress, Stands farm jobID progress ∧ origin ∈ progress.nodes ∧ progress.Fits job := by
  obtain ⟨member, progress, stands, works⟩ := books.stands_of_runs runs
  obtain ⟨same, stored', fits⟩ := stands.object
  cases stored.symm.trans stored'
  exact ⟨member, progress, stands, works, fits⟩

theorem Books.stands_of_held (books : Books start farm) {cluster : String} (held : farm.master.Holds cluster jobID) :
    jobID ∈ start.tasks ∧ ∃ progress, Stands farm jobID progress ∧ cluster ∈ progress.holders := by
  have member : jobID ∈ start.tasks := by
    by_contra outside
    exact (books.foreign jobID outside).held cluster held
  obtain ⟨progress, stands⟩ := books.stands jobID member
  exact ⟨member, progress, stands, (stands.held cluster).mp held⟩

/-- A job is sent to a node that works at nothing. -/
theorem Books.sent (books : Books start farm) (idle : farm.working.get? origin = none) (live : farm.master.Live origin)
    (member : jobID ∈ start.tasks) (stands : Stands farm jobID before) (joins : Progress.Joins origin before next)
    (prepare : TailJob → TailJob) (sameID : ∀ job, (prepare job).jobID = job.jobID)
    (change : TailCluster → TailCluster) (sameAlias : ∀ c, (change c).clusterAlias = c.clusterAlias)
    (put : ∀ c, (change c).subsetJobs = c.subsetJobs.put jobID) (lives : ∀ c node, c.Lives node → (change c).Lives node)
    (tasks : List String) (left : ∀ other, other ∈ tasks ↔ other ∈ farm.master.tasks ∧ other ≠ jobID) (distinct : tasks.Nodup)
    (fits : ∀ job, before.Fits job → next.Fits ((prepare job).setNode origin)) :
    Books start
      ({ farm with
          master := { farm.master with
            jobs := farm.master.jobs.modify jobID prepare sameID
            tasks }.update origin.cluster change sameAlias }.handOut origin (some jobID)) := by
  obtain ⟨job, stored, fit⟩ := stands.object
  have held (cluster other : String) : (farm.master.update origin.cluster change sameAlias).Holds cluster other ↔
      farm.master.Holds cluster other ∨ cluster = origin.cluster ∧ other = jobID :=
    TailMaster.holds_update_put put live.choose_spec.1 sameAlias
  have kept (node : IbisIdentifier) (alive : farm.master.Live node) :
      (farm.master.update origin.cluster change sameAlias).Live node :=
    alive.update (fun c _ => lives c node.node) sameAlias
  refine @Books.progressed _ _ _ _ next books member ?_ (fun other apart => ?_) distinct (fun node other runs => ?_)
    (fun _ => TailMaster.knows_update sameAlias) books.counted
  · constructor
    case object =>
      exact ⟨_, Table.get?_modify_self (Table.get?_modify_self stored prepare sameID) (TailJob.setNode origin)
        (TailJob.setNode_jobID origin), fits job fit⟩
    case queued => exact iff_of_false (fun waits => ((left jobID).mp waits).2 rfl) joins.sent
    case held =>
      intro cluster
      refine (held cluster jobID).trans ?_
      rw [joins.holders, ← stands.held]
      exact or_congr_right (and_iff_left rfl)
    case runs =>
      intro node
      refine (runs_put idle).trans ?_
      rw [joins.nodes, ← stands.runs]
      exact or_congr_right (and_iff_left rfl)
    case reported => exact joins.reported ▸ stands.reported
  · constructor
    case object =>
      exact (Table.get?_modify_ne _ apart (TailJob.setNode origin) (TailJob.setNode_jobID origin)).trans
        (Table.get?_modify_ne _ apart prepare sameID)
    case queued => exact (left other).trans (and_iff_left apart)
    case held => exact fun cluster => (held cluster other).trans (or_iff_left fun new => apart new.2)
    case runs => exact fun node => (runs_put idle).trans (or_iff_left fun new => apart new.2)
    case reported => exact .rfl
  · rcases (runs_put idle).mp runs with before | ⟨rfl, _⟩
    · exact kept node (books.live node other before)
    · exact kept node live

/-- A task is handed out. -/
theorem Books.assign (books : Books start farm) (idle : farm.working.get? origin = none) (live : farm.master.Live origin)
    {index : Nat} (chosen : farm.master.tasks[index]? = some jobID) (turn : TailTurn) :
    Books start ({ farm with master := farm.master.handOut turn origin index jobID }.handOut origin (some jobID)) := by
  obtain ⟨member, stands⟩ := books.stands_of_waits (List.mem_of_getElem? chosen)
  obtain ⟨bound, value⟩ := List.getElem?_eq_some_iff.mp chosen
  have tasks : farm.master.tasks.Perm (jobID :: farm.master.tasks.eraseIdx index) :=
    value ▸ (List.getElem_cons_eraseIdx_perm bound).symm
  obtain ⟨gone, distinct⟩ := List.nodup_cons.mp (tasks.nodup_iff.mp books.distinct)
  refine books.sent idle live member stands (Progress.joins_queued origin) (TailJob.started turn.nanoTime) (fun _ => rfl)
    (fun c => c.assign farm.master.subsetLength origin.node jobID turn.nanoTime) (fun _ => rfl) (fun _ => rfl)
    (fun c node lives => lives.hold origin.node jobID turn.nanoTime) (farm.master.tasks.eraseIdx index) (fun other => ?_)
    distinct fun job single => ?_
  · rw [tasks.mem_iff, List.mem_cons]
    constructor
    · intro inside
      exact ⟨.inr inside, fun same => gone (same ▸ inside)⟩
    · rintro ⟨rfl | inside, apart⟩
      · exact absurd rfl apart
      · exact inside
  · have alone : (job.started turn.nanoTime).setNode origin = { job.started turn.nanoTime with node := some origin.node } :=
      if_neg (by simp [TailJob.started, single.replicated])
    rw [alone]
    exact ⟨⟨single.1, single.2, single.3, single.4⟩, rfl⟩

/-- A running job gets a replica in another cluster. -/
theorem Books.replicate (books : Books start farm) (idle : farm.working.get? origin = none)
    (live : farm.master.Live origin) {node : IbisIdentifier} (member : jobID ∈ start.tasks)
    (stands : Stands farm jobID (.running node)) (apart : node.cluster ≠ origin.cluster) (turn : TailTurn) :
    Books start ({ farm with master := farm.master.replicate turn origin jobID }.handOut origin (some jobID)) := by
  refine books.sent idle live member stands (Progress.joins_running node origin)
    (TailJob.replicate origin.cluster turn.nanoTime) (fun _ => rfl) (fun c => c.hold origin.node jobID turn.nanoTime)
    (fun _ => rfl) (fun _ => rfl) (fun c node lives => lives.hold origin.node jobID turn.nanoTime) farm.master.tasks
    (fun other => ?_) books.distinct fun job fit => ?_
  · refine (and_iff_left_of_imp ?_).symm
    rintro waits rfl
    exact absurd (stands.queued.mp waits) nofun
  · obtain ⟨single, sent⟩ := fit
    have both : (job.replicate origin.cluster turn.nanoTime).setNode origin =
        { job.replicate origin.cluster turn.nanoTime with
          replicaNodes := job.replicaNodes.put (origin.cluster, origin.node) } := if_pos rfl
    rw [both]
    refine ⟨apart, rfl, single.notYetFinished, sent, ?_, turn.nanoTime, ?_⟩
    · simp [single.replicaNodes]
    · simp [TailJob.replicate, single.starttimes]

/-- A node stops working at its job. -/
theorem Books.stopped (books : Books start farm) (runs : farm.Runs origin jobID) (member : jobID ∈ start.tasks)
    (working : after.working = farm.working.erase origin) (stands : Stands farm jobID before)
    (nodes : ∀ node, node ∈ next.nodes ↔ node ∈ before.nodes ∧ node ≠ origin)
    (object : ∃ job, after.master.jobs.get? jobID = some job ∧ next.Fits job)
    (queued : jobID ∈ after.master.tasks ↔ next = .queued)
    (held : ∀ cluster, after.master.Holds cluster jobID ↔ cluster ∈ next.holders)
    (reported : jobID ∈ after.results ↔ next.reported = true)
    (others : ∀ other, other ≠ jobID → after.master.jobs.get? other = farm.master.jobs.get? other ∧
      (other ∈ after.master.tasks ↔ other ∈ farm.master.tasks) ∧
      (∀ cluster, after.master.Holds cluster other ↔ farm.master.Holds cluster other) ∧
      (other ∈ after.results ↔ other ∈ farm.results))
    (distinct : after.master.tasks.Nodup) (live : ∀ node, node ≠ origin → farm.master.Live node → after.master.Live node)
    (knows : ∀ cluster, after.master.knows cluster = farm.master.knows cluster)
    (counted : after.master.jobsDone = after.results.dedup.length) : Books start after := by
  have still (node : IbisIdentifier) (other : String) : after.Runs node other ↔ farm.Runs node other ∧ node ≠ origin := by
    rw [Runs, working]
    exact runs_erase
  refine @Books.progressed _ _ _ _ next books member ⟨object, queued, held, fun node => ?_, reported⟩ (fun other apart => ?_)
    distinct (fun node other now => ?_) knows counted
  · rw [still, nodes, stands.runs]
  · obtain ⟨object, queued, held, reported⟩ := others other apart
    refine ⟨object, queued, held, fun node => (still node other).trans (and_iff_left_of_imp ?_), reported⟩
    rintro works rfl
    have same := Option.some.inj (works.symm.trans runs)
    exact apart (congrArg Prod.snd same)
  · obtain ⟨earlier, elsewhere⟩ := (still node other).mp now
    exact live node elsewhere (books.live node other earlier)

/-- The state after a result was booked. -/
def recorded (farm : TailFarm) (received : JobResult) (origin : IbisIdentifier) (finished : TailJob) : TailFarm where
  master := farm.master.bookResult received origin finished
  working := farm.working.erase origin
  results := received.jobID :: farm.results

theorem Stands.not_queued (stands : Stands farm jobID before) (works : origin ∈ before.nodes) :
    jobID ∉ farm.master.tasks := by
  intro waits
  rw [stands.queued.mp waits] at works
  cases works

/-- A result is booked, and counted if it is the first. -/
theorem Books.recorded (books : Books start farm) {received : JobResult} (runs : farm.Runs origin received.jobID)
    (stored : farm.master.jobs.get? received.jobID = some job) : Books start (farm.recorded received origin job) := by
  obtain ⟨member, progress, stands, works, fits⟩ := books.job_of_runs runs stored
  obtain ⟨nodes, holders⟩ := Progress.leaves_report works fits
  have held (cluster other : String) : (farm.recorded received origin job).master.Holds cluster other ↔
      farm.master.Holds cluster other ∧ ¬(cluster = origin.cluster ∧ other = received.jobID) :=
    TailMaster.holds_update_erase fun _ => rfl
  have ended := Progress.reported_report origin progress
  refine @Books.stopped _ _ _ _ _ progress (progress.report origin) books runs member rfl stands nodes
    ⟨_, Table.get?_modify_self stored TailJob.resultIn TailJob.resultIn_jobID, Progress.fits_report works fits⟩
    (iff_of_false (stands.not_queued works) (Progress.report_ne_queued origin progress)) (fun cluster => ?_)
    (iff_of_true (List.mem_cons_self ..) ended) (fun other apart => ⟨?_, .rfl, fun cluster => ?_, ?_⟩) books.distinct
    (fun node _ live => ?_) (fun _ => TailMaster.knows_update) ?_
  · rw [held, holders, stands.held]
    exact and_congr_right fun _ => not_congr (and_iff_left rfl)
  · exact Table.get?_modify_ne _ apart TailJob.resultIn TailJob.resultIn_jobID
  · exact (held cluster other).trans (and_iff_left fun here => apart here.2)
  · exact List.mem_cons.trans (or_iff_right apart)
  · exact live.bookResult received origin job
  · have before := books.counted
    have second := stands.reported.trans (iff_of_eq (congrArg (· = true) (Progress.reported_iff works fits)))
    show farm.master.jobsDone + (if job.replicated && !job.notYetFinished then 0 else 1) =
      (received.jobID :: farm.results).dedup.length
    by_cases here : received.jobID ∈ farm.results
    · rw [List.dedup_cons_of_mem here, if_pos (second.mp here), before, Int.add_zero]
    · rw [List.dedup_cons_of_notMem here, if_neg (fun counted => here (second.mpr counted)), before, List.length_cons]
      rfl

/-- A cluster no longer has the job of a node. -/
theorem Books.dropped (books : Books start farm) (runs : farm.Runs origin jobID) {master : TailMaster}
    (change : TailCluster → TailCluster) (sameAlias : ∀ c, (change c).clusterAlias = c.clusterAlias)
    (erased : ∀ c, (change c).subsetJobs = c.subsetJobs.erase jobID)
    (lives : ∀ c node, node ≠ origin.node → c.Lives node → (change c).Lives node)
    (clusters : master.clusters = (farm.master.update origin.cluster change sameAlias).clusters)
    (jobsDone : master.jobsDone = farm.master.jobsDone) (member : jobID ∈ start.tasks)
    (stands : Stands farm jobID before) (works : origin ∈ before.nodes) (leaves : Progress.Leaves origin before next)
    (reported : next.reported = before.reported)
    (objects : ∀ other, other ≠ jobID → master.jobs.get? other = farm.master.jobs.get? other)
    (object : ∃ job, master.jobs.get? jobID = some job ∧ next.Fits job)
    (queued : ∀ other, other ∈ master.tasks ↔ other ∈ farm.master.tasks ∨ other = jobID ∧ next = .queued)
    (distinct : master.tasks.Nodup) : Books start (farm.lose origin master) := by
  have held (cluster other : String) : master.Holds cluster other ↔
      farm.master.Holds cluster other ∧ ¬(cluster = origin.cluster ∧ other = jobID) := by
    rw [TailMaster.Holds, clusters]
    exact TailMaster.holds_update_erase erased sameAlias
  refine @Books.stopped _ _ _ _ _ before next books runs member rfl stands leaves.nodes object ?_ (fun cluster => ?_)
    (reported ▸ stands.reported) (fun other apart => ⟨objects other apart, ?_, fun cluster => ?_, .rfl⟩) distinct
    (fun node elsewhere live => ?_) (fun cluster => ?_) (jobsDone.trans books.counted)
  · rw [show (farm.lose origin master).master = master from rfl, queued]
    exact (or_iff_right (stands.not_queued works)).trans (and_iff_right rfl)
  · refine (held cluster jobID).trans ?_
    rw [leaves.holders, stands.held]
    exact and_congr_right fun _ => not_congr (and_iff_left rfl)
  · exact (queued other).trans (or_iff_left fun back => apart back.1)
  · exact (held cluster other).trans (and_iff_left fun here => apart here.2)
  · show master.Live node
    rw [TailMaster.Live, clusters]
    refine live.update (fun c here lives' => lives c node.node (fun same => elsewhere ?_) lives') sameAlias
    cases node
    cases origin
    cases here
    cases same
    rfl
  · show master.knows cluster = _
    rw [TailMaster.knows, clusters]
    exact TailMaster.knows_update sameAlias

/-- A job without a replica goes back to the tasks. -/
theorem Books.requeued (books : Books start farm) (runs : farm.Runs origin job.jobID)
    (stored : farm.master.jobs.get? job.jobID = some job) (alone : job.replicated = false)
    (change : TailCluster → TailCluster) (sameAlias : ∀ c, (change c).clusterAlias = c.clusterAlias)
    (erased : ∀ c, (change c).subsetJobs = c.subsetJobs.erase job.jobID)
    (lives : ∀ c node, node ≠ origin.node → c.Lives node → (change c).Lives node) :
    Books start (farm.lose origin
      ({ farm.master with tasks := farm.master.tasks ++ [job.jobID] }.update origin.cluster change sameAlias)) := by
  obtain ⟨member, progress, stands, works, fits⟩ := books.job_of_runs runs stored
  have left := stands.not_queued works
  cases progress with
  | queued | forgotten | finished => cases works
  | doubled => exact absurd (alone.symm.trans fits.2.1) nofun
  | original | replica => exact absurd (alone.symm.trans fits.1) nofun
  | running node =>
    refine books.dropped runs change sameAlias erased lives rfl rfl member stands works (Progress.leaves_lose works fits) rfl
      (fun _ _ => rfl) ⟨job, stored, fits.1⟩ (fun other => ?_) ?_
    · exact List.mem_append.trans (or_congr_right (List.mem_singleton.trans (and_iff_left rfl).symm))
    · exact List.nodup_append.mpr ⟨books.distinct, List.nodup_singleton _, fun waits member other same =>
        fun equal => left (List.mem_singleton.mp same ▸ equal ▸ member)⟩

/-- The original of a job is lost, or what the code takes for it. -/
theorem Books.loseOriginal (books : Books start farm) (runs : farm.Runs origin job.jobID)
    (stored : farm.master.jobs.get? job.jobID = some job) (on : job.isOn origin.node = true) :
    ∃ master, farm.master.loseOriginal origin.cluster job = .ok master ∧ Books start (farm.lose origin master) := by
  by_cases alone : job.replicated = false
  · refine ⟨_, if_pos (by simp [alone]), ?_⟩
    exact books.requeued runs stored alone (fun c => c.drop job.jobID) (fun _ => rfl) (fun _ => rfl) fun _ _ _ lives => lives
  have replicated : job.replicated = true := Bool.eq_true_of_not_eq_false alone
  obtain ⟨member, progress, stands, works, fits⟩ := books.job_of_runs runs stored
  have leaves := Progress.leaves_lose works fits
  have stays (next : Progress) (sent : next ≠ .queued) (other : String) :
      other ∈ farm.master.tasks ↔ other ∈ farm.master.tasks ∨ other = job.jobID ∧ next = .queued :=
    (or_iff_left fun back => sent back.2).symm
  cases progress with
  | queued | forgotten | finished => cases works
  | running => exact absurd fits.1.replicated alone
  | original | replica =>
    refine ⟨_, (if_neg (by simp [replicated])).trans (if_neg (by simp [fits.2.1])), ?_⟩
    exact books.dropped runs (fun c => c.drop job.jobID) (fun _ => rfl) (fun _ => rfl) (fun _ _ _ lives => lives) rfl rfl
      member stands works leaves rfl (fun _ _ => rfl) ⟨job, stored, trivial⟩ (stays .finished (by rintro ⟨⟩)) books.distinct
  | doubled first second =>
    obtain ⟨_, _, awaited, node, replica, startTime, begun⟩ := fits
    have heir : job.originalDied = .ok { job with
        replicated := false, node := some second.node, replicaNodes := .empty, startTime, starttimes := .empty } := by
      simp [TailJob.originalDied, replica, begun]
    have run : farm.master.loseOriginal origin.cluster job = .ok { farm.master.update origin.cluster fun c => c.drop job.jobID with
        jobs := farm.master.jobs.put { job with
          replicated := false, node := some second.node, replicaNodes := .empty, startTime, starttimes := .empty } } := by
      simp [TailMaster.loseOriginal, replicated, awaited, heir, bind, Except.bind, TailMaster.update]
    refine ⟨_, run, ?_⟩
    refine books.dropped runs (fun c => c.drop job.jobID) (fun _ => rfl) (fun _ => rfl) (fun _ _ _ lives => lives) rfl rfl
      member stands works leaves rfl (fun other apart => Table.get?_put_ne _ apart)
      ⟨_, Table.get?_put_self .., ⟨rfl, awaited, rfl, rfl⟩, ?_⟩ (stays _ (by rintro ⟨⟩)) books.distinct
    -- a replica on a node of the same name as the original is taken for the original
    split
    · rfl
    · rename_i there
      obtain rfl : origin = second := by simpa [Progress.nodes, there] using works
      exact (of_decide_eq_true on).symm.trans node

/-- A replica is lost after the original brought the result. -/
theorem Books.forgot (books : Books start farm) (runs : farm.Runs origin job.jobID)
    (stored : farm.master.jobs.get? job.jobID = some job) (elsewhere : job.isOn origin.node = false)
    (ended : job.notYetFinished = false) : Books start (farm.lose origin (farm.master.loseReplica job)) := by
  obtain ⟨member, progress, stands, works, fits⟩ := books.job_of_runs runs stored
  have unchanged : farm.master.loseReplica job = farm.master := if_neg (by simp [ended])
  rw [unchanged]
  have away : job.node ≠ some origin.node := of_decide_eq_false elsewhere
  cases progress with
  | queued | forgotten | finished => cases works
  | running =>
    obtain rfl := List.mem_singleton.mp works
    exact absurd fits.2 away
  | original =>
    obtain rfl := List.mem_singleton.mp works
    exact absurd fits.2.2 away
  | doubled => exact absurd (ended.symm.trans fits.2.2.1) nofun
  | replica node =>
    obtain rfl := List.mem_singleton.mp works
    refine @Books.stopped _ _ _ _ _ _ (.forgotten origin) books runs member rfl stands (fun other => ?_) ⟨job, stored, fits⟩
      (iff_of_false (stands.not_queued works) nofun) stands.held stands.reported (fun _ _ => ⟨rfl, .rfl, fun _ => .rfl, .rfl⟩)
      books.distinct (fun _ _ live => live) (fun _ => rfl) books.counted
    simp [Progress.nodes]

/-- A node that works at nothing is lost. -/
theorem Books.lose_idle (books : Books start farm) (idle : farm.working.get? origin = none) :
    Books start (farm.lose origin farm.master) := by
  have same : farm.working.erase origin = farm.working := Table.erase_absent idle
  rwa [lose, same]

end TailFarm

end ConPaaS
