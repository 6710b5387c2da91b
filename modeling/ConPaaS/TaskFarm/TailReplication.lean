import ConPaaS.TaskFarm.JobConservation
import ConPaaS.TaskFarm.TailEvents

namespace ConPaaS

open Keyed Transition

theorem Progress.holds_for {progress : Progress} {node : IbisIdentifier} (works : node ∈ progress.nodes) :
    node.cluster ∈ progress.holders := by
  cases progress with
  | queued | forgotten | finished => cases works
  | running | original | replica => exact List.mem_singleton.mpr (congrArg IbisIdentifier.cluster (List.mem_singleton.mp works))
  | doubled first second =>
    rcases List.mem_cons.mp works with rfl | last
    · exact List.mem_cons_self ..
    · obtain rfl := List.mem_singleton.mp last
      exact List.mem_cons_of_mem _ (List.mem_singleton.mpr rfl)

/-- A job in the map of a cluster was sent somewhere. -/
theorem Progress.sent_of_held {progress : Progress} {cluster : String} {job : TailJob} (held : cluster ∈ progress.holders)
    (fits : progress.Fits job) : job.node.isSome = true := by
  cases progress with
  | queued | finished => cases held
  | running => simp [fits.2]
  | doubled => simp [fits.2.2.2.1]
  | original => simp [fits.2.2]
  | replica | forgotten => exact fits.2.2

namespace TailMaster

variable {turn : TailTurn} {m : TailMaster}

theorem mem_held {c : TailCluster} {job : TailJob} (member : job ∈ m.held c) :
    job.jobID ∈ c.subsetJobs.rows ∧ m.jobs.get? job.jobID = some job := by
  obtain ⟨jobID, held, stored⟩ := List.mem_filterMap.mp member
  obtain rfl : job.jobID = jobID := Table.get?_key stored
  exact ⟨held, stored⟩

theorem firstJob_find {jobs : List TailJob} (sent : ∀ job ∈ jobs, job.node.isSome = true) (wanted : TailJob → Bool) :
    firstJob wanted jobs = .ok (jobs.find? wanted) := by
  induction jobs with
  | nil => rfl
  | cons job rest ih =>
    obtain ⟨node, at_⟩ := Option.isSome_iff_exists.mp (sent job (List.mem_cons_self ..))
    simp only [firstJob, at_, List.find?_cons]
    cases wanted job with
    | true => rfl
    | false => exact ih fun other inside => sent other (List.mem_cons_of_mem _ inside)

theorem candidatesOf_ok (turn : TailTurn) {workers : Table WorkerStats.node} {jobs : List TailJob}
    (known : ∀ job ∈ jobs, job.replicated = false → (job.node.bind fun node => workers.get? node).isSome = true) :
    ∃ found, candidatesOf turn workers jobs = .ok found ∧ ∀ job ∈ found, job ∈ jobs ∧ job.replicated = false := by
  induction jobs with
  | nil => exact ⟨[], rfl, nofun⟩
  | cons job rest ih =>
    obtain ⟨others, run, chosen⟩ := ih fun other inside => known other (List.mem_cons_of_mem _ inside)
    have later (other : TailJob) (inside : other ∈ others) : other ∈ job :: rest ∧ other.replicated = false :=
      ⟨List.mem_cons_of_mem _ (chosen other inside).1, (chosen other inside).2⟩
    unfold candidatesOf
    split
    · exact ⟨others, run, later⟩
    rename_i alone
    have single : job.replicated = false := Bool.eq_false_of_not_eq_true alone
    obtain ⟨ws, worker⟩ := Option.isSome_iff_exists.mp (known job (List.mem_cons_self ..) single)
    rw [worker, run]
    refine ⟨_, rfl, fun other inside => ?_⟩
    split at inside
    · rcases List.mem_cons.mp inside with rfl | inside
      · exact ⟨List.mem_cons_self .., single⟩
      · exact later other inside
    · exact later other inside

theorem candidates_ok (turn : TailTurn) (own : String) {clusters : List TailCluster}
    (known : ∀ c ∈ clusters, ∀ job ∈ m.held c, job.replicated = false →
      (job.node.bind fun node => c.workers.get? node).isSome = true) :
    ∃ found, m.candidates turn own clusters = .ok found ∧
      ∀ job ∈ found, ∃ c ∈ clusters, c.clusterAlias ≠ own ∧ job ∈ m.held c ∧ job.replicated = false := by
  induction clusters with
  | nil => exact ⟨[], rfl, nofun⟩
  | cons c rest ih =>
    obtain ⟨others, run, chosen⟩ := ih fun other inside => known other (List.mem_cons_of_mem _ inside)
    have later (job : TailJob) (inside : job ∈ others) : ∃ d ∈ c :: rest, d.clusterAlias ≠ own ∧ job ∈ m.held d ∧
        job.replicated = false := by
      obtain ⟨d, member, rest⟩ := chosen job inside
      exact ⟨d, List.mem_cons_of_mem _ member, rest⟩
    unfold candidates
    split
    · exact ⟨others, run, later⟩
    rename_i away
    obtain ⟨here, searched, found⟩ := candidatesOf_ok turn (known c (List.mem_cons_self ..))
    rw [searched, run]
    refine ⟨_, rfl, fun job inside => ?_⟩
    rcases List.mem_append.mp inside with inside | inside
    · exact ⟨c, List.mem_cons_self .., away, found job inside⟩
    · exact later job inside

theorem selectJobToReplicate_mem {candidates : List TailJob} {job : TailJob}
    (chosen : selectJobToReplicate turn candidates = some job) : job ∈ candidates :=
  (List.mem_insertionSort _).mp (List.mem_of_mem_head? chosen)

end TailMaster

namespace TailFarm

variable {start : TailMaster} {farm : TailFarm} {origin : IbisIdentifier} {turn : TailTurn}

/-- A job in the map of a cluster is one of the books. -/
theorem Books.held_job (books : Books start farm) {cluster : String} {c : TailCluster} {job : TailJob}
    (found : farm.master.clusters.get? cluster = some c) (member : job ∈ farm.master.held c) :
    job.jobID ∈ start.tasks ∧
      ∃ progress, Stands farm job.jobID progress ∧ cluster ∈ progress.holders ∧ progress.Fits job := by
  obtain ⟨held, stored⟩ := TailMaster.mem_held member
  obtain ⟨inside, progress, stands, holder⟩ := books.stands_of_held ⟨c, found, held⟩
  obtain ⟨same, stored', fits⟩ := stands.object
  cases stored.symm.trans stored'
  exact ⟨inside, progress, stands, holder, fits⟩

/-- A job in the map of a cluster that has no replica runs in that cluster. -/
theorem Books.held_alone (books : Books start farm) {cluster : String} {c : TailCluster} {job : TailJob}
    (found : farm.master.clusters.get? cluster = some c) (member : job ∈ farm.master.held c)
    (alone : job.replicated = false) :
    job.jobID ∈ start.tasks ∧ ∃ node, Stands farm job.jobID (.running node) ∧ node.cluster = cluster ∧
      job.node = some node.node := by
  obtain ⟨inside, progress, stands, holder, fits⟩ := books.held_job found member
  cases progress with
  | queued | finished => cases holder
  | running node => exact ⟨inside, node, stands, (List.mem_singleton.mp holder).symm, fits.2⟩
  | doubled => exact absurd (alone.symm.trans fits.2.1) nofun
  | original | replica | forgotten => exact absurd (alone.symm.trans fits.1) nofun

/-- The search for a job to replicate meets no entry without its worker. -/
theorem Books.candidates_ok (books : Books start farm) (turn : TailTurn) (own : String) :
    ∃ found, farm.master.candidates turn own farm.master.clusters.rows = .ok found ∧
      ∀ job ∈ found, job.jobID ∈ start.tasks ∧ ∃ node, Stands farm job.jobID (.running node) ∧ node.cluster ≠ own := by
  obtain ⟨found, run, chosen⟩ := TailMaster.candidates_ok turn own fun c member job held alone => by
    obtain ⟨inside, node, stands, here, sent⟩ := books.held_alone (Table.get?_of_mem member) held alone
    obtain ⟨d, located, ws, worker, busy⟩ := books.live node _ ((stands.runs node).mpr (List.mem_singleton.mpr rfl))
    rw [here] at located
    cases (Table.get?_of_mem member).symm.trans located
    simp [sent, worker]
  refine ⟨found, run, fun job inside => ?_⟩
  obtain ⟨c, member, away, held, alone⟩ := chosen job inside
  obtain ⟨known, node, stands, here, sent⟩ := books.held_alone (Table.get?_of_mem member) held alone
  exact ⟨known, node, stands, here ▸ away⟩

/-- A node whose worker is new or let go works at nothing. -/
theorem Books.idle_of_ended (books : Books start farm)
    (ended : (farm.master.worker origin).all WorkerStats.isFinished = true) : farm.working.get? origin = none := by
  cases runs : farm.working.get? origin with
  | none => rfl
  | some entry =>
    obtain ⟨node, jobID⟩ := entry
    obtain rfl : node = origin := Table.get?_key runs
    obtain ⟨c, located, ws, worker, busy⟩ := books.live node jobID runs
    simp [TailMaster.worker, located, worker, WorkerStats.isFinished, busy] at ended

theorem handOut_none (idle : farm.working.get? origin = none) (master : TailMaster) :
    ({ farm with master }.handOut origin none) = { farm with master } := by
  have same : farm.working.erase origin = farm.working := Table.erase_absent idle
  simp [handOut, TailMaster.setNode, same]

theorem Books.released (books : Books start farm) (idle : farm.working.get? origin = none) (turn : TailTurn) :
    Books start ({ farm with master := farm.master.releaseNode turn origin }.handOut origin none) := by
  rw [handOut_none idle]
  refine books.update origin.cluster (fun c => c.releaseNode origin.node turn.releaseTime) (fun _ => rfl)
    fun c node jobID runs here lives => ?_
  exact lives.releaseNode (idle_apart idle runs here) turn.releaseTime

/-- A node that has a worker and works at nothing is answered, from a queue
that is not empty. -/
theorem Books.findNextJob (books : Books start farm) (idle : farm.working.get? origin = none)
    (live : farm.master.Live origin) (waiting : farm.master.tasks ≠ []) (turn : TailTurn) :
    ∃ result nextJob, farm.master.findNextJob turn origin = .ok (result, nextJob) ∧
      Books start ({ farm with master := result }.handOut origin nextJob) := by
  have bound := Nat.mod_lt turn.draw (List.length_pos_iff.mpr waiting)
  have chosen := List.getElem?_eq_getElem bound
  refine ⟨_, _, ?_, books.assign idle live chosen turn⟩
  simp only [TailMaster.findNextJob, chosen]

theorem Books.findNextJobToReplicate (books : Books start farm) (idle : farm.working.get? origin = none)
    (live : farm.master.Live origin) (turn : TailTurn) :
    ∃ result nextJob, farm.master.findNextJobToReplicate turn origin = .ok (result, nextJob) ∧
      Books start ({ farm with master := result }.handOut origin nextJob) := by
  obtain ⟨found, run, running⟩ := books.candidates_ok turn origin.cluster
  simp only [TailMaster.findNextJobToReplicate, run, bind, Except.bind]
  split
  · exact ⟨_, _, rfl, books.released idle turn⟩
  · rename_i job chosen
    obtain ⟨known, node, stands, apart⟩ := running job (TailMaster.selectJobToReplicate_mem chosen)
    exact ⟨_, _, rfl, books.replicate idle live known stands apart turn⟩

theorem Books.releaseOrNext (books : Books start farm) (idle : farm.working.get? origin = none)
    (live : farm.master.Live origin) (turn : TailTurn) :
    ∃ result nextJob, farm.master.releaseOrNext turn origin = .ok (result, nextJob) ∧
      Books start ({ farm with master := result }.handOut origin nextJob) := by
  unfold TailMaster.releaseOrNext
  split
  · exact ⟨_, _, rfl, books.released idle turn⟩
  split
  · exact books.findNextJobToReplicate idle live turn
  · rename_i waiting
    exact books.findNextJob idle live waiting turn

theorem Books.handleJobRequest (books : Books start farm) (known : farm.master.knows origin.cluster = true)
    (ended : (farm.master.worker origin).all WorkerStats.isFinished = true) (turn : TailTurn) :
    (∃ result nextJob, farm.master.handleJobRequest turn origin = .ok (result, nextJob) ∧
        Books start ({ farm with master := result }.handOut origin nextJob)) ∨
      farm.master.handleJobRequest turn origin = .error .illegalArgument ∧ farm.master.tasks = [] := by
  obtain ⟨c, located⟩ := Option.isSome_iff_exists.mp known
  have idle := books.idle_of_ended ended
  have registered : Books start { farm with master := farm.master.register turn origin } :=
    books.update origin.cluster
      (fun c => c.register farm.master.noInitialWorkers farm.master.actualStartTime turn.requestTime origin) (fun _ => rfl)
      fun c node jobID runs here lives => lives.register (idle_apart idle runs here) _ _ _
  have live : (farm.master.register turn origin).Live origin :=
    ⟨_, Table.get?_modify_self located
      fun c => c.register farm.master.noInitialWorkers farm.master.actualStartTime turn.requestTime origin,
      c.register_lives origin _ _ _⟩
  simp only [TailMaster.handleJobRequest, located]
  split
  · left
    refine ⟨_, _, rfl, ?_⟩
    rw [handOut_none idle]
    exact books
  split
  · exact .inl ⟨_, _, rfl, registered.released idle turn⟩
  by_cases waiting : farm.master.tasks = []
  · exact .inr ⟨by simp [TailMaster.findNextJob, TailMaster.register, TailMaster.update, waiting], waiting⟩
  · exact .inl (registered.findNextJob idle live waiting turn)

theorem Books.handleJobResult (books : Books start farm) {received : JobResult} (runs : farm.Runs origin received.jobID)
    (turn : TailTurn) :
    ∃ result nextJob, farm.master.handleJobResult turn received origin = .ok (result, nextJob) ∧
      Books start ({ farm with
        master := result
        results := received.jobID :: farm.results }.handOut origin nextJob) := by
  obtain ⟨_, progress, stands, works⟩ := books.stands_of_runs runs
  obtain ⟨job, stored, _⟩ := stands.object
  obtain ⟨c, located, held⟩ := (stands.held origin.cluster).mpr (Progress.holds_for works)
  obtain ⟨d, located', ws, worker, _⟩ := books.live origin _ runs
  cases located.symm.trans located'
  have got : farm.master.getJob c received = some job := by
    have entry : c.subsetJobs.get? received.jobID = some received.jobID := Table.get?_iff.mpr ⟨held, rfl⟩
    rw [TailMaster.getJob, entry, Option.bind_some, stored]
  have recorded := (books.recorded runs stored).decideWithMovingAverage turn.decision
  have idle : (farm.working.erase origin).get? origin = none := Table.get?_erase_self ..
  have live := ((books.live origin _ runs).bookResult received origin job).decideWithMovingAverage turn.decision
  obtain ⟨result, nextJob, run, after⟩ := recorded.releaseOrNext idle live turn
  refine ⟨result, nextJob, ?_, ?_⟩
  · simp only [TailMaster.handleJobResult, located, got, worker]
    exact run
  · simpa only [handOut, TailFarm.recorded, Table.erase_erase] using after

/-- What a message leads to. -/
theorem Books.reply (books : Books start farm) (rules : farm.byRules turn = true) :
    (∃ replied, farm.reply turn = .ok replied ∧ Books start replied) ∨
      farm.reply turn = .error .illegalArgument ∧ farm.master.tasks = [] := by
  unfold byRules at rules
  rw [Bool.and_eq_true] at rules
  unfold TailFarm.reply
  cases received : turn.message with
  | none => exact .inl ⟨farm, rfl, books⟩
  | some message =>
    cases message with
    | jobRequest origin =>
      simp only [received, Bool.and_eq_true] at rules
      rcases books.handleJobRequest rules.2.1 rules.2.2 turn with ⟨result, nextJob, run, after⟩ | ⟨run, empty⟩
      · left
        simp only [TailMaster.handle, run, bind, Except.bind]
        exact ⟨_, rfl, after⟩
      · right
        simp only [TailMaster.handle, run, bind, Except.bind]
        exact ⟨trivial, empty⟩
    | jobResult result origin =>
      simp only [received, decide_eq_true_eq] at rules
      obtain ⟨master, nextJob, run, after⟩ := books.handleJobResult rules.2 turn
      left
      simp only [TailMaster.handle, run, bind, Except.bind]
      exact ⟨_, rfl, after⟩

theorem Books.sent_held (books : Books start farm) {cluster : String} {c : TailCluster}
    (found : farm.master.clusters.get? cluster = some c) : ∀ job ∈ farm.master.held c, job.node.isSome = true := by
  intro job member
  obtain ⟨_, progress, _, holder, fits⟩ := books.held_job found member
  exact Progress.sent_of_held holder fits

theorem Books.finished (books : Books start farm) (idle : farm.working.get? origin = none) (time : Int) :
    Books start { farm with master := farm.master.update origin.cluster fun c => c.finish origin.node time } :=
  books.update origin.cluster (fun c => c.finish origin.node time) (fun _ => rfl) fun c node jobID runs here lives =>
    lives.withWorker_ne (idle_apart idle runs here) fun ws => ws.workerFinished time

/-- A loss that is noticed is dealt with. -/
theorem Books.handleLostConnection (books : Books start farm) {lost : IbisIdentifier} (noticed : farm.noticed lost = true)
    (time : Int) :
    ∃ master, farm.master.handleLostConnection lost time = .ok master ∧ Books start (farm.lose lost master) := by
  unfold TailFarm.noticed at noticed
  split at noticed
  · cases noticed
  rename_i c ws entry
  obtain ⟨d, located, pair⟩ := Option.bind_eq_some_iff.mp entry
  obtain ⟨ws', worker, same⟩ := Option.map_eq_some_iff.mp pair
  cases same
  simp only [TailMaster.handleLostConnection, located, worker]
  by_cases ended : ws.isFinished = true
  · rw [if_pos ended]
    have idle : farm.working.get? lost = none := by
      refine books.idle_of_ended ?_
      simp [TailMaster.worker, located, worker, ended]
    exact ⟨_, rfl, books.lose_idle idle⟩
  have search := TailMaster.firstJob_find (books.sent_held located) (fun job => job.isOn lost.node || job.isReplicaOn lost)
  rw [Bool.or_eq_true, or_iff_right ended, TailMaster.jobOfLost, search] at noticed
  rw [if_neg ended, TailMaster.jobOfLost, search]
  have gone : (farm.working.erase lost).get? lost = none := Table.get?_erase_self ..
  cases found : (farm.master.held c).find? (fun job => job.isOn lost.node || job.isReplicaOn lost) with
  | none =>
    rw [found] at noticed
    exact ⟨_, rfl, books.lose_idle (of_decide_eq_true noticed)⟩
  | some job =>
    rw [found] at noticed
    simp only [Bool.and_eq_true, decide_eq_true_eq, Bool.or_eq_true, Bool.not_eq_true'] at noticed
    obtain ⟨runs, whole⟩ := noticed
    have stored := (TailMaster.mem_held (List.mem_of_find?_eq_some found)).2
    by_cases on : job.isOn lost.node = true
    · obtain ⟨master, run, after⟩ := books.loseOriginal runs stored on
      refine ⟨_, ?_, after.finished gone time⟩
      simp only [on, if_true, run, bind, Except.bind]
      rfl
    · refine ⟨_, ?_, (books.forgot runs stored (Bool.eq_false_of_not_eq_true on) (whole.resolve_left on)).finished gone time⟩
      simp only [if_neg on, bind, Except.bind]
      rfl

theorem Books.loseConnections {lost : List (IbisIdentifier × Int)} (books : Books start farm)
    (noticed : farm.eachNoticed lost = true) :
    ∃ after, farm.loseConnections lost = .ok after ∧ Books start after := by
  induction lost generalizing farm with
  | nil => exact ⟨farm, rfl, books⟩
  | cons entry rest ih =>
    obtain ⟨lost, time⟩ := entry
    unfold TailFarm.eachNoticed at noticed
    rw [Bool.and_eq_true] at noticed
    obtain ⟨master, run, after⟩ := books.handleLostConnection noticed.1 time
    rw [run] at noticed
    simp only [TailFarm.loseConnections, run, bind, Except.bind]
    exact ih after noticed.2

/-- A reply that could not be sent is taken back. -/
theorem Books.connectionFailed (books : Books start farm) (known : farm.master.knows origin.cluster = true)
    (returned : farm.returned origin = true) (turn : TailTurn) :
    ∃ master, farm.master.connectionFailed turn origin = .ok master ∧ Books start (farm.lose origin master) := by
  obtain ⟨c, located⟩ := Option.isSome_iff_exists.mp known
  have search := TailMaster.firstJob_find (books.sent_held located) (TailJob.isOn origin.node)
  simp only [TailFarm.returned, located, TailMaster.jobOfRefused, search] at returned
  simp only [TailMaster.connectionFailed, located, TailMaster.jobOfRefused, search, bind, Except.bind]
  cases found : (farm.master.held c).find? (TailJob.isOn origin.node) with
  | none =>
    rw [found] at returned
    exact ⟨_, rfl, books.lose_idle (of_decide_eq_true returned)⟩
  | some job =>
    rw [found] at returned
    simp only [Bool.and_eq_true, decide_eq_true_eq, Bool.not_eq_true'] at returned
    obtain ⟨runs, alone⟩ := returned
    have stored := (TailMaster.mem_held (List.mem_of_find?_eq_some found)).2
    obtain ⟨d, located', ws, worker, _⟩ := books.live origin _ runs
    cases located.symm.trans located'
    rw [worker]
    exact ⟨_, rfl, books.requeued runs stored alone (fun c => (c.drop job.jobID).finish origin.node turn.failTime)
      (fun _ => rfl) (fun _ => rfl) fun c node apart lives => lives.withWorker_ne apart fun ws => ws.workerFinished turn.failTime⟩

theorem awaited_ok {m : TailMaster} {connected : List IbisIdentifier} (known : ∀ spi ∈ connected, m.knows spi.cluster = true) :
    ∃ awaited, m.awaited connected = .ok awaited := by
  induction connected with
  | nil => exact ⟨false, rfl⟩
  | cons spi rest ih =>
    obtain ⟨others, run⟩ := ih fun other inside => known other (List.mem_cons_of_mem _ inside)
    obtain ⟨c, located⟩ := Option.isSome_iff_exists.mp (known spi (List.mem_cons_self ..))
    simp only [TailMaster.awaited, located, run, bind, Except.bind]
    exact ⟨_, rfl⟩

theorem Books.checkDone (books : Books start farm) {connected : List IbisIdentifier}
    (known : ∀ spi ∈ connected, farm.master.knows spi.cluster = true) :
    ∃ master, farm.master.checkDone connected = .ok master ∧ Books start { farm with master } := by
  obtain ⟨awaited, run⟩ := awaited_ok known
  have flagged (undone : Bool) : Books start { farm with master := { farm.master with undone } } :=
    books.kept rfl rfl rfl (fun _ _ => .rfl) (fun _ => rfl) fun _ _ _ live => live
  unfold TailMaster.checkDone
  split
  · simp only [run, bind, Except.bind]
    exact ⟨_, rfl, flagged awaited⟩
  · exact ⟨_, rfl, flagged true⟩

theorem Books.settle (books : Books start farm) (turn : TailTurn) :
    Books start { farm with master := settle turn farm.master } := by
  unfold TailFarm.settle
  split
  · exact books.decideWithMovingAverage turn.decision
  · exact books

/-- A message by the rules comes from a cluster of the bag. -/
theorem Books.origin_known (books : Books start farm) (rules : farm.byRules turn = true) {message : Message}
    (received : turn.message = some message) : farm.master.knows message.origin.cluster = true := by
  unfold byRules at rules
  rw [Bool.and_eq_true, received] at rules
  cases message with
  | jobRequest origin => exact (Bool.and_eq_true_iff.mp rules.2).1
  | jobResult result origin =>
    have runs : farm.working.get? origin = some (origin, result.jobID) := of_decide_eq_true rules.2
    obtain ⟨c, located, _⟩ := books.live origin _ runs
    exact Option.isSome_iff_exists.mpr ⟨c, located⟩

theorem Books.conclude (books : Books start farm) (turn : TailTurn)
    (known : ∀ spi ∈ turn.connected, farm.master.knows spi.cluster = true)
    (origins : ∀ origin, refused turn = some origin → farm.master.knows origin.cluster = true)
    (noticed : (match refused turn with
      | some origin => farm.returned origin
      | none => farm.eachNoticed turn.lost) = true) :
    ∃ after, farm.conclude turn = .ok after ∧ Books start after := by
  unfold TailFarm.conclude
  cases back : refused turn with
  | some origin =>
    rw [back] at noticed
    obtain ⟨master, run, after⟩ := books.connectionFailed (origins origin back) noticed turn
    simp only [run, bind, Except.bind]
    exact ⟨_, rfl, after⟩
  | none =>
    rw [back] at noticed
    obtain ⟨lost, run, after⟩ := books.loseConnections noticed
    have still (spi : IbisIdentifier) (member : spi ∈ turn.connected) : lost.master.knows spi.cluster = true := by
      rw [after.knows, ← books.knows]
      exact known spi member
    obtain ⟨master, checked, done⟩ := after.checkDone still
    simp only [run, checked, bind, Except.bind]
    exact ⟨_, rfl, done.settle turn⟩

/-- A turn by the rules whose losses are noticed keeps the books, unless it is
a request that finds the queue empty. -/
theorem Books.next (books : Books start farm) (rules : farm.byRules turn = true) (noticed : farm.lossesNoticed turn = true) :
    (∃ after, farm.next turn = .ok after ∧ Books start after) ∨
      farm.next turn = .error .illegalArgument ∧ farm.master.tasks = [] := by
  unfold TailFarm.next
  rcases books.reply rules with ⟨replied, run, after⟩ | ⟨run, empty⟩
  · left
    rw [lossesNoticed, run] at noticed
    have known (cluster : String) : replied.master.knows cluster = farm.master.knows cluster :=
      (after.knows cluster).trans (books.knows cluster).symm
    have connected : ∀ spi ∈ turn.connected, farm.master.knows spi.cluster = true := by
      unfold byRules at rules
      exact of_decide_eq_true (Bool.and_eq_true_iff.mp rules).1
    have origins (origin : IbisIdentifier) (back : refused turn = some origin) :
        replied.master.knows origin.cluster = true := by
      obtain ⟨message, received, rfl⟩ : ∃ message, turn.message = some message ∧ message.origin = origin := by
        unfold refused at back
        split at back
        · exact Option.map_eq_some_iff.mp back
        · cases back
      rw [known]
      exact books.origin_known rules received
    obtain ⟨result, concluded, done⟩ := after.conclude turn
      (fun spi member => (known spi.cluster).trans (connected spi member)) origins noticed
    simp only [run, concluded, bind, Except.bind]
    exact ⟨_, rfl, done⟩
  · right
    simp only [run, bind, Except.bind]
    exact ⟨trivial, empty⟩

/-- A job is with a live worker: the node works at it, and the master has the
job and the worker. -/
def Assigned (farm : TailFarm) (node : IbisIdentifier) (jobID : String) : Prop :=
  farm.Runs node jobID ∧ farm.master.Holds node.cluster jobID ∧ farm.master.Live node

/-- Each job that has a result is counted once, and no job is lost: it waits,
and then is with no one and has no result, or is with a live worker, or is done. -/
structure Counted (start : TailMaster) (farm : TailFarm) : Prop where
  jobsDone : farm.master.jobsDone = farm.results.dedup.length
  ofBag : ∀ jobID ∈ farm.results, jobID ∈ start.tasks
  placed : ∀ jobID ∈ start.tasks, jobID ∈ farm.master.tasks ∨ (∃ node, farm.Assigned node jobID) ∨ jobID ∈ farm.results
  waiting : ∀ jobID ∈ farm.master.tasks, jobID ∉ farm.results ∧ ∀ node, ¬farm.Runs node jobID
  distinct : farm.master.tasks.Nodup

theorem Books.counted_once (books : Books start farm) : Counted start farm where
  jobsDone := books.counted
  ofBag := by
    intro jobID reported
    by_contra outside
    exact (books.foreign jobID outside).reported reported
  placed := by
    intro jobID member
    obtain ⟨progress, stands⟩ := books.stands jobID member
    have assigned (node : IbisIdentifier) (works : node ∈ progress.nodes) : farm.Assigned node jobID := by
      have runs := (stands.runs node).mpr works
      exact ⟨runs, (stands.held _).mpr (Progress.holds_for works), books.live node jobID runs⟩
    cases progress with
    | queued => exact .inl (stands.queued.mpr rfl)
    | running node => exact .inr (.inl ⟨node, assigned node (List.mem_singleton.mpr rfl)⟩)
    | doubled first second => exact .inr (.inl ⟨first, assigned first (List.mem_cons_self ..)⟩)
    | original | replica | forgotten | finished => exact .inr (.inr (stands.reported.mpr rfl))
  waiting := by
    intro jobID waits
    obtain ⟨_, stands⟩ := books.stands_of_waits waits
    exact ⟨fun reported => absurd (stands.reported.mp reported) nofun,
      fun node runs => List.not_mem_nil ((stands.runs node).mp runs)⟩
  distinct := books.distinct

/-- In every run by the rules in which losses are noticed for what they are,
each job is counted once and none is lost, and no turn fails but a request that
finds the queue empty. -/
theorem replicas_counted_once {turns : List TailTurn} (starts : start.Starts)
    (run : Run (Guarded (fun farm turn => farm.byRules turn = true ∧ farm.lossesNoticed turn = true) Step)
      (TailFarm.start start) turns farm) :
    Counted start farm ∧
      ∀ turn fault, farm.byRules turn = true → farm.lossesNoticed turn = true → farm.master.runOnce turn = .error fault →
        fault = .illegalArgument ∧ farm.master.tasks = [] := by
  have books : Books start farm := by
    refine run.guarded_invariant (starts_books starts) fun {before turn after} kept guard taken => ?_
    rcases kept.next guard.1 guard.2 with ⟨result, ran, done⟩ | ⟨ran, _⟩
    · cases taken.2.symm.trans ran
      exact done
    · cases taken.2.symm.trans ran
  refine ⟨books.counted_once, fun turn fault rules noticed failed => ?_⟩
  rw [← next_master] at failed
  rcases books.next rules noticed with ⟨result, ran, _⟩ | ⟨ran, empty⟩
  · rw [ran] at failed
    cases failed
  · rw [ran] at failed
    cases failed
    exact ⟨rfl, empty⟩

/-- The state after a turn, if it ends without an exception. -/
def advance (farm : TailFarm) (turn : TailTurn) : TailFarm := (farm.next turn).toOption.getD farm

theorem step_advance (goes : farm.master.undone = true) (ends : (farm.next turn).isOk = true) :
    Step farm turn (farm.advance turn) := by
  refine ⟨goes, ?_⟩
  unfold advance
  cases run : farm.next turn with
  | error fault => simp [run, Except.isOk, Except.toBool] at ends
  | ok result => rfl

end TailFarm

/-- A task that was not sent to a node yet. -/
def freshTask (jobID : String) : TailJob := ⟨jobID, none, 0, false, .empty, .empty, true⟩

/-- A master with three tasks that waits for two nodes in each of two clusters. -/
def threeTasks : TailMaster where
  jobs := ⟨[freshTask "0", freshTask "1", freshTask "2"], by decide⟩
  tasks := ["0", "1", "2"]
  clusters := ⟨[⟨"das", ⟨60, 2, Rate.hour_positive, Rate.two_nonneg⟩, 0, 2, 0, 1, .empty, [], 0, 0, 0, 0, .empty⟩,
    ⟨"ec2", ⟨60, 5, Rate.hour_positive, by norm_num⟩, 0, 2, 0, 1, .empty, [], 0, 0, 0, 0, .empty⟩], by decide⟩
  jobsDone := 0
  totalNumberTasks := 3
  noInitialWorkers := 2
  subsetLength := 1
  actualStartTime := 0
  undone := true

theorem threeTasks_starts : threeTasks.Starts where
  distinct := by decide
  objects := by
    intro jobID member
    simp only [threeTasks, List.mem_cons, List.not_mem_nil, or_false] at member
    rcases member with rfl | rfl | rfl <;> exact ⟨_, rfl, rfl, rfl, rfl, rfl⟩
  idle := by
    intro c member
    simp only [threeTasks, List.mem_cons, List.not_mem_nil, or_false] at member
    rcases member with rfl | rfl <;> exact ⟨rfl, rfl⟩
  jobsDone := rfl

/-- A turn in which nothing but a message happens, and a replica pays. -/
def quietTail (time : Int) (message : Message) : TailTurn :=
  { quietTurn time message with estimates := fun _ => ⟨100, 10, 20⟩ }

/-- Three nodes ask for jobs. -/
def toTheTail : List TailTurn :=
  [quietTail 1000 (.jobRequest ⟨"das", "n1"⟩), quietTail 2000 (.jobRequest ⟨"das", "n2"⟩),
    quietTail 3000 (.jobRequest ⟨"ec2", "i1"⟩)]

/-- The third node gets a replica of the second job, whose original is lost,
brings its result, and gets a replica of the first, which comes in twice. -/
def replicatedTurns : List TailTurn :=
  toTheTail ++
    [{ quietTail 4000 (.jobResult ⟨"2", 5⟩ ⟨"ec2", "i1"⟩) with lost := [(⟨"das", "n2"⟩, 4000)] },
      quietTail 5000 (.jobResult ⟨"1", 5⟩ ⟨"ec2", "i1"⟩),
      { quietTail 6000 (.jobResult ⟨"0", 5⟩ ⟨"das", "n1"⟩) with connected := [⟨"ec2", "i1"⟩] },
      quietTail 7000 (.jobResult ⟨"0", 5⟩ ⟨"ec2", "i1"⟩)]

theorem replicatedTurns_counted_once :
    TailFarm.Counted threeTasks (replicatedTurns.foldl TailFarm.advance (TailFarm.start threeTasks)) := by
  have run : Run (Guarded (fun farm turn => farm.byRules turn = true ∧ farm.lossesNoticed turn = true) TailFarm.Step)
      (TailFarm.start threeTasks) replicatedTurns
      (replicatedTurns.foldl TailFarm.advance (TailFarm.start threeTasks)) := by
    refine .next (.next (.next (.next (.next (.next (.next .start ⟨?_, TailFarm.step_advance ?_ ?_⟩)
      ⟨?_, TailFarm.step_advance ?_ ?_⟩) ⟨?_, TailFarm.step_advance ?_ ?_⟩) ⟨?_, TailFarm.step_advance ?_ ?_⟩)
      ⟨?_, TailFarm.step_advance ?_ ?_⟩) ⟨?_, TailFarm.step_advance ?_ ?_⟩) ⟨?_, TailFarm.step_advance ?_ ?_⟩ <;> decide +kernel
  exact (TailFarm.replicas_counted_once threeTasks_starts run).1

/-- The third node gets a replica of the second job and is lost with it. -/
def lostReplicaTurns : List TailTurn :=
  toTheTail ++ [{ quietTail 4000 (.jobResult ⟨"2", 5⟩ ⟨"ec2", "i1"⟩) with lost := [(⟨"ec2", "i1"⟩, 4000)] }]

/-- When the original then comes in, the search for a job to replicate meets the
entry the replica left in its cluster, and asks there for the worker of the original. -/
theorem lostReplica_entry_left :
    threeTasks.Starts ∧
      ∃ farm, Run (Guarded (fun farm turn => farm.byRules turn = true) TailFarm.Step) (TailFarm.start threeTasks)
          lostReplicaTurns farm ∧
        farm.byRules (quietTail 5000 (.jobResult ⟨"1", 5⟩ ⟨"das", "n2"⟩)) = true ∧
        farm.master.runOnce (quietTail 5000 (.jobResult ⟨"1", 5⟩ ⟨"das", "n2"⟩)) = .error .nullPointer := by
  refine ⟨threeTasks_starts, lostReplicaTurns.foldl TailFarm.advance (TailFarm.start threeTasks), ?_, ?_, ?_⟩
  · refine .next (.next (.next (.next .start ⟨?_, TailFarm.step_advance ?_ ?_⟩) ⟨?_, TailFarm.step_advance ?_ ?_⟩)
      ⟨?_, TailFarm.step_advance ?_ ?_⟩) ⟨?_, TailFarm.step_advance ?_ ?_⟩ <;> decide +kernel
  · decide +kernel
  · decide +kernel

end ConPaaS
