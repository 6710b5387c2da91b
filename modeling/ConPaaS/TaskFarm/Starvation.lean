import ConPaaS.TaskFarm.SamplingTurns

namespace ConPaaS

open Keyed Transition

namespace SamplingFarm

variable {start : Sampler} {farm after : SamplingFarm} {origin : IbisIdentifier} {c : SamplingCluster} {jobID : String}

/-- A worker works at a sampling point of its cluster. -/
def atSampling (farm : SamplingFarm) (entry : IbisIdentifier × String) : Bool :=
  (farm.master.clusters.get? entry.1.cluster).any fun c => entry.2 ∈ c.samplingPoints.rows

/-- The number of sampling points that workers work at. -/
def heldSampling (farm : SamplingFarm) : Nat := farm.working.rows.countP farm.atSampling

/-- The sampling points handed out are with workers or have come back. -/
def SubmittedLaw (farm : SamplingFarm) : Prop :=
  farm.master.totalSamplingSubmittedCounter = farm.heldSampling + farm.master.totalSamplingPointsCounter

/-- No sampling point is with a worker, none will be handed out, and there are
not as many as `areWeDone` asks for. -/
structure Starved (farm : SamplingFarm) : Prop where
  outstanding : farm.heldSampling = 0
  exhausted : farm.master.noSampleJobs - farm.master.noReplicatedJobs ≤ farm.master.totalSamplingSubmittedCounter
  incomplete : farm.master.totalSamplingPointsCounter + farm.master.noReplicatedJobs ≠ farm.master.noSampleJobs

/-- A lost worker does not take a sampling point with it. -/
def keepsSampling (farm : SamplingFarm) (lost : IbisIdentifier) : Bool := !(farm.working.get? lost).any farm.atSampling

theorem atSampling_iff : farm.atSampling (origin, jobID) = true ↔
    ∃ c, farm.master.clusters.get? origin.cluster = some c ∧ jobID ∈ c.samplingPoints.rows := by
  simp only [atSampling, Option.any_eq_true, decide_eq_true_eq]

/-- The sampling points with workers are the ones that are not done. -/
theorem Books.heldSampling (books : Books start farm) (starts : start.Starts) :
    farm.heldSampling = farm.master.samplingPoints.countP fun jobID => !farm.master.isDone jobID := by
  have sampled {origin : IbisIdentifier} {jobID : String} (here : farm.atSampling (origin, jobID) = true) :
      jobID ∈ farm.master.samplingPoints := by
    obtain ⟨c, found, inside⟩ := atSampling_iff.mp here
    exact List.mem_flatMap.mpr ⟨c, Table.get?_mem found, inside⟩
  have own {jobID : String} (inside : jobID ∈ farm.master.samplingPoints) : jobID ∉ start.replicatedTasks :=
    books.own starts (List.mem_append_right _ (mem_points_of_sampling inside))
  have perm : ((farm.working.rows.filter farm.atSampling).map Prod.snd).Perm
      (farm.master.samplingPoints.filter fun jobID => !farm.master.isDone jobID) := by
    refine (List.perm_ext_iff_of_nodup ?_ ((books.samplingPoints_nodup starts).filter _)).mpr fun jobID => ?_
    · refine List.Nodup.map_on ?_ (farm.working.rows_nodup.filter _)
      rintro ⟨origin, jobID⟩ member ⟨other, _⟩ memberToo rfl
      obtain ⟨works, here⟩ := List.mem_filter.mp member
      rw [books.holder_unique starts (own (sampled here)) works (List.mem_filter.mp memberToo).1]
    · simp only [List.mem_map, List.mem_filter, Prod.exists, exists_eq_right, Bool.not_eq_true']
      constructor
      · rintro ⟨origin, works, here⟩
        exact ⟨sampled here, (books.held origin jobID works (own (sampled here))).1⟩
      · rintro ⟨inside, undone⟩
        obtain ⟨c, member, noted⟩ := List.mem_flatMap.mp inside
        obtain ⟨node, _, works⟩ := books.outstanding c member jobID (List.mem_append_left _ noted) undone
        exact ⟨_, works, atSampling_iff.mpr ⟨c, Table.get?_of_mem member, noted⟩⟩
  rw [SamplingFarm.heldSampling, List.countP_eq_length_filter, List.countP_eq_length_filter, ← perm.length_eq,
    List.length_map]

/-- Every sampling point that was ever handed out is still one. -/
structure Submitted (farm : SamplingFarm) : Prop where
  counted : farm.master.totalSamplingSubmittedCounter = farm.master.samplingPoints.length
  bounded : farm.master.totalSamplingSubmittedCounter ≤ farm.master.noSampleJobs - farm.master.noReplicatedJobs

/-- Only the counter and the sampling points matter. -/
theorem Submitted.of_eq (submitted : Submitted farm)
    (counter : after.master.totalSamplingSubmittedCounter = farm.master.totalSamplingSubmittedCounter)
    (points : after.master.samplingPoints = farm.master.samplingPoints)
    (numbers : after.master.noSampleJobs = farm.master.noSampleJobs ∧
      after.master.noReplicatedJobs = farm.master.noReplicatedJobs) : Submitted after := by
  refine ⟨?_, ?_⟩
  · rw [counter, points]
    exact submitted.counted
  · rw [counter, numbers.1, numbers.2]
    exact submitted.bounded

theorem samplingPoints_update (m : Sampler) (cluster : String) (change : SamplingCluster → SamplingCluster)
    (same : ∀ c, (change c).clusterAlias = c.clusterAlias)
    (kept : ∀ c, (change c).samplingPoints = c.samplingPoints) :
    (m.update cluster change same).samplingPoints = m.samplingPoints :=
  Table.flatMap_modify_same m.clusters cluster change (fun c => c.samplingPoints.rows) (fun c => by rw [kept]) same

theorem submitted_answered (books : Books start farm) (starts : start.Starts) (submitted : Submitted farm)
    (found : farm.master.clusters.get? origin.cluster = some c) {turn : SamplingTurn} {result : Sampler}
    {nextJob : Option String} (answered : Answered farm.master turn origin c result nextJob) :
    Submitted ({ farm with master := result }.handOut origin nextJob) := by
  cases answered with
  | regression jobID more next =>
    exact submitted.of_eq rfl (samplingPoints_update farm.master origin.cluster (fun c => c.putRegression jobID)
      (fun _ => rfl) fun _ => rfl) ⟨rfl, rfl⟩
  | sampling index jobID full more chosen =>
    have new : jobID ∉ c.samplingPoints.rows := fun inside =>
      books.apart starts (List.mem_of_getElem? chosen) (mem_points found (List.mem_append_left _ inside))
    have points := Table.flatMap_modify found (fun c => c.putSampling jobID) (fun c => c.samplingPoints.rows) [] [jobID]
      (.of_eq (put_points new)) fun _ => rfl
    refine ⟨?_, by exact more⟩
    show farm.master.totalSamplingSubmittedCounter + 1 = _
    rw [submitted.counted]
    exact points.length_eq.symm
  | extra index jobID entry full enough chosen =>
    exact submitted.of_eq rfl (samplingPoints_update farm.master origin.cluster (fun c => c.putExtra jobID)
      (fun _ => rfl) fun _ => rfl) ⟨rfl, rfl⟩
  | goodbye full enough =>
    exact submitted.of_eq rfl (samplingPoints_update farm.master origin.cluster
      (fun c => c.sayGoodbye origin.node turn.releaseTime) (fun _ => rfl) fun _ => rfl) ⟨rfl, rfl⟩

theorem samplingPoints_subset (m : Sampler) (cluster : String) (change : SamplingCluster → SamplingCluster)
    (same : ∀ c, (change c).clusterAlias = c.clusterAlias)
    (fewer : ∀ c, (change c).samplingPoints.rows ⊆ c.samplingPoints.rows) :
    (m.update cluster change same).samplingPoints ⊆ m.samplingPoints := by
  intro jobID member
  obtain ⟨c, changed, inside⟩ := List.mem_flatMap.mp member
  obtain ⟨before, old, rfl⟩ := List.mem_map.mp changed
  refine List.mem_flatMap.mpr ⟨before, old, ?_⟩
  split at inside
  · exact fewer before inside
  · exact inside

theorem finish_samplingPoints (m : Sampler) (cluster node : String) (time : Int) :
    (m.update cluster fun c => c.finish node time).samplingPoints = m.samplingPoints :=
  samplingPoints_update m cluster (fun c => c.finish node time) (fun _ => rfl) fun _ => rfl

/-- A loss may take one sampling point away. -/
theorem samplingPoints_lost_subset (farm : SamplingFarm) (origin : IbisIdentifier) (c : SamplingCluster) (time : Int) :
    (farm.lost origin c time).master.samplingPoints ⊆ farm.master.samplingPoints := by
  simp only [lost, Sampler.loseWorker, finish_samplingPoints]
  unfold Sampler.findFailedJob
  split
  · rename_i jobID _
    exact samplingPoints_subset { farm.master with tasks := farm.master.tasks ++ [jobID] } _ (fun c => c.dropExtra jobID)
      (fun _ => rfl) fun _ => List.Subset.refl _
  split
  · rename_i jobID _
    exact samplingPoints_subset { farm.master with tasks := farm.master.tasks ++ [jobID] } _
      (fun c => c.dropSampling jobID) (fun _ => rfl) fun _ => List.filter_subset_self _
  split
  · rename_i jobID _
    exact samplingPoints_subset farm.master _ (fun c => c.dropRegression jobID) (fun _ => rfl) fun _ => List.Subset.refl _
  · exact List.Subset.refl _

/-- A worker that is not at a sampling point leaves the sampling points alone. -/
theorem samplingPoints_lost (books : Books start farm) (found : farm.master.clusters.get? origin.cluster = some c)
    (keeps : farm.keepsSampling origin = true) (time : Int) :
    (farm.lost origin c time).master.samplingPoints = farm.master.samplingPoints := by
  simp only [lost, Sampler.loseWorker, finish_samplingPoints]
  unfold Sampler.findFailedJob
  split
  · rename_i jobID failed
    exact samplingPoints_update { farm.master with tasks := farm.master.tasks ++ [jobID] } _
      (fun c => c.dropExtra jobID) (fun _ => rfl) fun _ => rfl
  split
  · rename_i jobID failed
    obtain ⟨inside, undone, sent⟩ := Sampler.failedIn_some failed
    have works := books.works_of_failed found (List.mem_append_left _ inside) undone sent
    simp [keepsSampling, Table.get?_of_mem works, atSampling_iff.mpr ⟨c, found, inside⟩] at keeps
  split
  · rename_i jobID failed
    exact samplingPoints_update farm.master _ (fun c => c.dropRegression jobID) (fun _ => rfl) fun _ => rfl
  · rfl

theorem submitted_kept (starts : start.Starts) : Kept start keepsSampling Submitted where
  registered := fun {_ origin _} time _ submitted _ _ => submitted.of_eq rfl
    (samplingPoints_update _ origin.cluster (fun c => c.register origin time) (fun _ => rfl) fun _ => rfl) ⟨rfl, rfl⟩
  recorded := fun {_ received origin _} _ submitted _ _ _ => submitted.of_eq rfl
    (samplingPoints_update _ origin.cluster (fun c => c.bookResult received origin.node) (fun _ => rfl) fun _ => rfl)
    ⟨rfl, rfl⟩
  answered := fun books submitted found _ answered => submitted_answered books starts submitted found answered
  lost := fun {farm origin c} time books submitted found keeps => by
    obtain ⟨_, counter, _, numbers, _⟩ := lost_frame farm origin c time
    exact submitted.of_eq counter (samplingPoints_lost books found keeps time) numbers
  checked := fun submitted checked => by
    rw [Sampler.checkDone_eq checked]
    exact ⟨submitted.counted, submitted.bounded⟩

theorem Submitted.begin (starts : start.Starts) : Submitted (SamplingFarm.start start) := by
  have none : start.samplingPoints = [] := by
    refine List.flatMap_eq_nil_iff.mpr fun c member => ?_
    exact (List.append_eq_nil_iff.mp (starts.idle c member).2.2.1).1
  refine ⟨?_, ?_⟩
  · show start.totalSamplingSubmittedCounter = start.samplingPoints.length
    rw [none, starts.counters.2]
    rfl
  · show start.totalSamplingSubmittedCounter ≤ start.noSampleJobs - start.noReplicatedJobs
    rw [starts.counters.2]
    exact Nat.zero_le _

/-- As long as no worker is lost with a sampling point, whatever else happens,
the counter of the sampling points handed out is right and none is missing. -/
theorem sampling_unstarved {turns : List SamplingTurn} (starts : start.Starts)
    (run : Run (Guarded (fun farm turn => farm.byRules turn = true ∧ farm.spares keepsSampling turn = true) Step)
      (SamplingFarm.start start) turns farm) : farm.SubmittedLaw ∧ ¬farm.Starved := by
  obtain ⟨books, submitted⟩ := (submitted_kept starts).run starts (Books.begin starts) (Submitted.begin starts) run
  have law : farm.SubmittedLaw := by
    rw [SubmittedLaw, submitted.counted, books.heldSampling starts, books.total, Nat.add_comm]
    rw [List.length_eq_countP_add_countP farm.master.isDone]
    simp only [Bool.not_eq_true, Bool.decide_eq_false]
  refine ⟨law, fun starved => ?_⟩
  obtain ⟨outstanding, exhausted, incomplete⟩ := starved
  rw [SubmittedLaw, outstanding, Nat.zero_add] at law
  have bounded := submitted.bounded
  have size := starts.noSampleJobs
  obtain ⟨replicated, samples⟩ := books.numbers
  omega

/-- What a starved phase keeps: it goes on, all its sampling points are done,
and it will not have another. -/
structure Endless (farm : SamplingFarm) : Prop where
  done : ∀ jobID ∈ farm.master.samplingPoints, farm.master.isDone jobID = true
  exhausted : farm.master.noSampleJobs - farm.master.noReplicatedJobs ≤ farm.master.totalSamplingSubmittedCounter
  incomplete : farm.master.totalSamplingPointsCounter + farm.master.noReplicatedJobs ≠ farm.master.noSampleJobs
  undone : farm.master.undone = true

theorem Starved.endless (starved : farm.Starved) (books : Books start farm) (starts : start.Starts)
    (undone : farm.master.undone = true) : farm.Endless := by
  refine ⟨fun jobID member => ?_, starved.exhausted, starved.incomplete, undone⟩
  have none := (books.heldSampling starts).symm.trans starved.outstanding
  simpa using List.countP_eq_zero.mp none jobID member

theorem Endless.starved (endless : farm.Endless) (books : Books start farm) (starts : start.Starts) : farm.Starved := by
  refine ⟨?_, endless.exhausted, endless.incomplete⟩
  rw [books.heldSampling starts]
  exact List.countP_eq_zero.mpr fun jobID member => by simp [endless.done jobID member]

/-- Fewer sampling points and the same counters leave the phase endless. -/
theorem Endless.of_subset (endless : farm.Endless) (points : after.master.samplingPoints ⊆ farm.master.samplingPoints)
    (done : ∀ jobID, farm.master.isDone jobID = true → after.master.isDone jobID = true)
    (submitted : after.master.totalSamplingSubmittedCounter = farm.master.totalSamplingSubmittedCounter)
    (total : after.master.totalSamplingPointsCounter = farm.master.totalSamplingPointsCounter)
    (numbers : after.master.noSampleJobs = farm.master.noSampleJobs ∧
      after.master.noReplicatedJobs = farm.master.noReplicatedJobs)
    (undone : after.master.undone = farm.master.undone) : after.Endless := by
  refine ⟨fun jobID member => done jobID (endless.done jobID (points member)), ?_, ?_, undone.trans endless.undone⟩
  · rw [numbers.1, numbers.2, submitted]
    exact endless.exhausted
  · rw [numbers.1, numbers.2, total]
    exact endless.incomplete

theorem endless_answered (endless : farm.Endless) {turn : SamplingTurn} {result : Sampler} {nextJob : Option String}
    (answered : Answered farm.master turn origin c result nextJob) :
    ({ farm with master := result }.handOut origin nextJob).Endless := by
  have done (m : Sampler) (jobs : m.jobs = farm.master.jobs) (sent : Option String) (jobID : String)
      (before : farm.master.isDone jobID = true) : (m.setNode origin sent).isDone jobID = true := by
    rw [Sampler.isDone_setNode, Sampler.isDone, jobs]
    exact before
  cases answered with
  | regression jobID more next =>
    exact endless.of_subset (samplingPoints_subset farm.master origin.cluster
      (fun c => c.putRegression jobID) (fun _ => rfl) fun _ => List.Subset.refl _)
      (done (farm.master.handOutRegression origin jobID) rfl (some jobID)) rfl rfl ⟨rfl, rfl⟩ rfl
  | sampling index jobID full more chosen => exact absurd more (Nat.not_lt.mpr endless.exhausted)
  | extra index jobID entry full enough chosen =>
    exact endless.of_subset (samplingPoints_subset farm.master origin.cluster
      (fun c => c.putExtra jobID) (fun _ => rfl) fun _ => List.Subset.refl _)
      (done (farm.master.handOutExtra origin index jobID entry) rfl (some jobID)) rfl rfl ⟨rfl, rfl⟩ rfl
  | goodbye full enough =>
    exact endless.of_subset (samplingPoints_subset farm.master origin.cluster
      (fun c => c.sayGoodbye origin.node turn.releaseTime) (fun _ => rfl) fun _ => List.Subset.refl _) (done _ rfl none) rfl rfl
      ⟨rfl, rfl⟩ rfl

/-- A result in a starved phase is not one of a sampling point. -/
theorem endless_recorded (endless : farm.Endless) (books : Books start farm) (starts : start.Starts)
    (found : farm.master.clusters.get? origin.cluster = some c) {received : JobResult}
    (works : (origin, received.jobID) ∈ farm.working.rows) : (farm.recorded received origin c).Endless := by
  have other : c.samples received.jobID ≠ true := fun samples => by
    have inside := (books.samples_iff starts works found).mp samples
    have own := books.own starts (List.mem_append_right _ (mem_points_of_sampling inside))
    have undone := (books.held origin _ works own).1
    rw [endless.done _ inside] at undone
    cases undone
  refine endless.of_subset (samplingPoints_subset _ origin.cluster
    (fun c => c.bookResult received origin.node) (fun _ => rfl) fun _ => List.Subset.refl _) (fun jobID before => ?_) rfl ?_ ⟨rfl, rfl⟩ rfl
  · obtain ⟨job, stored, done⟩ := (Option.any_eq_true _ _).mp before
    refine (Option.any_eq_true _ _).mpr ⟨_, Table.get?_modify_of stored (BagJob.record origin.cluster received)
      fun _ => rfl, ?_⟩
    split
    · rfl
    · exact done
  · show farm.master.totalSamplingPointsCounter + _ = _
    rw [if_neg other, Nat.add_zero]

theorem endless_kept (starts : start.Starts) : Kept start (fun _ _ => true) Endless where
  registered := fun {_ origin _} time _ endless _ _ => endless.of_subset
    (samplingPoints_subset _ origin.cluster (fun c => c.register origin time) (fun _ => rfl) fun _ => List.Subset.refl _)
    (fun _ => id) rfl rfl ⟨rfl, rfl⟩ rfl
  recorded := fun books endless found works _ => endless_recorded endless books starts found works
  answered := fun _ endless _ _ answered => endless_answered endless answered
  lost := fun {farm origin c} time _ endless _ _ => by
    obtain ⟨jobs, submitted, total, numbers, undone⟩ := lost_frame farm origin c time
    refine endless.of_subset (samplingPoints_lost_subset farm origin c time) (fun jobID done => ?_) submitted total numbers
      undone
    rwa [Sampler.isDone, jobs]
  checked := fun {farm connected master} endless checked => by
    rcases Sampler.checkDone_cases checked with rfl | ⟨_, complete, _⟩
    · exact ⟨endless.done, endless.exhausted, endless.incomplete, rfl⟩
    · exact absurd complete endless.incomplete

/-- A starved phase stays starved and does not end, whatever requests, results
and losses come. -/
theorem starved_endless {turns later : List SamplingTurn} {after : SamplingFarm} (starts : start.Starts)
    (run : Run (Guarded (fun farm turn => farm.byRules turn = true) Step) (SamplingFarm.start start) turns farm)
    (starved : farm.Starved) (goes : farm.master.undone = true)
    (rest : Run (Guarded (fun farm turn => farm.byRules turn = true) Step) farm later after) :
    after.Starved ∧ after.master.undone = true := by
  have always : Kept start (fun _ _ => true) fun _ => True :=
    ⟨⟨fun _ _ _ _ _ => trivial, fun _ _ _ _ _ => trivial, fun _ _ _ _ _ => trivial, fun _ _ _ _ _ => trivial⟩,
      fun _ _ => trivial⟩
  have books := (always.run_all starts (Books.begin starts) trivial run).1
  obtain ⟨booksAfter, endless⟩ := (endless_kept starts).run_all starts books (starved.endless books starts goes) rest
  exact ⟨endless.starved booksAfter starts, endless.undone⟩

end SamplingFarm

/-- The only worker runs the replicated job and samples one more. -/
def samplingTurns : List SamplingTurn :=
  [quietSampling 1000 (some (.jobRequest ⟨"das", "n1"⟩)),
    quietSampling 4000 (some (.jobResult ⟨"0", 3000000000⟩ ⟨"das", "n1"⟩))]

/-- Then it is lost. -/
def starvingTurns : List SamplingTurn := samplingTurns ++ [{ quietSampling 5000 none with lost := [(⟨"das", "n1"⟩, 5000)] }]

open SamplingFarm in
theorem fourNaps_unstarved : ∃ farm, Run (Guarded (fun farm turn => farm.byRules turn = true ∧
      farm.spares keepsSampling turn = true) Step) (SamplingFarm.start fourNaps) samplingTurns farm ∧
    farm.heldSampling = 1 ∧ farm.SubmittedLaw ∧ ¬farm.Starved := by
  have played : ∃ farm, play (take fun farm turn => farm.byRules turn && farm.spares keepsSampling turn)
      (SamplingFarm.start fourNaps) samplingTurns = some farm ∧ farm.heldSampling = 1 := ⟨_, rfl, by decide⟩
  obtain ⟨farm, played, held⟩ := played
  have run := run_spared played
  exact ⟨farm, run, held, sampling_unstarved fourNaps_starts run⟩

open SamplingFarm in
theorem starvingTurns_starved : ∃ farm, Run (Guarded (fun farm turn => farm.byRules turn = true) Step)
      (SamplingFarm.start fourNaps) starvingTurns farm ∧
    ¬farm.SubmittedLaw ∧ farm.Starved ∧ farm.working.rows = [] ∧ farm.master.undone = true := by
  have played : ∃ farm, play (take byRules) (SamplingFarm.start fourNaps) starvingTurns = some farm ∧
      farm.heldSampling = 0 ∧ farm.master.totalSamplingSubmittedCounter = 1 ∧
      farm.master.totalSamplingPointsCounter = 0 ∧ farm.master.noSampleJobs = 2 ∧ farm.master.noReplicatedJobs = 1 ∧
      farm.working.rows = [] ∧ farm.master.undone = true := ⟨_, rfl, by decide⟩
  obtain ⟨farm, played, held, submitted, total, samples, replicated, working, undone⟩ := played
  refine ⟨farm, run_of_play played, ?_, ⟨held, ?_, ?_⟩, working, undone⟩
  · rw [SubmittedLaw, held, submitted, total]
    decide
  · omega
  · omega

end ConPaaS
