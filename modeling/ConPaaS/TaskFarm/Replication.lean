import ConPaaS.TaskFarm.SamplingTurns

namespace ConPaaS

open Keyed Transition

/-- A run time of a job on a cluster is kept. -/
def Sampler.ran (m : Sampler) (cluster jobID : String) : Bool :=
  (m.jobs.get? jobID).any fun job => job.runtimes.any fun entry => entry.1 = cluster

/-- The replicated job `findFailedJob` takes out of its cluster. -/
def Sampler.failedReplicated (m : Sampler) (c : SamplingCluster) (node : String) : Option String :=
  match m.failedIn c.extraPoints node, m.failedIn c.samplingPoints node with
  | none, none => m.failedIn c.regressionPoints node
  | _, _ => none

theorem Sampler.ran_setNode (m : Sampler) (origin : IbisIdentifier) (nextJob : Option String) (cluster jobID : String) :
    (m.setNode origin nextJob).ran cluster jobID = m.ran cluster jobID := by
  cases nextJob with
  | none => rfl
  | some sent =>
    simp only [ran, setNode]
    by_cases here : jobID = sent
    · rw [here, Table.get?_modify _ _ (BagJob.setNode origin.node) (fun _ => rfl), Option.any_map]
      rfl
    · rw [Table.get?_modify_ne _ here (BagJob.setNode origin.node) (fun _ => rfl)]

/-- A result does not make the run time on any cluster forgotten. -/
theorem Sampler.ran_recordResult {m : Sampler} {cluster jobID : String} (ran : m.ran cluster jobID = true)
    (received : JobResult) (origin : IbisIdentifier) (c : SamplingCluster) :
    (m.recordResult received origin c).ran cluster jobID = true := by
  obtain ⟨job, stored, kept⟩ := (Option.any_eq_true _ _).mp ran
  refine (Option.any_eq_true _ _).mpr
    ⟨_, Table.get?_modify_of stored (BagJob.record origin.cluster received) fun _ => rfl, ?_⟩
  split
  · obtain ⟨entry, member, owned⟩ := List.any_eq_true.mp kept
    by_cases here : cluster = origin.cluster
    · simp [BagJob.record, here]
    · refine List.any_eq_true.mpr ⟨entry, List.mem_cons_of_mem _ (List.mem_filter.mpr ⟨member, ?_⟩), owned⟩
      simpa [of_decide_eq_true owned] using here
  · exact kept

theorem Sampler.ran_recorded {m : Sampler} {received : JobResult} (object : ∃ job, m.jobs.get? received.jobID = some job)
    (origin : IbisIdentifier) (c : SamplingCluster) :
    (m.recordResult received origin c).ran origin.cluster received.jobID = true := by
  obtain ⟨job, stored⟩ := object
  refine (Option.any_eq_true _ _).mpr
    ⟨_, Table.get?_modify_self stored (BagJob.record origin.cluster received) fun _ => rfl, ?_⟩
  simp [BagJob.record]

namespace SamplingFarm

variable {start : Sampler} {farm after : SamplingFarm} {origin : IbisIdentifier} {c : SamplingCluster} {jobID : String}
  {turn : SamplingTurn}

/-- The replicated jobs go to every cluster in their order, each to one worker
at a time, and come back once. -/
structure Replication (start : Sampler) (farm : SamplingFarm) : Prop where
  handedOut : ∀ c ∈ farm.master.clusters.rows,
    c.regressionPoints.rows.Perm (start.replicatedTasks.take c.regressionPoints.rows.length)
  counted : ∀ c ∈ farm.master.clusters.rows,
    c.replicatedTasksCounter = c.regressionPoints.rows.countP fun jobID => (c.clusterAlias, jobID) ∈ farm.results
  once : ∀ cluster, ∀ jobID ∈ start.replicatedTasks, farm.results.count (cluster, jobID) ≤ 1
  returned : ∀ c ∈ farm.master.clusters.rows, ∀ jobID ∈ start.replicatedTasks, (c.clusterAlias, jobID) ∈ farm.results →
    jobID ∈ c.regressionPoints.rows ∧ farm.master.isDone jobID = true ∧ farm.master.ran c.clusterAlias jobID = true
  running : ∀ origin jobID, (origin, jobID) ∈ farm.working.rows → jobID ∈ start.replicatedTasks →
    (origin.cluster, jobID) ∉ farm.results ∧
      ∀ c ∈ farm.master.clusters.rows, c.clusterAlias = origin.cluster → jobID ∈ c.regressionPoints.rows
  alone : ∀ origin other jobID, (origin, jobID) ∈ farm.working.rows → (other, jobID) ∈ farm.working.rows →
    jobID ∈ start.replicatedTasks → other.cluster = origin.cluster → other = origin

theorem Replication.begin (starts : start.Starts) : Replication start (SamplingFarm.start start) := by
  refine ⟨fun c member => ?_, fun c member => ?_, fun _ _ _ => Nat.zero_le _, ?_, ?_, ?_⟩
  · rw [(starts.idle c member).2.1]
    exact .nil
  · rw [(starts.idle c member).2.1, (starts.idle c member).2.2.2]
    rfl
  · intro _ _ _ _ none
    cases none
  · intro _ _ works
    cases works
  · intro _ _ _ works
    cases works

/-- What leaves the regression points of all clusters alone keeps the
replication, if no worker gets a replicated job. -/
theorem Replication.frame (replication : Replication start farm) {cluster : String}
    (change : SamplingCluster → SamplingCluster) (same : ∀ c, (change c).clusterAlias = c.clusterAlias)
    (regression : ∀ c, (change c).regressionPoints = c.regressionPoints)
    (counter : ∀ c, (change c).replicatedTasksCounter = c.replicatedTasksCounter)
    (clusters : after.master.clusters = farm.master.clusters.modify cluster change same)
    (results : after.results = farm.results)
    (working : ∀ origin jobID, (origin, jobID) ∈ after.working.rows → jobID ∈ start.replicatedTasks →
      (origin, jobID) ∈ farm.working.rows)
    (done : ∀ jobID, farm.master.isDone jobID = true → after.master.isDone jobID = true)
    (ran : ∀ cluster jobID, farm.master.ran cluster jobID = true → after.master.ran cluster jobID = true) :
    Replication start after := by
  constructor
  case handedOut =>
    rw [clusters]
    refine Table.forall_modify same (fun c member _ => ?_) fun c member _ => replication.handedOut c member
    rw [regression]
    exact replication.handedOut c member
  case counted =>
    rw [clusters, results]
    refine Table.forall_modify same (fun c member _ => ?_) fun c member _ => replication.counted c member
    rw [regression, counter, same]
    exact replication.counted c member
  case once =>
    rw [results]
    exact replication.once
  case returned =>
    rw [clusters, results]
    refine Table.forall_modify same (fun c member _ jobID replicated back => ?_) fun c member _ jobID replicated back => ?_
    · rw [regression, same] at *
      obtain ⟨noted, finished, recorded⟩ := replication.returned c member jobID replicated back
      exact ⟨noted, done jobID finished, ran _ jobID recorded⟩
    · obtain ⟨noted, finished, recorded⟩ := replication.returned c member jobID replicated back
      exact ⟨noted, done jobID finished, ran _ jobID recorded⟩
  case running =>
    intro origin jobID works replicated
    obtain ⟨out, noted⟩ := replication.running origin jobID (working origin jobID works replicated) replicated
    refine ⟨by rwa [results], ?_⟩
    rw [clusters]
    refine Table.forall_modify same (fun c member _ here => ?_) fun c member _ here => noted c member here
    rw [regression]
    exact noted c member ((same c).symm.trans here)
  case alone =>
    intro origin other jobID works worksToo replicated
    exact replication.alone origin other jobID (working origin jobID works replicated)
      (working other jobID worksToo replicated) replicated

/-- The results of a cluster with one more. -/
theorem count_results (results : List (String × String)) (cluster jobID other otherID : String) :
    (results ++ [(cluster, jobID)]).count (other, otherID) =
      results.count (other, otherID) + if cluster = other ∧ jobID = otherID then 1 else 0 := by
  rw [List.count_append, List.count_singleton]
  simp only [beq_iff_eq, Prod.mk.injEq]

theorem mem_results {results : List (String × String)} {cluster jobID other otherID : String} :
    (other, otherID) ∈ results ++ [(cluster, jobID)] ↔ (other, otherID) ∈ results ∨ other = cluster ∧ otherID = jobID := by
  rw [List.mem_append, List.mem_singleton, Prod.mk.injEq]

/-- A result of a replicated job is the first of its cluster. -/
theorem Replication.recorded (replication : Replication start farm) (books : Books start farm)
    (found : farm.master.clusters.get? origin.cluster = some c) {received : JobResult}
    (works : (origin, received.jobID) ∈ farm.working.rows) :
    Replication start (farm.recorded received origin c) := by
  have named (d : SamplingCluster) : (d.bookResult received origin.node).clusterAlias = d.clusterAlias := rfl
  have stored := Table.get?_mem found
  have noted (replicated : received.jobID ∈ start.replicatedTasks) : received.jobID ∈ c.regressionPoints.rows :=
    (replication.running origin received.jobID works replicated).2 c stored (Table.get?_key found)
  have done (jobID : String) (before : farm.master.isDone jobID = true) :
      (farm.recorded received origin c).master.isDone jobID = true := by
    obtain ⟨job, found, done⟩ := (Option.any_eq_true _ _).mp before
    refine (Option.any_eq_true _ _).mpr ⟨_, Table.get?_modify_of found (BagJob.record origin.cluster received)
      fun _ => rfl, ?_⟩
    split
    · rfl
    · exact done
  constructor
  case handedOut =>
    exact Table.forall_modify named (fun d member _ => replication.handedOut d member)
      fun d member _ => replication.handedOut d member
  case counted =>
    refine Table.forall_modify named (fun d member here => ?_) fun d member there => ?_
    · have one : d = c := farm.master.clusters.unique member stored (here.trans (Table.get?_key found).symm)
      subst one
      have counts := countP_insert (l := d.regressionPoints.rows) (p := fun jobID => (d.clusterAlias, jobID) ∈ farm.results)
        (a := received.jobID) fun noted => by
          rw [here]
          simpa using (replication.running origin received.jobID works (books.replicated d member _ noted)).1
      rw [d.regressionPoints.rows_nodup.count, ← replication.counted d member] at counts
      refine counts.symm.trans (List.countP_congr fun jobID _ => ?_)
      show _ ↔ decide ((d.clusterAlias, jobID) ∈ farm.results ++ [(origin.cluster, received.jobID)]) = true
      rw [decide_eq_true_eq, mem_results, Bool.or_eq_true, beq_iff_eq, decide_eq_true_eq]
      simp only [here, true_and, or_comm]
    · refine (replication.counted d member).trans (List.countP_congr fun jobID _ => ?_)
      show _ ↔ decide ((d.clusterAlias, jobID) ∈ farm.results ++ [(origin.cluster, received.jobID)]) = true
      simp only [decide_eq_true_eq, mem_results, there, false_and, or_false]
  case once =>
    intro cluster jobID replicated
    show (farm.results ++ [(origin.cluster, received.jobID)]).count (cluster, jobID) ≤ 1
    rw [count_results]
    split
    · rename_i same
      have absent := (replication.running origin received.jobID works (same.2 ▸ replicated)).1
      rw [← same.1, ← same.2, List.count_eq_zero_of_not_mem absent]
    · exact replication.once cluster jobID replicated
  case returned =>
    have earlier (d : SamplingCluster) (member : d ∈ farm.master.clusters.rows) (jobID : String)
        (replicated : jobID ∈ start.replicatedTasks) (back : (d.clusterAlias, jobID) ∈ farm.results) :
        jobID ∈ d.regressionPoints.rows ∧ (farm.recorded received origin c).master.isDone jobID = true ∧
          (farm.recorded received origin c).master.ran d.clusterAlias jobID = true := by
      obtain ⟨noted, finished, ran⟩ := replication.returned d member jobID replicated back
      exact ⟨noted, done jobID finished, Sampler.ran_recordResult ran received origin c⟩
    refine Table.forall_modify named (fun d member here jobID replicated back => ?_)
      fun d member there jobID replicated back => ?_
    · have one : d = c := farm.master.clusters.unique member stored (here.trans (Table.get?_key found).symm)
      rcases mem_results.mp back with before | ⟨_, same⟩
      · exact earlier d member jobID replicated before
      · subst same
        have object := books.objects received.jobID (List.mem_append_left _ replicated)
        refine ⟨?_, (Sampler.isDone_recordResult object _).trans (by simp), ?_⟩
        · rw [one]
          exact noted replicated
        · rw [named, here]
          exact Sampler.ran_recorded object origin c
    · rcases mem_results.mp back with before | ⟨here, _⟩
      · exact earlier d member jobID replicated before
      · exact absurd here there
  case running =>
    intro node jobID before replicated
    obtain ⟨worksToo, elsewhere⟩ := Table.mem_erase.mp before
    obtain ⟨out, noted⟩ := replication.running node jobID worksToo replicated
    refine ⟨fun back => ?_, ?_⟩
    · rcases mem_results.mp back with earlier | ⟨cluster, same⟩
      · exact out earlier
      · subst same
        exact elsewhere (replication.alone origin node received.jobID works worksToo replicated cluster)
    · exact Table.forall_modify named (fun d member _ => noted d member) fun d member _ => noted d member
  case alone =>
    intro node other jobID first second
    exact replication.alone node other jobID (Table.mem_erase.mp first).1 (Table.mem_erase.mp second).1

/-- The next replicated job goes to a cluster. -/
theorem Replication.handOutNext (replication : Replication start farm) (starts : start.Starts)
    (found : farm.master.clusters.get? origin.cluster = some c)
    (next : start.replicatedTasks[c.regressionPoints.rows.length]? = some jobID) :
    Replication start ({ farm with master := farm.master.handOutRegression origin jobID }.handOut origin (some jobID)) := by
  have stored := Table.get?_mem found
  have replicated : jobID ∈ start.replicatedTasks := List.mem_of_getElem? next
  have order := replication.handedOut c stored
  obtain ⟨bound, value⟩ := List.getElem?_eq_some_iff.mp next
  have more : start.replicatedTasks.take (c.regressionPoints.rows.length + 1) =
      start.replicatedTasks.take c.regressionPoints.rows.length ++ [jobID] := by
    rw [← value, List.take_append_getElem]
  have new : jobID ∉ c.regressionPoints.rows := fun noted => by
    have distinct := (List.nodup_append.mp starts.distinct).1.sublist
      (List.take_sublist (c.regressionPoints.rows.length + 1) start.replicatedTasks)
    rw [more] at distinct
    exact (List.nodup_append.mp distinct).2.2 jobID (order.mem_iff.mp noted) jobID (List.mem_singleton_self _) rfl
  have named (d : SamplingCluster) : (d.putRegression jobID).clusterAlias = d.clusterAlias := rfl
  have unreturned : (c.clusterAlias, jobID) ∉ farm.results := fun back =>
    new (replication.returned c stored jobID replicated back).1
  have only (d : SamplingCluster) (member : d ∈ farm.master.clusters.rows) (here : d.clusterAlias = origin.cluster) :
      d = c := farm.master.clusters.unique member stored (here.trans (Table.get?_key found).symm)
  have grown : (c.regressionPoints.put jobID).rows = jobID :: c.regressionPoints.rows := put_points new
  have kept (d : SamplingCluster) (member : d ∈ farm.master.clusters.rows) (other : String)
      (replicated : other ∈ start.replicatedTasks) (back : (d.clusterAlias, other) ∈ farm.results) :
      other ∈ d.regressionPoints.rows ∧
        (farm.master.setNode origin (some jobID)).isDone other = true ∧
        (farm.master.setNode origin (some jobID)).ran d.clusterAlias other = true := by
    rw [Sampler.isDone_setNode, Sampler.ran_setNode]
    exact replication.returned d member other replicated back
  constructor
  case handedOut =>
    refine Table.forall_modify named (fun d member here => ?_) fun d member _ => replication.handedOut d member
    have one := only d member here
    subst one
    show ((d.regressionPoints.put jobID).rows).Perm (start.replicatedTasks.take (d.regressionPoints.put jobID).rows.length)
    rw [grown, List.length_cons, more]
    exact (order.cons jobID).trans (List.perm_append_singleton _ _).symm
  case counted =>
    refine Table.forall_modify named (fun d member here => ?_) fun d member _ => replication.counted d member
    have one := only d member here
    subst one
    show d.replicatedTasksCounter = (d.regressionPoints.put jobID).rows.countP fun other =>
      (d.clusterAlias, other) ∈ farm.results
    rw [grown, List.countP_cons_of_neg (by simpa using unreturned)]
    exact replication.counted d member
  case once => exact replication.once
  case returned =>
    refine Table.forall_modify named (fun d member here other replicated back => ?_) fun d member _ => kept d member
    obtain ⟨noted, finished, ran⟩ := kept d member other replicated back
    have one := only d member here
    subst one
    refine ⟨?_, finished, ran⟩
    show other ∈ (d.regressionPoints.put jobID).rows
    rw [grown]
    exact List.mem_cons_of_mem _ noted
  case running =>
    intro node other works ours
    have noted : (node.cluster, other) ∉ farm.results ∧ ∀ d ∈ farm.master.clusters.rows, d.clusterAlias = node.cluster →
        other ∈ (d.putRegression jobID).regressionPoints.rows ∧ (node ≠ origin → other ∈ d.regressionPoints.rows) := by
      rcases Table.mem_put.mp works with entry | ⟨before, elsewhere⟩
      · cases entry
        refine ⟨(Table.get?_key found) ▸ unreturned, fun d member here => ⟨?_, fun apart => absurd rfl apart⟩⟩
        rw [only d member here]
        show jobID ∈ (c.regressionPoints.put jobID).rows
        rw [grown]
        exact List.mem_cons_self ..
      · obtain ⟨out, noted⟩ := replication.running node other (Table.mem_erase.mp before).1 ours
        refine ⟨out, fun d member here => ⟨?_, fun _ => noted d member here⟩⟩
        by_cases equal : other = jobID
        · rw [equal]
          exact Table.mem_put.mpr (Or.inl rfl)
        · exact Table.mem_put.mpr (Or.inr ⟨noted d member here, equal⟩)
    refine ⟨noted.1, Table.forall_modify named (fun d member _ here => (noted.2 d member here).1)
      fun d member there here => (noted.2 d member here).2 fun same => there ?_⟩
    rw [here, same]
  case alone =>
    intro node other id first second ours together
    have free {node : IbisIdentifier} (works : (node, jobID) ∈ farm.working.rows) (here : node.cluster = origin.cluster) :
        False := by
      have noted := (replication.running node jobID works replicated).2 c stored ((Table.get?_key found).trans here.symm)
      exact new noted
    rcases Table.mem_put.mp first with entry | ⟨before, _⟩
    · cases entry
      rcases Table.mem_put.mp second with entry' | ⟨before', _⟩
      · cases entry'
        rfl
      · exact (free (Table.mem_erase.mp before').1 together).elim
    · rcases Table.mem_put.mp second with entry' | ⟨before', _⟩
      · cases entry'
        exact (free (Table.mem_erase.mp before).1 together.symm).elim
      · exact replication.alone node other id (Table.mem_erase.mp before).1 (Table.mem_erase.mp before').1 ours together

/-- A worker that is sent another job works at no replicated one. -/
theorem working_handOut (own : jobID ∉ start.replicatedTasks) (node : IbisIdentifier) (other : String)
    (works : (node, other) ∈ (farm.handOut origin (some jobID)).working.rows) (replicated : other ∈ start.replicatedTasks) :
    (node, other) ∈ farm.working.rows := by
  rcases Table.mem_put.mp works with entry | ⟨before, _⟩
  · cases entry
    exact absurd replicated own
  · exact (Table.mem_erase.mp before).1

theorem Replication.answered (replication : Replication start farm) (books : Books start farm) (starts : start.Starts)
    (found : farm.master.clusters.get? origin.cluster = some c) {result : Sampler} {nextJob : Option String}
    (answered : Answered farm.master turn origin c result nextJob) :
    Replication start ({ farm with master := result }.handOut origin nextJob) := by
  have own {index : Nat} {jobID : String} (chosen : farm.master.tasks[index]? = some jobID) :
      jobID ∉ start.replicatedTasks := books.own starts (List.mem_append_left _ (List.mem_of_getElem? chosen))
  have done (m : Sampler) (jobs : m.jobs = farm.master.jobs) (sent : Option String) (jobID : String)
      (before : farm.master.isDone jobID = true) : (m.setNode origin sent).isDone jobID = true := by
    rw [Sampler.isDone_setNode, Sampler.isDone, jobs]
    exact before
  have ran (m : Sampler) (jobs : m.jobs = farm.master.jobs) (sent : Option String) (cluster jobID : String)
      (before : farm.master.ran cluster jobID = true) : (m.setNode origin sent).ran cluster jobID = true := by
    rw [Sampler.ran_setNode, Sampler.ran, jobs]
    exact before
  cases answered with
  | regression jobID more next =>
    rw [books.replicatedTasks] at next
    exact replication.handOutNext starts found next
  | sampling index jobID full more chosen =>
    exact replication.frame (fun c => c.putSampling jobID) (fun _ => rfl) (fun _ => rfl) (fun _ => rfl) rfl rfl
      (working_handOut (own chosen)) (done (farm.master.handOutSampling origin index jobID) rfl (some jobID))
      (ran (farm.master.handOutSampling origin index jobID) rfl (some jobID))
  | extra index jobID entry full enough chosen =>
    exact replication.frame (fun c => c.putExtra jobID) (fun _ => rfl) (fun _ => rfl) (fun _ => rfl) rfl rfl
      (working_handOut (own chosen)) (done (farm.master.handOutExtra origin index jobID entry) rfl (some jobID))
      (ran (farm.master.handOutExtra origin index jobID entry) rfl (some jobID))
  | goodbye full enough =>
    exact replication.frame (fun c => c.sayGoodbye origin.node turn.releaseTime) (fun _ => rfl) (fun _ => rfl)
      (fun _ => rfl) rfl rfl (fun _ _ works _ => (Table.mem_erase.mp works).1) (fun _ => id) (fun _ _ => id)

/-- A replicated job that is taken out of a cluster is the one its lost worker
works at and the one the cluster was given last. -/
def latestLost (farm : SamplingFarm) (lost : IbisIdentifier) : Bool :=
  (farm.master.clusters.get? lost.cluster).all fun c =>
    (farm.master.failedReplicated c lost.node).all fun jobID =>
      farm.working.get? lost = some (lost, jobID) ∧
        farm.master.replicatedTasks[c.regressionPoints.rows.length - 1]? = some jobID

/-- The job that was given last can be taken out and given again. -/
theorem Replication.dropLast (replication : Replication start farm)
    (found : farm.master.clusters.get? origin.cluster = some c) (works : (origin, jobID) ∈ farm.working.rows)
    (noted : jobID ∈ c.regressionPoints.rows)
    (latest : start.replicatedTasks[c.regressionPoints.rows.length - 1]? = some jobID) :
    Replication start { farm with
      master := farm.master.update origin.cluster fun c => c.dropRegression jobID
      working := farm.working.erase origin } := by
  have stored := Table.get?_mem found
  have named (d : SamplingCluster) : (d.dropRegression jobID).clusterAlias = d.clusterAlias := rfl
  have replicated : jobID ∈ start.replicatedTasks := List.mem_of_getElem? latest
  have unreturned := (replication.running origin jobID works replicated).1
  have only (d : SamplingCluster) (member : d ∈ farm.master.clusters.rows) (here : d.clusterAlias = origin.cluster) :
      d = c := farm.master.clusters.unique member stored (here.trans (Table.get?_key found).symm)
  have split := Table.rows_perm (Table.get?_of_mem noted)
  have fewer : c.regressionPoints.rows.length = (c.regressionPoints.erase jobID).rows.length + 1 := split.length_eq
  have kept (other : String) (inside : other ∈ c.regressionPoints.rows) (apart : other ≠ jobID) :
      other ∈ (c.regressionPoints.erase jobID).rows := Table.mem_erase.mpr ⟨inside, apart⟩
  constructor
  case handedOut =>
    refine Table.forall_modify named (fun d member here => ?_) fun d member _ => replication.handedOut d member
    have one := only d member here
    subst one
    show (d.regressionPoints.erase jobID).rows.Perm
      (start.replicatedTasks.take (d.regressionPoints.erase jobID).rows.length)
    have order := replication.handedOut d stored
    rw [fewer, Nat.add_sub_cancel] at latest
    obtain ⟨bound, value⟩ := List.getElem?_eq_some_iff.mp latest
    rw [fewer, ← List.take_append_getElem bound, value] at order
    exact (split.symm.trans (order.trans (List.perm_append_singleton _ _))).cons_inv
  case counted =>
    refine Table.forall_modify named (fun d member here => ?_) fun d member _ => replication.counted d member
    have one := only d member here
    subst one
    have counts := split.countP_eq fun other => decide ((d.clusterAlias, other) ∈ farm.results)
    rw [List.countP_cons_of_neg (by simpa [here] using unreturned)] at counts
    exact (replication.counted d stored).trans counts
  case once => exact replication.once
  case returned =>
    refine Table.forall_modify named (fun d member here other ours back => ?_) fun d member _ =>
      replication.returned d member
    obtain ⟨inside, finished, ran⟩ := replication.returned d member other ours back
    have one := only d member here
    subst one
    refine ⟨kept other inside ?_, finished, ran⟩
    rintro rfl
    rw [named, here] at back
    exact unreturned back
  case running =>
    intro node other before ours
    obtain ⟨worksToo, elsewhere⟩ := Table.mem_erase.mp before
    obtain ⟨out, inside⟩ := replication.running node other worksToo ours
    refine ⟨out, Table.forall_modify named (fun d member here same => ?_) fun d member _ => inside d member⟩
    have one := only d member here
    subst one
    refine kept other (inside d member same) ?_
    rintro rfl
    exact elsewhere (replication.alone origin node other works worksToo ours (same.symm.trans here))
  case alone =>
    intro node other id first second
    exact replication.alone node other id (Table.mem_erase.mp first).1 (Table.mem_erase.mp second).1

theorem Replication.lost (replication : Replication start farm) (books : Books start farm)
    (found : farm.master.clusters.get? origin.cluster = some c) (latest : farm.latestLost origin = true) (time : Int) :
    Replication start (farm.lost origin c time) := by
  have named : c.clusterAlias = origin.cluster := Table.get?_key found
  suffices taken : Replication start { farm with
      master := farm.master.findFailedJob c origin.node
      working := farm.working.erase origin } from
    taken.frame (fun c => c.finish origin.node time) (fun _ => rfl) (fun _ => rfl) (fun _ => rfl) rfl rfl
      (fun _ _ works _ => works) (fun _ => id) fun _ _ => id
  have fewer (node : IbisIdentifier) (other : String) (works : (node, other) ∈ (farm.working.erase origin).rows)
      (_ : other ∈ start.replicatedTasks) : (node, other) ∈ farm.working.rows := (Table.mem_erase.mp works).1
  simp only [latestLost, found, Option.all_some, Sampler.failedReplicated] at latest
  unfold Sampler.findFailedJob
  rw [named]
  split
  · rename_i jobID failed
    exact replication.frame (fun c => c.dropExtra jobID) (fun _ => rfl) (fun _ => rfl) (fun _ => rfl) rfl rfl fewer
      (fun _ => id) fun _ _ => id
  rename_i noExtra
  split
  · rename_i jobID failed
    exact replication.frame (fun c => c.dropSampling jobID) (fun _ => rfl) (fun _ => rfl) (fun _ => rfl) rfl rfl fewer
      (fun _ => id) fun _ _ => id
  rename_i noSampling
  split
  · rename_i jobID failed
    simp only [noExtra, noSampling, failed, Option.all_some, decide_eq_true_eq, books.replicatedTasks] at latest
    exact replication.dropLast found (Table.get?_mem latest.1) (Sampler.failedIn_some failed).1 latest.2
  · exact ⟨replication.handedOut, replication.counted, replication.once, replication.returned,
      fun node other works ours => replication.running node other (fewer node other works ours) ours,
      fun node other id first second ours => replication.alone node other id (fewer node id first ours)
        (fewer other id second ours) ours⟩

theorem replication_parts (starts : start.Starts) : KeptByParts start latestLost (Replication start) where
  registered := fun {_ origin _} time _ replication _ _ =>
    replication.frame (fun c => c.register origin time) (fun _ => rfl) (fun _ => rfl) (fun _ => rfl) rfl rfl
      (fun _ _ works _ => works) (fun _ => id) fun _ _ => id
  recorded := fun books replication found works _ => replication.recorded books found works
  answered := fun books replication found _ answered => replication.answered books starts found answered
  lost := fun time books replication found latest => replication.lost books found latest time

theorem replication_kept (starts : start.Starts) : Kept start latestLost (Replication start) where
  toKeptByParts := replication_parts starts
  checked := fun {_ _ _} replication checked => by
    rw [Sampler.checkDone_eq checked]
    exact ⟨replication.handedOut, replication.counted, replication.once, replication.returned, replication.running,
      replication.alone⟩

/-- Nothing before `checkDone` ends the phase. -/
theorem undone_parts (start : Sampler) :
    KeptByParts start latestLost fun farm => farm.master.undone = true where
  registered := fun _ _ undone _ _ => undone
  recorded := fun _ undone _ _ _ => undone
  answered := fun _ undone _ _ answered => by cases answered <;> exact undone
  lost := fun {farm origin c} time _ undone _ _ => (lost_frame farm origin c time).2.2.2.2.trans undone

/-- When the reply has been sent, the workers that work at a job are connected,
or their connections are among the lost ones: none breaks between the two
looks of `areWeDone` at the connections. -/
def connectedAtWork (farm : SamplingFarm) (turn : SamplingTurn) : Bool :=
  match farm.reply turn with
  | .error _ => true
  | .ok replied =>
    (refused turn).isSome ||
      replied.working.rows.all fun entry => entry.1 ∈ turn.connected ∨ entry.1 ∈ turn.lost.map Prod.fst

theorem loseConnections_working (lost : List (IbisIdentifier × Int)) {farm after : SamplingFarm}
    (run : farm.loseConnections lost = .ok after) {entry : IbisIdentifier × String} (works : entry ∈ after.working.rows) :
    entry ∈ farm.working.rows ∧ entry.1 ∉ lost.map Prod.fst := by
  induction lost generalizing farm with
  | nil =>
    cases run
    exact ⟨works, List.not_mem_nil⟩
  | cons first rest ih =>
    obtain ⟨node, time⟩ := first
    obtain ⟨master, noticed, run⟩ := Fallible.bind_ok.mp run
    obtain ⟨before, apart⟩ := ih run
    obtain ⟨inside, other⟩ := Table.mem_erase.mp before
    exact ⟨inside, List.not_mem_cons_of_ne_of_not_mem other apart⟩

/-- When nobody is awaited, every connected worker is let go. -/
theorem Sampler.awaited_false {m : Sampler} {connected : List IbisIdentifier} (asked : m.awaited connected = .ok false)
    {node : IbisIdentifier} (member : node ∈ connected) : ∃ ws, m.worker node = some ws ∧ ws.done = true := by
  induction connected with
  | nil => cases member
  | cons first rest ih =>
    unfold Sampler.awaited at asked
    split at asked
    · cases asked
    rename_i c found
    split at asked
    · cases asked
    rename_i ws known
    split at asked
    · rename_i ended
      rcases List.mem_cons.mp member with rfl | later
      · exact ⟨ws, by rw [Sampler.worker, found, Option.bind_some, known], ended⟩
      · exact ih asked later
    · cases asked

/-- What the sampling phase is for: every cluster has run the replicated jobs,
once each, the sample has its size, and every other job of the bag waits or is
finished. -/
structure Sampled (start : Sampler) (farm : SamplingFarm) : Prop where
  replicated : ∀ c ∈ farm.master.clusters.rows, ∀ jobID ∈ start.replicatedTasks,
    farm.results.count (c.clusterAlias, jobID) = 1 ∧ farm.master.isDone jobID = true ∧
      farm.master.ran c.clusterAlias jobID = true
  sampled : farm.master.samplingPoints.countP farm.master.isDone = start.noSampleJobs - start.noReplicatedJobs
  others : ∀ jobID ∈ start.tasks,
    farm.master.tasks.count jobID + (if jobID ∈ farm.master.finishedTasks.rows then 1 else 0) = 1

/-- A cluster whose counter is full has run every replicated job once. -/
theorem Replication.complete (replication : Replication start farm) (starts : start.Starts)
    (stored : c ∈ farm.master.clusters.rows) (full : c.replicatedTasksCounter = start.noReplicatedJobs)
    (replicated : jobID ∈ start.replicatedTasks) :
    farm.results.count (c.clusterAlias, jobID) = 1 ∧ farm.master.isDone jobID = true ∧
      farm.master.ran c.clusterAlias jobID = true := by
  have order := replication.handedOut c stored
  have counted := replication.counted c stored
  have bounded : c.regressionPoints.rows.length ≤ start.replicatedTasks.length := by
    have length := order.length_eq
    rw [List.length_take] at length
    omega
  have most := List.countP_le_length (p := fun jobID => decide ((c.clusterAlias, jobID) ∈ farm.results))
    (l := c.regressionPoints.rows)
  have size := starts.noReplicatedJobs
  have all : c.regressionPoints.rows.length = start.replicatedTasks.length := by omega
  rw [all, List.take_length] at order
  have back : (c.clusterAlias, jobID) ∈ farm.results := by
    have every := List.countP_eq_length.mp (counted.symm.trans (full.trans (size.symm.trans all.symm)))
    exact of_decide_eq_true (every jobID (order.mem_iff.mpr replicated))
  obtain ⟨_, done, ran⟩ := replication.returned c stored jobID replicated back
  have positive := List.count_pos_iff.mpr back
  have once := replication.once c.clusterAlias jobID replicated
  exact ⟨by omega, done, ran⟩

/-- Without work outstanding, each task waits or is finished. -/
theorem Books.settled (books : Books start farm) (starts : start.Starts) (idle : farm.working.rows = [])
    (member : jobID ∈ start.tasks) :
    farm.master.tasks.count jobID + (if jobID ∈ farm.master.finishedTasks.rows then 1 else 0) = 1 := by
  have distinct := (List.nodup_append.mp (books.distinct starts)).1
  rw [distinct.count]
  rcases List.mem_append.mp (books.account.mem_iff.mpr member) with waits | noted
  · have undone := books.waiting jobID waits
    rw [if_pos waits, if_neg]
    rw [books.finished, undone]
    exact Bool.false_ne_true
  · have left : jobID ∉ farm.master.tasks := fun waits => books.apart starts waits noted
    rw [if_neg left, if_pos]
    rw [books.finished]
    obtain ⟨c, stored, inside⟩ := List.mem_flatMap.mp noted
    by_contra undone
    obtain ⟨node, _, works⟩ := books.outstanding c stored jobID inside (Bool.not_eq_true _ ▸ undone)
    rw [idle] at works
    cases works

/-- When the sampling phase ends, it has done what it is for, if every replicated
job that was taken out of a cluster was the last it was given. -/
theorem sampling_complete {turns : List SamplingTurn} (starts : start.Starts)
    (run : Run (Guarded (fun farm turn => (farm.byRules turn = true ∧ farm.spares latestLost turn = true) ∧
      farm.connectedAtWork turn = true) Step) (SamplingFarm.start start) turns farm)
    (ended : farm.master.undone = false) : Sampled start farm := by
  cases run with
  | start => exact absurd (starts.goes.symm.trans ended) (by decide)
  | @next events before turn _ earlier taken =>
  obtain ⟨⟨⟨rules, spared⟩, connected⟩, goes, run⟩ := taken
  obtain ⟨books, replication⟩ := (replication_kept starts).run starts (Books.begin starts) (Replication.begin starts)
    (earlier.mono fun step => ⟨step.1.1, step.2⟩)
  obtain ⟨replied, answered, concluded⟩ := Fallible.bind_ok.mp run
  have goesOn := ((undone_parts start).reply starts books goes rules answered).2
  obtain ⟨books, replication⟩ := (replication_parts starts).reply starts books replication rules answered
  simp only [spares, answered] at spared
  simp only [connectedAtWork, answered] at connected
  unfold SamplingFarm.conclude at concluded
  split at concluded
  · rename_i origin refusal
    obtain ⟨master, failed, closing⟩ := Fallible.bind_ok.mp concluded
    cases closing
    unfold Sampler.connectionFailed at failed
    split at failed
    · cases failed
    rename_i c found
    split at failed
    · cases failed
    cases failed
    have same := (lost_frame replied origin c turn.failTime).2.2.2.2
    exact absurd ((same.trans goesOn).symm.trans ended) (by decide)
  rename_i refusal
  rw [refusal] at spared connected
  obtain ⟨remaining, lost, concluded⟩ := Fallible.bind_ok.mp concluded
  obtain ⟨master, checked, closing⟩ := Fallible.bind_ok.mp concluded
  cases closing
  have whereabouts {entry : IbisIdentifier × String} (works : entry ∈ remaining.working.rows) :=
    loseConnections_working turn.lost lost works
  obtain ⟨books, replication⟩ := (replication_parts starts).loseConnections starts turn.lost books replication spared lost
  rcases Sampler.checkDone_cases checked with rfl | ⟨full, total, awaited, asked, rfl⟩
  · cases ended
  have quiet : awaited = false := ended
  subst quiet
  have idle : remaining.working.rows = [] := by
    refine List.eq_nil_iff_forall_not_mem.mpr fun entry works => ?_
    obtain ⟨before, kept⟩ := whereabouts works
    have there := of_decide_eq_true (List.all_eq_true.mp connected entry before)
    have present : entry.1 ∈ turn.connected := there.resolve_right kept
    obtain ⟨ws, known, done⟩ := Sampler.awaited_false asked present
    obtain ⟨ws', known', busy⟩ := books.busy entry.1 entry.2 works
    cases known.symm.trans known'
    exact absurd (done.symm.trans busy) (by decide)
  obtain ⟨replicated, samples⟩ := books.numbers
  refine ⟨fun c stored jobID member => ?_, ?_, fun jobID => books.settled starts idle⟩
  · exact replication.complete starts stored ((full c stored).trans replicated) member
  · show remaining.master.samplingPoints.countP remaining.master.isDone = _
    rw [← books.total, ← replicated, ← samples]
    omega

end SamplingFarm

/-- The only worker runs the replicated job and a sample, to the end of its hour. -/
def completeTurns : List SamplingTurn :=
  [{ quietSampling 1000 (some (.jobRequest ⟨"das", "n1"⟩)) with connected := [⟨"das", "n1"⟩] },
    { quietSampling 4000 (some (.jobResult ⟨"0", 3000000000⟩ ⟨"das", "n1"⟩)) with connected := [⟨"das", "n1"⟩] },
    { quietSampling 3550000 (some (.jobResult ⟨"1", 3546000000000⟩ ⟨"das", "n1"⟩)) with connected := [⟨"das", "n1"⟩] }]

open SamplingFarm in
theorem fourNaps_complete : ∃ farm, Run (Guarded (fun farm turn => (farm.byRules turn = true ∧
      farm.spares latestLost turn = true) ∧ farm.connectedAtWork turn = true) Step) (SamplingFarm.start fourNaps)
      completeTurns farm ∧ farm.master.undone = false ∧ Sampled fourNaps farm := by
  have played : ∃ farm, play (take fun farm turn => (farm.byRules turn && farm.spares latestLost turn) &&
      farm.connectedAtWork turn) (SamplingFarm.start fourNaps) completeTurns = some farm ∧ farm.master.undone = false :=
    ⟨_, rfl, by decide⟩
  obtain ⟨farm, played, ended⟩ := played
  have run : Run (Guarded (fun farm turn => (farm.byRules turn = true ∧ farm.spares latestLost turn = true) ∧
      farm.connectedAtWork turn = true) Step) (SamplingFarm.start fourNaps) completeTurns farm := by
    refine (run_of_play played).mono fun taken => ⟨?_, taken.2⟩
    simpa only [Bool.and_eq_true] using taken.1
  exact ⟨farm, run, ended, sampling_complete fourNaps_starts run ended⟩

/-- A bag of four naps, two of which are run on the only cluster to compare. -/
def twoReplicated : Sampler :=
  { fourNaps with tasks := ["2", "3"], replicatedTasks := ["0", "1"], noReplicatedJobs := 2 }

theorem twoReplicated_starts : twoReplicated.Starts where
  distinct := by decide
  objects := by decide
  undone := by decide
  idle := fourNaps_starts.idle
  finishedTasks := rfl
  counters := ⟨rfl, rfl⟩
  noReplicatedJobs := rfl
  noSampleJobs := by decide
  goes := rfl

/-- The first replicated job is lost with its worker. The second is given again
instead, and its workers are lost after two results of it. -/
def repeatedTurns : List SamplingTurn :=
  let n1 : IbisIdentifier := ⟨"das", "n1"⟩
  let n2 : IbisIdentifier := ⟨"das", "n2"⟩
  let n3 : IbisIdentifier := ⟨"das", "n3"⟩
  [{ quietSampling 1000 (some (.jobRequest n1)) with connected := [n1] },
    { quietSampling 2000 (some (.jobRequest n2)) with connected := [n1, n2] },
    { quietSampling 3000 none with lost := [(n1, 3000)], connected := [n2] },
    { quietSampling 4000 (some (.jobRequest n3)) with connected := [n2, n3] },
    { quietSampling 7000 (some (.jobResult ⟨"1", 5000000000⟩ n2)) with connected := [n2, n3] },
    { quietSampling 9000 (some (.jobResult ⟨"1", 5000000000⟩ n3)) with connected := [n2, n3] },
    { quietSampling 9500 none with lost := [(n2, 9500), (n3, 9500)] }]

open SamplingFarm in
theorem repeatedTurns_incomplete : ∃ farm, Run (Guarded (fun farm turn => (farm.byRules turn &&
      farm.connectedAtWork turn) = true) Step) (SamplingFarm.start twoReplicated) repeatedTurns farm ∧
    farm.master.undone = false ∧ farm.results = [("das", "1"), ("das", "1")] ∧ ¬Sampled twoReplicated farm := by
  have played : ∃ farm, play (take fun farm turn => farm.byRules turn && farm.connectedAtWork turn)
      (SamplingFarm.start twoReplicated) repeatedTurns = some farm ∧ farm.master.undone = false ∧
      farm.results = [("das", "1"), ("das", "1")] ∧ farm.master.clusters.rows.map SamplingCluster.clusterAlias = ["das"] :=
    ⟨_, rfl, by decide⟩
  obtain ⟨farm, played, ended, results, named⟩ := played
  refine ⟨farm, run_of_play played, ended, results, fun sampled => ?_⟩
  obtain ⟨c, stored, here⟩ := List.mem_map.mp (named ▸ List.mem_singleton_self "das" : "das" ∈ _)
  have once := (sampled.replicated c stored "0" (by decide)).1
  rw [here, results] at once
  exact absurd once (by decide)

end ConPaaS
