import ConPaaS.TaskFarm.SamplingBooks

namespace ConPaaS

open Keyed Transition

/-- What `findNextJob` answers. -/
inductive Answered (m : Sampler) (turn : SamplingTurn) (origin : IbisIdentifier) (c : SamplingCluster) :
    Sampler → Option String → Prop
  | regression (jobID : String) (more : c.regressionPoints.rows.length < m.noReplicatedJobs)
      (next : m.replicatedTasks[c.regressionPoints.rows.length]? = some jobID) :
      Answered m turn origin c (m.handOutRegression origin jobID) (some jobID)
  | sampling (index : Nat) (jobID : String) (full : m.noReplicatedJobs ≤ c.regressionPoints.rows.length)
      (more : m.totalSamplingSubmittedCounter < m.noSampleJobs - m.noReplicatedJobs)
      (chosen : m.tasks[index]? = some jobID) :
      Answered m turn origin c (m.handOutSampling origin index jobID) (some jobID)
  | extra (index : Nat) (jobID : String) (entry : IbisIdentifier × Int)
      (full : m.noReplicatedJobs ≤ c.regressionPoints.rows.length)
      (enough : m.noSampleJobs - m.noReplicatedJobs ≤ m.totalSamplingSubmittedCounter)
      (chosen : m.tasks[index]? = some jobID) :
      Answered m turn origin c (m.handOutExtra origin index jobID entry) (some jobID)
  | goodbye (full : m.noReplicatedJobs ≤ c.regressionPoints.rows.length)
      (enough : m.noSampleJobs - m.noReplicatedJobs ≤ m.totalSamplingSubmittedCounter) :
      Answered m turn origin c (m.sayGB turn origin) none

theorem Sampler.findNextJob_answered {m result : Sampler} {turn : SamplingTurn} {origin : IbisIdentifier}
    {nextJob : Option String} (run : m.findNextJob turn origin = .ok (result, nextJob)) :
    ∃ c, m.clusters.get? origin.cluster = some c ∧ Answered m turn origin c result nextJob := by
  unfold Sampler.findNextJob at run
  split at run
  · cases run
  rename_i c found
  refine ⟨c, found, ?_⟩
  dsimp only at run
  split at run
  · rename_i more
    split at run
    · cases run
    · rename_i jobID next
      cases run
      exact .regression jobID more next
  rename_i full
  split at run
  · rename_i more
    split at run
    · cases run
    · rename_i jobID chosen
      cases run
      exact .sampling _ jobID (Nat.le_of_not_lt full) more chosen
  rename_i enough
  split at run
  · cases run
  split at run
  · split at run
    · cases run
      exact .goodbye (Nat.le_of_not_lt full) (Nat.le_of_not_lt enough)
    · rename_i jobID chosen
      cases run
      exact .extra _ jobID _ (Nat.le_of_not_lt full) (Nat.le_of_not_lt enough) chosen
  · cases run
    exact .goodbye (Nat.le_of_not_lt full) (Nat.le_of_not_lt enough)

namespace SamplingFarm

variable {start : Sampler} {farm after : SamplingFarm} {origin : IbisIdentifier} {c : SamplingCluster} {turn : SamplingTurn}

theorem put_points {points : Points} {jobID : String} (fresh : jobID ∉ points.rows) :
    (points.put jobID).rows = jobID :: points.rows :=
  Table.put_fresh (Table.get?_none_iff.mpr fun other member (same : other = jobID) => fresh (same ▸ member))

theorem Books.answered (books : Books start farm) (starts : start.Starts) (idle : farm.working.get? origin = none)
    (busy : ∃ ws, farm.master.worker origin = some ws ∧ ws.done = false)
    (found : farm.master.clusters.get? origin.cluster = some c) {result : Sampler} {nextJob : Option String}
    (answered : Answered farm.master turn origin c result nextJob) :
    Books start ({ farm with master := result }.handOut origin nextJob) := by
  have fresh {index : Nat} {jobID : String} (chosen : farm.master.tasks[index]? = some jobID) : jobID ∉ c.points :=
    fun noted => books.apart starts (List.mem_of_getElem? chosen) (mem_points found noted)
  cases answered with
  | regression jobID more next =>
    rw [books.replicatedTasks] at next
    exact books.handOutReplicated starts busy idle (List.mem_of_getElem? next)
  | sampling index jobID full more chosen =>
    have new : jobID ∉ c.samplingPoints.rows := fun inside => fresh chosen (List.mem_append_left _ inside)
    refine books.handOut starts idle busy found chosen (fun c => c.putSampling jobID) (fun _ => rfl) (fun _ => rfl)
      (fun _ => rfl) ?_ ?_ _ _
    · show ((c.samplingPoints.put jobID).rows ++ c.extraPoints.rows).Perm _
      rw [put_points new]
      exact .refl _
    · show (c.samplingPoints.put jobID).rows.countP _ = _
      rw [put_points new, List.countP_cons_of_neg]
      simp [books.waiting jobID (List.mem_of_getElem? chosen)]
  | extra index jobID entry full enough chosen =>
    have new : jobID ∉ c.extraPoints.rows := fun inside => fresh chosen (List.mem_append_right _ inside)
    refine books.handOut starts idle busy found chosen (fun c => c.putExtra jobID) (fun _ => rfl) (fun _ => rfl)
      (fun _ => rfl) ?_ rfl _ _
    show (c.samplingPoints.rows ++ (c.extraPoints.put jobID).rows).Perm _
    rw [put_points new]
    exact List.perm_middle
  | goodbye full enough =>
    have others : farm.working.erase origin = farm.working := Table.erase_absent idle
    have released := books.atNode idle (fun c => c.sayGoodbye origin.node turn.releaseTime) (fun _ => rfl) (fun _ => rfl)
      (fun _ => rfl) (fun _ => rfl) fun _ _ apart =>
        (Table.get?_modify_ne _ apart _).trans (Table.get?_modify_ne _ apart _)
    show Books start { farm with
      master := farm.master.sayGB turn origin
      working := farm.working.erase origin }
    rw [others]
    exact released

/-- The state after a node has asked for a job. -/
def registered (farm : SamplingFarm) (origin : IbisIdentifier) (time : Int) : SamplingFarm :=
  { farm with master := farm.master.update origin.cluster fun c => c.register origin time }

/-- The state after a result was booked. -/
def recorded (farm : SamplingFarm) (received : JobResult) (origin : IbisIdentifier) (c : SamplingCluster) : SamplingFarm where
  master := farm.master.recordResult received origin c
  working := farm.working.erase origin
  results := farm.results ++ [(origin.cluster, received.jobID)]

/-- The state after a worker was lost. -/
def lost (farm : SamplingFarm) (origin : IbisIdentifier) (c : SamplingCluster) (time : Int) : SamplingFarm :=
  { farm with
    master := farm.master.loseWorker c origin.node time
    working := farm.working.erase origin }

/-- A condition on each loss of a turn that the master notices, in the state
in which it does. -/
def eachLoss (allowed : SamplingFarm → IbisIdentifier → Bool) : List (IbisIdentifier × Int) → SamplingFarm → Bool
  | [], _ => true
  | (lost, time) :: rest, farm =>
    ((farm.master.worker lost).all WorkerStats.isFinished || allowed farm lost) &&
      match farm.master.handleLostConnection lost time with
      | .error _ => true
      | .ok master => eachLoss allowed rest { farm with master, working := farm.working.erase lost }

/-- The condition on the losses of a whole turn. A worker whose reply could not
be sent is lost as well. -/
def spares (allowed : SamplingFarm → IbisIdentifier → Bool) (farm : SamplingFarm) (turn : SamplingTurn) : Bool :=
  match farm.reply turn with
  | .error _ => true
  | .ok replied =>
    match refused turn with
    | some origin => allowed replied origin
    | none => replied.eachLoss allowed turn.lost

/-- An invariant is kept by all a turn is made of up to `checkDone`, where the
losses are allowed. -/
structure KeptByParts (start : Sampler) (allowed : SamplingFarm → IbisIdentifier → Bool) (inv : SamplingFarm → Prop) : Prop where
  registered : ∀ {farm : SamplingFarm} {origin c} (time : Int), Books start farm → inv farm →
    farm.master.clusters.get? origin.cluster = some c → farm.working.get? origin = none → inv (farm.registered origin time)
  recorded : ∀ {farm : SamplingFarm} {received : JobResult} {origin c}, Books start farm → inv farm →
    farm.master.clusters.get? origin.cluster = some c → (origin, received.jobID) ∈ farm.working.rows →
    c.knows received.jobID = true → inv (farm.recorded received origin c)
  answered : ∀ {farm : SamplingFarm} {turn origin c result nextJob}, Books start farm → inv farm →
    farm.master.clusters.get? origin.cluster = some c → farm.working.get? origin = none →
    Answered farm.master turn origin c result nextJob → inv ({ farm with master := result }.handOut origin nextJob)
  lost : ∀ {farm : SamplingFarm} {origin c} (time : Int), Books start farm → inv farm →
    farm.master.clusters.get? origin.cluster = some c → allowed farm origin = true → inv (farm.lost origin c time)

/-- An invariant is kept by all a turn is made of. -/
structure Kept (start : Sampler) (allowed : SamplingFarm → IbisIdentifier → Bool) (inv : SamplingFarm → Prop) : Prop
    extends KeptByParts start allowed inv where
  checked : ∀ {farm : SamplingFarm} {connected master}, inv farm → farm.master.checkDone connected = .ok master →
    inv { farm with master }

theorem idle_of_rules (books : Books start farm) {origin : IbisIdentifier}
    (ended : (farm.master.worker origin).all WorkerStats.isFinished = true) : farm.working.get? origin = none := by
  refine Table.get?_none_iff.mpr fun entry works here => ?_
  obtain ⟨ws, known, busy⟩ := books.busy entry.1 entry.2 works
  rw [here] at known
  simp [known, WorkerStats.isFinished, busy] at ended

theorem Books.registered (books : Books start farm) (found : farm.master.clusters.get? origin.cluster = some c)
    (idle : farm.working.get? origin = none) (time : Int) :
    Books start (farm.registered origin time) ∧
      ∃ ws, (farm.registered origin time).master.worker origin = some ws ∧ ws.done = false := by
  constructor
  · refine books.atNode idle (fun c => c.register origin time) (fun _ => rfl) (fun _ => rfl) (fun _ => rfl) (fun _ => rfl)
      fun c node apart => ?_
    unfold SamplingCluster.register
    dsimp only
    split
    · exact Table.get?_put_ne _ apart
    · exact Table.get?_modify_ne _ apart _
  · have now := Sampler.worker_update found (fun c => c.register origin time) origin.node
    show ∃ ws, (farm.master.update origin.cluster fun c => c.register origin time).worker origin = some ws ∧ ws.done = false
    rw [now]
    unfold SamplingCluster.register
    dsimp only
    split
    · exact ⟨_, Table.get?_put_self _ (WorkerStats.create origin.node time origin), rfl⟩
    · rename_i ws known
      exact ⟨_, Table.get?_modify_self known _, rfl⟩

theorem Books.recorded (books : Books start farm) (starts : start.Starts)
    (found : farm.master.clusters.get? origin.cluster = some c) {received : JobResult}
    (works : (origin, received.jobID) ∈ farm.working.rows) :
    Books start (farm.recorded received origin c) ∧
      ∃ ws, (farm.recorded received origin c).master.worker origin = some ws ∧ ws.done = false := by
  have booked := books.recordResult starts works found
  refine ⟨⟨booked.replicatedTasks, booked.numbers, booked.objects, booked.replicated, booked.account, booked.waiting,
    booked.outstanding, booked.held, booked.busy, booked.finished, booked.total⟩, ?_⟩
  obtain ⟨ws, known, busy⟩ := books.busy origin received.jobID works
  have here : c.workers.get? origin.node = some ws := by
    simpa only [Sampler.worker, found, Option.bind_some] using known
  have now := Sampler.worker_update found (fun c => c.bookResult received origin.node) origin.node
  have change := Table.get?_modify_self here fun ws => ws.addJobStats received.runtime
  exact ⟨_, now.trans change, busy⟩

variable {allowed : SamplingFarm → IbisIdentifier → Bool} {inv : SamplingFarm → Prop}

/-- A node may be idle already when it is sent a job. -/
theorem handOut_idle (farm : SamplingFarm) (origin : IbisIdentifier) (nextJob : Option String) :
    { farm with working := farm.working.erase origin }.handOut origin nextJob = farm.handOut origin nextJob := by
  simp only [handOut, Table.erase_erase]

theorem KeptByParts.reply (kept : KeptByParts start allowed inv) (starts : start.Starts) (books : Books start farm) (held : inv farm)
    (rules : farm.byRules turn = true) (run : farm.reply turn = .ok after) : Books start after ∧ inv after := by
  unfold SamplingFarm.reply at run
  unfold byRules at rules
  split at run
  · cases run
    exact ⟨books, held⟩
  rename_i message received
  rw [received] at rules
  obtain ⟨⟨master, nextJob⟩, handled, ended⟩ := Fallible.bind_ok.mp run
  cases ended
  cases message with
  | jobRequest origin =>
    have idle := idle_of_rules books rules
    simp only [Sampler.handle, Sampler.handleJobRequest] at handled
    split at handled
    · cases handled
    rename_i c found
    obtain ⟨books', busy⟩ := books.registered found idle turn.requestTime
    have held' := kept.registered turn.requestTime books held found idle
    obtain ⟨c', found', answered⟩ := Sampler.findNextJob_answered handled
    have sent := kept.answered books' held' found' idle answered
    have result : farm.results ++ (Message.jobRequest origin).result = farm.results := List.append_nil _
    rw [result]
    exact ⟨books'.answered starts idle busy found' answered, sent⟩
  | jobResult result origin =>
    have works := Table.get?_mem (of_decide_eq_true rules)
    simp only [Sampler.handle, Sampler.handleJobResult] at handled
    split at handled
    · cases handled
    rename_i c found
    split at handled
    · cases handled
    split at handled
    · rename_i knows
      obtain ⟨books', busy⟩ := books.recorded starts found works
      have held' := kept.recorded books held found works knows
      obtain ⟨c', found', answered⟩ := Sampler.findNextJob_answered handled
      have idle : (farm.recorded result origin c).working.get? origin = none := Table.get?_erase_self _ _
      have sent := kept.answered books' held' found' idle answered
      have same := handOut_idle { farm with
        master, results := farm.results ++ (Message.jobResult result origin).result } origin nextJob
      show Books start (SamplingFarm.handOut _ origin nextJob) ∧ inv (SamplingFarm.handOut _ origin nextJob)
      rw [← same]
      exact ⟨books'.answered starts idle busy found' answered, sent⟩
    · cases handled

theorem KeptByParts.loseConnections (kept : KeptByParts start allowed inv) (starts : start.Starts) (lost : List (IbisIdentifier × Int))
    {farm after : SamplingFarm} (books : Books start farm) (held : inv farm) (spared : farm.eachLoss allowed lost = true)
    (run : farm.loseConnections lost = .ok after) : Books start after ∧ inv after := by
  induction lost generalizing farm with
  | nil =>
    cases run
    exact ⟨books, held⟩
  | cons entry rest ih =>
    obtain ⟨lost, time⟩ := entry
    obtain ⟨master, noticed, run⟩ := Fallible.bind_ok.mp run
    simp only [eachLoss, noticed, Bool.and_eq_true, Bool.or_eq_true] at spared
    suffices both : Books start { farm with master, working := farm.working.erase lost } ∧
        inv { farm with master, working := farm.working.erase lost } from ih both.1 both.2 spared.2 run
    unfold Sampler.handleLostConnection at noticed
    split at noticed
    · cases noticed
    rename_i c found
    split at noticed
    · cases noticed
    rename_i ws known
    have entry : farm.master.worker lost = some ws := by rw [Sampler.worker, found, Option.bind_some, known]
    split at noticed
    · rename_i ended
      cases noticed
      have idle := idle_of_rules books (by rw [entry]; exact ended)
      rw [Table.erase_absent idle]
      exact ⟨books, held⟩
    · rename_i busy
      cases noticed
      have permitted : allowed farm lost = true := by
        refine spared.1.resolve_left ?_
        rwa [entry]
      exact ⟨books.loseWorker starts found time, kept.lost time books held found permitted⟩

/-- What `checkDone` leaves, and what it saw when it ends the phase. -/
theorem Sampler.checkDone_cases {m result : Sampler} {connected : List IbisIdentifier}
    (run : m.checkDone connected = .ok result) :
    result = { m with undone := true } ∨
      (∀ c ∈ m.clusters.rows, c.replicatedTasksCounter = m.noReplicatedJobs) ∧
        m.totalSamplingPointsCounter + m.noReplicatedJobs = m.noSampleJobs ∧
        ∃ awaited, m.awaited connected = .ok awaited ∧ result = { m with undone := awaited } := by
  unfold Sampler.checkDone at run
  split at run
  · rename_i counts
    obtain ⟨awaited, asked, ended⟩ := Fallible.bind_ok.mp run
    cases ended
    exact Or.inr ⟨counts.1, counts.2, awaited, asked, rfl⟩
  · cases run
    exact Or.inl rfl

/-- The verdict on the phase is all that `checkDone` changes. -/
theorem Sampler.checkDone_eq {m result : Sampler} {connected : List IbisIdentifier}
    (run : m.checkDone connected = .ok result) : result = { m with undone := result.undone } := by
  rcases Sampler.checkDone_cases run with rfl | ⟨_, _, awaited, _, rfl⟩ <;> rfl

theorem Books.checkDone (books : Books start farm) {connected : List IbisIdentifier} {master : Sampler}
    (run : farm.master.checkDone connected = .ok master) : Books start { farm with master } := by
  rw [Sampler.checkDone_eq run]
  exact ⟨books.replicatedTasks, books.numbers, books.objects, books.replicated, books.account, books.waiting,
    books.outstanding, books.held, books.busy, books.finished, books.total⟩

/-- A whole turn keeps the books, and with them an invariant that all its parts keep. -/
theorem Kept.next (kept : Kept start allowed inv) (starts : start.Starts) (books : Books start farm) (held : inv farm)
    (rules : farm.byRules turn = true) (spared : farm.spares allowed turn = true) (run : farm.next turn = .ok after) :
    Books start after ∧ inv after := by
  obtain ⟨replied, answered, concluded⟩ := Fallible.bind_ok.mp run
  obtain ⟨books, held⟩ := kept.reply starts books held rules answered
  simp only [spares, answered] at spared
  unfold SamplingFarm.conclude at concluded
  split at concluded
  · rename_i origin refusal
    obtain ⟨master, failed, ended⟩ := Fallible.bind_ok.mp concluded
    cases ended
    rw [refusal] at spared
    unfold Sampler.connectionFailed at failed
    split at failed
    · cases failed
    rename_i c found
    split at failed
    · cases failed
    cases failed
    exact ⟨books.loseWorker starts found _, kept.lost _ books held found spared⟩
  · rename_i refusal
    obtain ⟨remaining, lost, concluded⟩ := Fallible.bind_ok.mp concluded
    obtain ⟨master, checked, ended⟩ := Fallible.bind_ok.mp concluded
    cases ended
    rw [refusal] at spared
    obtain ⟨books, held⟩ := kept.loseConnections starts turn.lost books held spared lost
    exact ⟨books.checkDone checked, kept.checked held checked⟩

/-- A run keeps what each of its turns keeps. -/
theorem Kept.run (kept : Kept start allowed inv) (starts : start.Starts) (books : Books start farm) (first : inv farm)
    {turns : List SamplingTurn} (run : Run (Guarded (fun farm turn => farm.byRules turn = true ∧
      farm.spares allowed turn = true) Step) farm turns after) : Books start after ∧ inv after :=
  run.guarded_invariant ⟨books, first⟩ fun both guard taken =>
    kept.next starts both.1 both.2 guard.1 guard.2 taken.2

/-- A loss leaves the jobs and the counters of the phase alone. -/
theorem lost_frame (farm : SamplingFarm) (origin : IbisIdentifier) (c : SamplingCluster) (time : Int) :
    (farm.lost origin c time).master.jobs = farm.master.jobs ∧
      (farm.lost origin c time).master.totalSamplingSubmittedCounter = farm.master.totalSamplingSubmittedCounter ∧
      (farm.lost origin c time).master.totalSamplingPointsCounter = farm.master.totalSamplingPointsCounter ∧
      ((farm.lost origin c time).master.noSampleJobs = farm.master.noSampleJobs ∧
        (farm.lost origin c time).master.noReplicatedJobs = farm.master.noReplicatedJobs) ∧
      (farm.lost origin c time).master.undone = farm.master.undone := by
  simp only [lost, Sampler.loseWorker, Sampler.findFailedJob]
  split
  · exact ⟨rfl, rfl, rfl, ⟨rfl, rfl⟩, rfl⟩
  split
  · exact ⟨rfl, rfl, rfl, ⟨rfl, rfl⟩, rfl⟩
  split <;> exact ⟨rfl, rfl, rfl, ⟨rfl, rfl⟩, rfl⟩

theorem eachLoss_all (lost : List (IbisIdentifier × Int)) (farm : SamplingFarm) :
    farm.eachLoss (fun _ _ => true) lost = true := by
  induction lost generalizing farm with
  | nil => rfl
  | cons entry rest ih =>
    rw [eachLoss, Bool.or_true, Bool.true_and]
    split
    · rfl
    · exact ih _

theorem spares_all (farm : SamplingFarm) (turn : SamplingTurn) : farm.spares (fun _ _ => true) turn = true := by
  unfold spares
  split
  · rfl
  · split
    · rfl
    · exact eachLoss_all _ _

/-- A run by the rules keeps what each part of a turn keeps, whatever is lost. -/
theorem Kept.run_all (kept : Kept start (fun _ _ => true) inv) (starts : start.Starts) (books : Books start farm)
    (first : inv farm) {turns : List SamplingTurn}
    (run : Run (Guarded (fun farm turn => farm.byRules turn = true) Step) farm turns after) :
    Books start after ∧ inv after :=
  kept.run starts books first (run.mono fun taken => ⟨⟨taken.1, spares_all _ _⟩, taken.2⟩)

/-- A turn, if the phase goes on, a condition is met and no exception ends it. -/
def take (guard : SamplingFarm → SamplingTurn → Bool) (farm : SamplingFarm) (turn : SamplingTurn) : Option SamplingFarm :=
  if farm.master.undone && guard farm turn then (farm.next turn).toOption else none

theorem run_of_play {guard : SamplingFarm → SamplingTurn → Bool} {turns : List SamplingTurn}
    (played : play (take guard) farm turns = some after) :
    Run (Guarded (fun farm turn => guard farm turn = true) Step) farm turns after := by
  refine (Run.play played).mono fun {before turn result} taken => ?_
  unfold take at taken
  split at taken
  · rename_i may
    rw [Bool.and_eq_true] at may
    refine ⟨may.2, may.1, ?_⟩
    cases run : before.next turn with
    | error fault => simp [run, Except.toOption] at taken
    | ok farm => simpa [run, Except.toOption] using taken
  · cases taken

theorem run_spared {turns : List SamplingTurn}
    (played : play (take fun farm turn => farm.byRules turn && farm.spares allowed turn) farm turns = some after) :
    Run (Guarded (fun farm turn => farm.byRules turn = true ∧ farm.spares allowed turn = true) Step) farm turns after :=
  (run_of_play played).mono fun taken => ⟨Bool.and_eq_true_iff.mp taken.1, taken.2⟩

end SamplingFarm

end ConPaaS
