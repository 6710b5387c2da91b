import ConPaaS.TaskFarm.JobConservation
import Mathlib.Algebra.Order.Field.Rat
import Mathlib.Algebra.Order.BigOperators.Group.List

namespace ConPaaS

open Keyed Transition

theorem atus_mono {uptime later timeUnit : Int} (positive : 0 < timeUnit) (longer : uptime ≤ later) :
    atus uptime timeUnit ≤ atus later timeUnit := by
  unfold atus
  have unit : (0 : ℚ) < timeUnit := by exact_mod_cast positive
  gcongr

/-- Rounding up to whole time units does not shorten an uptime. -/
theorem le_atus_mul (uptime : Int) {timeUnit : Int} (positive : 0 < timeUnit) :
    uptime ≤ atus uptime timeUnit * timeUnit * 60000 := by
  have unit : (0 : ℚ) < timeUnit := by exact_mod_cast positive
  have above : (uptime : ℚ) / 60000 / timeUnit ≤ atus uptime timeUnit := Int.le_ceil _
  rw [div_le_iff₀ unit, div_le_iff₀ (by norm_num)] at above
  exact_mod_cast above

theorem atus_nonneg {uptime timeUnit : Int} (positive : 0 < timeUnit) (old : 0 ≤ uptime) : 0 ≤ atus uptime timeUnit := by
  refine le_trans ?_ (atus_mono positive old)
  simp [atus]

/-- A worker has been up for some time, and not since a later time. -/
structure WorkerStats.Aged (now : Int) (ws : WorkerStats) : Prop where
  uptime : 0 ≤ ws.uptime
  startTime : ws.done = false → ws.startTime ≤ now

/-- A worker only gets older. -/
structure WorkerStats.Grows (now later : Int) (ws after : WorkerStats) : Prop where
  aged : after.Aged later
  uptime : ws.getUptime now ≤ after.getUptime later

namespace WorkerStats

variable {now later : Int} {ws : WorkerStats}

theorem Aged.getUptime (aged : ws.Aged now) : 0 ≤ ws.getUptime now := by
  unfold WorkerStats.getUptime
  split
  · exact aged.uptime
  · rename_i busy
    have start := aged.startTime (by simpa using busy)
    have past := aged.uptime
    omega

/-- The marks and statistics of a worker do not change its age. -/
theorem Aged.grows_of_eq (aged : ws.Aged now) (order : now ≤ later) {after : WorkerStats} (done : after.done = ws.done)
    (uptime : after.uptime = ws.uptime) (startTime : after.startTime = ws.startTime) : ws.Grows now later after := by
  refine ⟨⟨uptime ▸ aged.uptime, fun busy => startTime ▸ (aged.startTime (done ▸ busy)).trans order⟩, ?_⟩
  unfold WorkerStats.getUptime
  rw [done, uptime, startTime]
  split
  · exact le_rfl
  · omega

theorem Aged.grows (aged : ws.Aged now) (order : now ≤ later) : ws.Grows now later ws :=
  aged.grows_of_eq order rfl rfl rfl

theorem Aged.decided (aged : ws.Aged now) (order : now ≤ later) (mark : Option Mark) :
    ws.Grows now later (ws.decided mark) := by
  rcases mark with - | - | - <;> exact aged.grows_of_eq order rfl rfl rfl

theorem Aged.workerFinished (aged : ws.Aged now) (busy : ws.done = false) (order : now ≤ later) :
    ws.Grows now later (ws.workerFinished later) := by
  have start := aged.startTime busy
  have past := aged.uptime
  refine ⟨⟨?_, fun ended => absurd ended (by simp [WorkerStats.workerFinished])⟩, ?_⟩
  · show 0 ≤ ws.uptime + (later - ws.startTime)
    omega
  · simp only [WorkerStats.getUptime, WorkerStats.workerFinished, busy, if_true, Bool.false_eq_true, if_false]
    omega

/-- A lease that has ended is paid to the end of its time unit. -/
theorem Aged.reacquire (aged : ws.Aged now) (ended : ws.done = true) {timeUnit : Int} (positive : 0 < timeUnit) :
    ws.Grows now later (ws.reacquire timeUnit later) := by
  have rounded := le_atus_mul ws.uptime positive
  refine ⟨⟨aged.uptime.trans rounded, fun _ => le_rfl⟩, ?_⟩
  simp only [WorkerStats.getUptime, WorkerStats.reacquire, ended, if_true, Bool.false_eq_true, if_false]
  omega

end WorkerStats

/-- All workers of a cluster have aged. -/
def Cluster.Aged (now : Int) (c : Cluster) : Prop := ∀ ws ∈ c.workers.rows, ws.Aged now

/-- A cluster only gets more expensive. -/
structure Cluster.Grows (now later : Int) (c after : Cluster) : Prop where
  aged : after.Aged later
  price : c.price now ≤ after.price later

namespace Cluster

variable {now later : Int} {c : Cluster}

theorem costOf_mono {after : Cluster} {ws ws' : WorkerStats} (rate : after.rate = c.rate)
    (older : ws.getUptime now ≤ ws'.getUptime later) : c.costOf now ws ≤ after.costOf later ws' := by
  unfold costOf
  rw [rate]
  have more := atus_mono c.rate.positive older
  exact mul_le_mul_of_nonneg_right (by exact_mod_cast more) c.rate.nonneg

/-- Every worker under some change, and nobody else. -/
theorem Grows.of_map {after : Cluster} {change : WorkerStats → WorkerStats} (rate : after.rate = c.rate)
    (workers : after.workers.rows = c.workers.rows.map change)
    (each : ∀ ws ∈ c.workers.rows, ws.Grows now later (change ws)) : c.Grows now later after := by
  constructor
  · intro ws member
    rw [workers] at member
    obtain ⟨old, inside, rfl⟩ := List.mem_map.mp member
    exact (each old inside).aged
  · unfold Cluster.price
    rw [workers, List.map_map]
    exact List.sum_le_sum fun ws inside => costOf_mono rate (each ws inside).uptime

/-- One worker under some change. -/
theorem Aged.withWorker (aged : c.Aged now) (order : now ≤ later) {after : Cluster} {node : String}
    {change : WorkerStats → WorkerStats} (rate : after.rate = c.rate)
    (workers : after.workers.rows = c.workers.rows.map fun ws => if ws.node = node then change ws else ws)
    (changed : ∀ ws, c.workers.get? node = some ws → ws.Aged now → ws.Grows now later (change ws)) :
    c.Grows now later after := by
  refine Grows.of_map rate workers fun ws member => ?_
  split
  · rename_i here
    exact changed ws (here ▸ Table.get?_of_mem member) (aged ws member)
  · exact (aged ws member).grows order

theorem Aged.grows_of_eq (aged : c.Aged now) (order : now ≤ later) {after : Cluster} (rate : after.rate = c.rate)
    (workers : after.workers = c.workers) : c.Grows now later after :=
  Grows.of_map rate (by rw [workers]; exact (List.map_id _).symm) fun ws member => (aged ws member).grows order

theorem Grows.trans {middle after : Cluster} {between : Int} (first : c.Grows now between middle)
    (second : middle.Grows between later after) : c.Grows now later after :=
  ⟨second.aged, first.price.trans second.price⟩

theorem Aged.decided (aged : c.Aged now) (order : now ≤ later) (decision : Decision) :
    c.Grows now later (c.decided decision) :=
  Grows.of_map rfl rfl fun ws member => (aged ws member).decided order _

theorem Aged.terminateWorker (aged : c.Aged now) (order : now ≤ later) (node : String) (time : Int) :
    c.Grows now later (c.terminateWorker node time) :=
  aged.withWorker order rfl rfl fun _ _ old => old.grows_of_eq order rfl rfl rfl

theorem Aged.returned (aged : c.Aged now) (order : now ≤ later) (node : String) (received : JobResult) :
    c.Grows now later ((c.withWorker node fun ws => ws.addJobStats received.runtime).doneJob received) :=
  aged.withWorker order rfl rfl fun _ _ old => old.grows_of_eq order rfl rfl rfl

theorem Aged.reenroll (aged : c.Aged now) (order : now ≤ later) {origin : IbisIdentifier} {ws : WorkerStats}
    (known : c.workers.get? origin.node = some ws) (ended : ws.done = true) (actualStartTime : Int) :
    c.Grows now later (c.reenroll actualStartTime later origin).counted := by
  refine aged.withWorker order rfl rfl fun other known' old => ?_
  cases known.symm.trans known'
  have grown : ws.Grows now later (ws.reacquire c.rate.timeUnit later) := old.reacquire ended c.rate.positive
  exact ⟨⟨grown.aged.uptime, grown.aged.startTime⟩, grown.uptime⟩

theorem Aged.enroll (aged : c.Aged now) (order : now ≤ later) {origin : IbisIdentifier}
    (absent : c.workers.get? origin.node = none) (noInitialWorkers actualStartTime : Int) :
    c.Grows now later (c.enroll noInitialWorkers actualStartTime later origin).counted := by
  have rows : (c.enroll noInitialWorkers actualStartTime later origin).counted.workers.rows = _ :: c.workers.rows :=
    Table.put_fresh absent
  constructor
  · intro ws member
    rw [rows] at member
    rcases List.mem_cons.mp member with rfl | inside
    · exact ⟨le_rfl, fun _ => le_rfl⟩
    · exact ((aged ws inside).grows order).aged
  · have before : c.price now ≤ (c.workers.rows.map (c.costOf later)).sum :=
      (aged.grows_of_eq order rfl rfl).price
    have new : (0 : ℚ) ≤ c.costOf later
        { WorkerStats.create origin.node later origin with
          offset := if c.timestamp + 1 ≤ noInitialWorkers then 0 else c.offsetAt actualStartTime later
          isInitWorker := c.timestamp + 1 ≤ noInitialWorkers
          timestamp := c.timestamp + 1
          noATUPlan := c.noATUPlan } := by
      unfold costOf
      refine mul_nonneg ?_ c.rate.nonneg
      exact_mod_cast atus_nonneg c.rate.positive (by simp [WorkerStats.getUptime, WorkerStats.create])
    refine before.trans ?_
    unfold price
    rw [rows, List.map_cons, List.sum_cons]
    exact le_add_of_nonneg_left new

theorem Aged.finish (aged : c.Aged now) (order : now ≤ later) {node : String}
    (busy : ∀ ws, c.workers.get? node = some ws → ws.done = false) : c.Grows now later (c.finish node later) :=
  aged.withWorker order rfl rfl fun ws known old => old.workerFinished (busy ws known) order

end Cluster

namespace Master

variable {now later : Int} {start m : Master} {origin : IbisIdentifier}

/-- The workers of all clusters have aged. -/
def Aged (now : Int) (m : Master) : Prop := ∀ c ∈ m.clusters.rows, c.Aged now

/-- The total price does not fall. -/
structure Grows (now later : Int) (m after : Master) : Prop where
  aged : after.Aged later
  price : m.price now ≤ after.price later

theorem Grows.trans {middle after : Master} {between : Int} (first : m.Grows now between middle)
    (second : middle.Grows between later after) : m.Grows now later after :=
  ⟨second.aged, first.price.trans second.price⟩

/-- Every cluster under some change. -/
theorem Grows.of_map {after : Master} {change : Cluster → Cluster}
    (clusters : after.clusters.rows = m.clusters.rows.map change)
    (each : ∀ c ∈ m.clusters.rows, c.Grows now later (change c)) : m.Grows now later after := by
  constructor
  · intro c member
    rw [clusters] at member
    obtain ⟨old, inside, rfl⟩ := List.mem_map.mp member
    exact (each old inside).aged
  · unfold Master.price
    rw [clusters, List.map_map]
    exact List.sum_le_sum fun c inside => (each c inside).price

/-- One cluster under some change. -/
theorem Aged.update (aged : m.Aged now) (order : now ≤ later) {after : Master} {cluster : String}
    {change : Cluster → Cluster}
    (clusters : after.clusters.rows = m.clusters.rows.map fun c => if c.clusterAlias = cluster then change c else c)
    (changed : ∀ c, m.clusters.get? cluster = some c → c.Aged now → c.Grows now later (change c)) :
    m.Grows now later after := by
  refine Grows.of_map clusters fun c member => ?_
  split
  · rename_i here
    exact changed c (here ▸ Table.get?_of_mem member) (aged c member)
  · exact (aged c member).grows_of_eq order rfl rfl

theorem Aged.grows_of_eq (aged : m.Aged now) (order : now ≤ later) {after : Master}
    (clusters : after.clusters = m.clusters) : m.Grows now later after :=
  Grows.of_map (by rw [clusters]; exact (List.map_id _).symm) fun c member => (aged c member).grows_of_eq order rfl rfl

theorem Aged.decideWithMovingAverage (aged : m.Aged now) (order : now ≤ later) (decision : Decision) :
    m.Grows now later (m.decideWithMovingAverage decision) :=
  Grows.of_map rfl fun c member => (aged c member).decided order decision

theorem Aged.handOut (aged : m.Aged now) (order : now ≤ later) (index : Nat) (nextJob : Job) :
    m.Grows now later (m.handOut index origin nextJob) := by
  refine aged.update order rfl fun c _ old => ?_
  exact old.withWorker order rfl rfl fun _ _ past => past.grows_of_eq order rfl rfl rfl

theorem Aged.setNode (aged : m.Aged now) (order : now ≤ later) (nextJob : Option Job) :
    m.Grows now later (m.setNode origin nextJob) := by
  cases nextJob with
  | none => exact aged.grows_of_eq order rfl
  | some job => exact aged.update order rfl fun _ _ old => old.grows_of_eq order rfl rfl

/-- A node that is let go is one that still is due a job. -/
theorem Aged.releaseOrNext (aged : m.Aged now) {turn : Turn} (order : now ≤ turn.releaseTime)
    (books : Ledger start m (dueAt origin)) {result : Master} {nextJob : Option Job}
    (run : m.releaseOrNext turn origin = .ok (result, nextJob)) : m.Grows now turn.releaseTime result := by
  unfold Master.releaseOrNext at run
  split at run
  · cases run
    refine aged.update order rfl fun c found old => ?_
    have owes : c.Owes [origin.node] := by
      have owed := books.owes c (Table.get?_mem found)
      rwa [Table.get?_key found, dueAt, if_pos rfl] at owed
    obtain ⟨ws, known, busy⟩ := owes.worker
    have finished : c.Grows now turn.releaseTime (c.finish origin.node turn.releaseTime) :=
      old.finish order fun ws' known' => Option.some.inj (known.symm.trans known') ▸ busy
    exact finished.trans (finished.aged.withWorker le_rfl rfl rfl fun _ _ past => past.grows_of_eq le_rfl rfl rfl rfl)
  · unfold Master.findNextJob at run
    dsimp only at run
    split at run
    · cases run
    · cases run
      exact aged.handOut order _ _

theorem Aged.handleJobRequest (aged : m.Aged now) {turn : Turn} (asked : now ≤ turn.requestTime)
    (order : turn.requestTime ≤ turn.releaseTime) (books : Ledger start m settled) (lease : m.Lease origin)
    {result : Master} {nextJob : Option Job} (run : m.handleJobRequest turn origin = .ok (result, nextJob)) :
    m.Grows now turn.releaseTime result := by
  rcases handleJobRequest_cases lease run with ⟨rfl, rfl⟩ | ⟨c, found, ⟨absent, run⟩ | ⟨ws, known, ended, run⟩⟩
  · exact aged.update (asked.trans order) rfl fun _ _ old => old.terminateWorker (asked.trans order) _ _
  · have entered : m.Grows now turn.requestTime (m.enroll turn origin) := by
      refine aged.update asked rfl fun c' found' old => ?_
      cases found.symm.trans found'
      exact old.enroll asked absent _ _
    exact entered.trans (entered.aged.releaseOrNext order (books.enroll found absent turn) run)
  · have entered : m.Grows now turn.requestTime (m.reenroll turn origin) := by
      refine aged.update asked rfl fun c' found' old => ?_
      cases found.symm.trans found'
      exact old.reenroll asked known ended _
    exact entered.trans (entered.aged.releaseOrNext order (books.reenroll found known ended turn) run)

theorem Aged.handleJobResult (aged : m.Aged now) {turn : Turn} (order : now ≤ turn.releaseTime)
    (books : Ledger start m settled) (starts : start.Starts) {received : JobResult} (holds : m.Holds received origin)
    {result : Master} {nextJob : Option Job} (run : m.handleJobResult turn received origin = .ok (result, nextJob)) :
    m.Grows now turn.releaseTime result := by
  obtain ⟨c, job, found, held, sent⟩ := holds
  simp only [Master.handleJobResult, found] at run
  split at run
  · cases run
  · have booked : m.Grows now now (m.finishJob received origin (c.getJob received)) :=
      aged.update le_rfl rfl fun _ _ old => old.returned le_rfl _ _
    have decided := booked.aged.decideWithMovingAverage le_rfl turn.decision
    have due := (books.finishJob starts found held sent).decideWithMovingAverage turn.decision
    exact (booked.trans decided).trans (decided.aged.releaseOrNext order due run)

/-- A failed node that loses a job was working. -/
theorem Aged.requeue (aged : m.Aged now) (order : now ≤ later) (books : Ledger start m settled) {cluster : String}
    {c : Cluster} (found : m.clusters.get? cluster = some c) (node : String) :
    m.Grows now later (m.requeue c node later) := by
  unfold Master.requeue
  split
  · exact aged.grows_of_eq order rfl
  rename_i job failed
  refine aged.update order rfl fun c' found' old => ?_
  have same : c' = c := m.clusters.unique (Table.get?_mem found') (Table.get?_mem found) (Table.get?_key found')
  subst same
  have owes : c'.Owes [] := books.owes c' (Table.get?_mem found)
  obtain ⟨ws, ⟨stored, busy, sent⟩, _⟩ := owes.holder (List.mem_of_find?_eq_some failed)
  have on : job.node = some node := by simpa using List.find?_some failed
  have here : ws.node = node := Option.some.inj (sent.symm.trans on)
  have finished : c'.Grows now later (c'.finish node later) := old.finish order fun ws' known => by
    cases (here ▸ Table.get?_of_mem stored).symm.trans known
    exact busy
  exact finished.trans (finished.aged.grows_of_eq le_rfl rfl rfl)

theorem Aged.handleLostConnections (lost : List (IbisIdentifier × Int)) {m result : Master} {now : Int}
    (aged : m.Aged now) (order : (now :: (lost.map Prod.snd ++ [later])).Pairwise (· ≤ ·))
    (books : Ledger start m settled) (run : Master.handleLostConnections lost m = .ok result) :
    m.Grows now later result := by
  induction lost generalizing m now with
  | nil =>
    cases run
    exact aged.grows_of_eq (by simpa using order) rfl
  | cons report rest ih =>
    obtain ⟨before, tail⟩ := List.pairwise_cons.mp order
    have skipped : (now :: (rest.map Prod.snd ++ [later])).Pairwise (· ≤ ·) :=
      List.pairwise_cons.mpr ⟨fun time member => before time (List.mem_cons_of_mem _ member),
        (List.pairwise_cons.mp tail).2⟩
    unfold Master.handleLostConnections at run
    split at run
    · cases run
    rename_i c found
    split at run
    · exact ih aged skipped books run
    · split at run
      · exact ih aged skipped books run
      · have requeued := aged.requeue (before _ (List.mem_cons_self ..)) books found report.1.node
        exact requeued.trans (ih requeued.aged tail (books.requeue found _ _) run)

theorem Aged.areWeDone (aged : m.Aged now) {turn : Turn}
    (order : (now :: (turn.lost.map Prod.snd ++ [later])).Pairwise (· ≤ ·)) (books : Ledger start m settled)
    {result : Master} (run : m.areWeDone turn = .ok result) : m.Grows now later result := by
  unfold Master.areWeDone at run
  split at run
  · cases run
  rename_i after lost
  have grown := aged.handleLostConnections _ order books lost
  split at run
  · split at run
    · cases run
    · cases run
      exact grown.trans (grown.aged.grows_of_eq le_rfl rfl)
  · cases run
    exact grown.trans (grown.aged.grows_of_eq le_rfl rfl)

end Master

/-- The times of a turn are read one after the other from a clock that does
not go back. -/
structure Turn.InOrder (clock : Int) (turn : Turn) : Prop where
  read : ([clock, turn.requestTime, turn.releaseTime] ++ turn.lost.map Prod.snd ++ [turn.checkTime]).Pairwise (· ≤ ·)
  failed : turn.releaseTime ≤ turn.failTime ∧ turn.failTime ≤ turn.checkTime

namespace Master

variable {start m : Master}

/-- The price at the end of a turn is at least the price before it. -/
theorem Aged.runOnce (aged : m.Aged m.clock) {turn : Turn} (order : turn.InOrder m.clock)
    (books : Ledger start m settled) (starts : start.Starts)
    (proper : ∀ message, turn.message = some message → m.Proper message) {result : Master}
    (run : m.runOnce turn = .ok result) : m.Grows m.clock result.clock result := by
  obtain ⟨read, released, failed⟩ := order
  obtain ⟨first, read⟩ := List.pairwise_cons.mp read
  obtain ⟨second, read⟩ := List.pairwise_cons.mp read
  have asked : m.clock ≤ turn.requestTime := first _ (by simp)
  have answered : turn.requestTime ≤ turn.releaseTime := second _ (by simp)
  unfold Master.runOnce at run
  split at run
  · split at run
    · cases run
    rename_i after done
    cases run
    have polled : (m.clock :: (turn.lost.map Prod.snd ++ [turn.checkTime])).Pairwise (· ≤ ·) :=
      List.pairwise_cons.mpr ⟨fun time member => first time (by simp at member ⊢; tauto), (List.pairwise_cons.mp read).2⟩
    have grown := aged.areWeDone polled books done
    have decided := grown.aged.decideWithMovingAverage le_rfl turn.decision
    exact (grown.trans decided).trans (decided.aged.grows_of_eq le_rfl rfl)
  rename_i message received
  split at run
  · cases run
  rename_i after nextJob handled
  have grown : m.Grows m.clock turn.releaseTime after := by
    cases message with
    | jobRequest origin => exact aged.handleJobRequest asked answered books (proper _ received) handled
    | jobResult received' origin =>
      exact aged.handleJobResult (asked.trans answered) books starts (proper _ received) handled
  have settled : Ledger start (after.setNode message.origin nextJob) settled := by
    cases message with
    | jobRequest origin => exact books.handleJobRequest starts (proper _ received) handled
    | jobResult received' origin => exact books.handleJobResult starts (proper _ received) handled
  have sent : m.Grows m.clock turn.releaseTime (after.setNode message.origin nextJob) :=
    grown.trans (grown.aged.setNode le_rfl nextJob)
  dsimp only at run
  split at run
  · split at run
    · cases run
    rename_i checked done
    cases run
    have polled := sent.trans (sent.aged.areWeDone read settled done)
    exact polled.trans (polled.aged.grows_of_eq le_rfl rfl)
  · unfold connectionFailed at run
    split at run
    · cases run
    rename_i requeued noted
    split at noted
    · cases noted
    rename_i c found
    cases noted
    cases run
    have lost := sent.trans (sent.aged.requeue released settled found message.origin.node)
    exact lost.trans (lost.aged.grows_of_eq failed rfl)
  · split at run
    · cases run
    rename_i checked done
    cases run
    have polled := sent.trans (sent.aged.areWeDone read settled done)
    exact polled.trans (polled.aged.grows_of_eq le_rfl rfl)

theorem Starts.aged (starts : start.Starts) (now : Int) : start.Aged now := by
  intro c member ws inside
  rw [(starts.idle c member).2.1] at inside
  cases inside

/-- Requests may come from any node, results from the nodes that hold the jobs. -/
def reports (m : Master) (turn : Turn) : Bool :=
  match turn.message with
  | some (.jobResult received origin) => m.holds received origin
  | _ => true

/-- A request from a node whose worker is unfinished finds no pending node, so
that the node is dismissed. -/
def dismisses (m : Master) (turn : Turn) : Bool :=
  match turn.message with
  | some (.jobRequest origin) =>
    (m.worker origin).all WorkerStats.isFinished ||
      (m.clusters.get? origin.cluster).any fun c => c.pendingNodes = 0
  | _ => true

theorem proper_of_dismisses {turn : Turn} (reports : m.reports turn = true) (dismisses : m.dismisses turn = true)
    (message : Message) (received : turn.message = some message) : m.Proper message := by
  unfold Master.reports at reports
  unfold Master.dismisses at dismisses
  rw [received] at reports dismisses
  cases message with
  | jobRequest origin =>
    intro c ws found known busy
    have entry : m.worker origin = some ws := by rw [worker, found, Option.bind_some, known]
    simpa [entry, found, WorkerStats.isFinished, busy] using dismisses
  | jobResult received origin => exact holds_iff.mp reports

/-- A turn in which messages come as they may, a restarted node is dismissed
and time does not go back. -/
def Restartable (m : Master) (turn : Turn) : Prop :=
  turn.InOrder m.clock ∧ m.reports turn = true ∧ m.dismisses turn = true

/-- If every restarted node that asks for a job finds no pending node in its
cluster, every reachable state keeps its books, and the price never falls. -/
theorem restarts_conserved {turns : List Turn} (starts : start.Starts)
    (run : Run (Guarded Restartable Step) start turns m) :
    Conserved start m ∧ ∀ {later : List Turn} {after : Master}, Run (Guarded Restartable Step) m later after →
      m.price m.clock ≤ after.price after.clock := by
  have kept {before after : Master} {turn : Turn} (old : Ledger start before settled ∧ before.Aged before.clock)
      (taken : Guarded Restartable Step before turn after) :
      (Ledger start after settled ∧ after.Aged after.clock) ∧
        before.price before.clock ≤ after.price after.clock := by
    obtain ⟨⟨order, reports, dismisses⟩, _, ran⟩ := taken
    have proper := proper_of_dismisses reports dismisses
    have grown := old.2.runOnce order old.1 starts proper ran
    exact ⟨⟨old.1.runOnce starts proper ran, grown.aged⟩, grown.price⟩
  have here : Ledger start m settled ∧ m.Aged m.clock :=
    run.invariant ⟨starts.ledger, starts.aged _⟩ fun old taken => (kept old taken).1
  refine ⟨here.1.conserved starts, fun later => ?_⟩
  exact later.monotone here (fun old taken => (kept old taken).1) fun old taken => (kept old taken).2

end Master

instance (clock : Int) (turn : Turn) : Decidable (turn.InOrder clock) :=
  decidable_of_iff (([clock, turn.requestTime, turn.releaseTime] ++ turn.lost.map Prod.snd ++
    [turn.checkTime]).Pairwise (· ≤ ·) ∧ turn.releaseTime ≤ turn.failTime ∧ turn.failTime ≤ turn.checkTime)
    ⟨fun both => ⟨both.1, both.2⟩, fun order => ⟨order.read, order.failed⟩⟩

/-- A node restarts while its cluster waits for another. -/
def firstRequest : Turn := quietTurn 1000 (.jobRequest ⟨"das", "n1"⟩)

def secondRequest : Turn := { quietTurn 2000 (.jobRequest ⟨"das", "n1"⟩) with lost := [(⟨"das", "n1"⟩, 2000)] }

/-- A request from a node that still holds a job, followed by the report of
its loss, leaves a job with a finished worker and counts a node that is gone. -/
theorem restart_counted_twice :
    ¬ ∀ (start before after : Master) (turns : List Turn) (turn : Turn) (origin : IbisIdentifier), start.Starts →
      Run (Guarded (fun m turn => turn.InOrder m.clock ∧ m.reports turn = true) Master.Step) start turns before →
      Guarded (fun m turn => turn.InOrder m.clock ∧ m.reports turn = true) Master.Step before turn after →
      turn.message = some (.jobRequest origin) → (before.worker origin).any (fun ws => !ws.isFinished) = true →
      origin ∈ turn.lost.map Prod.fst → Master.Conserved start after := by
  intro conserved
  have asked : Guarded (fun m turn => turn.InOrder m.clock ∧ m.reports turn = true) Master.Step twoTasks firstRequest
      (twoTasks.next firstRequest) :=
    ⟨by decide +kernel, Master.step_next (by decide +kernel) (by decide +kernel)⟩
  have restarted : Guarded (fun m turn => turn.InOrder m.clock ∧ m.reports turn = true) Master.Step
      (twoTasks.next firstRequest) secondRequest ((twoTasks.next firstRequest).next secondRequest) :=
    ⟨by decide +kernel, Master.step_next (by decide +kernel) (by decide +kernel)⟩
  have books := conserved _ _ _ _ _ ⟨"das", "n1"⟩ twoTasks_starts (Run.single asked) restarted rfl (by decide +kernel)
    (by decide)
  exact absurd books.crtNodes (by decide +kernel)

/-- Both nodes have come when one of them restarts, so it is dismissed. -/
def dismissingTurns : List Turn :=
  [quietTurn 1000 (.jobRequest ⟨"das", "n1"⟩), quietTurn 2000 (.jobRequest ⟨"das", "n2"⟩),
    { quietTurn 3000 (.jobRequest ⟨"das", "n1"⟩) with lost := [(⟨"das", "n1"⟩, 3000)] }]

theorem dismissingTurns_conserved : Master.Conserved twoTasks (dismissingTurns.foldl Master.next twoTasks) := by
  have run : Run (Guarded Master.Restartable Master.Step) twoTasks dismissingTurns
      (dismissingTurns.foldl Master.next twoTasks) := by
    refine .next (.next (.next .start ⟨⟨?_, ?_, ?_⟩, Master.step_next ?_ ?_⟩)
      ⟨⟨?_, ?_, ?_⟩, Master.step_next ?_ ?_⟩) ⟨⟨?_, ?_, ?_⟩, Master.step_next ?_ ?_⟩ <;> decide +kernel
  exact (Master.restarts_conserved twoTasks_starts run).1

end ConPaaS
