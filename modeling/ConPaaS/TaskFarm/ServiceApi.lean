import ConPaaS.Lib.Transition
import Mathlib.Data.Rat.Defs
import Mathlib.Algebra.Order.Ring.Rat
import Mathlib.Tactic.MkIffOfInductiveProp

namespace ConPaaS

open Transition

/-- The values the service gives to `State.state`. -/
inductive BatsStatus
  | running | stopped | adapting
  deriving DecidableEq, Repr

inductive BatsMode
  | na | demo | real
  deriving DecidableEq, Repr

inductive BatsPhase
  | na | sampling | samplingReady | finishedWhileSampling | executing | finished
  deriving DecidableEq, Repr

/-- `serviceState`, the `State` that the service and the masters share. -/
structure BatsState where
  state : BatsStatus
  mode : BatsMode
  phase : BatsPhase
  noTotalTasks : Nat
  noCompletedTasks : Nat
  moneySpent : ℚ
  moneySpentSampling : ℚ
  deriving DecidableEq, Repr

inductive MethodReport
  | success (message : String)
  | error (message : String)
  deriving DecidableEq, Repr

def MethodReport.isError : MethodReport → Bool
  | .success _ => false
  | .error _ => true

/-- How `serviceBoT.terminate()` ends. -/
inductive Termination
  | workers (terminated : Nat)
  | ioException (message : String)
  | otherException
  deriving DecidableEq, Repr

/-- The requests, with what the service finds when it handles them: the tasks
of the bag if the file can be read, the clusters of the configuration, and the
schedules in the file that is asked for if there is one. -/
inductive BatsRequest
  | startSampling (tasks : Option Nat) (clusters : Except String Nat)
  | startExecution (schedules : Option (Except String Nat)) (scheduleNo : Int)
  | terminateWorkers (ending : Termination)

/-- `BatsServiceApiImpl`. The objects assigned to `serviceBoT` are numbered
from 1, and 0 is null. `schedList` tells whether the demo has schedules, and
`active` counts the runs that go on: the threads of the service and the timers
of the demo. -/
structure BatsServiceApi where
  serviceState : BatsState
  serviceBoT : Nat
  schedList : Bool
  active : Nat
  deriving DecidableEq, Repr

/-- `calculateSampleSize`. -/
def calculateSampleSize (zeta delta : ℚ) (tasks : Nat) : Nat :=
  (tasks * zeta ^ 2 / (zeta ^ 2 + 2 * ((tasks : ℚ) - 1) * delta ^ 2)).ceil.toNat

/-- `isBagBigEnoughForReplication` and `isBagBigEnoughForSampling`. -/
def isBagBigEnough (zeta delta : ℚ) (tasks clusters : Nat) : Bool :=
  7 < calculateSampleSize zeta delta tasks && 2 * (calculateSampleSize zeta delta tasks * clusters) ≤ tasks

namespace BatsServiceApi

def withState (s : BatsServiceApi) (state : BatsStatus) : BatsServiceApi :=
  { s with serviceState := { s.serviceState with state } }

def withPhase (s : BatsServiceApi) (phase : BatsPhase) : BatsServiceApi :=
  { s with serviceState := { s.serviceState with phase } }

def withTasks (s : BatsServiceApi) (noTotalTasks noCompletedTasks : Nat) : BatsServiceApi :=
  { s with serviceState := { s.serviceState with noTotalTasks, noCompletedTasks } }

/-- Another object is assigned to `serviceBoT`. -/
def withRunner (s : BatsServiceApi) : BatsServiceApi := { s with serviceBoT := s.serviceBoT + 1 }

/-- A run goes on from now on. -/
def started (s : BatsServiceApi) : BatsServiceApi := { s.withState .adapting with active := s.active + 1 }

/-- `new BoTRunner`, assigned to `serviceBoT`: the counters are written before
the clusters are read. -/
def newBoTRunner (s : BatsServiceApi) (tasks : Option Nat) (clusters : Except String Nat) :
    Except String (Nat × Nat) × BatsServiceApi :=
  match tasks with
  | none => (.error "NullPointerException", s)
  | some tasks =>
    match clusters with
    | .error error => (.error error, s.withTasks tasks 0)
    | .ok 0 => (.error "Read 0 clusters. Need at least 1 cluster to run BoT", s.withTasks tasks 0)
    | .ok (clusters + 1) => (.ok (tasks, clusters + 1), (s.withTasks tasks 0).withRunner)

/-- `DemoWrapper.start_sampling`. -/
def demoStartSampling (s : BatsServiceApi) (tasks : Option Nat) : BatsServiceApi × MethodReport :=
  if s.serviceState.state = .adapting then (s, .error "Sampling failed! Service already running.")
  else
    match tasks with
    | none | some 0 => (s.withState .running, .error "No tasks found.")
    | some (tasks + 1) =>
      ((s.withTasks (tasks + 1) s.serviceState.noCompletedTasks).started, .success "Sampling started.")

/-- `start_sampling`. -/
def startSampling (zeta delta : ℚ) (s : BatsServiceApi) (tasks : Option Nat) (clusters : Except String Nat) :
    BatsServiceApi × MethodReport :=
  let s := s.withPhase .sampling
  if s.serviceState.mode = .demo then s.demoStartSampling tasks
  else
    match s.newBoTRunner tasks clusters with
    | (.error error, s) => (s, .error error)
    | (.ok (tasks, clusters), s) =>
      if !isBagBigEnough zeta delta tasks clusters then (s, .error "BoT is too small")
      else if s.serviceState.state = .adapting then (s, .error "Sampling failed! Service already running.")
      else (s.started, .success "Sampling started.")

/-- `DemoWrapper.start_execution`. The first element of `schedList` is read
when the state is written already. -/
def demoStartExecution (s : BatsServiceApi) : BatsServiceApi × MethodReport :=
  if s.serviceState.state = .adapting then (s, .error "Sampling failed! Service already running.")
  else if !s.schedList then (s.withState .adapting, .error "Index: 0, Size: 0")
  else (s.started, .success "Execution started.")

/-- `new Executor`, for a file with schedules. -/
def newExecutor (schedules : Except String Nat) (scheduleNo : Int) : Except String Unit :=
  match schedules with
  | .error error => .error ("Unable to deserialize the schedules from file.\n" ++ error)
  | .ok size =>
    if scheduleNo < 0 ∨ size ≤ scheduleNo then
      .error ("Invalid schedule number. Schedules are from 0 to " ++ toString ((size : Int) - 1) ++
        "Usage: list|<number> file ")
    else .ok ()

/-- `start_execution`. -/
def startExecution (s : BatsServiceApi) (schedules : Option (Except String Nat)) (scheduleNo : Int) :
    BatsServiceApi × MethodReport :=
  let s := s.withPhase .executing
  if s.serviceState.mode = .demo then s.demoStartExecution
  else if s.serviceState.noCompletedTasks = s.serviceState.noTotalTasks then
    (s, .error "Execution failed! Service has already executed all tasks.")
  else
    match schedules with
    | none => (s, .error "Execution failed! No schedules file present.")
    | some schedules =>
      if s.serviceState.state = .adapting then (s, .error "Execution failed! Service already running.")
      else
        match newExecutor schedules scheduleNo with
        | .error error => (s.withState .stopped, .error error)
        | .ok () => (s.withRunner.started, .success "Ok.")

/-- `terminate_workers`. The thread of the run goes on. -/
def terminateWorkers (s : BatsServiceApi) (ending : Termination) : BatsServiceApi × MethodReport :=
  if s.serviceState.mode = .demo then (s, .success "Ok.")
  else
    match s.serviceBoT, ending with
    | 0, _ => (s.withState .stopped, .success "0\nOk.")
    | _ + 1, .workers terminated => (s.withState .stopped, .success (toString terminated ++ "\nOk."))
    | _ + 1, .ioException message => (s, .error message)
    | _ + 1, .otherException => (s, .success "Ok.")

def request (zeta delta : ℚ) (s : BatsServiceApi) : BatsRequest → BatsServiceApi × MethodReport
  | .startSampling tasks clusters => s.startSampling zeta delta tasks clusters
  | .startExecution schedules scheduleNo => s.startExecution schedules scheduleNo
  | .terminateWorkers ending => s.terminateWorkers ending

end BatsServiceApi

/-- What happens at the service: a request, another mode, the progress that
the masters and the demo write into `serviceState`, and the end of a run. -/
inductive BatsEvent
  | request (request : BatsRequest)
  | setServiceMode (mode : BatsMode)
  | progress (phase : BatsPhase) (noTotalTasks noCompletedTasks : Nat) (moneySpent moneySpentSampling : ℚ)
      (schedList : Bool)
  | ended

namespace BatsServiceApi

def handle (zeta delta : ℚ) (s : BatsServiceApi) : BatsEvent → Option BatsServiceApi
  | .request request => some (s.request zeta delta request).1
  | .setServiceMode mode => some { s with serviceState := { s.serviceState with mode } }
  | .progress phase noTotalTasks noCompletedTasks moneySpent moneySpentSampling schedList =>
    some
      { s with
        serviceState :=
          { s.serviceState with phase, noTotalTasks, noCompletedTasks, moneySpent, moneySpentSampling }
        schedList }
  | .ended => if s.active = 0 then none else some { s.withState .running with active := s.active - 1 }

def Step (zeta delta : ℚ) (before : BatsServiceApi) (event : BatsEvent) (after : BatsServiceApi) : Prop :=
  before.handle zeta delta event = some after

/-- The service when it comes up. -/
def up : BatsServiceApi := ⟨⟨.running, .na, .na, 0, 0, 0, 0⟩, 0, false, 0⟩

/-- Two states that show the same phase and state, runner, tasks and money. -/
@[mk_iff]
structure Unchanged (before after : BatsServiceApi) : Prop where
  phase : after.serviceState.phase = before.serviceState.phase
  state : after.serviceState.state = before.serviceState.state
  runner : after.serviceBoT = before.serviceBoT
  totalTasks : after.serviceState.noTotalTasks = before.serviceState.noTotalTasks
  completedTasks : after.serviceState.noCompletedTasks = before.serviceState.noCompletedTasks
  money : after.serviceState.moneySpent = before.serviceState.moneySpent
  moneySampling : after.serviceState.moneySpentSampling = before.serviceState.moneySpentSampling

/-- The requests that start a run. -/
def Startable (zeta delta : ℚ) (s : BatsServiceApi) : BatsRequest → Prop
  | .startSampling tasks clusters =>
    s.serviceState.state ≠ .adapting ∧
      if s.serviceState.mode = .demo then ∃ number, tasks = some (number + 1)
      else ∃ number size, tasks = some number ∧ clusters = .ok (size + 1) ∧
        isBagBigEnough zeta delta number (size + 1) = true
  | .startExecution schedules scheduleNo =>
    s.serviceState.state ≠ .adapting ∧
      if s.serviceState.mode = .demo then s.schedList = true
      else s.serviceState.noCompletedTasks ≠ s.serviceState.noTotalTasks ∧
        ∃ size : Nat, schedules = some (.ok size) ∧ 0 ≤ scheduleNo ∧ scheduleNo < size
  | .terminateWorkers _ => False

/-- What a refused request writes before it is refused is there already. -/
def Harmless (s : BatsServiceApi) : BatsRequest → Prop
  | .startSampling tasks clusters =>
    s.serviceState.phase = .sampling ∧
      if s.serviceState.mode = .demo then s.serviceState.state ≠ .stopped
      else ∀ number, tasks = some number →
        s.serviceState.noTotalTasks = number ∧ s.serviceState.noCompletedTasks = 0 ∧ ∀ size, clusters ≠ .ok (size + 1)
  | .startExecution schedules _ =>
    s.serviceState.phase = .executing ∧
      (s.serviceState.state = .adapting ∨ s.serviceState.mode ≠ .demo ∧
        (s.serviceState.state = .stopped ∨ s.serviceState.noCompletedTasks = s.serviceState.noTotalTasks ∨
          schedules = none))
  | .terminateWorkers _ => True

variable {zeta delta : ℚ} {s before after : BatsServiceApi} {event : BatsEvent} {phase : BatsPhase}

theorem unchanged_withPhase : Unchanged s (s.withPhase phase) ↔ s.serviceState.phase = phase := by
  simp [unchanged_iff, withPhase, eq_comm]

theorem unchanged_withState {state : BatsStatus} : Unchanged s ((s.withPhase phase).withState state) ↔
    s.serviceState.phase = phase ∧ s.serviceState.state = state := by
  simp [unchanged_iff, withPhase, withState, eq_comm]

theorem unchanged_withTasks {total completed : Nat} : Unchanged s ((s.withPhase phase).withTasks total completed) ↔
    s.serviceState.phase = phase ∧ s.serviceState.noTotalTasks = total ∧ s.serviceState.noCompletedTasks = completed := by
  simp [unchanged_iff, withPhase, withTasks, eq_comm]

/-- What a request comes to: it starts a run, or it starts none and leaves the
state alone in the harmless case only. -/
def Settles (zeta delta : ℚ) (s : BatsServiceApi) (request : BatsRequest) (result : BatsServiceApi × MethodReport) : Prop :=
  Startable zeta delta s request ∧ result.1.active = s.active + 1 ∧ result.2.isError = false ∨
    ¬Startable zeta delta s request ∧ result.1.active = s.active ∧
      ((result.2.isError = true → Unchanged s result.1) ↔ Harmless s request)

/-- A request that is refused. -/
theorem Settles.refused {request : BatsRequest} {message : String} (starts : ¬Startable zeta delta s request)
    (runs : after.active = s.active) (left : Unchanged s after ↔ Harmless s request) :
    Settles zeta delta s request (after, .error message) :=
  Or.inr ⟨starts, runs, by rw [← left]; exact forall_prop_of_true rfl⟩

theorem demoStartSampling_settles {tasks : Option Nat} {clusters : Except String Nat}
    (demo : s.serviceState.mode = .demo) :
    Settles zeta delta s (.startSampling tasks clusters) ((s.withPhase .sampling).demoStartSampling tasks) := by
  have empty : tasks = none ∨ tasks = some 0 → s.serviceState.state ≠ .adapting →
      Settles zeta delta s (.startSampling tasks clusters)
        ((s.withPhase .sampling).withState .running, .error "No tasks found.") := by
    intro missing idle
    refine .refused ?_ rfl ?_
    · rintro ⟨-, started⟩
      simp only [demo, if_true] at started
      obtain ⟨number, given⟩ := started
      rcases missing with missing | missing <;> cases missing.symm.trans given
    · rw [unchanged_withState]
      simp only [Harmless, demo, if_true]
      cases given : s.serviceState.state with
      | adapting => exact absurd given idle
      | running => simp
      | stopped => simp
  unfold demoStartSampling
  split
  · rename_i busy
    replace busy : s.serviceState.state = .adapting := busy
    refine .refused (fun starts => starts.1 busy) rfl ?_
    simp [unchanged_withPhase, Harmless, demo, busy]
  · rename_i idle
    split
    · exact empty (Or.inl rfl) idle
    · exact empty (Or.inr rfl) idle
    · exact Or.inl ⟨⟨idle, by simp [demo]⟩, rfl, rfl⟩

theorem startSampling_settles (tasks : Option Nat) (clusters : Except String Nat) :
    Settles zeta delta s (.startSampling tasks clusters) (s.startSampling zeta delta tasks clusters) := by
  by_cases demo : s.serviceState.mode = .demo
  · rw [show s.startSampling zeta delta tasks clusters = (s.withPhase .sampling).demoStartSampling tasks from if_pos demo]
    exact demoStartSampling_settles demo
  · unfold startSampling
    rw [if_neg (show (s.withPhase .sampling).serviceState.mode ≠ .demo from demo)]
    unfold newBoTRunner
    cases tasks with
    | none =>
      refine .refused (by simp [Startable, demo]) rfl ?_
      simp [unchanged_withPhase, Harmless, demo]
    | some number =>
      rcases clusters with error | _ | size
      · refine .refused (by simp [Startable, demo]) rfl ?_
        simp [unchanged_withTasks, Harmless, demo]
      · refine .refused (by simp [Startable, demo]) rfl ?_
        simp [unchanged_withTasks, Harmless, demo]
      · have replaced : ¬Unchanged s (((s.withPhase .sampling).withTasks number 0).withRunner) := fun same =>
          absurd same.runner (Nat.succ_ne_self _)
        have exposed : ¬Harmless s (.startSampling (some number) (.ok (size + 1))) := by simp [Harmless, demo]
        simp only
        split
        · rename_i small
          refine .refused ?_ rfl (iff_of_false replaced exposed)
          simp_all [Startable]
        · rename_i big
          replace big : isBagBigEnough zeta delta number (size + 1) = true := by simpa using big
          split
          · rename_i busy
            exact .refused (fun starts => starts.1 busy) rfl (iff_of_false replaced exposed)
          · rename_i idle
            exact Or.inl ⟨⟨idle, by simp [demo, big]⟩, rfl, rfl⟩

theorem newExecutor_ok {schedules : Except String Nat} {scheduleNo : Int} :
    newExecutor schedules scheduleNo = .ok () ↔
      ∃ size : Nat, schedules = .ok size ∧ 0 ≤ scheduleNo ∧ scheduleNo < size := by
  unfold newExecutor
  cases schedules with
  | error error => simp
  | ok size =>
    by_cases wrong : scheduleNo < 0 ∨ size ≤ scheduleNo
    · simp only [wrong, if_true]
      refine iff_of_false nofun ?_
      rintro ⟨same, given, lower, upper⟩
      cases given
      omega
    · simp only [wrong, if_false, true_iff]
      exact ⟨size, rfl, by omega, by omega⟩

theorem startExecution_busy (schedules : Option (Except String Nat)) (scheduleNo : Int)
    (busy : s.serviceState.state = .adapting) :
    ∃ message, s.startExecution schedules scheduleNo = (s.withPhase .executing, .error message) := by
  have working : (s.withPhase .executing).serviceState.state = .adapting := busy
  by_cases demo : s.serviceState.mode = .demo
  · exact ⟨_, (if_pos demo).trans (if_pos working)⟩
  by_cases done : s.serviceState.noCompletedTasks = s.serviceState.noTotalTasks
  · exact ⟨_, (if_neg demo).trans (if_pos done)⟩
  · cases schedules with
    | none => exact ⟨_, (if_neg demo).trans (if_neg done)⟩
    | some schedules => exact ⟨_, (if_neg demo).trans ((if_neg done).trans (if_pos working))⟩

theorem startExecution_settles (schedules : Option (Except String Nat)) (scheduleNo : Int) :
    Settles zeta delta s (.startExecution schedules scheduleNo) (s.startExecution schedules scheduleNo) := by
  by_cases busy : s.serviceState.state = .adapting
  · obtain ⟨message, refused⟩ := startExecution_busy schedules scheduleNo busy
    rw [refused]
    refine .refused (fun starts => starts.1 busy) rfl ?_
    simp [unchanged_withPhase, Harmless, busy]
  by_cases demo : s.serviceState.mode = .demo
  · rw [show s.startExecution schedules scheduleNo = (s.withPhase .executing).demoStartExecution from if_pos demo]
    unfold demoStartExecution
    rw [if_neg (show (s.withPhase .executing).serviceState.state ≠ .adapting from busy)]
    split
    · rename_i empty
      replace empty : s.schedList = false := by simpa [withPhase] using empty
      refine .refused (by simp [Startable, demo, empty]) rfl ?_
      simp [unchanged_withState, Harmless, demo, busy]
    · rename_i given
      replace given : s.schedList = true := by simpa [withPhase] using given
      exact Or.inl ⟨⟨busy, by simp [demo, given]⟩, rfl, rfl⟩
  · unfold startExecution
    rw [if_neg (show (s.withPhase .executing).serviceState.mode ≠ .demo from demo)]
    split
    · rename_i done
      replace done : s.serviceState.noCompletedTasks = s.serviceState.noTotalTasks := done
      refine .refused (by simp [Startable, demo, done]) rfl ?_
      simp [unchanged_withPhase, Harmless, demo, done]
    rename_i left
    replace left : s.serviceState.noCompletedTasks ≠ s.serviceState.noTotalTasks := left
    cases schedules with
    | none =>
      refine .refused (by simp [Startable, demo]) rfl ?_
      simp [unchanged_withPhase, Harmless, demo]
    | some schedules =>
      simp only
      rw [if_neg (show (s.withPhase .executing).serviceState.state ≠ .adapting from busy)]
      cases created : newExecutor schedules scheduleNo with
      | error error =>
        refine .refused ?_ rfl ?_
        · rintro ⟨-, started⟩
          simp only [demo, if_false, Option.some.injEq] at started
          rw [newExecutor_ok.mpr started.2] at created
          cases created
        · simp [unchanged_withState, Harmless, demo, busy, left]
      | ok =>
        obtain ⟨size, rfl, bounds⟩ := newExecutor_ok.mp created
        refine Or.inl ⟨⟨busy, ?_⟩, rfl, rfl⟩
        simp only [demo, if_false]
        exact ⟨left, size, rfl, bounds⟩

theorem terminateWorkers_settles (ending : Termination) :
    Settles zeta delta s (.terminateWorkers ending) (s.terminateWorkers ending) := by
  have granted : ∀ {state message}, state.active = s.active →
      Settles zeta delta s (.terminateWorkers ending) (state, .success message) := fun runs =>
    Or.inr ⟨id, runs, iff_of_true nofun trivial⟩
  unfold terminateWorkers
  split
  · exact granted rfl
  · split
    · exact granted rfl
    · exact granted rfl
    · exact .refused id rfl (iff_of_true ⟨rfl, rfl, rfl, rfl, rfl, rfl, rfl⟩ trivial)
    · exact granted rfl

theorem request_settles (request : BatsRequest) :
    Settles zeta delta s request (s.request zeta delta request) := by
  cases request with
  | startSampling tasks clusters => exact startSampling_settles tasks clusters
  | startExecution schedules scheduleNo => exact startExecution_settles schedules scheduleNo
  | terminateWorkers ending => exact terminateWorkers_settles ending

/-- A request that starts a run finds none that goes on, and one that starts
none is harmless. -/
def Orderly (zeta delta : ℚ) (s : BatsServiceApi) : BatsEvent → Prop
  | .request request =>
    (Startable zeta delta s request → s.active = 0) ∧ (Startable zeta delta s request ∨ Harmless s request)
  | _ => True

theorem active_step (single : before.active ≤ 1) (orderly : Orderly zeta delta before event)
    (step : Step zeta delta before event after) : after.active ≤ 1 := by
  cases event with
  | request request =>
    cases step
    rcases request_settles request with ⟨starts, runs, -⟩ | ⟨-, runs, -⟩
    · rw [runs, orderly.1 starts]
    · exact runs.trans_le single
  | setServiceMode mode =>
    cases step
    exact single
  | progress =>
    cases step
    exact single
  | ended =>
    obtain ⟨-, same⟩ := Option.ite_none_left_eq_some.mp step
    cases same
    exact (Nat.sub_le _ _).trans single

/-- While every request is orderly, at most one run goes on and a request that
is answered with an error changes nothing. In such a state the next request
keeps to that exactly if it is orderly as well. -/
theorem requests_safe_iff {events : List BatsEvent} {current : BatsServiceApi}
    (run : Run (Guarded (Orderly zeta delta) (Step zeta delta)) up events current) :
    current.active ≤ 1 ∧ ∀ request,
      ((current.request zeta delta request).1.active ≤ 1 ∧
          ((current.request zeta delta request).2.isError = true →
            Unchanged current (current.request zeta delta request).1) ↔
        Orderly zeta delta current (.request request)) := by
  have single : current.active ≤ 1 :=
    run.guarded_invariant (Nat.zero_le 1) active_step
  refine ⟨single, fun request => ?_⟩
  rcases @request_settles zeta delta current request with
    ⟨starts, runs, granted⟩ | ⟨refused, runs, left⟩
  · simp [Orderly, starts, runs, granted]
  · simp [Orderly, refused, runs, single, left]

theorem bagOfThousand : isBagBigEnough (49 / 25) (1 / 4) 1000 1 = true := by decide +kernel

/-- A sampling that starts, is over and is followed by an execution. -/
def sampledThenExecuting : List BatsEvent :=
  [.setServiceMode .real, .request (.startSampling (some 1000) (.ok 1)), .progress .sampling 1000 30 5 5 false, .ended,
    .request (.startExecution (some (.ok 6)) 2)]

theorem sampledThenExecuting_safe : ∃ current, Run (Guarded (Orderly (49 / 25) (1 / 4)) (Step (49 / 25) (1 / 4))) up
    sampledThenExecuting current ∧ current.active ≤ 1 ∧ ∀ request,
      ((current.request (49 / 25) (1 / 4) request).1.active ≤ 1 ∧
          ((current.request (49 / 25) (1 / 4) request).2.isError = true →
            Unchanged current (current.request (49 / 25) (1 / 4) request).1) ↔
        Orderly (49 / 25) (1 / 4) current (.request request)) := by
  have sampling : Step (49 / 25) (1 / 4) ⟨⟨.running, .real, .na, 0, 0, 0, 0⟩, 0, false, 0⟩
      (.request (.startSampling (some 1000) (.ok 1))) ⟨⟨.adapting, .real, .sampling, 1000, 0, 0, 0⟩, 1, false, 1⟩ := by
    simp only [Step, handle, request, startSampling, newBoTRunner, withPhase, withTasks, withRunner, Nat.zero_add,
      bagOfThousand]
    rfl
  obtain ⟨current, run⟩ : ∃ current, Run (Guarded (Orderly (49 / 25) (1 / 4)) (Step (49 / 25) (1 / 4))) up
      sampledThenExecuting current :=
    ⟨_, .cons ⟨trivial, rfl⟩ (.cons ⟨⟨fun _ => rfl, Or.inl ⟨nofun, 1000, 0, rfl, rfl, bagOfThousand⟩⟩, sampling⟩
      (.cons ⟨trivial, rfl⟩ (.cons ⟨trivial, rfl⟩
        (.single ⟨⟨fun _ => rfl, Or.inl ⟨nofun, by decide, 6, rfl, by decide, by decide⟩⟩, rfl⟩))))⟩
  exact ⟨current, run, requests_safe_iff run⟩

/-- The same sampling is asked for again while it goes on. -/
def samplingGoingOn : List BatsEvent :=
  [.setServiceMode .real, .request (.startSampling (some 1000) (.ok 1)), .progress .sampling 1000 3 5 5 false]

theorem repeatedSampling_resets : ¬∀ (events : List BatsEvent) (current : BatsServiceApi),
    Run (Step (49 / 25) (1 / 4)) up events current → current.active ≤ 1 ∧ ∀ request,
      (current.request (49 / 25) (1 / 4) request).2.isError = true →
        Unchanged current (current.request (49 / 25) (1 / 4) request).1 := by
  intro safe
  obtain ⟨current, played⟩ : ∃ current, play (handle (49 / 25) (1 / 4)) up samplingGoingOn = some current :=
    Option.isSome_iff_exists.mp (by decide +kernel)
  have refused : ((play (handle (49 / 25) (1 / 4)) up samplingGoingOn).map fun s =>
      let after := s.request (49 / 25) (1 / 4) (.startSampling (some 1000) (.ok 1))
      (after.2.isError, s.serviceState.noCompletedTasks, after.1.serviceState.noCompletedTasks)) =
      some (true, 3, 0) := by decide +kernel
  rw [played, Option.map_some, Option.some.injEq, Prod.mk.injEq, Prod.mk.injEq] at refused
  have same := ((safe _ _ (Run.play played)).2 _ refused.1).completedTasks
  rw [refused.2.1, refused.2.2] at same
  cases same

end BatsServiceApi

end ConPaaS
