import ConPaaS.Lib.Transition
import ConPaaS.TaskFarm.Restart

namespace ConPaaS

open Transition

/-- What happens to a worker: the clock goes on, it is let go, it is taken
again, or some other operation of `WorkerStats` is called. -/
inductive LeaseEvent
  | elapse (now : Int)
  | workerFinished
  | reacquire
  | other (ws : WorkerStats)

/-- A worker at some time, beside a list of its leases that have ended, by
their lengths, and the start of the open one. -/
structure Leased where
  ws : WorkerStats
  now : Int
  ended : List Int
  begun : Option Int

namespace Leased

variable {s before after : Leased} {timeUnit startTime : Int} {event : LeaseEvent}

/-- A new worker on its first lease. -/
def create (node : String) (startTime : Int) (ii : IbisIdentifier) : Leased :=
  ⟨.create node startTime ii, startTime, [], some startTime⟩

/-- Leases begin and end in turn, at the time of the clock. -/
inductive Step (timeUnit : Int) : Leased → LeaseEvent → Leased → Prop
  | elapse {s : Leased} {later : Int} (order : s.now ≤ later) : Step timeUnit s (.elapse later) { s with now := later }
  | workerFinished {s : Leased} {begin : Int} (busy : s.begun = some begin) :
      Step timeUnit s .workerFinished
        { s with ws := s.ws.workerFinished s.now, ended := s.ended ++ [s.now - begin], begun := none }
  | reacquire {s : Leased} (free : s.begun = none) :
      Step timeUnit s .reacquire { s with ws := s.ws.reacquire timeUnit s.now, begun := some s.now }
  | other {s : Leased} {ws : WorkerStats} (done : ws.done = s.ws.done) (uptime : ws.uptime = s.ws.uptime)
      (startTime : ws.startTime = s.ws.startTime) : Step timeUnit s (.other ws) { s with ws }

/-- The time units charged. -/
def charged (timeUnit : Int) (s : Leased) : Int := atus (s.ws.getUptime s.now) timeUnit

/-- The time units of the leases that have ended, each rounded up. -/
def endedUnits (timeUnit : Int) (s : Leased) : Int := (s.ended.map fun length => atus length timeUnit).sum

/-- The time units of all leases, each rounded up. -/
def units (timeUnit : Int) (s : Leased) : Int :=
  s.endedUnits timeUnit + s.begun.elim 0 fun begin => atus (s.now - begin) timeUnit

/-- Whole time units before a time count as they are. -/
theorem atus_add (positive : 0 < timeUnit) (units length : Int) :
    atus (units * timeUnit * 60000 + length) timeUnit = units + atus length timeUnit := by
  have unit : (timeUnit : ℚ) ≠ 0 := by exact_mod_cast positive.ne'
  have split : ((units * timeUnit * 60000 + length : Int) : ℚ) / 60000 / timeUnit =
      (length : ℚ) / 60000 / timeUnit + units := by
    push_cast
    field_simp
    ring
  rw [atus, split, Int.ceil_add_intCast, atus, add_comm]

/-- A worker on a lease has its start and, in whole time units, the leases
before; without one it has the time from which these are rounded up. -/
structure Kept (timeUnit : Int) (s : Leased) : Prop where
  done : s.ws.done = s.begun.isNone
  open_ : ∀ begin, s.begun = some begin → s.ws.startTime = begin ∧ s.ws.uptime = s.endedUnits timeUnit * timeUnit * 60000
  closed : s.begun = none → atus s.ws.uptime timeUnit = s.endedUnits timeUnit

theorem Kept.create (node : String) (startTime : Int) (ii : IbisIdentifier) :
    Kept timeUnit (Leased.create node startTime ii) := by
  refine ⟨rfl, fun begin busy => ⟨Option.some.inj busy, ?_⟩, nofun⟩
  simp [Leased.create, WorkerStats.create, endedUnits]

theorem Kept.charged (kept : s.Kept timeUnit) (positive : 0 < timeUnit) : s.charged timeUnit = s.units timeUnit := by
  unfold Leased.charged WorkerStats.getUptime units
  rw [kept.done]
  cases lease : s.begun with
  | none => exact (kept.closed lease).trans (add_zero _).symm
  | some begin =>
    obtain ⟨start, uptime⟩ := kept.open_ begin lease
    rw [start, uptime]
    exact atus_add positive _ _

theorem Kept.step (kept : before.Kept timeUnit) (positive : 0 < timeUnit) (step : Step timeUnit before event after) :
    after.Kept timeUnit := by
  cases step with
  | elapse _ => exact ⟨kept.done, kept.open_, kept.closed⟩
  | @workerFinished begin busy =>
    obtain ⟨start, uptime⟩ := kept.open_ begin busy
    refine ⟨rfl, (by rintro _ ⟨⟩), fun _ => ?_⟩
    rw [WorkerStats.workerFinished, start, uptime, atus_add positive]
    simp [endedUnits]
  | reacquire free =>
    refine ⟨rfl, fun begin busy => ⟨Option.some.inj busy, ?_⟩, by rintro ⟨⟩⟩
    show atus before.ws.uptime timeUnit * timeUnit * 60000 = _
    rw [kept.closed free]
    rfl
  | other done uptime start =>
    refine ⟨done.trans kept.done, fun begin busy => ?_, fun free => ?_⟩
    · rw [uptime, start]
      exact kept.open_ begin busy
    · rw [uptime]
      exact kept.closed free

/-- The leases never count for less. -/
theorem units_step (positive : 0 < timeUnit) (step : Step timeUnit before event after) :
    before.units timeUnit ≤ after.units timeUnit := by
  cases step with
  | elapse order =>
    refine add_le_add_right ?_ _
    cases lease : before.begun with
    | none => exact le_rfl
    | some begin => exact atus_mono positive (Int.sub_le_sub_right order begin)
  | workerFinished busy => simp [units, endedUnits, busy]
  | reacquire free => simp [units, endedUnits, free, atus]
  | other => exact le_rfl

theorem charged_leases (positive : 0 < timeUnit) {node : String} {ii : IbisIdentifier} {events : List LeaseEvent}
    (run : Run (Step timeUnit) (create node startTime ii) events s) :
    s.charged timeUnit = s.units timeUnit ∧
      ∀ later t, Run (Step timeUnit) s later t → s.charged timeUnit ≤ t.charged timeUnit := by
  have kept : s.Kept timeUnit := run.invariant (.create node startTime ii) fun held step => held.step positive step
  refine ⟨kept.charged positive, fun later t rest => ?_⟩
  have keptToo : t.Kept timeUnit := rest.invariant kept fun held step => held.step positive step
  rw [kept.charged positive, keptToo.charged positive]
  exact rest.monotone trivial (fun _ _ => trivial) fun _ step => units_step positive step

/-- A lease of 90 minutes and, after a pause, 30 minutes of another. -/
theorem twoLeases_run :
    ∃ s events, Run (Step 60) (create "node1" 0 ⟨"cluster1", "node1"⟩) events s ∧ s.ended = [5400000] ∧
      s.begun = some 12000000 ∧ s.now = 13800000 :=
  ⟨_, _, .cons (.elapse (show 0 ≤ 5400000 by decide)) (.cons (.workerFinished rfl)
    (.cons (.elapse (show 5400000 ≤ 12000000 by decide)) (.cons (.reacquire rfl)
      (.single (.elapse (show 12000000 ≤ 13800000 by decide)))))), rfl, rfl, rfl⟩

theorem twoLeases_charged :
    ∃ s events, Run (Step 60) (create "node1" 0 ⟨"cluster1", "node1"⟩) events s ∧ s.charged 60 = 3 := by
  obtain ⟨s, events, run, ended, begun, now⟩ := twoLeases_run
  refine ⟨s, events, run, (charged_leases (by decide) run).1.trans ?_⟩
  rw [units, endedUnits, ended, begun, now]
  decide +kernel

end Leased

end ConPaaS
