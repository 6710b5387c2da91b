import ConPaaS.Manager.States
import ConPaaS.Lib.Transition
import Mathlib.Data.Nat.Basic

namespace ConPaaS

open Keyed Transition

namespace ApplicationManager

variable {am after : ApplicationManager} {sid : Nat} {operation : Operation} {stage : Stage} {next : Option Stage}

/-- A stop leaves its service running only while the hook goes on. -/
theorem doStopService_running {remove : Bool} {outcome : Outcome} (service : sid ≠ 0)
    (step : am.doStopService sid remove stage outcome = some (after, next))
    (before : (am.object sid).state ≠ .running ∨ stage = .hook (some .running)) :
    (after.object sid).state ≠ .running ∨ next = some (.hook (some .running)) := by
  unfold doStopService at step
  split at step
  · split at step
    · split at step
      · cases step
        exact Or.inl (before.resolve_right (by rintro ⟨⟩))
      · cases step
        exact Or.inl (by simp [setState])
    · cases step
      exact Or.inl (before.resolve_right (by rintro ⟨⟩))
  · split at step
    · obtain ⟨-, same⟩ := hooked_some step
      cases same
      rename_i state given
      by_cases running : state = .running
      · exact Or.inr (by rw [running])
      · exact Or.inl (by simpa [setState] using running)
    · cases step
  · obtain ⟨-, same⟩ := hooked_some step
    cases same
    exact Or.inl (by simp [setState])
  · split at step
    · rename_i left raising
      cases step
      refine Or.inl (before.resolve_right ?_)
      rintro ⟨⟩
      rcases raising with none | failed
      · cases none
      · cases failed
    · cases step
  · rename_i nodes
    have shuffled : Shuffled sid am (forget [0] nodes am).1 := .forget sid nodes am (by simp)
    have resting := before.resolve_right (by rintro ⟨⟩)
    split at step
    · rename_i run
      cases step
      rw [run] at shuffled
      exact Or.inl (by rwa [shuffled.states])
    · rename_i run
      cases step
      rw [run] at shuffled
      exact Or.inl (by rwa [shuffled.states])
  · cases step
    have resting := before.resolve_right (by rintro ⟨⟩)
    refine Or.inl ?_
    unfold deregister
    split
    · dsimp only
      split
      · simpa [setState, service] using resting
      · exact resting
    · exact resting
  · cases step

end ApplicationManager

namespace Process

/-- What the state of the services protects: the operation in flight on a
service is the one accepted last, a service is at rest only while its operation
is about to end, and one that was stopped last does not run again. -/
structure Exclusive (p : Process) : Prop where
  fresh : ∀ thread ∈ p.threads.rows, thread.ticket < p.accepted.length
  latest : ∀ thread ∈ p.threads.rows, thread.service ≠ 0 →
    p.lastAccepted thread.service = some ⟨thread.ticket, thread.service, thread.operation⟩
  busy : ∀ thread ∈ p.threads.rows, thread.service ≠ 0 → thread.operation ≠ .removeService →
    thread.stage.late = false → (p.manager.object thread.service).state.settled = false
  stopped : ∀ sid ticket, sid ≠ 0 → p.lastAccepted sid = some ⟨ticket, sid, .stopService⟩ →
    (p.manager.object sid).state ≠ .running ∨
      ∃ thread ∈ p.threads.rows, thread.service = sid ∧ thread.stage = .hook (some .running)
  bounded : ∀ accepted ∈ p.accepted, accepted.service ≤ p.manager.serviceId
  instances : ∀ sid ∈ p.manager.instances, sid ≤ p.manager.serviceId

/-- The condition on a request: if it stops or removes a service, no operation
on it is in flight. If it tests the state of the service, the service is not
being removed, and no operation that is still in flight has set its state. -/
def Undisturbed (p : Process) : Event → Prop
  | .request request => ∀ sid operation, p.manager.request request = some (sid, operation) → sid ≠ 0 →
    ∀ thread ∈ p.threads.rows, thread.service = sid →
      operation ≠ .stopService ∧ operation ≠ .removeService ∧
        thread.operation ≠ .removeService ∧ thread.stage.late = false
  | _ => True

theorem Exclusive.start {p : Process} (starts : Starts p) : Exclusive p := by
  obtain ⟨instances, -, -, -, -, threads, accepted⟩ := starts
  refine ⟨?_, ?_, ?_, ?_, ?_, ?_⟩
  all_goals simp [threads, accepted, instances, lastAccepted]

/-- A request that starts an operation on a service finds none in flight. -/
theorem Exclusive.idle {p : Process} (exclusive : Exclusive p) {request : Request} {sid : Nat} {operation : Operation}
    (undisturbed : p.Undisturbed (.request request)) (started : p.manager.request request = some (sid, operation))
    (service : sid ≠ 0) : ∀ thread ∈ p.threads.rows, thread.service ≠ sid := by
  rintro thread member rfl
  obtain ⟨stop, remove, other, early⟩ := undisturbed _ _ started service thread member rfl
  have rest := (ApplicationManager.request_some started).2 stop remove
  rw [exclusive.busy thread member service other early] at rest
  cases rest

theorem lastAccepted_launch (p : Process) (sid other : Nat) (operation : Operation) :
    (p.launch sid operation).lastAccepted other =
      if sid = other then some ⟨p.accepted.length, sid, operation⟩ else p.lastAccepted other := by
  by_cases here : sid = other
  · simp [lastAccepted, launch, here]
  · simp [lastAccepted, launch, here]

/-- One step lemma: an operation that is accepted. -/
theorem Exclusive.launch {p : Process} (exclusive : Exclusive p) {sid : Nat} {operation : Operation}
    (registered : p.manager.registered sid = true)
    (idle : sid ≠ 0 → ∀ thread ∈ p.threads.rows, thread.service ≠ sid) : Exclusive (p.launch sid operation) := by
  have bound : sid ≤ p.manager.serviceId := by
    rcases (by simpa [ApplicationManager.registered] using registered) with rfl | member
    · exact Nat.zero_le _
    · exact exclusive.instances sid member
  have apart : ∀ thread ∈ p.threads.rows, thread.service ≠ 0 → sid ≠ thread.service := by
    intro thread member service same
    exact idle (same ▸ service) thread member same.symm
  refine ⟨?_, ?_, ?_, ?_, ?_, exclusive.instances⟩
  · intro thread member
    rcases (mem_launch exclusive.fresh).mp member with rfl | old
    · exact Nat.lt_succ_self _
    · exact (exclusive.fresh thread old).trans (Nat.lt_succ_self _)
  · intro thread member service
    rw [lastAccepted_launch]
    rcases (mem_launch exclusive.fresh).mp member with rfl | old
    · exact if_pos rfl
    · rw [if_neg (apart thread old service)]
      exact exclusive.latest thread old service
  · intro thread member service other early
    rcases (mem_launch exclusive.fresh).mp member with rfl | old
    · have marked : operation.marks sid = sid := by
        cases operation with
        | removeService => exact absurd rfl other
        | _ => rfl
      have unsettled : operation.mark.settled = false := by cases operation <;> rfl
      simpa [Process.launch, ApplicationManager.setState, marked] using unsettled
    · rw [launch_object p operation (apart thread old service).symm service]
      exact exclusive.busy thread old service other early
  · intro other ticket service last
    rw [lastAccepted_launch] at last
    split at last
    · rename_i here
      subst here
      cases last
      exact Or.inl (by simp [Process.launch, ApplicationManager.setState, Operation.marks, Operation.mark])
    · rename_i away
      rw [launch_object p operation (Ne.symm away) service]
      refine (exclusive.stopped other ticket service last).imp_right ?_
      rintro ⟨thread, member, running⟩
      exact ⟨thread, (mem_launch exclusive.fresh).mpr (Or.inr member), running⟩
  · intro accepted member
    rcases List.mem_cons.mp member with rfl | old
    · exact bound
    · exact exclusive.bounded accepted old

/-- Two threads of one service are one. -/
theorem Exclusive.single {p : Process} (exclusive : Exclusive p) {first second : Thread} (left : first ∈ p.threads.rows)
    (right : second ∈ p.threads.rows) (service : first.service ≠ 0) (same : first.service = second.service) :
    first = second := by
  have last := exclusive.latest first left service
  rw [same, exclusive.latest second right (same ▸ service), Option.some.injEq, Accepted.mk.injEq] at last
  exact p.threads.unique left right last.1.symm

/-- One step lemma: a thread that goes on. -/
theorem Exclusive.proceed {p : Process} (exclusive : Exclusive p) {thread : Thread} {outcome : Outcome}
    {manager : ApplicationManager} {next : Option Stage} (found : p.threads.get? thread.ticket = some thread)
    (step : p.manager.advance thread.service thread.operation thread.stage outcome = some (manager, next)) :
    Exclusive (p.proceed thread.ticket (manager, next)) := by
  have member := Table.get?_mem found
  have effect := ApplicationManager.advance_effect step
  have last : ∀ sid, (p.proceed thread.ticket (manager, next)).lastAccepted sid = p.lastAccepted sid := by
    intro sid
    rw [lastAccepted, proceed_accepted, lastAccepted]
  have apart : ∀ other ∈ p.threads.rows, other.ticket ≠ thread.ticket → other.service ≠ 0 →
      manager.object other.service = p.manager.object other.service := by
    intro other inside away service
    refine effect.others _ (fun same => away ?_) service
    rw [exclusive.single inside member service same]
  refine ⟨?_, ?_, ?_, ?_, ?_, ?_⟩
  · intro other inside
    rw [proceed_accepted]
    rcases (mem_proceed found).mp inside with ⟨old, -⟩ | ⟨stage, -, rfl⟩
    · exact exclusive.fresh other old
    · exact exclusive.fresh thread member
  · intro other inside service
    rw [last]
    rcases (mem_proceed found).mp inside with ⟨old, -⟩ | ⟨stage, -, rfl⟩
    · exact exclusive.latest other old service
    · exact exclusive.latest thread member service
  · intro other inside service kind early
    rw [proceed_manager]
    rcases (mem_proceed found).mp inside with ⟨old, away⟩ | ⟨stage, going, rfl⟩
    · rw [apart other old away service]
      exact exclusive.busy other old service kind early
    · obtain ⟨still, same⟩ := effect.early stage going early
      rw [same]
      exact exclusive.busy thread member service kind still
  · intro sid ticket service stopped
    rw [last] at stopped
    rw [proceed_manager]
    have before := exclusive.stopped sid ticket service stopped
    by_cases here : thread.service = sid
    · subst here
      rw [exclusive.latest thread member service, Option.some.injEq, Accepted.mk.injEq] at stopped
      rw [stopped.2.2] at step
      have running : (p.manager.object thread.service).state ≠ .running ∨ thread.stage = .hook (some .running) := by
        refine before.imp_right ?_
        rintro ⟨other, inside, same, running⟩
        rwa [← exclusive.single member inside service same.symm] at running
      refine (ApplicationManager.doStopService_running service step running).imp_right fun going => ?_
      exact ⟨{ thread with stage := .hook (some .running) }, (mem_proceed found).mpr (Or.inr ⟨_, going, rfl⟩), rfl, rfl⟩
    · rw [effect.others sid (Ne.symm here) service]
      refine before.imp_right ?_
      rintro ⟨other, inside, same, running⟩
      refine ⟨other, (mem_proceed found).mpr (Or.inl ⟨inside, fun ticket => here ?_⟩), same, running⟩
      rw [← same, p.threads.unique inside member ticket]
  · rw [proceed_accepted, proceed_manager, effect.serviceId]
    exact exclusive.bounded
  · rw [proceed_manager, effect.serviceId]
    exact fun sid inside => exclusive.instances sid (effect.kept inside)

theorem lastAccepted_mem {p : Process} {sid : Nat} {accepted : Accepted} (last : p.lastAccepted sid = some accepted) :
    accepted ∈ p.accepted ∧ accepted.service = sid :=
  ⟨List.mem_of_find?_eq_some last, by simpa using List.find?_some last⟩

/-- One step lemma: a service that is added. -/
theorem Exclusive.addService {p : Process} (exclusive : Exclusive p) (construction : Construction) :
    Exclusive { p with manager := p.manager.addService construction } := by
  have older : ∀ {sid : Nat} {accepted : Accepted}, p.lastAccepted sid = some accepted → sid ≤ p.manager.serviceId := by
    intro sid accepted last
    obtain ⟨member, rfl⟩ := lastAccepted_mem last
    exact exclusive.bounded accepted member
  refine ⟨exclusive.fresh, exclusive.latest, ?_, ?_, ?_, ApplicationManager.addService_instances exclusive.instances⟩
  · intro thread member service kind early
    have bound := older (exclusive.latest thread member service)
    dsimp only
    rw [ApplicationManager.addService_object construction service bound]
    exact exclusive.busy thread member service kind early
  · intro sid ticket service last
    dsimp only
    rw [ApplicationManager.addService_object construction service (older last)]
    exact exclusive.stopped sid ticket service last
  · exact fun accepted member =>
      (exclusive.bounded accepted member).trans (ApplicationManager.addService_serviceId construction)

/-- Every step that leaves the operations in flight undisturbed keeps them
exclusive. -/
theorem Exclusive.step {before after : Process} {event : Event} (exclusive : Exclusive before)
    (undisturbed : before.Undisturbed event) (step : Step before event after) : Exclusive after := by
  cases event with
  | addService construction =>
    cases step
    exact exclusive.addService _
  | request request =>
    unfold Step handle at step
    dsimp only at step
    split at step
    · cases step
      exact exclusive
    · rename_i started
      cases step
      exact exclusive.launch (ApplicationManager.request_some started).1 (exclusive.idle undisturbed started)
  | advance ticket outcome =>
    obtain ⟨thread, manager, next, found, -, advanced, rfl⟩ := step_advance.mp step
    exact exclusive.proceed found advanced

/-- Services under mutual exclusion. In every state of a run whose requests
disturb no operation in flight, each service has at most one background
operation, no step of a thread changes the state of a service unless its
operation is the one accepted last on it, so that no other can overwrite a stop,
and a service at rest whose last operation was a stop is not running. -/
theorem services_exclusive {first current : Process} {events : List Event} (starts : Starts first)
    (run : Run (Guarded Undisturbed Step) first events current) :
    (∀ left ∈ current.threads.rows, ∀ right ∈ current.threads.rows, left.service ≠ 0 →
      left.service = right.service → left = right) ∧
    (∀ ticket outcome after sid, Step current (.advance ticket outcome) after → sid ≠ 0 →
      (after.manager.object sid).state ≠ (current.manager.object sid).state →
        ∃ operation, current.lastAccepted sid = some ⟨ticket, sid, operation⟩) ∧
    ∀ ticket sid, sid ≠ 0 → current.lastAccepted sid = some ⟨ticket, sid, .stopService⟩ →
      (∀ thread ∈ current.threads.rows, thread.service ≠ sid) → (current.manager.object sid).state ≠ .running := by
  have kept : ∀ {before event after}, Exclusive before → Undisturbed before event → Step before event after →
      Exclusive after := fun exclusive undisturbed step => exclusive.step undisturbed step
  have exclusive := run.guarded_invariant (Exclusive.start starts) kept
  refine ⟨fun left inside right inside' service => exclusive.single inside inside' service, ?_, ?_⟩
  · intro ticket outcome after sid step service changed
    obtain ⟨thread, manager, next, found, rfl, advanced, rfl⟩ := step_advance.mp step
    have member := Table.get?_mem found
    have here : thread.service = sid := by
      by_contra away
      rw [proceed_manager, (ApplicationManager.advance_effect advanced).others sid (Ne.symm away) service] at changed
      exact changed rfl
    subst here
    exact ⟨thread.operation, exclusive.latest thread member service⟩
  · intro ticket sid service last idle
    refine (exclusive.stopped sid ticket service last).resolve_right ?_
    rintro ⟨thread, member, same, -⟩
    exact idle thread member same

/-- A request that comes while no thread is in flight. -/
theorem Undisturbed.quiet {p : Process} {event : Event} (quiet : p.threads.rows = []) : p.Undisturbed event := by
  unfold Undisturbed
  split
  · intro sid operation started service thread member
    rw [quiet] at member
    cases member
  · trivial

/-- A service is started, and stopped once it runs. -/
theorem startedThenStopped_exclusive : ∃ current, Run (Guarded Undisturbed Step) fresh
    [.addService (.made [.get, .post, .upload]), .request (.startService 1 true), .advance 0 .runs,
      .advance 0 (.nodesReply (.created [nodeOf "1"])), .advance 0 (.answers true), .request (.stopService 1),
      .advance 1 .runs] current ∧
    ∀ left ∈ current.threads.rows, ∀ right ∈ current.threads.rows, left.service ≠ 0 →
      left.service = right.service → left = right := by
  obtain ⟨current, run⟩ : ∃ current, Run (Guarded Undisturbed Step) fresh
      [.addService (.made [.get, .post, .upload]), .request (.startService 1 true), .advance 0 .runs,
        .advance 0 (.nodesReply (.created [nodeOf "1"])), .advance 0 (.answers true), .request (.stopService 1),
        .advance 1 .runs] current :=
    ⟨_, .cons ⟨trivial, rfl⟩ <| .cons ⟨.quiet rfl, rfl⟩ <| .cons ⟨trivial, rfl⟩ <| .cons ⟨trivial, rfl⟩ <|
      .cons ⟨trivial, rfl⟩ <| .cons ⟨.quiet rfl, rfl⟩ <| .cons ⟨trivial, rfl⟩ .start⟩
  exact ⟨current, run, (services_exclusive fresh_starts run).1⟩

/-- Nodes are added to a service while a stop is accepted, and the addition ends
after the stop. -/
def overwritingStop : List Event :=
  [.addService (.made [.get, .post, .upload]), .request (.startService 1 true), .advance 0 .runs,
    .advance 0 (.nodesReply (.created [nodeOf "1"])), .advance 0 (.answers true), .request (.addNodes 1 true),
    .advance 1 .runs, .request (.stopService 1), .advance 2 .runs, .advance 2 (.gives [.node (nodeOf "1")]),
    .advance 2 .runs, .advance 1 (.nodesReply (.created [nodeOf "2"])), .advance 1 (.answers true)]

/-- The stop is overwritten: the service runs although it was stopped last. -/
theorem stop_overwritten : ¬ ∀ (first current : Process) (events : List Event), Starts first → Run Step first events current →
    (∀ left ∈ current.threads.rows, ∀ right ∈ current.threads.rows, left.service ≠ 0 →
      left.service = right.service → left = right) ∧
    (∀ ticket outcome after sid, Step current (.advance ticket outcome) after → sid ≠ 0 →
      (after.manager.object sid).state ≠ (current.manager.object sid).state →
        ∃ operation, current.lastAccepted sid = some ⟨ticket, sid, operation⟩) ∧
    ∀ ticket sid, sid ≠ 0 → current.lastAccepted sid = some ⟨ticket, sid, .stopService⟩ →
      (∀ thread ∈ current.threads.rows, thread.service ≠ sid) → (current.manager.object sid).state ≠ .running := by
  intro law
  obtain ⟨current, played, last, idle, running⟩ : ∃ current, play handle fresh overwritingStop = some current ∧
      current.lastAccepted 1 = some ⟨2, 1, .stopService⟩ ∧ current.threads.rows = [] ∧
      (current.manager.object 1).state = .running := ⟨_, rfl, rfl, rfl, rfl⟩
  have stays := (law _ _ _ fresh_starts (Run.play played)).2.2 2 1 (by decide) last
  exact stays (by simp [idle]) running

end Process

end ConPaaS
