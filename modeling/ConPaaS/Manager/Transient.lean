import ConPaaS.Manager.States
import ConPaaS.Lib.Transition

namespace ConPaaS

open Keyed Transition

namespace ApplicationManager

variable {am after : ApplicationManager} {sid : Nat} {operation : Operation} {stage : Stage} {next : Option Stage}
  {outcome : Outcome}

/-- What a thread must meet to come to its end: the director creates nodes and
destroys volumes when it is asked to, a hook sets a final state before it raises
and does not raise while its service is removed, and a removed service gives up
nodes of the application and exposes methods of every kind. -/
def Finishes (am : ApplicationManager) (operation : Operation) (sid : Nat) : Stage → Outcome → Prop
  | .creatingNodes, .nodesReply reply => createNodes reply ≠ none ∧ (am.object 0).nodes.isList = true ∧
      (operation = .addNodes → (am.object sid).nodes.isList = true)
  | .hook left, .raises => left ≠ none ∧ operation ≠ .removeService
  | .removing nodes, .runs => operation = .removeService → (forget [0] nodes am).2 = true
  | .deregistering, _ => [HttpMethod.get, .post, .upload].all fun kind => kind ∈ (am.object sid).exposed
  | .destroyingVolume volume, .destroyReply done => done = true ∧ (am.volumes.get? volume.volName).isSome = true
  | _, _ => True

theorem extend_isList {holder : Nat} (nodes : Nodes) (list : (am.object holder).nodes.isList = true) :
    ∃ after, am.extend holder nodes = some after ∧
      ∀ other, (am.object other).nodes.isList = true → (after.object other).nodes.isList = true := by
  unfold extend
  cases held : (am.object holder).nodes with
  | dict keys => simp [held, Nodes.isList] at list
  | list entries =>
    refine ⟨_, rfl, fun other still => ?_⟩
    rw [setNodes_nodes]
    split
    · rfl
    · exact still

/-- Where a thread comes to before it has set the state of its service: to a
state of rest, or on. -/
def GoesOn (sid : Nat) (after : ApplicationManager) (next : Option Stage) : Prop :=
  (after.object sid).state.settled = true ∨ ∃ stage', next = some stage' ∧ stage'.late = false

theorem doStartService_goesOn (step : am.doStartService sid stage outcome = some (after, next))
    (finishes : am.Finishes .startService sid stage outcome) (registered : am.registered sid = true)
    (early : stage.late = false) : GoesOn sid after next := by
  unfold doStartService at step
  split at step
  · simp only [registered, if_true] at step
    cases step
    exact Or.inr ⟨_, rfl, rfl⟩
  · obtain ⟨replied, list, -⟩ := finishes
    split at step
    · rename_i none
      exact absurd none replied
    · rename_i nodes _
      obtain ⟨more, extended, -⟩ := extend_isList nodes list
      simp only [extended] at step
      cases step
      exact Or.inr ⟨_, rfl, rfl⟩
  · obtain ⟨-, same⟩ := hooked_some step
    cases same
    exact Or.inl (by simp [setState, ManagerState.settled])
  · rename_i ok
    obtain ⟨-, same⟩ := hooked_some step
    cases same
    cases ok <;> exact Or.inl (by simp [setState, ManagerState.settled])
  · rename_i left
    cases left with
    | none => exact absurd rfl finishes.1
    | some => cases early
  · cases step

theorem doAddNodes_goesOn (step : am.doAddNodes sid stage outcome = some (after, next))
    (finishes : am.Finishes .addNodes sid stage outcome) (registered : am.registered sid = true)
    (early : stage.late = false) : GoesOn sid after next := by
  unfold doAddNodes at step
  split at step
  · simp only [registered, if_true] at step
    cases step
    exact Or.inr ⟨_, rfl, rfl⟩
  · obtain ⟨replied, list, own⟩ := finishes
    split at step
    · rename_i none
      exact absurd none replied
    · rename_i nodes _
      obtain ⟨more, extended, still⟩ := extend_isList nodes list
      obtain ⟨rest, extended', -⟩ := extend_isList nodes (still sid (own rfl))
      simp only [extended, extended'] at step
      cases step
      exact Or.inr ⟨_, rfl, rfl⟩
  · obtain ⟨-, same⟩ := hooked_some step
    cases same
    exact Or.inl (by simp [setState, ManagerState.settled])
  · rename_i ok
    obtain ⟨-, same⟩ := hooked_some step
    cases same
    cases ok <;> exact Or.inl (by simp [setState, ManagerState.settled])
  · rename_i left
    cases left with
    | none => exact absurd rfl finishes.1
    | some => cases early
  · cases step

theorem doStopService_goesOn {remove : Bool} (step : am.doStopService sid remove stage outcome = some (after, next))
    (finishes : am.Finishes operation sid stage outcome) (registered : am.registered sid = true)
    (early : stage.late = false) : GoesOn sid after next := by
  unfold doStopService at step
  split at step
  · simp only [registered, if_true] at step
    split at step
    · cases step
      exact Or.inr ⟨_, rfl, rfl⟩
    · cases step
      exact Or.inl (by simp [setState, ManagerState.settled])
  · split at step
    · rename_i given
      obtain ⟨-, same⟩ := hooked_some step
      cases same
      exact Or.inl (by simpa [setState] using giveUpState_settled given)
    · cases step
  · obtain ⟨-, same⟩ := hooked_some step
    cases same
    exact Or.inl (by simp [setState, ManagerState.settled])
  · rename_i left
    cases left with
    | none => exact absurd rfl finishes.1
    | some => cases early
  · cases early
  · cases early
  · cases step

theorem doRemoveNodes_goesOn (step : am.doRemoveNodes sid stage outcome = some (after, next))
    (finishes : am.Finishes .removeNodes sid stage outcome) (registered : am.registered sid = true)
    (early : stage.late = false) : GoesOn sid after next := by
  unfold doRemoveNodes at step
  split at step
  · simp only [registered, if_true] at step
    cases step
    exact Or.inr ⟨_, rfl, rfl⟩
  · split at step
    · rename_i given
      obtain ⟨-, same⟩ := hooked_some step
      cases same
      exact Or.inl (by simpa [setState] using giveUpState_settled given)
    · cases step
  · cases early
  · rename_i left
    cases left with
    | none => exact absurd rfl finishes.1
    | some => cases early
  · cases early
  · cases step

/-- The creation of a volume comes to rest whatever happens in it. -/
theorem doCreateVolume_goesOn {volName agentId : String} {volSize : Int}
    (step : am.doCreateVolume sid volName volSize agentId stage outcome = some (after, next)) : GoesOn sid after next := by
  unfold doCreateVolume at step
  split at step
  · split at step
    · cases step
      exact Or.inr ⟨_, rfl, rfl⟩
    · cases step
      exact Or.inl (by simp [setState, ManagerState.settled])
  · dsimp only at step
    split at step
    · cases step
      exact Or.inr ⟨_, rfl, rfl⟩
    · cases step
      exact Or.inl (by simp [setState, ManagerState.settled])
  · cases step
    exact Or.inr ⟨_, rfl, rfl⟩
  · cases step
    exact Or.inl (by simp [setState, ManagerState.settled])
  · cases step
    exact Or.inl (by simp [setState, ManagerState.settled])
  · cases step

theorem doDeleteVolume_goesOn {volume : Volume} (step : am.doDeleteVolume sid volume stage outcome = some (after, next))
    (finishes : am.Finishes operation sid stage outcome) : GoesOn sid after next := by
  unfold doDeleteVolume at step
  split at step
  · cases step
    exact Or.inr ⟨_, rfl, rfl⟩
  · obtain ⟨done, stored⟩ := finishes
    simp only [done, stored, Bool.and_self, if_true] at step
    cases step
    exact Or.inl (by simp [setState, ManagerState.settled])
  · cases step

theorem advance_goesOn (step : am.advance sid operation stage outcome = some (after, next))
    (finishes : am.Finishes operation sid stage outcome) (registered : am.registered sid = true)
    (early : stage.late = false) : GoesOn sid after next := by
  cases operation with
  | startService => exact doStartService_goesOn step finishes registered early
  | stopService => exact doStopService_goesOn step finishes registered early
  | removeService => exact doStopService_goesOn step finishes registered early
  | addNodes => exact doAddNodes_goesOn step finishes registered early
  | removeNodes => exact doRemoveNodes_goesOn step finishes registered early
  | createVolume => exact doCreateVolume_goesOn step
  | deleteVolume => exact doDeleteVolume_goesOn step finishes

/-- The removal of a service goes on until the application manager runs again. -/
theorem doStopService_removes (step : am.doStopService sid true stage outcome = some (after, next))
    (finishes : am.Finishes .removeService sid stage outcome) (member : sid ∈ am.instances) :
    (after.object 0).state = .running ∨ sid ∈ after.instances ∧ ∃ stage', next = some stage' := by
  have registered : am.registered sid = true := by simp [registered, member]
  unfold doStopService at step
  split at step
  · simp only [registered, if_true] at step
    split at step
    · cases step
      exact Or.inr ⟨member, _, rfl⟩
    · cases step
      exact Or.inr ⟨member, _, rfl⟩
  · split at step
    · obtain ⟨-, same⟩ := hooked_some step
      cases same
      exact Or.inr ⟨member, _, rfl⟩
    · cases step
  · obtain ⟨-, same⟩ := hooked_some step
    cases same
    exact Or.inr ⟨member, _, rfl⟩
  · exact absurd rfl finishes.2
  · rename_i nodes
    have shuffled : Shuffled sid am (forget [0] nodes am).1 := .forget sid nodes am (by simp)
    have forgotten := finishes rfl
    split at step
    · rename_i run
      cases step
      rw [run] at shuffled
      exact Or.inr ⟨by rwa [shuffled.instances], _, rfl⟩
    · rename_i run
      rw [run] at forgotten
      cases forgotten
  · cases step
    have complete : ([HttpMethod.get, .post, .upload].all fun kind => kind ∈ (am.object sid).exposed) = true := finishes
    exact Or.inl (by simp only [deregister, member, if_true, complete]; simp [setState])
  · cases step

/-- The services that are registered stay so unless one is removed, and then
the application manager runs. -/
theorem advance_instances (step : am.advance sid operation stage outcome = some (after, next))
    (finishes : am.Finishes operation sid stage outcome) :
    after.instances = am.instances ∨ (after.object 0).state = .running := by
  rcases (advance_effect step).instances with same | ⟨rfl, rfl⟩
  · exact Or.inl same
  · have complete : ([HttpMethod.get, .post, .upload].all fun kind => kind ∈ (am.object sid).exposed) = true := finishes
    by_cases member : sid ∈ am.instances
    · simp only [deregister, member, if_true, complete]
      exact Or.inr (by simp [setState])
    · exact Or.inl (by simp [deregister, member])

end ApplicationManager

namespace Process

/-- A state that is not at rest is left by a thread in flight: the thread of the
last request on the service, or for the application manager one of its own or
one that removes a service. -/
structure Leaving (p : Process) : Prop where
  fresh : ∀ thread ∈ p.threads.rows, thread.ticket < p.accepted.length
  service : ∀ sid ∈ p.manager.instances, (p.manager.object sid).state.settled = true ∨
    ∃ thread ∈ p.threads.rows, thread.service = sid ∧ thread.operation ≠ .removeService ∧ thread.stage.late = false
  own : (p.manager.object 0).state.settled = true ∨ ∃ thread ∈ p.threads.rows,
    thread.operation = .removeService ∧ thread.service ∈ p.manager.instances ∨
      thread.service = 0 ∧ thread.stage.late = false
  instances : ∀ sid ∈ p.manager.instances, sid ≠ 0 ∧ sid ≤ p.manager.serviceId

/-- The condition on a step: it adds no service whose manager cannot be made,
and a thread meets what it needs to come to its end. -/
def Completes (p : Process) : Event → Prop
  | .addService construction => construction ≠ .raised
  | .request _ => True
  | .advance ticket outcome => ∀ thread, p.threads.get? ticket = some thread →
    p.manager.Finishes thread.operation thread.service thread.stage outcome

theorem Leaving.start {p : Process} (starts : Starts p) : Leaving p := by
  obtain ⟨instances, own, -, -, -, threads, -⟩ := starts
  refine ⟨?_, ?_, ?_, ?_⟩
  · simp [threads]
  · simp [instances]
  · rcases own with own | own
    · exact Or.inl (by rw [own]; rfl)
    · exact Or.inl (by rw [own]; rfl)
  · simp [instances]

/-- One step lemma: an operation that is accepted. -/
theorem Leaving.launch {p : Process} (leaving : Leaving p) {sid : Nat} {operation : Operation}
    (registered : p.manager.registered sid = true) : Leaving (p.launch sid operation) := by
  have added : ∀ {thread}, thread ∈ (p.launch sid operation).threads.rows ↔
      thread = ⟨p.accepted.length, sid, operation, .begin⟩ ∨ thread ∈ p.threads.rows := mem_launch leaving.fresh
  have unmarked : ∀ other, other ≠ operation.marks sid →
      (p.launch sid operation).manager.object other = p.manager.object other := by
    intro other away
    simp [Process.launch, ApplicationManager.setState, away]
  refine ⟨?_, ?_, ?_, leaving.instances⟩
  · intro thread member
    rcases added.mp member with rfl | old
    · exact Nat.lt_succ_self _
    · exact (leaving.fresh thread old).trans (Nat.lt_succ_self _)
  · intro other member
    by_cases here : other = operation.marks sid
    · have kind : operation ≠ .removeService := by
        rintro rfl
        exact (leaving.instances other member).1 here
      have same : operation.marks sid = sid := by
        cases operation with
        | removeService => exact absurd rfl kind
        | _ => rfl
      exact Or.inr ⟨_, added.mpr (Or.inl rfl), (here.trans same).symm, kind, rfl⟩
    · rw [unmarked other here]
      refine (leaving.service other member).imp_right ?_
      rintro ⟨thread, inside, rest⟩
      exact ⟨thread, added.mpr (Or.inr inside), rest⟩
  · by_cases here : 0 = operation.marks sid
    · refine Or.inr ⟨_, added.mpr (Or.inl rfl), ?_⟩
      by_cases own : sid = 0
      · exact Or.inr ⟨own, rfl⟩
      · have member : sid ∈ p.manager.instances := by simpa [ApplicationManager.registered, own] using registered
        refine Or.inl ⟨?_, member⟩
        cases operation with
        | removeService => rfl
        | _ => exact absurd here.symm own
    · rw [unmarked 0 here]
      refine leaving.own.imp_right ?_
      rintro ⟨thread, inside, rest⟩
      exact ⟨thread, added.mpr (Or.inr inside), rest⟩

/-- One step lemma: a thread that goes on. -/
theorem Leaving.proceed {p : Process} (leaving : Leaving p) {thread : Thread} {outcome : Outcome}
    {manager : ApplicationManager} {next : Option Stage} (found : p.threads.get? thread.ticket = some thread)
    (step : p.manager.advance thread.service thread.operation thread.stage outcome = some (manager, next))
    (finishes : p.manager.Finishes thread.operation thread.service thread.stage outcome) :
    Leaving (p.proceed thread.ticket (manager, next)) := by
  have member := Table.get?_mem found
  have effect := ApplicationManager.advance_effect step
  have goesOn := fun registered => ApplicationManager.advance_goesOn step finishes registered
  have persists : ∀ other ∈ p.threads.rows, other ≠ thread → other ∈ (p.proceed thread.ticket (manager, next)).threads.rows :=
    fun other inside away => (mem_proceed found).mpr (Or.inl ⟨inside, fun same => away (p.threads.unique inside member same)⟩)
  have continues : ∀ stage, next = some stage →
      { thread with stage } ∈ (p.proceed thread.ticket (manager, next)).threads.rows :=
    fun stage going => (mem_proceed found).mpr (Or.inr ⟨stage, going, rfl⟩)
  refine ⟨?_, ?_, ?_, ?_⟩
  · intro other inside
    rw [proceed_accepted]
    rcases (mem_proceed found).mp inside with ⟨old, -⟩ | ⟨stage, -, rfl⟩
    · exact leaving.fresh other old
    · exact leaving.fresh thread member
  · intro sid inside
    rw [proceed_manager] at inside ⊢
    have before := leaving.service sid (effect.kept inside)
    by_cases here : sid = thread.service
    · rcases effect.settled with same | settled
      · rw [here, same, ← here]
        rcases before with rest | ⟨other, old, service, kind, early⟩
        · exact Or.inl rest
        by_cases own : other = thread
        · subst own
          have registered : p.manager.registered other.service = true := by
            simp [ApplicationManager.registered, ← here, effect.kept inside]
          rcases goesOn registered early with rest | ⟨stage, going, still⟩
          · exact Or.inl (by rwa [here, ← same])
          · exact Or.inr ⟨_, continues stage going, here.symm, kind, still⟩
        · exact Or.inr ⟨other, persists other old own, service, kind, early⟩
      · exact Or.inl (by rwa [here])
    · rw [effect.others sid here (leaving.instances sid (effect.kept inside)).1]
      refine before.imp_right ?_
      rintro ⟨other, old, same, rest⟩
      exact ⟨other, persists other old (fun equal => here (by rw [← same, equal])), same, rest⟩
  · rw [proceed_manager]
    by_cases rest : (manager.object 0).state.settled = true
    · exact Or.inl rest
    have running : (manager.object 0).state ≠ .running := fun running => rest (by rw [running]; rfl)
    have instances := (ApplicationManager.advance_instances step finishes).resolve_right running
    have same : (manager.object 0).state = (p.manager.object 0).state := by
      by_cases own : thread.service = 0
      · exact own ▸ effect.settled.resolve_right (own ▸ rest)
      · exact (effect.own own).resolve_right running
    rw [instances]
    refine Or.inr ?_
    obtain ⟨other, old, kind⟩ := leaving.own.resolve_left (by rwa [← same])
    by_cases here : other = thread
    · subst here
      rcases kind with ⟨remove, registered⟩ | ⟨own, early⟩
      · rw [remove] at step finishes
        obtain ⟨-, stage, going⟩ :=
          (ApplicationManager.doStopService_removes step finishes registered).resolve_left running
        exact ⟨_, continues stage going, Or.inl ⟨remove, registered⟩⟩
      · have registered : p.manager.registered other.service = true := by simp [ApplicationManager.registered, own]
        obtain ⟨stage, going, still⟩ := (goesOn registered early).resolve_left (own ▸ rest)
        exact ⟨_, continues stage going, Or.inr ⟨own, still⟩⟩
    · exact ⟨other, persists other old here, kind⟩
  · rw [proceed_manager, effect.serviceId]
    exact fun sid inside => leaving.instances sid (effect.kept inside)

/-- One step lemma: a service that is added. -/
theorem Leaving.addService {p : Process} (leaving : Leaving p) {construction : Construction}
    (made : construction ≠ .raised) : Leaving { p with manager := p.manager.addService construction } := by
  refine ⟨leaving.fresh, ?_, ?_, ?_⟩
  · intro sid member
    cases construction with
    | raised => exact absurd rfl made
    | unknownType => exact leaving.service sid member
    | notImported =>
      dsimp only
      rw [ApplicationManager.addService_object .notImported (leaving.instances sid member).1 (leaving.instances sid member).2]
      exact leaving.service sid member
    | made exposed =>
      rcases List.mem_append.mp member with old | new
      · dsimp only
        rw [ApplicationManager.addService_object (.made exposed) (leaving.instances sid old).1 (leaving.instances sid old).2]
        exact leaving.service sid old
      · rw [List.mem_singleton.mp new]
        exact Or.inl (by simp [ApplicationManager.addService, ManagerState.settled])
  · cases construction with
    | raised => exact absurd rfl made
    | unknownType => exact leaving.own
    | notImported => exact Or.inl (by simp [ApplicationManager.addService, ApplicationManager.setState, ManagerState.settled])
    | made => exact Or.inl (by simp [ApplicationManager.addService, ApplicationManager.setState, ManagerState.settled])
  · intro sid member
    refine ⟨?_, ApplicationManager.addService_instances (fun other inside => (leaving.instances other inside).2) sid member⟩
    cases construction with
    | made exposed =>
      rcases List.mem_append.mp member with old | new
      · exact (leaving.instances sid old).1
      · rw [List.mem_singleton.mp new]
        exact Nat.succ_ne_zero _
    | _ => exact (leaving.instances sid member).1

/-- Every step of a thread that meets what it needs keeps the way out. -/
theorem Leaving.step {before after : Process} {event : Event} (leaving : Leaving before)
    (completes : before.Completes event) (step : Step before event after) : Leaving after := by
  cases event with
  | addService construction =>
    cases step
    exact leaving.addService completes
  | request request =>
    unfold Step handle at step
    dsimp only at step
    split at step
    · cases step
      exact leaving
    · rename_i started
      cases step
      exact leaving.launch (ApplicationManager.request_some started).1
  | advance ticket outcome =>
    obtain ⟨thread, manager, next, found, rfl, advanced, rfl⟩ := step_advance.mp step
    exact leaving.proceed found advanced (completes thread found)

/-- No service is stuck. In every state of a run in which the threads come to
their ends, however they overlap, a service without a background operation is
at rest, and so is the application manager once no operation on its own entry
and no removal of a service is in flight. -/
theorem services_come_to_rest {first current : Process} {events : List Event} (starts : Starts first)
    (run : Run (Guarded Completes Step) first events current) :
    (∀ sid ∈ current.manager.instances, (∀ thread ∈ current.threads.rows, thread.service ≠ sid) →
      (current.manager.object sid).state.settled = true) ∧
    ((∀ thread ∈ current.threads.rows, thread.service ≠ 0 ∧ thread.operation ≠ .removeService) →
      (current.manager.object 0).state.settled = true) := by
  have kept : ∀ {before event after}, Leaving before → Completes before event → Step before event after → Leaving after :=
    fun leaving completes step => leaving.step completes step
  have leaving := run.guarded_invariant (Leaving.start starts) kept
  constructor
  · intro sid member idle
    refine (leaving.service sid member).resolve_right ?_
    rintro ⟨thread, inside, same, -⟩
    exact idle thread inside same
  · intro idle
    refine leaving.own.resolve_right ?_
    rintro ⟨thread, inside, ⟨remove, -⟩ | ⟨own, -⟩⟩
    · exact (idle thread inside).2 remove
    · exact (idle thread inside).1 own

/-- A service is started and rests once its thread has ended. -/
theorem startedService_rests : ∃ current, Run (Guarded Completes Step) fresh
    [.addService (.made [.get]), .request (.startService 1 true), .advance 0 .runs,
      .advance 0 (.nodesReply (.created [nodeOf "1"])), .advance 0 (.answers false)] current ∧
    ∀ sid ∈ current.manager.instances, (∀ thread ∈ current.threads.rows, thread.service ≠ sid) →
      (current.manager.object sid).state.settled = true := by
  have replied : createNodes (.created [nodeOf "1"]) ≠ none := by decide
  obtain ⟨current, run⟩ : ∃ current, Run (Guarded Completes Step) fresh
      [.addService (.made [.get]), .request (.startService 1 true), .advance 0 .runs,
        .advance 0 (.nodesReply (.created [nodeOf "1"])), .advance 0 (.answers false)] current := by
    refine ⟨_, .cons ⟨nofun, rfl⟩ <| .cons ⟨trivial, rfl⟩ <| .cons ⟨?_, rfl⟩ <| .cons ⟨?_, rfl⟩ <| .cons ⟨?_, rfl⟩ .start⟩
    · rintro thread ⟨⟩
      trivial
    · rintro thread ⟨⟩
      exact ⟨replied, rfl, nofun⟩
    · rintro thread ⟨⟩
      trivial
  exact ⟨current, run, (services_come_to_rest fresh_starts run).1⟩

/-- The call that creates the nodes of a service fails, and the service stays
in its prologue. -/
theorem prologue_stuck : ¬ ∀ (first current : Process) (events : List Event), Starts first → Run Step first events current →
    current.threads.rows = [] → (∀ sid ∈ current.manager.instances, (current.manager.object sid).state.settled = true) ∧
      (current.manager.object 0).state.settled = true := by
  intro law
  obtain ⟨current, played, idle, member, state⟩ : ∃ current, play handle fresh
      [.addService (.made [.get]), .request (.startService 1 true), .advance 0 .runs, .advance 0 (.nodesReply .failed)] =
        some current ∧ current.threads.rows = [] ∧ 1 ∈ current.manager.instances ∧
      (current.manager.object 1).state = .prologue := ⟨_, rfl, rfl, by decide, rfl⟩
  have rest := (law _ _ _ fresh_starts (Run.play played) idle).1 1 member
  rw [state] at rest
  cases rest

end Process

end ConPaaS
