import ConPaaS.Manager.Process
import Mathlib.Data.Nat.Basic

namespace ConPaaS

open Keyed

/-- The states in which a service rests. -/
def ManagerState.settled : ManagerState → Bool
  | .init | .running | .stopped | .error => true
  | .prologue | .adapting | .epilogue => false

/-- The thread has already set the state of its service while it goes on. -/
def Stage.late : Stage → Bool
  | .hook left => left.isSome
  | .removing _ | .deregistering => true
  | _ => false

namespace ApplicationManager

variable {am mid after : ApplicationManager} {sid : Nat} {operation : Operation} {stage : Stage} {next : Option Stage}

/-- Only the node lists of a service and of the application and the volumes
have changed. -/
structure Shuffled (sid : Nat) (am after : ApplicationManager) : Prop where
  others : ∀ other, other ≠ sid → other ≠ 0 → after.object other = am.object other
  states : ∀ other, (after.object other).state = (am.object other).state
  serviceId : after.serviceId = am.serviceId
  instances : after.instances = am.instances

theorem Shuffled.refl : Shuffled sid am am := ⟨fun _ _ _ => rfl, fun _ => rfl, rfl, rfl⟩

theorem Shuffled.trans (first : Shuffled sid am mid) (second : Shuffled sid mid after) : Shuffled sid am after where
  others other away own := (second.others other away own).trans (first.others other away own)
  states other := (second.states other).trans (first.states other)
  serviceId := second.serviceId.trans first.serviceId
  instances := second.instances.trans first.instances

theorem Shuffled.setNodes {holder : Nat} (held : holder = sid ∨ holder = 0) (nodes : Nodes) :
    Shuffled sid am (am.setNodes holder nodes) where
  others other away own := by
    have apart : other ≠ holder := by
      rcases held with rfl | rfl
      · exact away
      · exact own
    simp [ApplicationManager.setNodes, apart]
  states other := by simp
  serviceId := rfl
  instances := rfl

theorem Shuffled.extend {holder : Nat} (held : holder = sid ∨ holder = 0) {nodes : Nodes}
    (extended : am.extend holder nodes = some after) : Shuffled sid am after := by
  obtain ⟨all, -, rfl⟩ := Option.map_eq_some_iff.mp extended
  exact .setNodes held all

theorem Shuffled.removeNode {holders : List Nat} (held : ∀ holder ∈ holders, holder = sid ∨ holder = 0)
    (vmId : String) : Shuffled sid am (removeNode vmId holders am).1 := by
  induction holders generalizing am with
  | nil => exact .refl
  | cons holder rest ih =>
    unfold ApplicationManager.removeNode
    split
    · exact .refl
    · exact (Shuffled.setNodes (held holder (List.mem_cons_self ..)) _).trans
        (ih fun other member => held other (List.mem_cons_of_mem _ member))

theorem Shuffled.forget (sid : Nat) (nodes : List Entry) (am : ApplicationManager) {holders : List Nat}
    (held : ∀ holder ∈ holders, holder = sid ∨ holder = 0) : Shuffled sid am (forget holders nodes am).1 := by
  induction nodes generalizing am with
  | nil => exact .refl
  | cons entry rest ih =>
    cases entry with
    | key => exact .refl
    | node n =>
      have dropped : Shuffled sid am (am.dropVolumes n.id) := ⟨fun _ _ _ => rfl, fun _ => rfl, rfl, rfl⟩
      have removed := dropped.trans (Shuffled.removeNode held n.id)
      unfold ApplicationManager.forget
      split
      · rename_i middle run
        rw [run] at removed
        exact removed.trans (ih _)
      · rename_i middle run
        rwa [run] at removed

/-- What a step of a thread can do to the states of the managers. A thread
works on its own service, and it goes on early only if it has left the state
alone. -/
structure StateEffect (sid : Nat) (stage : Stage) (am after : ApplicationManager) (next : Option Stage) : Prop where
  others : ∀ other, other ≠ sid → other ≠ 0 → after.object other = am.object other
  serviceId : after.serviceId = am.serviceId
  instances : after.instances = am.instances ∨ stage = .deregistering ∧ after = am.deregister sid
  early : ∀ stage', next = some stage' → stage'.late = false →
    stage.late = false ∧ (after.object sid).state = (am.object sid).state
  settled : (after.object sid).state = (am.object sid).state ∨ (after.object sid).state.settled = true
  own : sid ≠ 0 → (after.object 0).state = (am.object 0).state ∨ (after.object 0).state = .running

/-- A step that sets no state. -/
theorem Shuffled.effect (shuffled : Shuffled sid am after)
    (early : ∀ stage', next = some stage' → stage'.late = false → stage.late = false) :
    StateEffect sid stage am after next where
  others := shuffled.others
  serviceId := shuffled.serviceId
  instances := Or.inl shuffled.instances
  early stage' going still := ⟨early stage' going still, shuffled.states sid⟩
  settled := Or.inl (shuffled.states sid)
  own _ := Or.inl (shuffled.states 0)

/-- A step that sets the state of the service, and after which the thread is
late or has ended. -/
theorem Shuffled.writes (shuffled : Shuffled sid am mid) {state : ManagerState} (settled : state.settled = true)
    (late : ∀ stage', next = some stage' → stage'.late = true) :
    StateEffect sid stage am (mid.setState sid state) next where
  others other away own := by
    simp only [setState, Function.update_of_ne away]
    exact shuffled.others other away own
  serviceId := shuffled.serviceId
  instances := Or.inl shuffled.instances
  early stage' going still := by simp [late stage' going] at still
  settled := by simp [setState, settled]
  own away := by
    simp only [setState, Function.update_of_ne away.symm]
    exact Or.inl (shuffled.states 0)

theorem hooked_some {result : ApplicationManager × Option Stage} (step : hooked sid result = some (after, next)) :
    sid ≠ 0 ∧ result = (after, next) := by
  unfold hooked at step
  split at step
  · cases step
  · rename_i away
    exact ⟨away, Option.some.inj step⟩

theorem giveUpState_settled {state : ManagerState} (given : giveUpState state = true) : state.settled = true := by
  cases state <;> simp_all [giveUpState, ManagerState.settled]

theorem doStartService_effect {outcome : Outcome} (step : am.doStartService sid stage outcome = some (after, next)) :
    StateEffect sid stage am after next := by
  unfold doStartService at step
  split at step
  · cases step
    exact Shuffled.refl.effect fun _ _ _ => rfl
  · split at step
    · cases step
      exact Shuffled.refl.effect fun _ going => nomatch going
    · split at step
      · cases step
        exact Shuffled.refl.effect fun _ going => nomatch going
      · rename_i extended
        cases step
        exact ((Shuffled.extend (Or.inr rfl) extended).trans (.setNodes (Or.inl rfl) _)).effect fun _ _ _ => rfl
  · obtain ⟨-, same⟩ := hooked_some step
    cases same
    exact Shuffled.refl.writes rfl fun _ going => by cases going; rfl
  · obtain ⟨-, same⟩ := hooked_some step
    cases same
    exact Shuffled.refl.writes (by split <;> rfl) fun _ going => nomatch going
  · cases step
    exact Shuffled.refl.effect fun _ going => nomatch going
  · cases step

theorem doAddNodes_effect {outcome : Outcome} (step : am.doAddNodes sid stage outcome = some (after, next)) :
    StateEffect sid stage am after next := by
  unfold doAddNodes at step
  split at step
  · cases step
    exact Shuffled.refl.effect fun _ _ _ => rfl
  · split at step
    · cases step
      exact Shuffled.refl.effect fun _ going => nomatch going
    · split at step
      · cases step
        exact Shuffled.refl.effect fun _ going => nomatch going
      · rename_i extended
        have first : Shuffled sid am _ := .extend (Or.inr rfl) extended
        split at step
        · cases step
          exact first.effect fun _ going => nomatch going
        · rename_i extended
          cases step
          exact (first.trans (.extend (Or.inl rfl) extended)).effect fun _ _ _ => rfl
  · obtain ⟨-, same⟩ := hooked_some step
    cases same
    exact Shuffled.refl.writes rfl fun _ going => by cases going; rfl
  · obtain ⟨-, same⟩ := hooked_some step
    cases same
    exact Shuffled.refl.writes (by split <;> rfl) fun _ going => nomatch going
  · cases step
    exact Shuffled.refl.effect fun _ going => nomatch going
  · cases step

theorem deregister_cases (am : ApplicationManager) (sid : Nat) : am.deregister sid = am ∨
    am.deregister sid = { am with instances := am.instances.erase sid } ∨
    am.deregister sid = { am with instances := am.instances.erase sid }.setState 0 .running := by
  unfold deregister
  split
  · dsimp only
    split
    · exact Or.inr (Or.inr rfl)
    · exact Or.inr (Or.inl rfl)
  · exact Or.inl rfl

theorem deregister_effect : StateEffect sid .deregistering am (am.deregister sid) none := by
  have changed : ∀ other, other ≠ 0 → (am.deregister sid).object other = am.object other := by
    intro other own
    rcases deregister_cases am sid with same | same | same
    · rw [same]
    · rw [same]
    · rw [same]
      simp [setState, own]
  have running : (am.deregister sid).object 0 = am.object 0 ∨ ((am.deregister sid).object 0).state = .running := by
    rcases deregister_cases am sid with same | same | same
    · exact Or.inl (by rw [same])
    · exact Or.inl (by rw [same])
    · exact Or.inr (by rw [same]; simp [setState])
  refine ⟨fun other _ own => changed other own, ?_, Or.inr ⟨rfl, rfl⟩, (by rintro _ ⟨⟩), ?_, fun _ => ?_⟩
  · rcases deregister_cases am sid with same | same | same
    · rw [same]
    · rw [same]
    · rw [same]
      rfl
  · by_cases own : sid = 0
    · subst own
      exact running.imp (congrArg BaseManager.state) fun state => by rw [state]; rfl
    · exact Or.inl (by rw [changed sid own])
  · exact running.imp_left (congrArg BaseManager.state)

theorem deregister_instances : ∀ other ∈ (am.deregister sid).instances, other ∈ am.instances := by
  intro other member
  rcases deregister_cases am sid with same | same | same
  · rwa [same] at member
  · rw [same] at member
    exact List.mem_of_mem_erase member
  · rw [same] at member
    exact List.mem_of_mem_erase member

theorem StateEffect.kept (effect : StateEffect sid stage am after next) {other : Nat} (member : other ∈ after.instances) :
    other ∈ am.instances := by
  rcases effect.instances with same | ⟨-, rfl⟩
  · rwa [same] at member
  · exact deregister_instances other member

theorem doStopService_effect {remove : Bool} {outcome : Outcome}
    (step : am.doStopService sid remove stage outcome = some (after, next)) : StateEffect sid stage am after next := by
  have rest : ∀ stage', afterStop remove = some stage' → stage'.late = true := by
    intro stage' going
    unfold afterStop at going
    split at going
    · cases going
      rfl
    · cases going
  unfold doStopService at step
  split at step
  · split at step
    · split at step
      · cases step
        exact Shuffled.refl.effect fun _ _ _ => rfl
      · cases step
        exact Shuffled.refl.writes rfl rest
    · cases step
      exact Shuffled.refl.effect fun _ going => nomatch going
  · split at step
    · rename_i given
      obtain ⟨-, same⟩ := hooked_some step
      cases same
      exact Shuffled.refl.writes (giveUpState_settled given) fun _ going => by cases going; rfl
    · cases step
  · obtain ⟨-, same⟩ := hooked_some step
    cases same
    exact (Shuffled.setNodes (Or.inl rfl) _).writes rfl fun _ going => by cases going; rfl
  · split at step
    · cases step
      exact Shuffled.refl.effect fun _ going => nomatch going
    · cases step
  · rename_i nodes
    have shuffled : Shuffled sid am (ApplicationManager.forget [0] nodes am).1 := .forget sid nodes am (by simp)
    split at step
    · rename_i run
      cases step
      rw [run] at shuffled
      exact shuffled.effect fun _ going early => by simp [rest _ going] at early
    · rename_i run
      cases step
      rw [run] at shuffled
      exact shuffled.effect fun _ going => nomatch going
  · cases step
    exact deregister_effect
  · cases step

theorem doRemoveNodes_effect {outcome : Outcome} (step : am.doRemoveNodes sid stage outcome = some (after, next)) :
    StateEffect sid stage am after next := by
  unfold doRemoveNodes at step
  split at step
  · cases step
    exact Shuffled.refl.effect fun _ _ _ => rfl
  · split at step
    · rename_i given
      obtain ⟨-, same⟩ := hooked_some step
      cases same
      exact Shuffled.refl.writes (giveUpState_settled given) fun _ going => by cases going; rfl
    · cases step
  · obtain ⟨-, same⟩ := hooked_some step
    cases same
    exact Shuffled.refl.effect fun _ going early => by cases going; cases early
  · cases step
    exact Shuffled.refl.effect fun _ going => nomatch going
  · cases step
    exact (Shuffled.forget sid _ am (by simp)).effect fun _ going => nomatch going
  · cases step

theorem doCreateVolume_effect {volName agentId : String} {volSize : Int} {outcome : Outcome}
    (step : am.doCreateVolume sid volName volSize agentId stage outcome = some (after, next)) :
    StateEffect sid stage am after next := by
  have recorded : ∀ volumes, Shuffled sid am { am with volumes } :=
    fun _ => ⟨fun _ _ _ => rfl, fun _ => rfl, rfl, rfl⟩
  unfold doCreateVolume at step
  split at step
  · split at step
    · cases step
      exact Shuffled.refl.effect fun _ _ _ => rfl
    · cases step
      exact Shuffled.refl.writes rfl fun _ going => nomatch going
  · dsimp only at step
    split at step
    · cases step
      exact Shuffled.refl.effect fun _ _ _ => rfl
    · cases step
      exact Shuffled.refl.writes rfl fun _ going => nomatch going
  · cases step
    exact Shuffled.refl.effect fun _ _ _ => rfl
  · cases step
    exact (recorded _).writes rfl fun _ going => nomatch going
  · cases step
    exact Shuffled.refl.writes rfl fun _ going => nomatch going
  · cases step

theorem doDeleteVolume_effect {volume : Volume} {outcome : Outcome}
    (step : am.doDeleteVolume sid volume stage outcome = some (after, next)) : StateEffect sid stage am after next := by
  have recorded : ∀ volumes, Shuffled sid am { am with volumes } :=
    fun _ => ⟨fun _ _ _ => rfl, fun _ => rfl, rfl, rfl⟩
  unfold doDeleteVolume at step
  split at step
  · cases step
    exact Shuffled.refl.effect fun _ _ _ => rfl
  · split at step
    · cases step
      exact (recorded _).writes rfl (by rintro _ ⟨⟩)
    · cases step
      exact Shuffled.refl.effect (by rintro _ ⟨⟩)
  · cases step

theorem advance_effect {outcome : Outcome}
    (step : am.advance sid operation stage outcome = some (after, next)) : StateEffect sid stage am after next := by
  cases operation with
  | startService => exact doStartService_effect step
  | stopService => exact doStopService_effect step
  | removeService => exact doStopService_effect step
  | addNodes => exact doAddNodes_effect step
  | removeNodes => exact doRemoveNodes_effect step
  | createVolume => exact doCreateVolume_effect step
  | deleteVolume => exact doDeleteVolume_effect step

theorem getServiceIdByVmId_mem {vmId : String} {services : List Nat}
    (found : am.getServiceIdByVmId vmId services = some sid) : sid ∈ services := by
  induction services with
  | nil => cases found
  | cons first rest ih =>
    unfold getServiceIdByVmId at found
    split at found
    · cases found
    · cases found
      exact List.mem_cons_self ..
    · exact List.mem_cons_of_mem _ (ih found)

/-- A request starts an operation on a service that is registered. Unless it
stops or removes the service it has found it at rest. -/
theorem request_some {request : Request} (started : am.request request = some (sid, operation)) :
    am.registered sid = true ∧
      (operation ≠ .stopService → operation ≠ .removeService → (am.object sid).state.settled = true) := by
  have rested : ∀ {expected : List ManagerState}, am.checkState sid expected = true →
      (∀ state ∈ expected, state.settled = true) → (am.object sid).state.settled = true := by
    intro expected found settled
    exact settled _ (by simpa [checkState] using found)
  have volume : ∀ {vmId : String}, am.getServiceIdByVmId vmId am.instances = some sid → am.registered sid = true := by
    intro vmId found
    simp [registered, getServiceIdByVmId_mem found]
  cases request with
  | startService sid' checked =>
    simp only [request, startService] at started
    split at started
    · rename_i passed
      cases started
      simp only [Bool.and_eq_true] at passed
      exact ⟨passed.1.1, fun _ _ => rested passed.2 (by decide)⟩
    · cases started
  | stopService sid' =>
    simp only [request, stopService] at started
    split at started
    · rename_i passed
      cases started
      exact ⟨passed, fun other => absurd rfl other⟩
    · cases started
  | removeService sid' =>
    simp only [request, removeService] at started
    split at started
    · rename_i passed
      cases started
      exact ⟨passed, fun _ other => absurd rfl other⟩
    · cases started
  | addNodes sid' checked =>
    simp only [request, addNodes] at started
    split at started
    · rename_i passed
      cases started
      simp only [Bool.and_eq_true] at passed
      exact ⟨passed.1.1, fun _ _ => rested passed.2 (by decide)⟩
    · cases started
  | removeNodes sid' checked =>
    simp only [request, removeNodes] at started
    split at started
    · rename_i passed
      cases started
      simp only [Bool.and_eq_true] at passed
      exact ⟨passed.1.1, fun _ _ => rested passed.2 (by decide)⟩
    · cases started
  | createVolume volName volSize agentId checked =>
    simp only [request, createVolume] at started
    split at started
    · split at started
      · cases started
      · rename_i found
        split at started
        · rename_i passed
          cases started
          simp only [Bool.and_eq_true] at passed
          exact ⟨volume found, fun _ _ => rested passed.2 (by decide)⟩
        · cases started
    · cases started
  | deleteVolume volName checked =>
    simp only [request, deleteVolume] at started
    split at started
    · cases started
    · split at started
      · split at started
        · cases started
        · rename_i found
          split at started
          · rename_i passed
            cases started
            simp only [Bool.and_eq_true] at passed
            exact ⟨volume found, fun _ _ => rested passed.2 (by decide)⟩
          · cases started
      · cases started

/-- A new service changes none of the older ones. -/
theorem addService_object (construction : Construction) {other : Nat} (service : other ≠ 0) (older : other ≤ am.serviceId) :
    (am.addService construction).object other = am.object other := by
  cases construction with
  | unknownType => rfl
  | notImported => simp [addService, setState, service]
  | raised => simp [addService, setState, service]
  | made => simp [addService, setState, service, show other ≠ am.serviceId + 1 by omega]

theorem addService_serviceId (construction : Construction) : am.serviceId ≤ (am.addService construction).serviceId := by
  cases construction with
  | unknownType => exact le_rfl
  | notImported => exact le_rfl
  | raised => exact Nat.le_succ _
  | made => exact Nat.le_succ _

theorem addService_instances {construction : Construction} (bounded : ∀ other ∈ am.instances, other ≤ am.serviceId) :
    ∀ other ∈ (am.addService construction).instances, other ≤ (am.addService construction).serviceId := by
  intro other member
  cases construction with
  | unknownType => exact bounded other member
  | notImported => exact bounded other member
  | raised => exact (bounded other member).trans (Nat.le_succ _)
  | made =>
    rcases List.mem_append.mp member with old | new
    · exact (bounded other old).trans (Nat.le_succ _)
    · exact (List.mem_singleton.mp new).le

end ApplicationManager

namespace Process

/-- A step of the process on behalf of one of its threads. -/
theorem step_advance {before after : Process} {ticket : Nat} {outcome : Outcome} :
    Step before (.advance ticket outcome) after ↔ ∃ thread manager next, before.threads.get? thread.ticket = some thread ∧
      thread.ticket = ticket ∧
      before.manager.advance thread.service thread.operation thread.stage outcome = some (manager, next) ∧
      after = before.proceed thread.ticket (manager, next) := by
  unfold Step handle
  constructor
  · intro step
    dsimp only at step
    split at step
    · cases step
    · rename_i thread found
      obtain ⟨⟨manager, next⟩, advanced, rfl⟩ := Option.map_eq_some_iff.mp step
      cases Table.get?_key found
      exact ⟨thread, manager, next, found, rfl, advanced, rfl⟩
  · rintro ⟨thread, manager, next, found, rfl, advanced, rfl⟩
    simp only [found, advanced, Option.map_some]

@[simp] theorem proceed_manager (p : Process) (ticket : Nat) (manager : ApplicationManager) (next : Option Stage) :
    (p.proceed ticket (manager, next)).manager = manager := by
  cases next <;> rfl

@[simp] theorem proceed_accepted (p : Process) (ticket : Nat) (manager : ApplicationManager) (next : Option Stage) :
    (p.proceed ticket (manager, next)).accepted = p.accepted := by
  cases next <;> rfl

/-- The threads after one of them has gone on. -/
theorem mem_proceed {p : Process} {thread thread' : Thread} (found : p.threads.get? thread.ticket = some thread)
    {manager : ApplicationManager} {next : Option Stage} :
    thread' ∈ (p.proceed thread.ticket (manager, next)).threads.rows ↔
      thread' ∈ p.threads.rows ∧ thread'.ticket ≠ thread.ticket ∨ ∃ stage, next = some stage ∧ thread' = { thread with stage } := by
  cases next with
  | none => simp [proceed]
  | some stage =>
    rw [proceed, (Table.modify_perm found _).mem_iff, List.mem_cons, Table.mem_erase]
    constructor
    · rintro (rfl | old)
      · exact Or.inr ⟨stage, rfl, rfl⟩
      · exact Or.inl old
    · rintro (old | ⟨_, ⟨⟩, rfl⟩)
      · exact Or.inr old
      · exact Or.inl rfl

theorem mem_launch {p : Process} {sid : Nat} {operation : Operation}
    (fresh : ∀ thread ∈ p.threads.rows, thread.ticket < p.accepted.length) {thread : Thread} :
    thread ∈ (p.launch sid operation).threads.rows ↔
      thread = ⟨p.accepted.length, sid, operation, .begin⟩ ∨ thread ∈ p.threads.rows := by
  have absent : p.threads.get? p.accepted.length = none :=
    Table.get?_none_iff.mpr fun thread member => Nat.ne_of_lt (fresh thread member)
  rw [launch, Table.put_fresh absent, List.mem_cons]

theorem launch_object (p : Process) {sid other : Nat} (operation : Operation) (away : other ≠ sid) (service : other ≠ 0) :
    (p.launch sid operation).manager.object other = p.manager.object other := by
  have apart : other ≠ operation.marks sid := by
    cases operation with
    | removeService => exact service
    | _ => exact away
  simp [launch, ApplicationManager.setState, apart]

end Process

end ConPaaS
