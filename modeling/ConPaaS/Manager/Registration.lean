import Mathlib.Data.List.TakeWhile
import ConPaaS.Manager.States
import ConPaaS.Lib.Transition

namespace ConPaaS

open Keyed Transition

/-- The names of the functions a manager exposes for each kind of requests. It
has no entry for a kind without functions. -/
abbrev Exposed := HttpMethod → List String

/-- `callback_dict`: for each kind of requests the functions of the services by
their ids. -/
abbrev CallbackDict := HttpMethod → Table (Prod.fst : Nat × List String → Nat)

namespace CallbackDict

/-- `_register_method`. -/
def registerMethod (callbacks : CallbackDict) (httpMethod : HttpMethod) (serviceId : Nat) (funcName : String) : CallbackDict :=
  let known := match (callbacks httpMethod).get? serviceId with
    | some (_, names) => names
    | none => []
  Function.update callbacks httpMethod ((callbacks httpMethod).put (serviceId, if funcName ∈ known then known else known ++ [funcName]))

/-- The loops of `add_service` over the functions of a manager. -/
def registerMethods (serviceId : Nat) (exposed : Exposed) : List HttpMethod → CallbackDict → CallbackDict
  | [], callbacks => callbacks
  | httpMethod :: rest, callbacks =>
    registerMethods serviceId exposed rest
      ((exposed httpMethod).foldl (fun callbacks name => callbacks.registerMethod httpMethod serviceId name) callbacks)

/-- `_deregister_methods`, through some of the kinds. It raises at the first
that has no entry for the service. -/
def deregisterMethods (serviceId : Nat) : List HttpMethod → CallbackDict → CallbackDict × Bool
  | [], callbacks => (callbacks, true)
  | httpMethod :: rest, callbacks =>
    if ((callbacks httpMethod).get? serviceId).isSome then
      deregisterMethods serviceId rest (Function.update callbacks httpMethod ((callbacks httpMethod).erase serviceId))
    else (callbacks, false)

end CallbackDict

/-- What `_dispatch` makes of a request. -/
inductive Dispatched
  | serviceMissing
  | serviceNotFound
  | methodMissing
  | methodNotFound
  | calls (serviceId : Nat) (callbackName : String)
  deriving DecidableEq, Repr

/-- `_dispatch`, for the id and the method in the parameters of a request. -/
def dispatch (callbacks : CallbackDict) (callbackType : HttpMethod) (serviceId : Option Nat) (method : Option String) : Dispatched :=
  match serviceId with
  | none => .serviceMissing
  | some serviceId =>
    match (callbacks callbackType).get? serviceId with
    | none => .serviceNotFound
    | some (_, names) =>
      match method with
      | none => .methodMissing
      | some method => if method ∈ names then .calls serviceId method else .methodNotFound

/-- The kinds of requests, in an order in which the server lists them. -/
def HttpMethod.all : List HttpMethod := [.get, .post, .upload]

/-- The server of the manager process, with what each manager exposes. -/
structure Server where
  process : Process
  exposed : Nat → Exposed
  callbackDict : CallbackDict

/-- What happens next: a service of some type is added, or something else
happens in the process. -/
inductive ServerEvent
  | made (exposed : Exposed)
  | other (event : Event)

namespace Server

variable (s : Server) (walk : List HttpMethod)

/-- The kinds of requests a manager exposes functions for. -/
def kinds (exposed : Exposed) : List HttpMethod := HttpMethod.all.filter fun kind => exposed kind ≠ []

/-- `add_service`, where the manager of the service can be made. -/
def addService (exposed : Exposed) : Server :=
  let manager := s.process.manager.addService (.made (kinds exposed))
  { process := { s.process with manager }
    exposed := Function.update s.exposed manager.serviceId exposed
    callbackDict := CallbackDict.registerMethods manager.serviceId exposed walk s.callbackDict }

/-- The end of `_do_stop_service` for a service that is removed. -/
def deregister (ticket sid : Nat) : Server :=
  if sid ∈ s.process.manager.instances then
    let removed := { s.process.manager with instances := s.process.manager.instances.erase sid }
    match CallbackDict.deregisterMethods sid walk s.callbackDict with
    | (callbackDict, true) => { s with process := s.process.proceed ticket (removed.setState 0 .running, none), callbackDict }
    | (callbackDict, false) => { s with process := s.process.proceed ticket (removed, none), callbackDict }
  else { s with process := s.process.proceed ticket (s.process.manager, none) }

/-- The thread of an event that comes to deregister its service. -/
def deregistering : Event → Option Thread
  | .advance ticket .runs => (s.process.threads.get? ticket).filter fun thread =>
    thread.stage = .deregistering && (thread.operation = .stopService || thread.operation = .removeService)
  | _ => none

def handle : ServerEvent → Option Server
  | .made exposed => some (s.addService walk exposed)
  | .other (.addService (.made _)) => none
  | .other event =>
    match s.deregistering event with
    | some thread => some (s.deregister walk thread.ticket thread.service)
    | none => (s.process.handle event).map fun process => { s with process }

/-- One step of a server that goes through its tables in some order. -/
def Step (walk : List HttpMethod) (before : Server) (event : ServerEvent) (after : Server) : Prop :=
  before.handle walk event = some after

/-- A server that has just come up, with the functions of the application
manager. -/
structure Starts (s : Server) : Prop where
  process : s.process.Starts
  callbackDict : s.callbackDict = CallbackDict.registerMethods 0 (s.exposed 0) HttpMethod.all fun _ => .empty

end Server

namespace CallbackDict

variable {callbacks : CallbackDict} {httpMethod kind : HttpMethod} {sid other : Nat} {exposed : Exposed} {kinds : List HttpMethod}

/-- The tables have all functions of a service under its id, and no entry for
the kinds it has none of. -/
def Serves (callbacks : CallbackDict) (sid : Nat) (exposed : Exposed) : Prop :=
  ∀ kind, exposed kind = [] ∧ (callbacks kind).get? sid = none ∨
    exposed kind ≠ [] ∧ ∃ names, (callbacks kind).get? sid = some (sid, names) ∧ ∀ name, name ∈ names ↔ name ∈ exposed kind

/-- A served service has an entry for the kinds it exposes. -/
theorem Serves.isSome (serves : callbacks.Serves sid exposed) (kind : HttpMethod) :
    ((callbacks kind).get? sid).isSome = decide (exposed kind ≠ []) := by
  rcases serves kind with ⟨empty, none⟩ | ⟨some, names, found, -⟩
  · simp [empty, none]
  · simp [some, found]

theorem registerMethod_other (name : String) (apart : other ≠ sid) (kind : HttpMethod) :
    ((callbacks.registerMethod httpMethod sid name) kind).get? other = (callbacks kind).get? other := by
  unfold registerMethod
  by_cases here : kind = httpMethod
  · subst here
    rw [Function.update_self, Table.get?_put_ne _ apart]
  · rw [Function.update_of_ne here]

theorem registerMethod_kind (name : String) (apart : kind ≠ httpMethod) :
    (callbacks.registerMethod httpMethod sid name) kind = callbacks kind :=
  Function.update_of_ne apart _ _

/-- What is registered of a kind after some names of it. -/
theorem registerMethod_names (name : String) {known : List String}
    (before : known = [] ∧ (callbacks httpMethod).get? sid = none ∨ (callbacks httpMethod).get? sid = some (sid, known)) :
    ∃ names, ((callbacks.registerMethod httpMethod sid name) httpMethod).get? sid = some (sid, names) ∧
      ∀ other, other ∈ names ↔ other ∈ known ∨ other = name := by
  unfold registerMethod
  have listed (known : List String) (other : String) :
      other ∈ (if name ∈ known then known else known ++ [name]) ↔ other ∈ known ∨ other = name := by
    split
    · rename_i old
      exact ⟨Or.inl, fun either => either.elim id fun same => same ▸ old⟩
    · simp
  refine ⟨if name ∈ known then known else known ++ [name], ?_, listed known⟩
  rw [Function.update_self, Table.get?_put_self _ (sid, _)]
  rcases before with ⟨rfl, none⟩ | some
  · rw [none]
  · rw [some]

theorem registerMethods_kind {names : List String} (apart : kind ≠ httpMethod) :
    (names.foldl (fun callbacks name => registerMethod callbacks httpMethod sid name) callbacks) kind = callbacks kind := by
  induction names generalizing callbacks with
  | nil => rfl
  | cons name rest ih => rw [List.foldl_cons, ih, registerMethod_kind name apart]

theorem registerMethods_other (apart : other ≠ sid) (kind : HttpMethod) :
    ((registerMethods sid exposed kinds callbacks) kind).get? other = (callbacks kind).get? other := by
  have names (list : List String) (httpMethod : HttpMethod) (callbacks : CallbackDict) :
      ((list.foldl (fun callbacks name => registerMethod callbacks httpMethod sid name) callbacks) kind).get? other =
        (callbacks kind).get? other := by
    induction list generalizing callbacks with
    | nil => rfl
    | cons name rest ih => rw [List.foldl_cons, ih, registerMethod_other name apart]
  induction kinds generalizing callbacks with
  | nil => rfl
  | cons httpMethod rest ih => rw [registerMethods, ih, names]

theorem registerMethods_apart (apart : kind ∉ kinds) : registerMethods sid exposed kinds callbacks kind = callbacks kind := by
  induction kinds generalizing callbacks with
  | nil => rfl
  | cons httpMethod rest ih =>
    obtain ⟨other, later⟩ := List.ne_and_not_mem_of_not_mem_cons apart
    rw [registerMethods, ih later, registerMethods_kind other]

/-- The loop over the functions of one kind. -/
theorem registerNames (names : List String) {known : List String} (found : (callbacks httpMethod).get? sid = some (sid, known)) :
    ∃ after, ((names.foldl (fun callbacks name => registerMethod callbacks httpMethod sid name) callbacks) httpMethod).get? sid =
      some (sid, after) ∧ ∀ name, name ∈ after ↔ name ∈ known ∨ name ∈ names := by
  induction names generalizing callbacks known with
  | nil => exact ⟨known, found, by simp⟩
  | cons name rest ih =>
    obtain ⟨middle, found, listed⟩ := registerMethod_names name (Or.inr found)
    obtain ⟨after, last, all⟩ := ih found
    refine ⟨after, last, fun other => ?_⟩
    rw [all, listed, List.mem_cons, or_assoc]

/-- A service nobody knows is known with all its functions once it is added. -/
theorem registerMethods_serves (once : kinds.Nodup) (all : ∀ kind, kind ∈ kinds) (fresh : ∀ kind, (callbacks kind).get? sid = none) :
    Serves (registerMethods sid exposed kinds callbacks) sid exposed := by
  have some (kind : HttpMethod) (member : kind ∈ kinds) (callbacks : CallbackDict) (fresh : (callbacks kind).get? sid = none) :
      exposed kind = [] ∧ ((registerMethods sid exposed kinds callbacks) kind).get? sid = none ∨
        exposed kind ≠ [] ∧ ∃ names, ((registerMethods sid exposed kinds callbacks) kind).get? sid = some (sid, names) ∧
          ∀ name, name ∈ names ↔ name ∈ exposed kind := by
    clear all
    induction kinds generalizing callbacks with
    | nil => cases member
    | cons httpMethod rest ih =>
      obtain ⟨apart, once⟩ := List.nodup_cons.mp once
      rw [registerMethods]
      rcases List.mem_cons.mp member with rfl | later
      · rw [registerMethods_apart apart]
        cases names : exposed kind with
        | nil => exact Or.inl ⟨rfl, fresh⟩
        | cons name others =>
          obtain ⟨middle, found, listed⟩ := registerMethod_names name (Or.inl ⟨rfl, fresh⟩)
          obtain ⟨after, last, all⟩ := registerNames others found
          refine Or.inr ⟨List.cons_ne_nil _ _, after, last, fun other => ?_⟩
          rw [all, listed, List.mem_cons]
          simp
      · have other : kind ≠ httpMethod := fun same => apart (same ▸ later)
        refine ih once later _ ?_
        rw [registerMethods_kind other]
        exact fresh
  exact fun kind => some kind (all kind) callbacks (fresh kind)

theorem takeWhile_congr {α : Type*} {list : List α} {first second : α → Bool} (same : ∀ a ∈ list, first a = second a) :
    list.takeWhile first = list.takeWhile second := by
  induction list with
  | nil => rfl
  | cons a rest ih =>
    obtain ⟨here, later⟩ := List.forall_mem_cons.mp same
    rw [List.takeWhile_cons, List.takeWhile_cons, here, ih later]

/-- The tables the walk comes to before it raises lose the service. -/
theorem deregisterMethods_kind (once : kinds.Nodup) (kind : HttpMethod) : (deregisterMethods sid kinds callbacks).1 kind =
    if kind ∈ kinds.takeWhile fun kind => ((callbacks kind).get? sid).isSome then (callbacks kind).erase sid else callbacks kind := by
  induction kinds generalizing callbacks with
  | nil => rfl
  | cons httpMethod rest ih =>
    obtain ⟨apart, once⟩ := List.nodup_cons.mp once
    rw [deregisterMethods, List.takeWhile_cons]
    split
    · have same : rest.takeWhile (fun kind => ((Function.update callbacks httpMethod ((callbacks httpMethod).erase sid) kind).get? sid).isSome) =
          rest.takeWhile fun kind => ((callbacks kind).get? sid).isSome := by
        refine takeWhile_congr fun kind member => ?_
        have other : kind ≠ httpMethod := by
          rintro rfl
          exact apart member
        rw [Function.update_of_ne other]
      rw [ih once, same]
      by_cases here : kind = httpMethod
      · subst here
        rw [if_neg (fun later => apart ((List.takeWhile_sublist _).mem later)), Function.update_self, if_pos (List.mem_cons_self ..)]
      · rw [Function.update_of_ne here]
        simp only [List.mem_cons, here, false_or]
    · rfl

/-- Other services keep their functions. -/
theorem deregisterMethods_other (once : kinds.Nodup) (apart : other ≠ sid) (kind : HttpMethod) :
    ((deregisterMethods sid kinds callbacks).1 kind).get? other = (callbacks kind).get? other := by
  rw [deregisterMethods_kind once]
  split
  · exact Table.get?_erase_ne _ apart
  · rfl

/-- The walk comes to its end if and only if every table has the service. -/
theorem deregisterMethods_complete (once : kinds.Nodup) :
    (deregisterMethods sid kinds callbacks).2 = true ↔ ∀ kind ∈ kinds, ((callbacks kind).get? sid).isSome := by
  induction kinds generalizing callbacks with
  | nil => simp [deregisterMethods]
  | cons httpMethod rest ih =>
    obtain ⟨apart, once⟩ := List.nodup_cons.mp once
    rw [deregisterMethods]
    split
    · rename_i here
      rw [ih once, List.forall_mem_cons]
      refine Iff.trans (forall₂_congr fun kind member => ?_) (and_iff_right here).symm
      have other : kind ≠ httpMethod := by
        rintro rfl
        exact apart member
      rw [Function.update_of_ne other]
    · rename_i missing
      exact ⟨nofun, fun all => absurd (all httpMethod (List.mem_cons_self ..)) missing⟩

end CallbackDict

namespace ApplicationManager

variable {am mid after : ApplicationManager} {sid : Nat} {operation : Operation} {stage : Stage} {next : Option Stage} {outcome : Outcome}

/-- No manager exposes functions for other kinds of requests than before. -/
def SameExposed (am after : ApplicationManager) : Prop := ∀ other, (after.object other).exposed = (am.object other).exposed

theorem SameExposed.trans (first : SameExposed am mid) (second : SameExposed mid after) : SameExposed am after :=
  fun other => (second other).trans (first other)

theorem sameExposed_setState (am : ApplicationManager) (sid : Nat) (state : ManagerState) : SameExposed am (am.setState sid state) := by
  intro other
  by_cases here : other = sid
  · subst here
    simp [setState]
  · simp [setState, here]

theorem sameExposed_setNodes (am : ApplicationManager) (sid : Nat) (nodes : Nodes) : SameExposed am (am.setNodes sid nodes) := by
  intro other
  by_cases here : other = sid
  · subst here
    simp [setNodes]
  · simp [setNodes, here]

theorem sameExposed_removeNode (vmId : String) (holders : List Nat) (am : ApplicationManager) :
    SameExposed am (removeNode vmId holders am).1 := by
  induction holders generalizing am with
  | nil => exact fun _ => rfl
  | cons holder rest ih =>
    rw [removeNode]
    split
    · exact fun _ => rfl
    · exact (sameExposed_setNodes am holder _).trans (ih _)

theorem sameExposed_forget (holders : List Nat) (nodes : List Entry) (am : ApplicationManager) :
    SameExposed am (forget holders nodes am).1 := by
  induction nodes generalizing am with
  | nil => exact fun _ => rfl
  | cons entry rest ih =>
    cases entry with
    | key => exact fun _ => rfl
    | node node =>
      have removed : SameExposed am (removeNode node.id holders (am.dropVolumes node.id)).1 :=
        sameExposed_removeNode node.id holders (am.dropVolumes node.id)
      rw [forget]
      split
      · rename_i mid run
        rw [run] at removed
        exact removed.trans (ih mid)
      · rename_i mid run
        rwa [run] at removed

theorem sameExposed_extend {holder : Nat} {nodes : Nodes} (extended : am.extend holder nodes = some after) :
    SameExposed am after := by
  obtain ⟨_, -, rfl⟩ := Option.map_eq_some_iff.mp extended
  exact sameExposed_setNodes am holder _

theorem sameExposed_hooked {result : ApplicationManager × Option Stage} (same : SameExposed am result.1)
    (step : hooked sid result = some (after, next)) : SameExposed am after := by
  obtain ⟨-, rfl⟩ := hooked_some step
  exact same

theorem sameExposed_deregister (am : ApplicationManager) (sid : Nat) : SameExposed am (am.deregister sid) := by
  rcases deregister_cases am sid with same | same | same
  · rw [same]
    exact fun _ => rfl
  · rw [same]
    exact fun _ => rfl
  · rw [same]
    exact sameExposed_setState _ 0 _

theorem doStartService_exposed (step : am.doStartService sid stage outcome = some (after, next)) : SameExposed am after := by
  unfold doStartService at step
  split at step
  · cases step
    exact fun _ => rfl
  · split at step
    · cases step
      exact fun _ => rfl
    · split at step
      · cases step
        exact fun _ => rfl
      · rename_i extended
        cases step
        exact (sameExposed_extend extended).trans (sameExposed_setNodes _ sid _)
  · exact sameExposed_hooked (sameExposed_setState am sid _) step
  · exact sameExposed_hooked (sameExposed_setState am sid _) step
  · cases step
    exact fun _ => rfl
  · cases step

theorem doAddNodes_exposed (step : am.doAddNodes sid stage outcome = some (after, next)) : SameExposed am after := by
  unfold doAddNodes at step
  split at step
  · cases step
    exact fun _ => rfl
  · split at step
    · cases step
      exact fun _ => rfl
    · split at step
      · cases step
        exact fun _ => rfl
      · rename_i extended
        have first := sameExposed_extend extended
        split at step
        · cases step
          exact first
        · rename_i extended
          cases step
          exact first.trans (sameExposed_extend extended)
  · exact sameExposed_hooked (sameExposed_setState am sid _) step
  · exact sameExposed_hooked (sameExposed_setState am sid _) step
  · cases step
    exact fun _ => rfl
  · cases step

theorem doStopService_exposed {remove : Bool} (step : am.doStopService sid remove stage outcome = some (after, next)) :
    SameExposed am after := by
  unfold doStopService at step
  split at step
  · split at step
    · split at step
      · cases step
        exact fun _ => rfl
      · cases step
        exact sameExposed_setState am sid _
    · cases step
      exact fun _ => rfl
  · split at step
    · exact sameExposed_hooked (sameExposed_setState am sid _) step
    · cases step
  · exact sameExposed_hooked ((sameExposed_setNodes am sid _).trans (sameExposed_setState _ sid _)) step
  · split at step
    · cases step
      exact fun _ => rfl
    · cases step
  · rename_i nodes
    have forgotten := sameExposed_forget [0] nodes am
    split at step
    · rename_i run
      cases step
      rwa [run] at forgotten
    · rename_i run
      cases step
      rwa [run] at forgotten
  · cases step
    exact sameExposed_deregister am sid
  · cases step

theorem doRemoveNodes_exposed (step : am.doRemoveNodes sid stage outcome = some (after, next)) : SameExposed am after := by
  unfold doRemoveNodes at step
  split at step
  · cases step
    exact fun _ => rfl
  · split at step
    · exact sameExposed_hooked (sameExposed_setState am sid _) step
    · cases step
  · exact sameExposed_hooked (fun _ => rfl) step
  · cases step
    exact fun _ => rfl
  · cases step
    exact sameExposed_forget _ _ am
  · cases step

theorem doCreateVolume_exposed {volName agentId : String} {volSize : Int}
    (step : am.doCreateVolume sid volName volSize agentId stage outcome = some (after, next)) : SameExposed am after := by
  unfold doCreateVolume at step
  split at step
  · split at step
    · cases step
      exact fun _ => rfl
    · cases step
      exact sameExposed_setState am sid _
  · dsimp only at step
    split at step
    · cases step
      exact fun _ => rfl
    · cases step
      exact sameExposed_setState am sid _
  · cases step
    exact fun _ => rfl
  · cases step
    exact sameExposed_setState _ sid _
  · cases step
    exact sameExposed_setState am sid _
  · cases step

theorem doDeleteVolume_exposed {volume : Volume} (step : am.doDeleteVolume sid volume stage outcome = some (after, next)) :
    SameExposed am after := by
  unfold doDeleteVolume at step
  split at step
  · cases step
    exact fun _ => rfl
  · split at step
    · cases step
      exact sameExposed_setState _ sid _
    · cases step
      exact fun _ => rfl
  · cases step

theorem advance_exposed (step : am.advance sid operation stage outcome = some (after, next)) : SameExposed am after := by
  cases operation with
  | startService => exact doStartService_exposed step
  | stopService => exact doStopService_exposed step
  | removeService => exact doStopService_exposed step
  | addNodes => exact doAddNodes_exposed step
  | removeNodes => exact doRemoveNodes_exposed step
  | createVolume => exact doCreateVolume_exposed step
  | deleteVolume => exact doDeleteVolume_exposed step

end ApplicationManager

namespace Server

variable {s after first current : Server} {walk : List HttpMethod} {sid ticket : Nat} {event : ServerEvent}

/-- The tables of the server agree with the managers in its instance table. -/
structure Agree (s : Server) : Prop where
  served : ∀ sid, s.process.manager.registered sid = true → s.callbackDict.Serves sid (s.exposed sid)
  fresh : ∀ sid, s.process.manager.serviceId < sid → ∀ kind, (s.callbackDict kind).get? sid = none
  exposed : ∀ sid ∈ s.process.manager.instances, (s.process.manager.object sid).exposed = kinds (s.exposed sid)
  ids : ∀ sid ∈ s.process.manager.instances, 0 < sid ∧ sid ≤ s.process.manager.serviceId
  once : s.process.manager.instances.Nodup

theorem mem_all (kind : HttpMethod) : kind ∈ HttpMethod.all := by
  cases kind <;> decide

theorem mem_kinds {exposed : Exposed} {kind : HttpMethod} : kind ∈ kinds exposed ↔ exposed kind ≠ [] := by
  rw [kinds, List.mem_filter, decide_eq_true_eq]
  exact and_iff_right (mem_all kind)

theorem all_kinds {exposed : Exposed} :
    ([HttpMethod.get, .post, .upload].all fun kind => kind ∈ kinds exposed) = true ↔ ∀ kind, exposed kind ≠ [] := by
  rw [List.all_eq_true]
  refine ⟨fun all kind => mem_kinds.mp (of_decide_eq_true (all kind (mem_all kind))), fun all kind _ => ?_⟩
  exact decide_eq_true (mem_kinds.mpr (all kind))

/-- Nothing but the states and the nodes of managers has changed. -/
theorem Agree.carry (agree : Agree s) {process : Process} (instances : process.manager.instances = s.process.manager.instances)
    (serviceId : s.process.manager.serviceId ≤ process.manager.serviceId)
    (exposed : ApplicationManager.SameExposed s.process.manager process.manager) : Agree { s with process } where
  served sid registered := agree.served sid (by simpa only [ApplicationManager.registered, instances] using registered)
  fresh sid above := agree.fresh sid (serviceId.trans_lt above)
  exposed sid member := (exposed sid).trans (agree.exposed sid (instances ▸ member))
  ids sid member := (agree.ids sid (instances ▸ member)).imp_right serviceId.trans'
  once := instances ▸ agree.once

theorem registered_iff {am : ApplicationManager} : am.registered sid = true ↔ sid = 0 ∨ sid ∈ am.instances := by
  simp [ApplicationManager.registered]

/-- A new service is registered under an id that nobody has had. -/
theorem Agree.addService (agree : Agree s) (walked : walk.Perm HttpMethod.all) (exposed : Exposed) :
    Agree (s.addService walk exposed) := by
  have sid : (s.addService walk exposed).process.manager.serviceId = s.process.manager.serviceId + 1 := rfl
  have instances : (s.addService walk exposed).process.manager.instances =
    s.process.manager.instances ++ [s.process.manager.serviceId + 1] := rfl
  have callbacks : (s.addService walk exposed).callbackDict =
    CallbackDict.registerMethods (s.process.manager.serviceId + 1) exposed walk s.callbackDict := rfl
  have fresh := agree.fresh (s.process.manager.serviceId + 1) (Nat.lt_succ_self _)
  have own : (s.addService walk exposed).exposed (s.process.manager.serviceId + 1) = exposed := Function.update_self ..
  have others {other : Nat} (apart : other ≠ s.process.manager.serviceId + 1) :
      (s.addService walk exposed).exposed other = s.exposed other := Function.update_of_ne apart _ _
  refine ⟨fun other registered => ?_, fun other above kind => ?_, fun other member => ?_, fun other member => ?_, ?_⟩
  · rw [callbacks]
    by_cases here : other = s.process.manager.serviceId + 1
    · rw [here, own]
      exact CallbackDict.registerMethods_serves (walked.nodup_iff.mpr (by decide)) (fun kind => walked.mem_iff.mpr (mem_all kind)) fresh
    · rw [others here]
      have before : s.process.manager.registered other = true := by
        rw [registered_iff, instances, List.mem_append, List.mem_singleton] at registered
        exact registered_iff.mpr (registered.imp_right fun listed => listed.resolve_right here)
      intro kind
      rw [CallbackDict.registerMethods_other here]
      exact agree.served other before kind
  · rw [sid] at above
    rw [callbacks, CallbackDict.registerMethods_other (by omega)]
    exact agree.fresh other (by omega) kind
  · rw [instances, List.mem_append, List.mem_singleton] at member
    have object : (s.addService walk exposed).process.manager.object = Function.update (s.process.manager.setState 0 .running).object
      (s.process.manager.serviceId + 1) ⟨.init, .list [], kinds exposed⟩ := rfl
    by_cases here : other = s.process.manager.serviceId + 1
    · rw [here, own, object, Function.update_self]
    · rw [others here, object, Function.update_of_ne here, ApplicationManager.sameExposed_setState]
      exact agree.exposed other (member.resolve_right here)
  · rw [instances, List.mem_append, List.mem_singleton] at member
    rw [sid]
    rcases member with old | rfl
    · have ids := agree.ids other old
      omega
    · omega
  · rw [instances]
    refine List.nodup_append.mpr ⟨agree.once, List.nodup_singleton _, fun other old new member => ?_⟩
    have ids := agree.ids other old
    have same := List.mem_singleton.mp member
    omega

/-- Whether a service is left as it is when it is deregistered: everything it
exposes is walked through, and the application manager runs then. -/
def Walked (s : Server) (walk : List HttpMethod) (sid : Nat) : Prop :=
  ∀ kind, s.exposed sid kind ≠ [] → kind ∈ walk.takeWhile fun kind => s.exposed sid kind ≠ []

/-- The tables of a served service that is deregistered. -/
theorem Agree.deregistered (agree : Agree s) (walked : walk.Perm HttpMethod.all) (member : sid ∈ s.process.manager.instances) :
    ((CallbackDict.deregisterMethods sid walk s.callbackDict).2 = true ↔ ∀ kind, s.exposed sid kind ≠ []) ∧
    ((∀ kind, ((CallbackDict.deregisterMethods sid walk s.callbackDict).1 kind).get? sid = none) ↔ s.Walked walk sid) := by
  have serves := agree.served sid (registered_iff.mpr (Or.inr member))
  have once : walk.Nodup := walked.nodup_iff.mpr (by decide)
  have listed : (fun kind => ((s.callbackDict kind).get? sid).isSome) = fun kind => decide (s.exposed sid kind ≠ []) :=
    funext fun kind => serves.isSome kind
  constructor
  · rw [CallbackDict.deregisterMethods_complete once]
    refine ⟨fun all kind => ?_, fun all kind _ => ?_⟩
    · exact of_decide_eq_true ((serves.isSome kind).symm.trans (all kind (walked.mem_iff.mpr (mem_all kind))))
    · rw [serves.isSome kind]
      exact decide_eq_true (all kind)
  · refine forall_congr' fun kind => ?_
    rw [CallbackDict.deregisterMethods_kind once, listed]
    split
    · rename_i reached
      exact ⟨fun _ _ => reached, fun _ => Table.get?_erase_self _ _⟩
    · rename_i missed
      rw [← Option.not_isSome_iff_eq_none, serves.isSome kind, decide_eq_true_eq]
      exact ⟨fun empty some => absurd some empty, fun walked some => missed (walked some)⟩

/-- What is left of a service when it is deregistered. -/
theorem Agree.deregister (agree : Agree s) (walked : walk.Perm HttpMethod.all) (ticket sid : Nat) :
    Agree (s.deregister walk ticket sid) ∧
      (s.deregister walk ticket sid).process = s.process.proceed ticket (s.process.manager.deregister sid, none) := by
  unfold Server.deregister ApplicationManager.deregister
  split
  · rename_i member
    have once : walk.Nodup := walked.nodup_iff.mpr (by decide)
    have complete := (agree.deregistered walked member).1
    have all : ([HttpMethod.get, .post, .upload].all fun kind => kind ∈ (s.process.manager.object sid).exposed) = true ↔
        ∀ kind, s.exposed sid kind ≠ [] := by
      rw [agree.exposed sid member]
      exact all_kinds
    have left (manager : ApplicationManager) (same : manager.instances = s.process.manager.instances.erase sid)
        (serviceId : manager.serviceId = s.process.manager.serviceId)
        (exposed : ApplicationManager.SameExposed s.process.manager manager) :
        Agree { s with process := s.process.proceed ticket (manager, none)
                       callbackDict := (CallbackDict.deregisterMethods sid walk s.callbackDict).1 } := by
      have apart {other : Nat} (member : other ∈ s.process.manager.instances.erase sid) :
          other ≠ sid ∧ other ∈ s.process.manager.instances := agree.once.mem_erase_iff.mp member
      refine ⟨fun other registered kind => ?_, fun other above kind => ?_, fun other member => ?_, fun other member => ?_, ?_⟩
      · rw [Process.proceed_manager, registered_iff, same] at registered
        have away : other ≠ sid := by
          rcases registered with rfl | listed
          · exact (agree.ids sid member).1.ne
          · exact (apart listed).1
        rw [CallbackDict.deregisterMethods_other once away]
        exact agree.served other (registered_iff.mpr (registered.imp_right fun listed => (apart listed).2)) kind
      · rw [Process.proceed_manager, serviceId] at above
        have ids := agree.ids sid member
        rw [CallbackDict.deregisterMethods_other once (by omega)]
        exact agree.fresh other above kind
      · rw [Process.proceed_manager, same] at member
        rw [Process.proceed_manager, exposed other]
        exact agree.exposed other (apart member).2
      · rw [Process.proceed_manager, same] at member
        rw [Process.proceed_manager, serviceId]
        exact agree.ids other (apart member).2
      · rw [Process.proceed_manager, same]
        exact agree.once.erase sid
    revert left complete
    generalize CallbackDict.deregisterMethods sid walk s.callbackDict = result
    obtain ⟨callbackDict, done⟩ := result
    intro complete left
    cases done with
    | true =>
      rw [if_pos (all.mpr (complete.mp rfl))]
      exact ⟨left _ rfl rfl (ApplicationManager.sameExposed_setState _ 0 _), rfl⟩
    | false =>
      rw [if_neg fun exposed => Bool.false_ne_true (complete.mpr (all.mp exposed))]
      exact ⟨left _ rfl rfl fun _ => rfl, rfl⟩
  · refine ⟨agree.carry ?_ ?_ ?_, rfl⟩
    · rw [Process.proceed_manager]
    · rw [Process.proceed_manager]
    · rw [Process.proceed_manager]
      exact fun _ => rfl

theorem advance_deregistering {am after : ApplicationManager} {operation : Operation} {outcome : Outcome} {next : Option Stage}
    (step : am.advance sid operation .deregistering outcome = some (after, next)) :
    outcome = .runs ∧ (operation = .stopService ∨ operation = .removeService) ∧ after = am.deregister sid ∧ next = none := by
  cases operation with
  | stopService | removeService =>
    cases outcome with
    | runs =>
      cases step
      exact ⟨rfl, by simp, rfl, rfl⟩
    | _ => cases step
  | _ => cases outcome <;> cases step

theorem deregistering_some {event : Event} {thread : Thread} : s.deregistering event = some thread ↔
    event = .advance thread.ticket .runs ∧ s.process.threads.get? thread.ticket = some thread ∧ thread.stage = .deregistering ∧
      (thread.operation = .stopService ∨ thread.operation = .removeService) := by
  constructor
  · intro comes
    unfold deregistering at comes
    split at comes
    · obtain ⟨found, deregisters⟩ := Option.filter_eq_some_iff.mp comes
      simp only [Bool.and_eq_true, decide_eq_true_eq, Bool.or_eq_true] at deregisters
      cases Table.get?_key found
      exact ⟨rfl, found, deregisters⟩
    · cases comes
  · rintro ⟨rfl, found, deregisters⟩
    refine Option.filter_eq_some_iff.mpr ⟨found, ?_⟩
    simpa only [Bool.and_eq_true, decide_eq_true_eq, Bool.or_eq_true] using deregisters

/-- A step of the server is one of the process, and its tables still agree. -/
theorem Agree.step (agree : Agree s) (walked : walk.Perm HttpMethod.all) (step : Step walk s event after) :
    Agree after ∧ ∃ event, Process.Step s.process event after.process := by
  cases event with
  | made exposed =>
    cases step
    exact ⟨agree.addService walked exposed, .addService (.made (kinds exposed)), rfl⟩
  | other event =>
    cases event with
    | addService construction =>
      cases construction with
      | made => cases step
      | unknownType | notImported | raised =>
        cases step
        refine ⟨agree.carry rfl ?_ ?_, .addService _, rfl⟩
        · exact ApplicationManager.addService_serviceId _
        · first | exact fun _ => rfl | exact ApplicationManager.sameExposed_setState _ 0 _
    | request request =>
      obtain ⟨process, handled, rfl⟩ := Option.map_eq_some_iff.mp step
      refine ⟨?_, .request request, handled⟩
      simp only [Process.handle] at handled
      split at handled
      · cases handled
        exact agree
      · cases handled
        exact agree.carry rfl le_rfl (ApplicationManager.sameExposed_setState _ _ _)
    | advance ticket outcome =>
      cases comes : s.deregistering (.advance ticket outcome) with
      | some thread =>
        obtain ⟨same, found, stage, operation⟩ := deregistering_some.mp comes
        cases same
        simp only [Step, handle, comes] at step
        cases step
        obtain ⟨agree, process⟩ := agree.deregister walked thread.ticket thread.service
        refine ⟨agree, .advance thread.ticket .runs, Process.step_advance.mpr ⟨thread, _, none, found, rfl, ?_, process⟩⟩
        rw [stage]
        rcases operation with operation | operation <;> rw [operation] <;> rfl
      | none =>
        simp only [Step, handle, comes] at step
        obtain ⟨process, handled, rfl⟩ := Option.map_eq_some_iff.mp step
        refine ⟨?_, _, handled⟩
        obtain ⟨thread, manager, next, found, rfl, advanced, rfl⟩ := Process.step_advance.mp handled
        have effect := ApplicationManager.advance_effect advanced
        have instances : manager.instances = s.process.manager.instances := by
          refine effect.instances.resolve_right ?_
          rintro ⟨stage, -⟩
          rw [stage] at advanced
          obtain ⟨rfl, operation, -⟩ := advance_deregistering advanced
          rw [deregistering_some.mpr ⟨rfl, found, stage, operation⟩] at comes
          cases comes
        refine agree.carry ?_ ?_ ?_
        · rw [Process.proceed_manager, instances]
        · rw [Process.proceed_manager, effect.serviceId]
        · rw [Process.proceed_manager]
          exact ApplicationManager.advance_exposed advanced

theorem Starts.agree (starts : first.Starts) : Agree first where
  served sid registered := by
    have own : sid = 0 := by
      rw [registered_iff, starts.process.instances] at registered
      exact registered.resolve_right List.not_mem_nil
    rw [own, starts.callbackDict]
    exact CallbackDict.registerMethods_serves (by decide) mem_all fun _ => rfl
  fresh sid above kind := by
    rw [starts.process.serviceId] at above
    rw [starts.callbackDict, CallbackDict.registerMethods_other above.ne']
    rfl
  exposed sid member := by
    rw [starts.process.instances] at member
    cases member
  ids sid member := by
    rw [starts.process.instances] at member
    cases member
  once := by
    rw [starts.process.instances]
    exact .nil

/-- The tables agree with the managers in every state, and what the server does
is what its process does. -/
theorem agree_of_run (starts : first.Starts) (walked : walk.Perm HttpMethod.all) {events : List ServerEvent}
    (run : Run (Step walk) first events current) : Agree current ∧ ∃ events, Run Process.Step first.process events current.process := by
  induction run with
  | start => exact ⟨starts.agree, [], .start⟩
  | next _ taken ih =>
    obtain ⟨agree, events, run⟩ := ih
    obtain ⟨agree, event, step⟩ := agree.step walked taken
    exact ⟨agree, _, run.next step⟩

theorem deregister_of_mem {am : ApplicationManager} (member : sid ∈ am.instances) :
    (am.deregister sid).instances = am.instances.erase sid ∧ ((am.deregister sid).object 0).state =
      if [HttpMethod.get, .post, .upload].all fun kind => kind ∈ (am.object sid).exposed then .running else (am.object 0).state := by
  unfold ApplicationManager.deregister
  rw [if_pos member]
  dsimp only
  split
  · exact ⟨rfl, by simp [ApplicationManager.setState]⟩
  · exact ⟨rfl, rfl⟩

/-- A service is gone: the server does not find it for any kind of requests,
every function of any other service is called on that, and the application
manager runs. -/
structure Removed (s : Server) (sid : Nat) : Prop where
  silent : ∀ kind method, dispatch s.callbackDict kind (some sid) method = .serviceNotFound
  others : ∀ other, s.process.manager.registered other = true → other ≠ sid → ∀ kind, ∀ name ∈ s.exposed other kind,
    dispatch s.callbackDict kind (some other) (some name) = .calls other name
  absent : s.process.manager.registered sid = false
  running : (s.process.manager.object 0).state = .running

theorem dispatch_none {callbacks : CallbackDict} {kind : HttpMethod} :
    (∀ method, dispatch callbacks kind (some sid) method = .serviceNotFound) ↔ (callbacks kind).get? sid = none := by
  constructor
  · intro silent
    by_contra found
    obtain ⟨entry, found⟩ := Option.ne_none_iff_exists'.mp found
    have missing := silent none
    simp only [dispatch, found] at missing
    cases missing
  · intro none method
    simp only [dispatch, none]

theorem dispatch_serves {callbacks : CallbackDict} {exposed : Exposed} (serves : callbacks.Serves sid exposed) {kind : HttpMethod}
    {name : String} (member : name ∈ exposed kind) : dispatch callbacks kind (some sid) (some name) = .calls sid name := by
  rcases serves kind with ⟨empty, -⟩ | ⟨-, names, found, listed⟩
  · rw [empty] at member
    cases member
  · simp only [dispatch, found, (listed name).mpr member, if_true]

theorem removed_iff_agree (agree : Agree s) : Removed s sid ↔ s.process.manager.registered sid = false ∧
    (∀ kind, (s.callbackDict kind).get? sid = none) ∧ (s.process.manager.object 0).state = .running := by
  constructor
  · intro removed
    exact ⟨removed.absent, fun kind => dispatch_none.mp (removed.silent kind), removed.running⟩
  · rintro ⟨absent, silent, running⟩
    exact ⟨fun kind => dispatch_none.mpr (silent kind), fun other registered _ kind name member =>
      dispatch_serves (agree.served other registered) member, absent, running⟩

/-- A service is removed when its thread deregisters it if and only if it exposes
functions for all kinds of requests, or nothing of it is left in the tables
behind the first kind it has none for, and another request has the application
manager running again. A thread that comes too late changes nothing. -/
theorem removed_iff (starts : first.Starts) (walked : walk.Perm HttpMethod.all) {events : List ServerEvent}
    (run : Run (Step walk) first events current)
    (found : current.process.threads.get? ticket = some ⟨ticket, sid, .removeService, .deregistering⟩)
    (step : Step walk current (.other (.advance ticket .runs)) after) :
    Removed after sid ↔
      if sid ∈ current.process.manager.instances then
        (∀ kind, current.exposed sid kind ≠ []) ∨ current.Walked walk sid ∧ (current.process.manager.object 0).state = .running
      else Removed current sid := by
  obtain ⟨agree, -⟩ := agree_of_run starts walked run
  have comes : current.deregistering (.advance ticket .runs) = some ⟨ticket, sid, .removeService, .deregistering⟩ :=
    deregistering_some.mpr ⟨rfl, found, rfl, Or.inr rfl⟩
  simp only [Step, handle, comes, Option.some.injEq] at step
  obtain ⟨later, process⟩ := agree.deregister walked ticket sid
  rw [step] at later process
  have manager : after.process.manager = current.process.manager.deregister sid := by
    rw [process, Process.proceed_manager]
  rw [removed_iff_agree later, manager]
  subst step
  split
  · rename_i member
    obtain ⟨complete, gone⟩ := agree.deregistered walked member
    have tables : (current.deregister walk ticket sid).callbackDict =
        (CallbackDict.deregisterMethods sid walk current.callbackDict).1 := by
      rw [Server.deregister, if_pos member]
      rcases CallbackDict.deregisterMethods sid walk current.callbackDict with ⟨callbackDict, _ | _⟩ <;> rfl
    have everywhere (all : ∀ kind, current.exposed sid kind ≠ []) : current.Walked walk sid := by
      intro kind _
      rw [List.takeWhile_eq_self_iff.mpr fun kind _ => decide_eq_true (all kind)]
      exact walked.mem_iff.mpr (mem_all kind)
    obtain ⟨instances, state⟩ := deregister_of_mem member
    have absent : (current.process.manager.deregister sid).registered sid = false := by
      refine Bool.eq_false_iff.mpr fun registered => ?_
      rcases registered_iff.mp registered with own | listed
      · exact (agree.ids sid member).1.ne' own
      · rw [instances] at listed
        exact (agree.once.mem_erase_iff.mp listed).1 rfl
    have all : ([HttpMethod.get, .post, .upload].all fun kind => kind ∈ (current.process.manager.object sid).exposed) = true ↔
        ∀ kind, current.exposed sid kind ≠ [] := by
      rw [agree.exposed sid member]
      exact all_kinds
    rw [and_iff_right absent, tables, gone, state]
    by_cases exposes : ∀ kind, current.exposed sid kind ≠ []
    · rw [if_pos (all.mpr exposes)]
      exact ⟨fun _ => Or.inl exposes, fun _ => ⟨everywhere exposes, rfl⟩⟩
    · rw [if_neg fun listed => exposes (all.mp listed)]
      exact (or_iff_right exposes).symm
  · rename_i absent
    have same : current.process.manager.deregister sid = current.process.manager := if_neg absent
    have tables : (current.deregister walk ticket sid).callbackDict = current.callbackDict := by
      rw [Server.deregister, if_neg absent]
    rw [removed_iff_agree agree, same, tables]

/-- The functions of every manager. -/
def baseFunctions : List String := ["get_service_history", "get_manager_log", "get_agent_log"]

/-- What a HelloWorld service exposes. -/
def helloworldExposed : Exposed
  | .get => ["list_nodes", "get_service_info", "get_node_info", "get_helloworld"] ++ baseFunctions
  | .post | .upload => []

/-- What a Generic service exposes. -/
def genericExposed : Exposed
  | .get => ["list_nodes", "get_service_info", "get_node_info", "list_code_versions", "list_authorized_keys",
    "download_code_version", "get_script_status"] ++ baseFunctions
  | .post => ["enable_code", "delete_code_version", "execute_script"]
  | .upload => ["upload_authorized_key", "upload_code_version"]

/-- What the application manager exposes. -/
def applicationExposed : Exposed
  | .get => ["check_process", "get_app_info", "get_startup_script"] ++ baseFunctions
  | .post => ["add_service", "remove_service", "start_service", "stop_service", "add_nodes", "remove_nodes", "create_volume",
    "delete_volume", "list_volumes", "stopall", "git_push_hook"]
  | .upload => ["upload_startup_script"]

/-- A server that has just come up. -/
def fresh : Server where
  process := Process.fresh
  exposed _ := applicationExposed
  callbackDict := CallbackDict.registerMethods 0 applicationExposed HttpMethod.all fun _ => .empty

theorem fresh_starts : Starts fresh := ⟨Process.fresh_starts, rfl⟩

/-- A service of some type is added and removed without having been started. -/
def addedAndRemoved (exposed : Exposed) : List ServerEvent :=
  [.made exposed, .other (.request (.removeService 1)), .other (.advance 0 .runs)]

/-- The order in which the tables of the server come. -/
def pythonWalk : List HttpMethod := [.post, .upload, .get]

theorem addedAndRemoved_removed : ∃ current after, Run (Step pythonWalk) fresh (addedAndRemoved genericExposed) current ∧
    Step pythonWalk current (.other (.advance 0 .runs)) after ∧ Removed after 1 := by
  obtain ⟨current, played, found, member, after, step⟩ : ∃ current,
      play (fun s event => handle s pythonWalk event) fresh (addedAndRemoved genericExposed) = some current ∧
      current.process.threads.get? 0 = some ⟨0, 1, .removeService, .deregistering⟩ ∧
      (1 ∈ current.process.manager.instances ∧ ∀ kind ∈ HttpMethod.all, current.exposed 1 kind ≠ []) ∧
      ∃ after, current.handle pythonWalk (.other (.advance 0 .runs)) = some after :=
    ⟨_, rfl, by decide +kernel, by decide +kernel, _, rfl⟩
  have run := Run.play played
  refine ⟨current, after, run, step, (removed_iff fresh_starts (by decide) run found step).mpr ?_⟩
  rw [if_pos member.1]
  exact Or.inl fun kind => member.2 kind (mem_all kind)

/-- A HelloWorld service, which answers only GET requests. -/
theorem helloworld_not_removed : ¬∀ (walk : List HttpMethod) (first current after : Server) (events : List ServerEvent) (ticket sid : Nat),
    walk.Perm HttpMethod.all → first.Starts → Run (Step walk) first events current →
      current.process.threads.get? ticket = some ⟨ticket, sid, .removeService, .deregistering⟩ →
        Step walk current (.other (.advance ticket .runs)) after → Removed after sid := by
  intro removed
  obtain ⟨current, played, found, after, step, state⟩ : ∃ current,
      play (fun s event => handle s pythonWalk event) fresh (addedAndRemoved helloworldExposed) = some current ∧
      current.process.threads.get? 0 = some ⟨0, 1, .removeService, .deregistering⟩ ∧
      ∃ after, current.handle pythonWalk (.other (.advance 0 .runs)) = some after ∧
        (after.process.manager.object 0).state = .adapting :=
    ⟨_, rfl, by decide +kernel, _, rfl, by decide +kernel⟩
  have running := (removed pythonWalk fresh current after _ 0 1 (by decide) fresh_starts (Run.play played) found step).running
  rw [state] at running
  cases running

end Server

end ConPaaS
