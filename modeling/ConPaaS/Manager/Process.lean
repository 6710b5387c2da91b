import ConPaaS.Manager.ApplicationManager

namespace ConPaaS

open Keyed

/-- The operations that run in the background, with the arguments of their
threads besides the service. -/
inductive Operation
  | startService
  | stopService
  | removeService
  | addNodes
  | removeNodes
  | createVolume (volName : String) (volSize : Int) (agentId : String)
  | deleteVolume (volume : Volume)
  deriving DecidableEq, Repr

/-- How far a thread has come. In a hook it is known which state the hook has
set last. -/
inductive Stage
  | begin
  | creatingNodes
  | hook (left : Option ManagerState)
  | removing (nodes : List Entry)
  | deregistering
  | creatingVolume (cloud : String)
  | attachingVolume (volume : Volume)
  | configuringVolume (volume : Volume)
  | destroyingVolume (volume : Volume)
  deriving DecidableEq, Repr

/-- The manager whose state a request sets before it starts the thread. A
service is removed under the state of the application manager. -/
def Operation.marks (sid : Nat) : Operation → Nat
  | .removeService => 0
  | _ => sid

/-- The state it sets. -/
def Operation.mark : Operation → ManagerState
  | .startService => .prologue
  | .stopService => .epilogue
  | _ => .adapting

/-- What a thread meets next: nothing but its own statements, the reply of the
director to a callback, or something a hook of the service does. -/
inductive Outcome
  | runs
  | nodesReply (reply : NodesReply)
  | volumeReply (volumeId : Option String)
  | destroyReply (done : Bool)
  | writes (state : ManagerState)
  | answers (ok : Bool)
  | gives (nodes : List Entry)
  | raises
  deriving DecidableEq, Repr

/-- A background thread of the manager, under the number of the operation it
carries out. -/
structure Thread where
  ticket : Nat
  service : Nat
  operation : Operation
  stage : Stage
  deriving DecidableEq, Repr

/-- The requests that start threads. `checked` says that credits, roles and the
check of the service itself let the request pass. -/
inductive Request
  | startService (sid : Nat) (checked : Bool)
  | stopService (sid : Nat)
  | removeService (sid : Nat)
  | addNodes (sid : Nat) (checked : Bool)
  | removeNodes (sid : Nat) (checked : Bool)
  | createVolume (volName : String) (volSize : Int) (agentId : String) (checked : Bool)
  | deleteVolume (volName : String) (checked : Bool)
  deriving DecidableEq, Repr

/-- How the creation of a service manager in `add_service` can go. -/
inductive Construction
  | unknownType
  | notImported
  | raised
  | made (exposed : List HttpMethod)
  deriving DecidableEq, Repr

namespace ApplicationManager

variable (am : ApplicationManager)

/-- The service and the operation a request starts a thread for, none where it
is answered with an error. -/
def startService (sid : Nat) (checked : Bool) : Option (Nat × Operation) :=
  if am.registered sid && checked && am.checkState sid [.init, .stopped] then some (sid, .startService) else none

def stopService (sid : Nat) : Option (Nat × Operation) :=
  if am.registered sid then some (sid, .stopService) else none

def removeService (sid : Nat) : Option (Nat × Operation) :=
  if am.registered sid then some (sid, .removeService) else none

def addNodes (sid : Nat) (checked : Bool) : Option (Nat × Operation) :=
  if am.registered sid && checked && am.checkState sid [.running] then some (sid, .addNodes) else none

def removeNodes (sid : Nat) (checked : Bool) : Option (Nat × Operation) :=
  if am.registered sid && checked && am.checkState sid [.running] then some (sid, .removeNodes) else none

def createVolume (volName : String) (volSize : Int) (agentId : String) (checked : Bool) : Option (Nat × Operation) :=
  if (am.volumes.get? volName).isNone && volSize > 0 && (am.nodeById agentId).isSome then
    match am.getServiceIdByVmId agentId am.instances with
    | none => none
    | some sid =>
      if checked && am.checkState sid [.running] then some (sid, .createVolume volName volSize agentId) else none
  else none

def deleteVolume (volName : String) (checked : Bool) : Option (Nat × Operation) :=
  match am.volumes.get? volName with
  | none => none
  | some volume =>
    if (am.nodeById volume.vmId).isSome then
      match am.getServiceIdByVmId volume.vmId am.instances with
      | none => none
      | some sid => if checked && am.checkState sid [.running] then some (sid, .deleteVolume volume) else none
    else none

def request : Request → Option (Nat × Operation)
  | .startService sid checked => am.startService sid checked
  | .stopService sid => am.stopService sid
  | .removeService sid => am.removeService sid
  | .addNodes sid checked => am.addNodes sid checked
  | .removeNodes sid checked => am.removeNodes sid checked
  | .createVolume volName volSize agentId checked => am.createVolume volName volSize agentId checked
  | .deleteVolume volName checked => am.deleteVolume volName checked

/-- `add_service`. A service manager that cannot be made leaves the application
manager adapting. -/
def addService : Construction → ApplicationManager
  | .unknownType => am
  | .notImported => am.setState 0 .error
  | .raised => { am.setState 0 .adapting with serviceId := am.serviceId + 1 }
  | .made exposed =>
    let sid := am.serviceId + 1
    { instances := am.instances ++ [sid]
      object := Function.update (am.setState 0 .running).object sid ⟨.init, .list [], exposed⟩
      serviceId := sid
      volumes := am.volumes
      devTarget := am.devTarget }

/-- The hooks of the application manager itself are those of the base class,
which all raise. -/
def hooked (sid : Nat) (result : ApplicationManager × Option Stage) : Option (ApplicationManager × Option Stage) :=
  if sid = 0 then none else some result

/-- `_do_start_service`: what a step changes and where the thread goes on, if
it does. On their way into an exception the hooks may set the state to ERROR. -/
def doStartService (sid : Nat) : Stage → Outcome → Option (ApplicationManager × Option Stage)
  | .begin, .runs => some (am, if am.registered sid then some .creatingNodes else none)
  | .creatingNodes, .nodesReply reply =>
    match createNodes reply with
    | none => some (am, none)
    | some nodes =>
      match am.extend 0 nodes with
      | none => some (am, none)
      | some am => some (am.setNodes sid nodes, some (.hook none))
  | .hook _, .writes .error => hooked sid (am.setState sid .error, some (.hook (some .error)))
  | .hook _, .answers ok => hooked sid (am.setState sid (if ok then .running else .error), none)
  | .hook _, .raises => some (am, none)
  | _, _ => none

/-- `_do_add_nodes`. -/
def doAddNodes (sid : Nat) : Stage → Outcome → Option (ApplicationManager × Option Stage)
  | .begin, .runs => some (am, if am.registered sid then some .creatingNodes else none)
  | .creatingNodes, .nodesReply reply =>
    match createNodes reply with
    | none => some (am, none)
    | some nodes =>
      match am.extend 0 nodes with
      | none => some (am, none)
      | some am =>
        match am.extend sid nodes with
        | none => some (am, none)
        | some am => some (am, some (.hook none))
  | .hook _, .writes .error => hooked sid (am.setState sid .error, some (.hook (some .error)))
  | .hook _, .answers ok => hooked sid (am.setState sid (if ok then .running else .error), none)
  | .hook _, .raises => some (am, none)
  | _, _ => none

/-- The states hooks that give up nodes set: the removal of the last node stops
a service, any other leaves it running, and a failure is an error. -/
def giveUpState (state : ManagerState) : Bool := state = .stopped || state = .running || state = .error

/-- The end of `_do_stop_service` for a service that is removed as well. -/
def afterStop (remove : Bool) : Option Stage := if remove then some .deregistering else none

/-- `_deregister_methods` and the state of the application manager after it. A
service has an entry only under the kinds of methods it exposes, and a missing
one raises. -/
def deregister (sid : Nat) : ApplicationManager :=
  if sid ∈ am.instances then
    let removed := { am with instances := am.instances.erase sid }
    if [HttpMethod.get, .post, .upload].all fun kind => kind ∈ (am.object sid).exposed then removed.setState 0 .running
    else removed
  else am

/-- `_do_stop_service`. A hook that has set another state than ERROR does not
raise any more. -/
def doStopService (sid : Nat) (remove : Bool) : Stage → Outcome → Option (ApplicationManager × Option Stage)
  | .begin, .runs =>
    if am.registered sid then
      if (am.object sid).state ≠ .init then some (am, some (.hook none)) else some (am.setState sid .stopped, afterStop remove)
    else some (am, none)
  | .hook _, .writes state =>
    if giveUpState state then hooked sid (am.setState sid state, some (.hook (some state))) else none
  | .hook _, .gives nodes =>
    hooked sid ((am.setNodes sid (.list [])).setState sid .stopped, some (.removing nodes))
  | .hook left, .raises => if left = none ∨ left = some .error then some (am, none) else none
  | .removing nodes, .runs =>
    match forget [0] nodes am with
    | (am, true) => some (am, afterStop remove)
    | (am, false) => some (am, none)
  | .deregistering, .runs => some (am.deregister sid, none)
  | _, _ => none

/-- `_do_remove_nodes`. Every service has set its state when its hook returns. -/
def doRemoveNodes (sid : Nat) : Stage → Outcome → Option (ApplicationManager × Option Stage)
  | .begin, .runs => some (am, if am.registered sid then some (.hook none) else none)
  | .hook _, .writes state =>
    if giveUpState state then hooked sid (am.setState sid state, some (.hook (some state))) else none
  | .hook (some _), .gives nodes => hooked sid (am, some (.removing nodes))
  | .hook _, .raises => some (am, none)
  | .removing nodes, .runs => some ((forget [0, sid] nodes am).1, none)
  | _, _ => none

/-- `_do_create_volume`. Whatever raises in it ends in state ERROR. The reply to
`attach_volume` is not looked at. -/
def doCreateVolume (sid : Nat) (volName : String) (volSize : Int) (agentId : String) :
    Stage → Outcome → Option (ApplicationManager × Option Stage)
  | .begin, .runs =>
    match am.nodeById agentId with
    | some (.node node) => some (am, some (.creatingVolume node.cloudName))
    | _ => some (am.setState sid .error, none)
  | .creatingVolume cloud, .volumeReply volumeId =>
    let inUse := am.devNamesInUse agentId
    match volumeId, freeDevName inUse (inUse.length + 1) am.devTarget with
    | some volumeId, some devName =>
      some (am, some (.attachingVolume ⟨volName, volumeId, volSize, agentId, devName, cloud⟩))
    | _, _ => some (am.setState sid .error, none)
  | .attachingVolume volume, .runs => some (am, some (.configuringVolume volume))
  | .configuringVolume volume, .answers _ =>
    some ({ am with volumes := am.volumes.put volume }.setState sid .running, none)
  | .configuringVolume _, .raises => some (am.setState sid .error, none)
  | _, _ => none

/-- `_do_delete_volume`. The hook may fail, the reply to `detach_volume` is not
looked at, and a reply to `destroy_volume` that is not a success raises, as
does a volume that is not recorded any more. -/
def doDeleteVolume (sid : Nat) (volume : Volume) : Stage → Outcome → Option (ApplicationManager × Option Stage)
  | .begin, .runs => some (am, some (.destroyingVolume volume))
  | .destroyingVolume volume, .destroyReply done =>
    if done && (am.volumes.get? volume.volName).isSome then
      some ({ am with volumes := am.volumes.erase volume.volName }.setState sid .running, none)
    else some (am, none)
  | _, _ => none

/-- One step of a thread. -/
def advance (sid : Nat) : Operation → Stage → Outcome → Option (ApplicationManager × Option Stage)
  | .startService => am.doStartService sid
  | .stopService => am.doStopService sid false
  | .removeService => am.doStopService sid true
  | .addNodes => am.doAddNodes sid
  | .removeNodes => am.doRemoveNodes sid
  | .createVolume volName volSize agentId => am.doCreateVolume sid volName volSize agentId
  | .deleteVolume volume => am.doDeleteVolume sid volume

end ApplicationManager

/-- An operation a request has started a thread for. -/
structure Accepted where
  ticket : Nat
  service : Nat
  operation : Operation
  deriving DecidableEq, Repr

/-- The manager process: the data of the managers, the threads in flight, and
every operation accepted so far, the latest first. Only the last of the three
is not in the program. -/
structure Process where
  manager : ApplicationManager
  threads : Table Thread.ticket
  accepted : List Accepted

/-- What happens next: a request is handled, or a thread goes on. -/
inductive Event
  | addService (construction : Construction)
  | request (request : Request)
  | advance (ticket : Nat) (outcome : Outcome)
  deriving DecidableEq, Repr

namespace Process

/-- The end of a handler: the state is set and the thread started. -/
def launch (p : Process) (sid : Nat) (operation : Operation) : Process where
  manager := p.manager.setState (operation.marks sid) operation.mark
  threads := p.threads.put ⟨p.accepted.length, sid, operation, .begin⟩
  accepted := ⟨p.accepted.length, sid, operation⟩ :: p.accepted

/-- A thread goes on to a stage or ends. -/
def proceed (p : Process) (ticket : Nat) : ApplicationManager × Option Stage → Process
  | (manager, some stage) =>
    { p with manager, threads := p.threads.modify ticket fun thread => { thread with stage } }
  | (manager, none) => { p with manager, threads := p.threads.erase ticket }

/-- Requests are handled one at a time, between the steps of the threads. -/
def handle (p : Process) : Event → Option Process
  | .addService construction => some { p with manager := p.manager.addService construction }
  | .request request =>
    match p.manager.request request with
    | none => some p
    | some (sid, operation) => some (p.launch sid operation)
  | .advance ticket outcome =>
    match p.threads.get? ticket with
    | none => none
    | some thread => (p.manager.advance thread.service thread.operation thread.stage outcome).map (p.proceed ticket)

/-- The operation on a service that was accepted last. -/
def lastAccepted (p : Process) (sid : Nat) : Option Accepted := p.accepted.find? fun accepted => accepted.service = sid

/-- One step of the process. -/
def Step (before : Process) (event : Event) (after : Process) : Prop := before.handle event = some after

/-- A manager that has just come up, with or without Ganglia. -/
structure Starts (p : Process) : Prop where
  instances : p.manager.instances = []
  own : (p.manager.object 0).state = .init ∨ (p.manager.object 0).state = .running
  nodes : (p.manager.object 0).nodes = .list []
  serviceId : p.manager.serviceId = 0
  volumes : p.manager.volumes = .empty
  threads : p.threads = .empty
  accepted : p.accepted = []

/-- A manager that has come up with Ganglia. -/
def fresh : Process where
  manager := ⟨[], fun _ => ⟨.running, .list [], []⟩, 0, .empty, "sdb"⟩
  threads := .empty
  accepted := []

theorem fresh_starts : Starts fresh := ⟨rfl, Or.inr rfl, rfl, rfl, rfl, rfl, rfl⟩

end Process

/-- A node of a cloud, for runs on fixed inputs. -/
def nodeOf (vmid : String) : ServiceNode := ⟨vmid, "10.0.0." ++ vmid, "", "iaas", 100, "node", []⟩

end ConPaaS
