import ConPaaS.Lib.Transition
import ConPaaS.Manager.NodeRoles

namespace ConPaaS

open Keyed Transition Fallible BaseManager

/-- The services whose nodes are picked for a removal from the end of the list. -/
inductive PoolService
  | generic
  | helloworld
  deriving DecidableEq, Repr

/-- An entry of `agents_info`. -/
structure AgentInfo where
  id : String
  ip : String
  role : String
  deriving DecidableEq, Repr

namespace PoolService

def roleMaster : String := "master"

def roleRegular : String := "node"

def roles : PoolService → ServiceRoles
  | .generic => ⟨"generic", [roleMaster, roleRegular], roleRegular⟩
  | .helloworld => ⟨"helloworld", [roleRegular], roleRegular⟩

/-- `get_starting_nodes`. -/
def getStartingNodes : PoolService → RoleCounts
  | .generic => ⟨[(roleMaster, 1)], List.nodup_singleton _⟩
  | .helloworld => ⟨[(roleRegular, 1)], List.nodup_singleton _⟩

end PoolService

/-- `_update_agents_info`: the nodes with the roles they take in turn. -/
def updateAgentsInfo (nodes : List ServiceNode) (roles : RoleCounts) : List AgentInfo :=
  List.zipWith (fun node role => ⟨node.id, node.ip, role⟩) nodes (getSninfo roles)

/-- What a background thread of the service still has to do. A thread in a
removal has picked its nodes before it notifies the others, and takes them out
of the lists after that. -/
inductive PoolWork
  | starting
  | onStart (nodes : List ServiceNode)
  | adding (nodeRoles : RoleCounts)
  | onAddNodes (nodes : List ServiceNode)
  | configuring
  | removing (nodeRoles : RoleCounts)
  | notifying (picked : List ServiceNode)
  | dropping (nodes : List ServiceNode)
  | stopping
  | stopped (nodes : List ServiceNode)
  | releasing (nodes : List ServiceNode)
  | adapting
  deriving DecidableEq

/-- The requests to the service. `credit` says that the director has credit left
for it. Code is enabled and volumes are created and deleted without a change to
the nodes. -/
inductive PoolRequest
  | startService (credit : Bool)
  | stopService
  | removeService
  | addNodes (nodeRoles : RoleCounts) (credit : Bool)
  | removeNodes (nodeRoles : RoleCounts)
  | adapt

/-- How the calls to the agents in a part of a hook go. An exception that is not
the agents' leaves the state of the service alone. -/
inductive AgentsReply
  | succeed
  | agentException
  | raise
  deriving DecidableEq, Repr

/-- What happens next: a request comes in, a thread goes on, with the nodes in
the reply of the director if it has been waiting for one, or a script that
nobody waits for fails. -/
inductive PoolEvent
  | request (request : PoolRequest)
  | advance (position : Nat) (reply : List ServiceNode) (agents : AgentsReply)
  | scriptFails

/-- The nodes a removal has picked, and who was the master then. -/
structure Removal where
  picked : List ServiceNode
  masterIp : Option String
  deriving DecidableEq, Repr

/-- The manager of a Generic or a HelloWorld service with its background threads
in the order in which they were started, the nodes of its application, and the
removals so far, which are not in the program. A service that is removed only
loses its entry, so that it is followed as if it could still be asked. -/
structure PoolManager where
  service : PoolService
  applicationNodes : List ServiceNode
  state : ManagerState
  nodes : List ServiceNode
  agentsInfo : List AgentInfo
  masterIp : Option String
  inFlight : List PoolWork
  removals : List Removal

namespace PoolManager

variable (m : PoolManager)

/-- `sum(node_roles.values())`. -/
def total (nodeRoles : RoleCounts) : Int := (nodeRoles.rows.map Prod.snd).sum

/-- `check_remove_nodes`. At least one node has to remain. -/
def checkRemoveNodes (nodeRoles : RoleCounts) : Except String Unit :=
  if total nodeRoles ≥ m.nodes.length then .error (wrongNrNodes (total nodeRoles) (m.nodes.length - 1) none)
  else
    match m.service with
    | .generic =>
      if ∃ entry ∈ nodeRoles.get? PoolService.roleMaster, entry.2 > 0 then .error "Cannot remove the master node."
      else .ok ()
    | .helloworld => .ok ()

/-- The checks of `start_service`, and the state and the thread it leads to. -/
def startService (credit : Bool) : Except String (ManagerState × PoolWork) := do
  checkCredits credit
  checkState m.state [.init, .stopped]
  .ok (.prologue, .starting)

def addNodes (nodeRoles : RoleCounts) (credit : Bool) : Except String (ManagerState × PoolWork) := do
  checkCredits credit
  let nodeRoles ← checkNodeRoles m.service.roles nodeRoles
  checkState m.state [.running]
  .ok (.adapting, .adding nodeRoles)

def removeNodes (nodeRoles : RoleCounts) : Except String (ManagerState × PoolWork) := do
  let nodeRoles ← checkNodeRoles m.service.roles nodeRoles
  checkState m.state [.running]
  m.checkRemoveNodes nodeRoles
  .ok (.adapting, .removing nodeRoles)

def adapt : Except String (ManagerState × PoolWork) := do
  checkState m.state [.running]
  .ok (.adapting, .adapting)

/-- The answer to a request: an error, or the state and the thread it leads to.
The state of a service that is to be removed is not set. -/
def answer : PoolRequest → Except String (ManagerState × PoolWork)
  | .startService credit => m.startService credit
  | .stopService => .ok (.epilogue, .stopping)
  | .removeService => .ok (m.state, .stopping)
  | .addNodes nodeRoles credit => m.addNodes nodeRoles credit
  | .removeNodes nodeRoles => m.removeNodes nodeRoles
  | .adapt => m.adapt

/-- The loop of `on_remove_nodes`, with the nodes picked so far. Only a Generic
service has `agents_info` to take from, and taking from an empty list raises. -/
def popNodes (service : PoolService) : Nat → List ServiceNode → List ServiceNode → List AgentInfo →
    Option (List ServiceNode × List ServiceNode) × List AgentInfo
  | 0, nodes, picked, agentsInfo => (some (nodes, picked), agentsInfo)
  | count + 1, nodes, picked, agentsInfo =>
    match nodes.getLast?, service with
    | none, _ => (none, agentsInfo)
    | some node, .helloworld => popNodes service count nodes.dropLast (picked ++ [node]) agentsInfo
    | some node, .generic =>
      if agentsInfo = [] then (none, agentsInfo)
      else popNodes service count nodes.dropLast (picked ++ [node]) agentsInfo.dropLast

/-- The thread at a position has ended. -/
def ended (position : Nat) : PoolManager := { m with inFlight := m.inFlight.eraseIdx position }

/-- The thread at a position goes on with other work. -/
def goesOn (position : Nat) (work : PoolWork) : PoolManager := { m with inFlight := m.inFlight.set position work }

/-- What the first node of a service that has started is. -/
def onStart (nodes : List ServiceNode) : PoolManager :=
  match m.service with
  | .generic =>
    { m with
      agentsInfo := m.agentsInfo ++ updateAgentsInfo nodes m.service.getStartingNodes
      masterIp := nodes.head?.map ServiceNode.ip }
  | .helloworld => m

/-- The beginning of `on_add_nodes`. -/
def onAddNodes (nodes : List ServiceNode) : PoolManager :=
  match m.service with
  | .generic =>
    let roles : RoleCounts := ⟨[(PoolService.roleRegular, nodes.length)], List.nodup_singleton _⟩
    { m with agentsInfo := m.agentsInfo ++ updateAgentsInfo nodes roles }
  | .helloworld => m

/-- The picking in `on_remove_nodes`, which goes on in the thread at a position. -/
def onRemoveNodes (position : Nat) (count : Nat) : PoolManager :=
  match popNodes m.service count m.nodes [] m.agentsInfo with
  | (none, agentsInfo) => { m.ended position with agentsInfo }
  | (some (left, picked), agentsInfo) =>
    let removals := ⟨picked, m.masterIp⟩ :: m.removals
    if left = [] then
      { m.goesOn position (.dropping picked) with agentsInfo, removals, masterIp := none, state := .stopped }
    else { m.goesOn position (.notifying picked) with agentsInfo, removals }

/-- `on_stop` returns all nodes. -/
def onStop : PoolManager :=
  match m.service with
  | .generic => { m with agentsInfo := [], masterIp := none }
  | .helloworld => m

/-- What a thread does next. A thread that raises ends and leaves the state. -/
def carryOut (position : Nat) (reply : List ServiceNode) (agents : AgentsReply) : PoolWork → PoolManager
  | .starting =>
    -- The callback makes nothing of an empty list, and `+=` raises.
    if reply = [] then m.ended position
    else { m.goesOn position (.onStart reply) with applicationNodes := m.applicationNodes ++ reply, nodes := reply }
  | .onStart nodes =>
    -- Whatever is raised is caught.
    if agents = .succeed then { (m.ended position).onStart nodes with state := .running }
    else { m.ended position with state := .error }
  | .adding _ =>
    if reply = [] then m.ended position
    else { m.goesOn position (.onAddNodes reply) with
      applicationNodes := m.applicationNodes ++ reply, nodes := m.nodes ++ reply }
  | .onAddNodes nodes => (m.goesOn position .configuring).onAddNodes nodes
  | .configuring =>
    match agents, m.service with
    | .succeed, _ => { m.ended position with state := .running }
    | .raise, .generic => m.ended position
    | _, _ => { m.ended position with state := .error }
  | .removing nodeRoles => m.onRemoveNodes position (total nodeRoles).toNat
  | .notifying picked =>
    match agents, m.service with
    | .agentException, .generic => { m.ended position with state := .error }
    | .raise, .generic => m.ended position
    | _, _ => { m.goesOn position (.dropping picked) with state := .running }
  | .dropping [] => m.ended position
  | .dropping (node :: rest) =>
    match dropNode node.id m.applicationNodes with
    | none => m.ended position
    | some applicationNodes =>
      match dropNode node.id m.nodes with
      | none => { m.ended position with applicationNodes }
      | some nodes => { m.goesOn position (.dropping rest) with applicationNodes, nodes }
  | .stopping =>
    if m.state = .init then { m.ended position with state := .stopped }
    else (m.goesOn position (.stopped m.nodes)).onStop
  | .stopped nodes => { m.goesOn position (.releasing nodes) with nodes := [], state := .stopped }
  | .releasing [] => m.ended position
  | .releasing (node :: rest) =>
    match dropNode node.id m.applicationNodes with
    | none => m.ended position
    | some applicationNodes => { m.goesOn position (.releasing rest) with applicationNodes }
  | .adapting =>
    match agents with
    | .succeed => { m.ended position with state := .running }
    | .agentException => { m.ended position with state := .error }
    | .raise => m.ended position

def handle : PoolEvent → Option PoolManager
  | .request request =>
    match m.answer request with
    | .error _ => some m
    | .ok (state, work) => some { m with state, inFlight := m.inFlight ++ [work] }
  | .advance position reply agents => m.inFlight[position]?.map (m.carryOut position reply agents)
  | .scriptFails => some { m with state := .error }

def Step (before : PoolManager) (event : PoolEvent) (after : PoolManager) : Prop := before.handle event = some after

/-- A service that was added to an application with some nodes. -/
def created (service : PoolService) (applicationNodes : List ServiceNode) : PoolManager where
  service := service
  applicationNodes := applicationNodes
  state := .init
  nodes := []
  agentsInfo := []
  masterIp := none
  inFlight := []
  removals := []

end PoolManager

end ConPaaS
