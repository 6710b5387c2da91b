import ConPaaS.Lib.Transition
import ConPaaS.Manager.NodeRoles
import ConPaaS.MySQL.Configuration

namespace ConPaaS

open Keyed Transition Fallible BaseManager

/-- What a background thread of a MySQL service still has to do. The threads
that drop nodes take them out of the lists one by one. -/
inductive MySQLWork
  | starting
  | onStart (nodes : List ServiceNode)
  | adding (nodeRoles : RoleCounts)
  | onAddNodes (nodes : List ServiceNode)
  | removing (nodeRoles : RoleCounts)
  | removingSpecific (rmRegNodes rmGlbNodes : List ServiceNode)
  | dropping (nodes : List ServiceNode)
  | stopping
  | stopped (nodes : List ServiceNode)
  | releasing (nodes : List ServiceNode)
  deriving DecidableEq

/-- The requests to a MySQL service. `credit` says that the director has credit
left for it, and `ip` is what the check of the arguments comes to. -/
inductive MySQLRequest
  | startService (credit : Bool)
  | stopService
  | addNodes (nodeRoles : RoleCounts) (credit : Bool)
  | removeNodes (nodeRoles : RoleCounts)
  | removeSpecificNodes (ip : Except String String)

/-- What happens next: a request comes in, a thread goes on, with the nodes in
the reply of the director if it has been waiting for one, or the dictionaries
of the configuration come to list their values in another order. -/
inductive MySQLEvent
  | request (request : MySQLRequest)
  | advance (position : Nat) (reply : List ServiceNode)
  | rehash (config : MySQLConfiguration)

/-- The manager of a MySQL service with its background threads, in the order in
which they were started, the nodes of its application and the agents on them. -/
structure MySQLManager where
  applicationNodes : List ServiceNode
  state : ManagerState
  nodes : List ServiceNode
  config : MySQLConfiguration
  inFlight : List MySQLWork
  agents : MySQLAgents

namespace MySQLManager

variable (m : MySQLManager)

def roles : ServiceRoles := ⟨"mysql", ["mysql", "glb"], "mysql"⟩

/-- `get_starting_nodes`. -/
def getStartingNodes : RoleCounts := ⟨[(roles.defaultRole, 1)], List.nodup_singleton _⟩

/-- `node_roles.get(role, 0)`. -/
def count (nodeRoles : RoleCounts) (role : String) : Int :=
  match nodeRoles.get? role with
  | some (_, count) => count
  | none => 0

/-- `check_remove_nodes`. At least one node with a database has to remain. -/
def checkRemoveNodes (nodeRoles : RoleCounts) : Except String Unit :=
  let nodes := count nodeRoles MySQLConfiguration.roleMysql
  let totalNodes : Int := m.config.getNodes.length
  let glbNodes := count nodeRoles MySQLConfiguration.roleGlb
  let totalGlbNodes : Int := m.config.getGlbNodes.length
  if nodes ≥ totalNodes then .error (wrongNrNodes nodes (totalNodes - 1) (some MySQLConfiguration.roleMysql))
  else if glbNodes > totalGlbNodes then .error (wrongNrNodes glbNodes totalGlbNodes (some MySQLConfiguration.roleGlb))
  else .ok ()

/-- The checks of `start_service`, and the state and the thread it leads to. -/
def startService (credit : Bool) : Except String (ManagerState × MySQLWork) := do
  checkCredits credit
  checkState m.state [.init, .stopped]
  .ok (.prologue, .starting)

/-- The checks of `add_nodes`. -/
def addNodes (nodeRoles : RoleCounts) (credit : Bool) : Except String (ManagerState × MySQLWork) := do
  checkCredits credit
  let nodeRoles ← checkNodeRoles roles nodeRoles
  checkState m.state [.running]
  .ok (.adapting, .adding nodeRoles)

/-- The checks of `remove_nodes`. -/
def removeNodes (nodeRoles : RoleCounts) : Except String (ManagerState × MySQLWork) := do
  let nodeRoles ← checkNodeRoles roles nodeRoles
  checkState m.state [.running]
  m.checkRemoveNodes nodeRoles
  .ok (.adapting, .removing nodeRoles)

/-- The checks of `remove_specific_nodes`. -/
def checkSpecific (ip : Except String String) : Except String String := do
  let ip ← ip
  checkState m.state [.running]
  .ok ip

/-- The nodes `remove_specific_nodes` picks for an address: the last node found
to have it, taken for one with a database if any such node has it. -/
def specificNodes (ip : String) : Option (List ServiceNode × List ServiceNode) :=
  match (m.config.nodes.filter fun node => node.ip = ip).getLast? with
  | none => none
  | some target => some (if m.config.getNodes.any fun node => node.ip = ip then ([target], []) else ([], [target]))

/-- The state is set and a thread started. -/
def launch (state : ManagerState) (work : MySQLWork) : MySQLManager :=
  { m with state, inFlight := m.inFlight ++ [work] }

/-- What a request that depends on checks only leaves behind, and its answer. -/
def checked : Except String (ManagerState × MySQLWork) → MySQLManager × Except String Unit
  | .error error => (m, .error error)
  | .ok (state, work) => (m.launch state work, .ok ())

/-- `remove_specific_nodes`, which looks for the node after it has set the
state. -/
def removeSpecificNodes (ip : Except String String) : MySQLManager × Except String Unit :=
  match m.checkSpecific ip with
  | .error error => (m, .error error)
  | .ok ip =>
    match m.specificNodes ip with
    | none => ({ m with state := .adapting }, .error "Sorry invalid ip !!!")
    | some (rmRegNodes, rmGlbNodes) => (m.launch .adapting (.removingSpecific rmRegNodes rmGlbNodes), .ok ())

/-- What a request leaves behind and its answer. -/
def answer : MySQLRequest → MySQLManager × Except String Unit
  | .startService credit => m.checked (m.startService credit)
  | .stopService => m.checked (.ok (.epilogue, .stopping))
  | .addNodes nodeRoles credit => m.checked (m.addNodes nodeRoles credit)
  | .removeNodes nodeRoles => m.checked (m.removeNodes nodeRoles)
  | .removeSpecificNodes ip => m.removeSpecificNodes ip

/-- The agents of new nodes have not been asked to do anything yet. -/
def booted (nodes : List ServiceNode) : MySQLAgents := fun ip =>
  if ip ∈ nodes.map ServiceNode.ip then .idle else m.agents ip

/-- The thread at a position has ended. -/
def ended (position : Nat) : MySQLManager := { m with inFlight := m.inFlight.eraseIdx position }

/-- The thread at a position goes on with other work. -/
def goesOn (position : Nat) (work : MySQLWork) : MySQLManager := { m with inFlight := m.inFlight.set position work }

/-- The state `_do_remove_nodes` sets. -/
def remaining (config : MySQLConfiguration) : ManagerState :=
  if config.getNodes.length + config.getGlbNodes.length = 0 then .stopped else .running

/-- What a hook has made of the configuration and the agents, if they all
succeed. -/
def hooked (result : Option (MySQLConfiguration × MySQLAgents)) (state : MySQLConfiguration → ManagerState) :
    Option MySQLManager :=
  result.map fun (config, agents) => { m with config, agents, state := state config }

/-- What a thread does next. A thread that raises ends and leaves the state. No
step is taken where an agent does not succeed. -/
def carryOut (position : Nat) (reply : List ServiceNode) : MySQLWork → Option MySQLManager
  | .starting =>
    -- The callback makes nothing of an empty list, and `+=` raises.
    if reply = [] then some (m.ended position)
    else some { m.goesOn position (.onStart reply) with
      applicationNodes := m.applicationNodes ++ reply, nodes := reply, agents := m.booted reply }
  | .onStart nodes => (m.ended position).hooked (m.config.onStart m.agents nodes) fun _ => .running
  | .adding _ =>
    if reply = [] then some (m.ended position)
    else some { m.goesOn position (.onAddNodes reply) with
      applicationNodes := m.applicationNodes ++ reply, nodes := m.nodes ++ reply, agents := m.booted reply }
  | .onAddNodes nodes => (m.ended position).hooked (m.config.onAddNodes m.agents nodes) fun _ => .running
  | .removing nodeRoles =>
    let rmRegNodes := m.config.getNodes.take (count nodeRoles MySQLConfiguration.roleMysql).toNat
    let rmGlbNodes := m.config.getGlbNodes.take (count nodeRoles MySQLConfiguration.roleGlb).toNat
    (m.goesOn position (.dropping (rmRegNodes ++ rmGlbNodes))).hooked
      (m.config.doRemoveNodes m.agents rmRegNodes rmGlbNodes) remaining
  | .removingSpecific rmRegNodes rmGlbNodes =>
    (m.ended position).hooked (m.config.doRemoveNodes m.agents rmRegNodes rmGlbNodes) remaining
  | .dropping [] => some (m.ended position)
  | .dropping (node :: rest) =>
    match dropNode node.id m.applicationNodes with
    | none => some (m.ended position)
    | some applicationNodes =>
      match dropNode node.id m.nodes with
      | none => some { m.ended position with applicationNodes }
      | some nodes => some { m.goesOn position (.dropping rest) with applicationNodes, nodes }
  | .stopping =>
    if m.state = .init then some { m.ended position with state := .stopped }
    else (m.goesOn position (.stopped m.config.nodes)).hooked
      ((m.config.doRemoveNodes m.agents m.config.getNodes m.config.getGlbNodes).map fun (_, agents) =>
        (⟨.empty, .empty⟩, agents)) fun _ => .stopped
  | .stopped nodes => some { m.goesOn position (.releasing nodes) with nodes := [], state := .stopped }
  | .releasing [] => some (m.ended position)
  | .releasing (node :: rest) =>
    match dropNode node.id m.applicationNodes with
    | none => some (m.ended position)
    | some applicationNodes => some { m.goesOn position (.releasing rest) with applicationNodes }

def handle : MySQLEvent → Option MySQLManager
  | .request request => some (m.answer request).1
  | .advance position reply => (m.inFlight[position]?).bind (m.carryOut position reply)
  | .rehash config =>
    if config.getNodes.isPerm m.config.getNodes && config.getGlbNodes.isPerm m.config.getGlbNodes then
      some { m with config }
    else none

/-- One step of a MySQL service whose agents answer. What a hook does is one
step. -/
def Step (before : MySQLManager) (event : MySQLEvent) (after : MySQLManager) : Prop := before.handle event = some after

/-- A MySQL service that was added to an application with some nodes. -/
def created (applicationNodes : List ServiceNode) : MySQLManager where
  applicationNodes := applicationNodes
  state := .init
  nodes := []
  config := ⟨.empty, .empty⟩
  inFlight := []
  agents _ := .idle

variable {m} {after : MySQLManager}

/-- What a hook that returns has changed. -/
theorem hooked_some {result : Option (MySQLConfiguration × MySQLAgents)} {state : MySQLConfiguration → ManagerState}
    (returned : m.hooked result state = some after) :
    ∃ config agents, result = some (config, agents) ∧ after = { m with config, agents, state := state config } := by
  obtain ⟨⟨config, agents⟩, made, same⟩ := Option.map_eq_some_iff.mp returned
  exact ⟨config, agents, made, same.symm⟩

end MySQLManager

end ConPaaS
