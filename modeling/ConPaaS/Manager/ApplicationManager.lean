import ConPaaS.Lib.Table
import ConPaaS.Core.Node
import ConPaaS.Director.Database
import Mathlib.Logic.Function.Basic

namespace ConPaaS

open Keyed

inductive HttpMethod
  | get | post | upload
  deriving DecidableEq, Repr

/-- An element of a list of nodes. A dictionary added to such a list leaves its
keys there. -/
inductive Entry
  | node (node : ServiceNode)
  | key (text : String)
  deriving DecidableEq, Repr

def Entry.isNode : Entry → Bool
  | .node _ => true
  | .key _ => false

def Entry.hasId (id : String) : Entry → Bool
  | .node n => n.id = id
  | .key _ => false

def Entry.id : Entry → String
  | .node n => n.id
  | .key text => text

/-- What a manager holds under `nodes`: a list, or the dictionary of a failed
call. -/
inductive Nodes
  | list (entries : List Entry)
  | dict (keys : List String)
  deriving DecidableEq, Repr

/-- What a loop over the nodes goes through. -/
def Nodes.entries : Nodes → List Entry
  | .list entries => entries
  | .dict keys => keys.map .key

def Nodes.isList : Nodes → Bool
  | .list _ => true
  | .dict _ => false

/-- `+=`: a list takes what the other side goes through, a dictionary raises. -/
def Nodes.extend : Nodes → Nodes → Option Nodes
  | .list entries, more => some (.list (entries ++ more.entries))
  | .dict _, _ => none

/-- The first entry with an id taken out of a list, as
`remove(filter(lambda n: n.id == id, ...)[0])` does. A string in the list has
no id and makes it raise. -/
def removeById (id : String) (entries : List Entry) : Option (List Entry) :=
  if entries.all Entry.isNode && entries.any (Entry.hasId id) then some (entries.eraseP (Entry.hasId id)) else none

def Nodes.remove (id : String) : Nodes → Option Nodes
  | .list entries => (removeById id entries).map .list
  | .dict _ => none

/-- A volume as the manager records it. -/
structure Volume where
  volName : String
  volId : String
  volSize : Int
  vmId : String
  devName : String
  cloud : String
  deriving DecidableEq, Repr

/-- What the reply of the director to `create_nodes` is read as. -/
inductive NodesReply
  | failed
  | error (rest : List String)
  | created (nodes : List ServiceNode)
  deriving DecidableEq, Repr

/-- `DirectorCallbacker.create_nodes`. A failed call is false and an empty list
is as good as false. -/
def createNodes : NodesReply → Option Nodes
  | .failed => none
  | .error rest => some (.dict ("error" :: rest))
  | .created [] => none
  | .created nodes => some (.list (nodes.map .node))

/-- The part of a `BaseManager` the application manager works with. -/
structure BaseManager where
  state : ManagerState
  nodes : Nodes
  exposed : List HttpMethod
  deriving DecidableEq, Repr

/-- The application manager with the managers of its services. `instances` are
the ids in the table of the server besides its own id 0, `object` the managers
that were ever made, the application manager itself under 0. -/
structure ApplicationManager where
  instances : List Nat
  object : Nat → BaseManager
  serviceId : Nat
  volumes : Table Volume.volName
  devTarget : String

namespace ApplicationManager

variable (am : ApplicationManager)

def registered (sid : Nat) : Bool := sid = 0 || sid ∈ am.instances

def setState (sid : Nat) (state : ManagerState) : ApplicationManager :=
  { am with object := Function.update am.object sid { am.object sid with state } }

def setNodes (sid : Nat) (nodes : Nodes) : ApplicationManager :=
  { am with object := Function.update am.object sid { am.object sid with nodes } }

def checkState (sid : Nat) (expected : List ManagerState) : Bool := (am.object sid).state ∈ expected

/-- `nodes += more` on one of the managers. -/
def extend (sid : Nat) (more : Nodes) : Option ApplicationManager :=
  ((am.object sid).nodes.extend more).map (am.setNodes sid)

/-- Whether a list holds a node with an id, unless a string comes before it. -/
def holdsNode (vmId : String) : List Entry → Option Bool
  | [] => some false
  | .key _ :: _ => none
  | .node node :: rest => if node.id = vmId then some true else holdsNode vmId rest

/-- `get_service_id_by_vm_id`, over some of the services. -/
def getServiceIdByVmId (vmId : String) : List Nat → Option Nat
  | [] => none
  | sid :: rest =>
    match holdsNode vmId (am.object sid).nodes.entries with
    | none => none
    | some true => some sid
    | some false => getServiceIdByVmId vmId rest

/-- The first node with an id among the nodes of the application, if all of
them are nodes. -/
def nodeById (vmId : String) : Option Entry :=
  if (am.object 0).nodes.entries.all Entry.isNode then (am.object 0).nodes.entries.find? (Entry.hasId vmId) else none

/-- The records of the volumes of a node go with the node. -/
def dropVolumes (vmId : String) : ApplicationManager :=
  { am with volumes := am.volumes.filter fun volume => volume.vmId ≠ vmId }

/-- A node is taken out of the lists of some managers, one after the other. -/
def removeNode (vmId : String) : List Nat → ApplicationManager → ApplicationManager × Bool
  | [], am => (am, true)
  | sid :: rest, am =>
    match (am.object sid).nodes.remove vmId with
    | none => (am, false)
    | some nodes => removeNode vmId rest (am.setNodes sid nodes)

/-- The loop over the nodes a hook gave up: each is taken out of the lists of
some managers and its volumes are forgotten. It stops where a statement
raises. -/
def forget (holders : List Nat) : List Entry → ApplicationManager → ApplicationManager × Bool
  | [], am => (am, true)
  | .key _ :: _, am => (am, false)
  | .node node :: rest, am =>
    match removeNode node.id holders (am.dropVolumes node.id) with
    | (am, true) => forget holders rest am
    | (am, false) => (am, false)

/-- The name after a device name: the last character is the next one. -/
def bumpDevName (name : String) : Option String :=
  match name.toList.getLast? with
  | none => none
  | some last => if last.toNat < 255 then some (String.ofList (name.toList.dropLast ++ [Char.ofNat (last.toNat + 1)])) else none

/-- The loop that looks for a device name no other volume of a node has. -/
def freeDevName (inUse : List String) : Nat → String → Option String
  | 0, _ => none
  | fuel + 1, name =>
    if name ∈ inUse then (bumpDevName name).bind (freeDevName inUse fuel) else some name

/-- The device names of the volumes of a node. -/
def devNamesInUse (vmId : String) : List String :=
  (am.volumes.rows.filter fun volume => volume.vmId = vmId).map Volume.devName

@[simp] theorem setState_instances (sid : Nat) (state : ManagerState) :
    (am.setState sid state).instances = am.instances := rfl

@[simp] theorem setNodes_instances (sid : Nat) (nodes : Nodes) : (am.setNodes sid nodes).instances = am.instances := rfl

@[simp] theorem setNodes_state (sid other : Nat) (nodes : Nodes) :
    ((am.setNodes sid nodes).object other).state = (am.object other).state := by
  by_cases here : other = sid
  · subst here
    simp [setNodes]
  · simp [setNodes, here]

@[simp] theorem setState_nodes (sid other : Nat) (state : ManagerState) :
    ((am.setState sid state).object other).nodes = (am.object other).nodes := by
  by_cases here : other = sid
  · subst here
    simp [setState]
  · simp [setState, here]

theorem setState_state (sid other : Nat) (state : ManagerState) :
    ((am.setState sid state).object other).state = if other = sid then state else (am.object other).state := by
  by_cases here : other = sid
  · subst here
    simp [setState]
  · simp [setState, here]

theorem setNodes_nodes (sid other : Nat) (nodes : Nodes) :
    ((am.setNodes sid nodes).object other).nodes = if other = sid then nodes else (am.object other).nodes := by
  by_cases here : other = sid
  · subst here
    simp [setNodes]
  · simp [setNodes, here]

end ApplicationManager

end ConPaaS
