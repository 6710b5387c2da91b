import ConPaaS.Lib.Effect
import ConPaaS.Lib.Transition
import ConPaaS.Manager.NodeRoles

namespace ConPaaS

open Keyed Effect BaseManager

/-- What `uuid.uuid1` makes, numbered in the order in which it is made. No two are
equal. -/
structure Uuid where
  number : Nat
  deriving DecidableEq, Repr

inductive XtreemFSRole
  | dir
  | mrc
  | osd
  deriving DecidableEq, Repr

/-- What an agent is asked to do. -/
inductive XtreemFSOp
  | startup
  | setCertificates
  | createDIR (uuid : Uuid)
  | createMRC (dirServiceHost : String) (uuid : Uuid)
  | createOSD (dirServiceHost : String) (uuid : Uuid) (mkfs : Bool) (deviceName : Option String)
  | stopDIR
  | stopMRC
  | stopOSD (drain : Bool)
  | getSnapshot
  | setSnapshot (archiveUrl : String)
  deriving DecidableEq, Repr

/-- A request to the agent at an address. -/
structure XtreemFSCall where
  host : String
  op : XtreemFSOp
  deriving DecidableEq, Repr

/-- A dictionary of the uuids of nodes. -/
abbrev UuidMap := Table (Prod.fst : String × Uuid → String)

/-- A dictionary of the volumes of uuids. -/
abbrev UuidVolumeMap := Table (Prod.fst : Uuid × Option String → Uuid)

/-- The manager of an XtreemFS service, with the nodes of its application, the
number of uuids made so far, and the requests to agents so far. -/
structure XtreemFS where
  applicationNodes : List ServiceNode
  state : ManagerState
  nodes : List ServiceNode
  dirNodes : List ServiceNode
  mrcNodes : List ServiceNode
  osdNodes : List ServiceNode
  dirCount : Int
  mrcCount : Int
  osdCount : Int
  dirNodeUuidMap : UuidMap
  mrcNodeUuidMap : UuidMap
  osdNodeUuidMap : UuidMap
  osdUuidVolumeMap : UuidVolumeMap
  uuids : Nat
  calls : List XtreemFSCall

/-- What the agents make of a request, after those before it, and whether the
service can be reached within the retries. -/
structure XtreemFSAgents where
  answer : List XtreemFSCall → XtreemFSCall → Except String String
  ready : XtreemFS → Bool

/-- What the manager does. Whatever it has changed stays changed when it raises an
exception. -/
abbrev XtreemFSM := EStateM String XtreemFS

namespace XtreemFS

/-- A service that was added to an application with some nodes. -/
def created (applicationNodes : List ServiceNode) : XtreemFS where
  applicationNodes := applicationNodes
  state := .init
  nodes := []
  dirNodes := []
  mrcNodes := []
  osdNodes := []
  dirCount := 0
  mrcCount := 0
  osdCount := 0
  dirNodeUuidMap := .empty
  mrcNodeUuidMap := .empty
  osdNodeUuidMap := .empty
  osdUuidVolumeMap := .empty
  uuids := 0
  calls := []

def roleDirMrcOsd : String := "dir_mrc_osd"

def roles : ServiceRoles := ⟨"xtreemfs", ["osd", "mrc", "dir"], "osd"⟩

/-- `get_starting_nodes`. -/
def startingNodes : RoleCounts := ⟨[(roleDirMrcOsd, 1)], List.nodup_singleton _⟩

/-- `node_roles.get(role, 0)`. -/
def countOf (nodeRoles : RoleCounts) (role : String) : Int := ((nodeRoles.get? role).map Prod.snd).getD 0

def uuidMap (m : XtreemFS) : XtreemFSRole → UuidMap
  | .dir => m.dirNodeUuidMap
  | .mrc => m.mrcNodeUuidMap
  | .osd => m.osdNodeUuidMap

def withUuidMap (m : XtreemFS) (map : UuidMap) : XtreemFSRole → XtreemFS
  | .dir => { m with dirNodeUuidMap := map }
  | .mrc => { m with mrcNodeUuidMap := map }
  | .osd => { m with osdNodeUuidMap := map }

/-- `__get__uuid`. -/
def getUuid (nodeId : String) (nodeType : XtreemFSRole) : XtreemFSM Uuid := do
  let m ← get
  match (m.uuidMap nodeType).get? nodeId with
  | some (_, nodeUuid) => return nodeUuid
  | none =>
    let nodeUuid : Uuid := ⟨m.uuids⟩
    set (withUuidMap { m with uuids := m.uuids + 1 } ((m.uuidMap nodeType).put (nodeId, nodeUuid)) nodeType)
    return nodeUuid

/-- `del map[node_id]`. -/
def deleteUuid (nodeId : String) (nodeType : XtreemFSRole) : XtreemFSM Unit := do
  let m ← get
  match (m.uuidMap nodeType).get? nodeId with
  | some _ => set (withUuidMap m ((m.uuidMap nodeType).erase nodeId) nodeType)
  | none => throw ("KeyError: " ++ nodeId)

/-- `self.dirNodes[0].ip`. -/
def dirHost : XtreemFSM String := do
  match (← get).dirNodes with
  | [] => throw "IndexError: list index out of range"
  | node :: _ => return node.ip

variable (agents : XtreemFSAgents)

/-- A request to an agent. An error in its answer is raised. -/
def ask (host : String) (op : XtreemFSOp) : XtreemFSM String := do
  let m ← get
  modify fun m => { m with calls := m.calls ++ [⟨host, op⟩] }
  match agents.answer m.calls ⟨host, op⟩ with
  | .ok result => return result
  | .error error => throw error

/-- `client.createDIR`, which has no default for the uuid. -/
def createDIR (host : String) : Option Uuid → XtreemFSM Unit
  | some uuid => do
    let _ ← ask agents host (.createDIR uuid)
  | none => throw "TypeError: createDIR() takes exactly 3 arguments (2 given)"

/-- `client.createMRC`, which has no default for the uuid. -/
def createMRC (host dirServiceHost : String) : Option Uuid → XtreemFSM Unit
  | some uuid => do
    let _ ← ask agents host (.createMRC dirServiceHost uuid)
  | none => throw "TypeError: createMRC() takes exactly 4 arguments (3 given)"

/-- `_create_certs`. The certificates themselves are left out. -/
def createCerts : List ServiceNode → XtreemFSM Unit :=
  forEach fun node => do
    let _ ← ask agents node.ip .setCertificates

def startDir : List ServiceNode → XtreemFSM Unit :=
  forEach fun node => do
    let dirUuid ← getUuid node.id .dir
    createDIR agents node.ip (some dirUuid)

def startMrc : List ServiceNode → XtreemFSM Unit :=
  forEach fun node => do
    let mrcUuid ← getUuid node.id .mrc
    createMRC agents node.ip (← dirHost) (some mrcUuid)

/-- A volume for an OSD node. -/
def rememberVolume (uuid : Uuid) (volume : ServiceVolume) (m : XtreemFS) : XtreemFS :=
  { m with osdUuidVolumeMap := m.osdUuidVolumeMap.put (uuid, volume.volId) }

def startOsd : List ServiceNode → XtreemFSM Unit :=
  forEach fun node => do
    let osdUuid ← getUuid node.id .osd
    match node.volumes with
    | [] => throw "IndexError: list index out of range"
    | volume :: _ =>
      modify (rememberVolume osdUuid volume)
      let host ← dirHost
      let _ ← ask agents node.ip (.createOSD host osdUuid true volume.devName)

def stopDir (remove : Bool) : List ServiceNode → XtreemFSM Unit :=
  forEach fun node => do
    let _ ← ask agents node.ip .stopDIR
    if remove then deleteUuid node.id .dir

def stopMrc (remove : Bool) : List ServiceNode → XtreemFSM Unit :=
  forEach fun node => do
    let _ ← ask agents node.ip .stopMRC
    if remove then deleteUuid node.id .mrc

/-- Nothing is deleted from the maps here, whatever `remove` is. -/
def stopOsd (drain : Bool) : List ServiceNode → XtreemFSM Unit :=
  forEach fun node => do
    let _ ← ask agents node.ip (.stopOSD drain)

/-- The services are stopped in the reverse order of their start. -/
def stopAll (remove : Bool) : XtreemFSM Unit := do
  stopOsd agents false (← get).osdNodes
  stopMrc agents remove (← get).mrcNodes
  stopDir agents remove (← get).dirNodes

def startAll : XtreemFSM Unit := do
  startDir agents (← get).dirNodes
  startMrc agents (← get).mrcNodes
  startOsd agents (← get).osdNodes

/-- The first nodes have all the services. -/
def withAllServices (nodes : List ServiceNode) (m : XtreemFS) : XtreemFS :=
  { m with dirNodes := m.dirNodes ++ nodes, mrcNodes := m.mrcNodes ++ nodes, osdNodes := m.osdNodes ++ nodes }

/-- `on_start`. -/
def onStart (nodes : List ServiceNode) : XtreemFSM Bool := do
  modify (withAllServices nodes)
  createCerts agents nodes
  startAll agents
  modify fun m => { m with dirCount := 1, mrcCount := 1, osdCount := 1 }
  return agents.ready (← get)

def ofRole (role : String) (nodes : List ServiceNode) : List ServiceNode := nodes.filter fun node => node.role = role

/-- New nodes have one service each. -/
def withServices (nodes : List ServiceNode) (m : XtreemFS) : XtreemFS :=
  { m with
    dirNodes := m.dirNodes ++ ofRole "dir" nodes
    mrcNodes := m.mrcNodes ++ ofRole "mrc" nodes
    osdNodes := m.osdNodes ++ ofRole "osd" nodes }

/-- `on_add_nodes`. The calls of `createDIR` and `createMRC` are given no uuid. -/
def onAddNodes (nodes : List ServiceNode) : XtreemFSM Bool := do
  modify (withServices nodes)
  forEach (fun node => do let _ ← ask agents node.ip .startup) nodes
  createCerts agents nodes
  forEach (fun node => do
    createDIR agents node.ip none
    modify fun m => { m with dirCount := m.dirCount + 1 }) (ofRole "dir" nodes)
  forEach (fun node => do
    createMRC agents node.ip (← dirHost) none
    modify fun m => { m with mrcCount := m.mrcCount + 1 }) (ofRole "mrc" nodes)
  startOsd agents (ofRole "osd" nodes)
  modify fun m => { m with osdCount := m.osdCount + (ofRole "osd" nodes).length }
  return true

/-- `check_remove_nodes`. -/
def checkRemoveNodes (m : XtreemFS) (nodeRoles : RoleCounts) : Except String Unit :=
  if countOf nodeRoles "osd" ≥ m.osdNodes.length then
    .error (wrongNrNodes (countOf nodeRoles "osd") (m.osdNodes.length - 1) (some "osd"))
  else if countOf nodeRoles "dir" > 0 then .error "Cannot remove the DIR node."
  else if countOf nodeRoles "mrc" > 0 then .error "Cannot remove the MRC node."
  else .ok ()

/-- `nodes.pop(1)`. -/
def popSecond : List ServiceNode → XtreemFSM (ServiceNode × List ServiceNode)
  | first :: second :: rest => return (second, first :: rest)
  | _ => throw "IndexError: pop index out of range"

/-- The loops of `on_remove_nodes`, with the nodes removed so far. -/
def removeDir : Nat → List ServiceNode → XtreemFSM (List ServiceNode)
  | 0, remNodes => return remNodes
  | count + 1, remNodes => do
    let (node, dirNodes) ← popSecond (← get).dirNodes
    modify fun m => { m with dirNodes }
    stopDir agents true [node]
    removeDir count (remNodes ++ [node])

def removeMrc : Nat → List ServiceNode → XtreemFSM (List ServiceNode)
  | 0, remNodes => return remNodes
  | count + 1, remNodes => do
    let (node, mrcNodes) ← popSecond (← get).mrcNodes
    modify fun m => { m with mrcNodes }
    stopMrc agents true [node]
    removeMrc count (remNodes ++ [node])

def removeOsd : Nat → List ServiceNode → XtreemFSM (List ServiceNode)
  | 0, remNodes => return remNodes
  | count + 1, remNodes => do
    let (node, osdNodes) ← popSecond (← get).osdNodes
    modify fun m => { m with osdNodes }
    stopOsd agents true [node]
    removeOsd count (remNodes ++ [node])

/-- `on_remove_nodes`. The number of DIR nodes goes down by that of the OSD nodes. -/
def onRemoveNodes (nodeRoles : RoleCounts) : XtreemFSM (List ServiceNode) := do
  let nrDir := countOf nodeRoles "dir"
  let nrMrc := countOf nodeRoles "mrc"
  let nrOsd := countOf nodeRoles "osd"
  let remNodes ← removeDir agents nrDir.toNat []
  modify fun m => { m with dirCount := if nrDir > 0 then m.dirCount - nrOsd else m.dirCount }
  let remNodes ← removeMrc agents nrMrc.toNat remNodes
  modify fun m => { m with mrcCount := if nrMrc > 0 then m.mrcCount - nrMrc else m.mrcCount }
  let remNodes ← removeOsd agents nrOsd.toNat remNodes
  modify fun m => { m with
    osdCount := if nrOsd > 0 then m.osdCount - nrOsd else m.osdCount
    state := if m.osdNodes.length + m.mrcNodes.length + m.dirNodes.length = 0 then .stopped else .running }
  return remNodes

/-- What `on_stop` leaves of the service. -/
def emptied (m : XtreemFS) : XtreemFS :=
  { m with
    nodes := [], dirNodes := [], mrcNodes := [], osdNodes := []
    dirCount := 0, mrcCount := 0, osdCount := 0
    dirNodeUuidMap := .empty, mrcNodeUuidMap := .empty, osdNodeUuidMap := .empty, osdUuidVolumeMap := .empty }

/-- `on_stop`. -/
def onStop (stopServices : Bool) : XtreemFSM (List ServiceNode) := do
  if stopServices then stopAll agents true
  let allNodes := (← get).nodes
  modify emptied
  return allNodes

/-- The first node with the same id is taken out of the list of the application. -/
def leaveApplication (node : ServiceNode) : XtreemFSM Unit := do
  let m ← get
  match dropNode node.id m.applicationNodes with
  | some applicationNodes => set { m with applicationNodes }
  | none => throw "IndexError: list index out of range"

/-- The same for the list of the service. -/
def leaveService (node : ServiceNode) : XtreemFSM Unit := do
  let m ← get
  match dropNode node.id m.nodes with
  | some nodes => set { m with nodes }
  | none => throw "IndexError: list index out of range"

/-- `_do_start_service`, with the nodes the director makes. -/
def doStartService (nodes : List ServiceNode) : XtreemFSM Unit := do
  modify fun m => { m with applicationNodes := m.applicationNodes ++ nodes, nodes }
  let started ← onStart agents nodes
  modify fun m => { m with state := if started then .running else .error }

/-- `_do_add_nodes`, with the nodes the director makes. -/
def doAddNodes (nodes : List ServiceNode) : XtreemFSM Unit := do
  modify fun m => { m with applicationNodes := m.applicationNodes ++ nodes, nodes := m.nodes ++ nodes }
  let added ← onAddNodes agents nodes
  modify fun m => { m with state := if added then .running else .error }

/-- `_do_remove_nodes`. -/
def doRemoveNodes (nodeRoles : RoleCounts) : XtreemFSM Unit := do
  let nodes ← onRemoveNodes agents nodeRoles
  forEach (fun node => do
    leaveApplication node
    leaveService node) nodes

/-- `_do_stop_service`. -/
def doStopService : XtreemFSM Unit := do
  if (← get).state = .init then modify fun m => { m with state := .stopped }
  else
    let nodes ← onStop agents true
    modify fun m => { m with nodes := [], state := .stopped }
    forEach leaveApplication nodes

end XtreemFS

/-- The requests, each with the nodes the director makes for it. `credit` says
that the director has credit left. -/
inductive XtreemFSRequest
  | startService (credit : Bool) (nodes : List ServiceNode)
  | addNodes (nodeRoles : RoleCounts) (credit : Bool) (nodes : List ServiceNode)
  | removeNodes (nodeRoles : RoleCounts)
  | stopService

namespace XtreemFS

variable (agents : XtreemFSAgents) (m : XtreemFS)

/-- The checks of a request: an error, or the state that is set and what is done
in the background. -/
def accept : XtreemFSRequest → Except String (ManagerState × XtreemFSM Unit)
  | .startService credit nodes => do
    checkCredits credit
    checkState m.state [.init, .stopped]
    .ok (.prologue, doStartService agents nodes)
  | .addNodes nodeRoles credit nodes => do
    checkCredits credit
    let _ ← checkNodeRoles roles nodeRoles
    checkState m.state [.running]
    .ok (.adapting, doAddNodes agents nodes)
  | .removeNodes nodeRoles => do
    let nodeRoles ← checkNodeRoles roles nodeRoles
    checkState m.state [.running]
    m.checkRemoveNodes nodeRoles
    .ok (.adapting, doRemoveNodes agents nodeRoles)
  | .stopService => .ok (.epilogue, doStopService agents)

/-- What an accepted request does, until its thread ends. -/
def serve (request : XtreemFSRequest) : Except String (EStateM.Result String XtreemFS Unit) :=
  (m.accept agents request).map fun (state, work) => work { m with state }

end XtreemFS

end ConPaaS
