import ConPaaS.XtreemFS.NodeMaps
import Mathlib.Data.List.Forall2

namespace ConPaaS

open Keyed Transition Effect BaseManager

/-- What a snapshot says of a node. -/
structure NodeSnapshot where
  data : String
  dirUuid : Option Uuid
  mrcUuid : Option Uuid
  osdUuid : Option Uuid
  volume : Option String
  cloud : Option String
  deriving DecidableEq, Repr

/-- The value of `get_service_snapshot`. -/
structure ServiceSnapshot where
  nodes : List NodeSnapshot
  manager : String
  deriving DecidableEq, Repr

/-- What `set_service_snapshot` is given for a node: the director puts the data in a
file, of which this is the address. -/
structure NodeArchive where
  archive : String
  dirUuid : Option Uuid
  mrcUuid : Option Uuid
  osdUuid : Option Uuid
  volume : Option String
  cloud : Option String
  deriving DecidableEq, Repr

/-- The agents, what `tar` writes to its standard output when it packs and unpacks,
the data of the manager, the order in which a dictionary is enumerated, and the
encoding of data. -/
structure SnapshotOutside where
  agents : XtreemFSAgents
  tarOutput : XtreemFS → String
  managerData : XtreemFS → String
  untarOutput : String → String
  enumerate : List (String × NodeSnapshot) → List (String × NodeSnapshot)
  b64encode : String → String
  directorUrl : String

namespace XtreemFS

variable (out : SnapshotOutside)

/-- `self.get_volume`, which no class defines. -/
def getVolume (_ : String) : XtreemFSM (Option String) := throw "AttributeError: get_volume"

/-- `self._do_shutdown`, which no class defines. -/
def doShutdown : XtreemFSM Unit := throw "AttributeError: _do_shutdown"

/-- `self._init_cloud`, which no class defines. -/
def initCloud (_ : Option String) : XtreemFSM String := throw "AttributeError: _init_cloud"

/-- `client.get_snapshot`, which takes an error for data. -/
def askSnapshot (host : String) : XtreemFSM String := do
  let m ← get
  modify fun m => { m with calls := m.calls ++ [⟨host, .getSnapshot⟩] }
  match out.agents.answer m.calls ⟨host, .getSnapshot⟩ with
  | .ok data => return data
  | .error error => return error

/-- A text that is not `None` and not empty. -/
def given (text : Option String) : Option String := text.filter (· ≠ "")

/-- The loop of `get_service_snapshot` over the nodes, with the entries so far. -/
def snapshotNodes : List ServiceNode → List (String × NodeSnapshot) → XtreemFSM (List (String × NodeSnapshot))
  | [], entries => return entries
  | node :: rest, entries => do
    let m ← get
    let osdUuid := (m.osdNodeUuidMap.get? node.id).map Prod.snd
    let data ← askSnapshot out node.ip
    let volumeId := osdUuid.bind fun uuid => (m.osdUuidVolumeMap.get? uuid).bind Prod.snd
    let cloud ← match given volumeId with
      | some volumeId => getVolume volumeId
      | none => pure none
    let entry : NodeSnapshot := ⟨out.b64encode data, (m.dirNodeUuidMap.get? node.id).map Prod.snd,
      (m.mrcNodeUuidMap.get? node.id).map Prod.snd, osdUuid, volumeId, cloud⟩
    snapshotNodes rest (entries.filter (fun entry => entry.1 ≠ node.id) ++ [(node.id, entry)])

/-- `get_service_snapshot`. Where it takes the errors of `tar` from, there is its
standard output. -/
def getServiceSnapshot : XtreemFSM (Except String ServiceSnapshot) := do
  match checkState (← get).state [.running] with
  | .error error => return .error error
  | .ok () =>
    modify fun m => { m with state := .epilogue }
    stopAll out.agents false
    let entries ← snapshotNodes out (← get).nodes []
    let m ← get
    if out.tarOutput m ≠ "" then return .error (out.tarOutput m)
    let managerData := out.b64encode (out.managerData m)
    doShutdown
    return .ok ⟨(out.enumerate entries).map Prod.snd, managerData⟩

/-- The name of the file the director puts the data of a node in. -/
def archiveUrl (node : NodeSnapshot) : String :=
  let text (uuid : Option Uuid) : String := (uuid.map fun uuid => toString uuid.number).getD "None"
  out.directorUrl ++ "/download_data/" ++ text node.osdUuid ++ "_" ++ text node.dirUuid ++ "_" ++ text node.mrcUuid ++ ".tar.gz"

/-- A node of a snapshot once the director has put its data in a file. -/
def archived (node : NodeSnapshot) : NodeArchive :=
  ⟨archiveUrl out node, node.dirUuid, node.mrcUuid, node.osdUuid, node.volume, node.cloud⟩

/-- The state `set_service_snapshot` begins with. -/
def forgotten (m : XtreemFS) : XtreemFS :=
  { m with
    osdNodes := [], mrcNodes := [], dirNodes := []
    dirNodeUuidMap := .empty, mrcNodeUuidMap := .empty, osdNodeUuidMap := .empty, osdUuidVolumeMap := .empty }

/-- A node gets the DIR of a snapshot, and so on. -/
def withDir (node : ServiceNode) (uuid : Option Uuid) (m : XtreemFS) : XtreemFS :=
  match uuid with
  | some uuid => { m with dirNodeUuidMap := m.dirNodeUuidMap.put (node.id, uuid), dirNodes := m.dirNodes ++ [node] }
  | none => m

def withMrc (node : ServiceNode) (uuid : Option Uuid) (m : XtreemFS) : XtreemFS :=
  match uuid with
  | some uuid => { m with mrcNodeUuidMap := m.mrcNodeUuidMap.put (node.id, uuid), mrcNodes := m.mrcNodes ++ [node] }
  | none => m

def withOsd (node : ServiceNode) (uuid : Uuid) (m : XtreemFS) : XtreemFS :=
  { m with osdNodeUuidMap := m.osdNodeUuidMap.put (node.id, uuid), osdNodes := m.osdNodes ++ [node] }

/-- The volume of an OSD. One that is not known is added to those that are, for
which its cloud is looked up. -/
def restoreVolume (uuid : Uuid) (data : NodeArchive) : XtreemFSM Unit := do
  match given data.volume with
  | none => return ()
  | some volumeId =>
    modify fun m => { m with osdUuidVolumeMap := m.osdUuidVolumeMap.put (uuid, some volumeId) }
    tryCatch (do let _ ← getVolume volumeId) fun _ => do
      let _ ← initCloud data.cloud

/-- The loop of `set_service_snapshot`. -/
def restoreNodes : List (ServiceNode × NodeArchive) → XtreemFSM Unit :=
  forEach fun (node, data) => do
    modify (withDir node data.dirUuid)
    modify (withMrc node data.mrcUuid)
    match data.osdUuid with
    | none => pure ()
    | some uuid =>
      modify (withOsd node uuid)
      restoreVolume uuid data
    let _ ← ask out.agents node.ip (.setSnapshot data.archive)

/-- `set_service_snapshot`. -/
def setServiceSnapshot (manager : String) (nodes : List NodeArchive) : XtreemFSM (Except String Unit) := do
  match checkState (← get).state [.running] with
  | .error error => return .error error
  | .ok () =>
    if nodes.length ≠ (← get).nodes.length then return .error "set_service_snapshot: len(nodes) != len(self.nodes)"
    modify forgotten
    restoreNodes out ((← get).nodes.zip nodes)
    if out.untarOutput manager ≠ "" then return .error (out.untarOutput manager)
    startAll out.agents
    return .ok ()

/-- A running service that some requests have led to. -/
def Running (m : XtreemFS) : Prop :=
  m.state = .running ∧ ∃ applicationNodes requests, Run (Guarded Supplied (Step out.agents)) (created applicationNodes) requests m

/-- The uuids of a node. -/
def uuidsOf (m : XtreemFS) (node : ServiceNode) : List (Option Uuid) :=
  [XtreemFSRole.dir, .mrc, .osd].map fun role => ((m.uuidMap role).get? node.id).map Prod.snd

/-- A service that is restored has as many services of each kind, and node for node
the same uuids, and its agents have been given the data that the agents of the
old one gave. -/
structure Restored (snapshot : ServiceSnapshot) (old restored : XtreemFS) : Prop where
  dir : restored.dirNodes.length = old.dirNodes.length
  mrc : restored.mrcNodes.length = old.mrcNodes.length
  osd : restored.osdNodes.length = old.osdNodes.length
  uuids : List.Forall₂ (fun before after => uuidsOf restored after = uuidsOf old before) old.nodes restored.nodes
  data : List.Forall₂ (fun before after => ∃ entry ∈ snapshot.nodes,
    ⟨after.ip, .setSnapshot (archiveUrl out entry)⟩ ∈ restored.calls ∧
      ∃ calls answer, out.agents.answer calls ⟨before.ip, .getSnapshot⟩ = .ok answer ∧ entry.data = out.b64encode answer)
    old.nodes restored.nodes

/-- A snapshot of a service is made, and any other one with as many nodes takes it. -/
def SnapshotRestores (m : XtreemFS) : Prop :=
  ∃ snapshot after, getServiceSnapshot out m = .ok (.ok snapshot) after ∧
    ∀ started, Running out started → started.nodes.length = m.nodes.length →
      ∃ restored, setServiceSnapshot out snapshot.manager (snapshot.nodes.map (archived out)) started = .ok (.ok ()) restored ∧
        Restored out snapshot m restored

variable {out} {m after : XtreemFS} {snapshot : ServiceSnapshot}

/-- `get_service_snapshot` returns no snapshot: if nothing is raised before, the
call of `_do_shutdown` is. -/
theorem getServiceSnapshot_none : getServiceSnapshot out m ≠ .ok (.ok snapshot) after := by
  intro returned
  obtain ⟨current, _, -, later⟩ := bind_ok.mp returned
  cases checked : checkState current.state [.running] with
  | error error =>
    simp only [checked] at later
    cases later
  | ok _ =>
    simp only [checked] at later
    obtain ⟨_, _, -, later⟩ := bind_ok.mp later
    obtain ⟨_, _, -, later⟩ := bind_ok.mp later
    obtain ⟨_, _, -, later⟩ := bind_ok.mp later
    obtain ⟨_, _, -, later⟩ := bind_ok.mp later
    obtain ⟨packed, _, -, later⟩ := bind_ok.mp later
    by_cases quiet : out.tarOutput packed = ""
    · rw [if_neg (not_not_intro quiet)] at later
      obtain ⟨_, _, shutdown, -⟩ := bind_ok.mp later
      cases shutdown
    · rw [if_pos quiet] at later
      cases later

/-- No service is ever restored from a snapshot. -/
theorem never_restored (out : SnapshotOutside) (m : XtreemFS) : ¬ SnapshotRestores out m := by
  rintro ⟨snapshot, after, returned, -⟩
  exact getServiceSnapshot_none returned

/-- A world in which all goes well. -/
def calm : SnapshotOutside where
  agents := willing
  tarOutput _ := ""
  managerData _ := ""
  untarOutput _ := ""
  enumerate entries := entries
  b64encode text := text
  directorUrl := "https://director"

theorem oneNode_not_restored : ¬∀ (out : SnapshotOutside) (m : XtreemFS), out.agents.Obedient → Running out m →
    SnapshotRestores out m := by
  intro law
  have ended : (play (fun m request => if m.Supplied request then handle willing m request else none) (created [])
      [.startService true [storageNode "1" roleDirMrcOsd]]).map XtreemFS.state = some .running := by
    decide +kernel
  obtain ⟨m, played, running⟩ := Option.map_eq_some_iff.mp ended
  obtain ⟨snapshot, after, returned, -⟩ := law calm m willing_obedient ⟨running, [], _, Run.play_guarded played⟩
  exact getServiceSnapshot_none returned

end XtreemFS

end ConPaaS
