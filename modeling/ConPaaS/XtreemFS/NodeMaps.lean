import ConPaaS.XtreemFS.Service

namespace ConPaaS

open Keyed Transition Effect BaseManager

/-- The agents do what they are asked, and the service can be reached. -/
structure XtreemFSAgents.Obedient (agents : XtreemFSAgents) : Prop where
  answer : ∀ calls call, ∃ result, agents.answer calls call = .ok result
  ready : ∀ m, agents.ready m = true

namespace XtreemFS

/-- Each node of the three lists has exactly one entry in its uuid map, and each
OSD node one in the map of the volumes. -/
structure Mapped (m : XtreemFS) : Prop where
  dir : (m.dirNodeUuidMap.rows.map Prod.fst).Perm (m.dirNodes.map ServiceNode.id)
  mrc : (m.mrcNodeUuidMap.rows.map Prod.fst).Perm (m.mrcNodes.map ServiceNode.id)
  osd : (m.osdNodeUuidMap.rows.map Prod.fst).Perm (m.osdNodes.map ServiceNode.id)
  volumes : (m.osdUuidVolumeMap.rows.map Prod.fst).Perm
    (m.osdNodes.filterMap fun node => (m.osdNodeUuidMap.get? node.id).map Prod.snd)

variable (agents : XtreemFSAgents) (m : XtreemFS)

/-- Nodes as the director makes them: of the roles asked for, with ids of their
own, and with a volume where there is an OSD. -/
structure Made (sninfo : List String) (nodes : List ServiceNode) : Prop where
  delivered : Delivered sninfo nodes
  volumes : ∀ node ∈ nodes, node.role = "osd" ∨ node.role = roleDirMrcOsd → node.volumes ≠ []
  fresh : ∀ node ∈ nodes, node.id ∉ m.applicationNodes.map ServiceNode.id

instance (sninfo : List String) (nodes : List ServiceNode) : Decidable (m.Made sninfo nodes) :=
  decidable_of_iff (Delivered sninfo nodes ∧ (∀ node ∈ nodes, node.role = "osd" ∨ node.role = roleDirMrcOsd → node.volumes ≠ []) ∧
      ∀ node ∈ nodes, node.id ∉ m.applicationNodes.map ServiceNode.id)
    ⟨fun ⟨delivered, volumes, fresh⟩ => ⟨delivered, volumes, fresh⟩, fun made => ⟨made.delivered, made.volumes, made.fresh⟩⟩

/-- What holds of the roles of a request that pass the check. -/
def ForRoles (nodeRoles : RoleCounts) (holds : RoleCounts → Prop) : Prop :=
  match checkNodeRoles roles nodeRoles with
  | .ok checked => holds checked
  | .error _ => True

instance (nodeRoles : RoleCounts) (holds : RoleCounts → Prop) [∀ checked, Decidable (holds checked)] :
    Decidable (ForRoles nodeRoles holds) :=
  match checked : checkNodeRoles roles nodeRoles with
  | .ok checked' => decidable_of_iff (holds checked') (by rw [ForRoles, checked])
  | .error _ => isTrue (by rw [ForRoles, checked]; trivial)

/-- The director makes the nodes that a request asks for. -/
def Supplied : XtreemFSRequest → Prop
  | .startService _ nodes => m.Made (getSninfo startingNodes) nodes
  | .addNodes nodeRoles _ nodes => ForRoles nodeRoles fun checked => m.Made (getSninfo checked) nodes
  | .removeNodes _ | .stopService => True

instance : ∀ request, Decidable (m.Supplied request)
  | .startService _ nodes => inferInstanceAs (Decidable (m.Made (getSninfo startingNodes) nodes))
  | .addNodes nodeRoles _ nodes => inferInstanceAs (Decidable (ForRoles nodeRoles fun checked => m.Made (getSninfo checked) nodes))
  | .removeNodes _ | .stopService => isTrue trivial

/-- Only OSD nodes are added, and none is removed. -/
def Careful : XtreemFSRequest → Prop
  | .addNodes nodeRoles _ _ => ForRoles nodeRoles fun checked => countOf checked "dir" = 0 ∧ countOf checked "mrc" = 0
  | .removeNodes _ => False
  | .startService _ _ | .stopService => True

instance : ∀ request, Decidable (Careful request)
  | .addNodes nodeRoles _ _ =>
    inferInstanceAs (Decidable (ForRoles nodeRoles fun checked => countOf checked "dir" = 0 ∧ countOf checked "mrc" = 0))
  | .removeNodes _ => isFalse id
  | .startService _ _ | .stopService => isTrue trivial

/-- The state an operation leaves, whether it returns or raises. -/
def outcome : EStateM.Result String XtreemFS Unit → XtreemFS
  | .ok _ m => m
  | .error _ m => m

/-- A request is accepted and carried out. -/
def handle (request : XtreemFSRequest) : Option XtreemFS :=
  match m.serve agents request with
  | .ok result => some (outcome result)
  | .error _ => none

def Step (before : XtreemFS) (request : XtreemFSRequest) (after : XtreemFS) : Prop := before.handle agents request = some after

/-- A request is carried out without an exception, and only a stop takes the first
node away. -/
structure Completes (before : XtreemFS) (request : XtreemFSRequest) (after : XtreemFS) : Prop where
  returned : before.serve agents request = .ok (.ok () after)
  first : request ≠ .stopService → ∀ node, before.nodes.head? = some node → after.nodes.head? = some node

variable {agents m} {after : XtreemFS} {request : XtreemFSRequest} {requests : List XtreemFSRequest}
  {nodes : List ServiceNode} {nodeId host : String} {role : XtreemFSRole} {op : XtreemFSOp}

theorem getUuid_new (absent : (m.uuidMap role).get? nodeId = none) :
    getUuid nodeId role m = .ok ⟨m.uuids⟩
      (withUuidMap { m with uuids := m.uuids + 1 } ((m.uuidMap role).put (nodeId, ⟨m.uuids⟩)) role) := by
  simp only [getUuid, get_bind, absent]
  rfl

theorem ask_ok (obedient : agents.Obedient) (host : String) (op : XtreemFSOp) (m : XtreemFS) :
    ∃ result, ask agents host op m = .ok result { m with calls := m.calls ++ [⟨host, op⟩] } := by
  obtain ⟨result, answered⟩ := obedient.answer m.calls ⟨host, op⟩
  refine ⟨result, ?_⟩
  simp only [ask, get_bind, answered]
  rfl

theorem dirHost_ok {node : ServiceNode} {rest : List ServiceNode} (first : m.dirNodes = node :: rest) :
    dirHost m = .ok node.ip m := by
  simp only [dirHost, get_bind, first]
  rfl

theorem createDIR_ok (obedient : agents.Obedient) (host : String) (uuid : Uuid) (m : XtreemFS) :
    createDIR agents host (some uuid) m = .ok () { m with calls := m.calls ++ [⟨host, .createDIR uuid⟩] } := by
  obtain ⟨result, asked⟩ := ask_ok obedient host (.createDIR uuid) m
  exact bind_of_ok asked

theorem createMRC_ok (obedient : agents.Obedient) (host dirServiceHost : String) (uuid : Uuid) (m : XtreemFS) :
    createMRC agents host dirServiceHost (some uuid) m =
      .ok () { m with calls := m.calls ++ [⟨host, .createMRC dirServiceHost uuid⟩] } := by
  obtain ⟨result, asked⟩ := ask_ok obedient host (.createMRC dirServiceHost uuid) m
  exact bind_of_ok asked

/-- Keys that are not in a map stay out of it when another one is put in. -/
theorem absent_put {map : UuidMap} {node : ServiceNode} {rest : List ServiceNode} {uuid : Uuid}
    (unique : ((node :: rest).map ServiceNode.id).Nodup) (absent : ∀ other ∈ node :: rest, map.get? other.id = none) :
    ∀ other ∈ rest, (map.put (node.id, uuid)).get? other.id = none := by
  intro other member
  have apart : other.id ≠ node.id := fun same =>
    (List.nodup_cons.mp unique).1 (List.mem_map.mpr ⟨other, member, same⟩)
  rw [Table.get?_put_ne map apart]
  exact absent other (List.mem_cons_of_mem _ member)

/-- One more key before the keys of a map. -/
theorem keys_put {map later : UuidMap} {node : ServiceNode} {ids : List String} {uuid : Uuid} (absent : map.get? node.id = none)
    (keys : (later.rows.map Prod.fst).Perm (ids ++ (map.put (node.id, uuid)).rows.map Prod.fst)) :
    (later.rows.map Prod.fst).Perm (node.id :: ids ++ map.rows.map Prod.fst) := by
  rw [Table.put_fresh absent, List.map_cons] at keys
  exact keys.trans List.perm_middle

theorem startDir_ok (obedient : agents.Obedient) (unique : (nodes.map ServiceNode.id).Nodup)
    (absent : ∀ node ∈ nodes, m.dirNodeUuidMap.get? node.id = none) : ∃ map uuids calls,
      startDir agents nodes m = .ok () { m with dirNodeUuidMap := map, uuids, calls } ∧
        (map.rows.map Prod.fst).Perm (nodes.map ServiceNode.id ++ m.dirNodeUuidMap.rows.map Prod.fst) ∧ m.uuids ≤ uuids := by
  induction nodes generalizing m with
  | nil => exact ⟨m.dirNodeUuidMap, m.uuids, m.calls, rfl, .refl _, Nat.le_refl _⟩
  | cons node rest ih =>
    have fresh := absent node (List.mem_cons_self ..)
    obtain ⟨map, uuids, calls, started, keys, above⟩ :=
      @ih { m with dirNodeUuidMap := m.dirNodeUuidMap.put (node.id, ⟨m.uuids⟩), uuids := m.uuids + 1,
                   calls := m.calls ++ [⟨node.ip, .createDIR ⟨m.uuids⟩⟩] }
        (List.nodup_cons.mp unique).2 (absent_put unique absent)
    refine ⟨map, uuids, calls, ?_, keys_put fresh keys, Nat.le_of_succ_le above⟩
    have named := @getUuid_new m node.id .dir fresh
    rw [startDir, forEach, bind_of_ok ((bind_of_ok named).trans (createDIR_ok obedient _ _ _))]
    exact started

theorem startMrc_ok (obedient : agents.Obedient) {dirNode : ServiceNode} {others : List ServiceNode}
    (first : m.dirNodes = dirNode :: others) (unique : (nodes.map ServiceNode.id).Nodup)
    (absent : ∀ node ∈ nodes, m.mrcNodeUuidMap.get? node.id = none) : ∃ map uuids calls,
      startMrc agents nodes m = .ok () { m with mrcNodeUuidMap := map, uuids, calls } ∧
        (map.rows.map Prod.fst).Perm (nodes.map ServiceNode.id ++ m.mrcNodeUuidMap.rows.map Prod.fst) ∧ m.uuids ≤ uuids := by
  induction nodes generalizing m with
  | nil => exact ⟨m.mrcNodeUuidMap, m.uuids, m.calls, rfl, .refl _, Nat.le_refl _⟩
  | cons node rest ih =>
    have fresh := absent node (List.mem_cons_self ..)
    obtain ⟨map, uuids, calls, started, keys, above⟩ :=
      @ih { m with mrcNodeUuidMap := m.mrcNodeUuidMap.put (node.id, ⟨m.uuids⟩), uuids := m.uuids + 1,
                   calls := m.calls ++ [⟨node.ip, .createMRC dirNode.ip ⟨m.uuids⟩⟩] }
        first (List.nodup_cons.mp unique).2 (absent_put unique absent)
    refine ⟨map, uuids, calls, ?_, keys_put fresh keys, Nat.le_of_succ_le above⟩
    have named := @getUuid_new m node.id .mrc fresh
    have at_dir := @dirHost_ok (withUuidMap { m with uuids := m.uuids + 1 } (m.mrcNodeUuidMap.put (node.id, ⟨m.uuids⟩)) .mrc)
      dirNode others first
    rw [startMrc, forEach, bind_of_ok ((bind_of_ok named).trans ((bind_of_ok at_dir).trans (createMRC_ok obedient _ _ _ _)))]
    exact started

/-- The uuids of the OSD nodes have been made already, and each has an entry in the
map of the volumes. -/
structure Numbered (map : UuidMap) (volumes : UuidVolumeMap) (uuids : Nat) : Prop where
  volumes : (volumes.rows.map Prod.fst).Perm (map.rows.map Prod.snd)
  made : ∀ entry ∈ map.rows, entry.2.number < uuids

theorem Numbered.put {map : UuidMap} {volumes : UuidVolumeMap} {uuids : Nat} (numbered : Numbered map volumes uuids)
    (absent : map.get? nodeId = none) (volume : Option String) :
    Numbered (map.put (nodeId, ⟨uuids⟩)) (volumes.put (⟨uuids⟩, volume)) (uuids + 1) := by
  have fresh : volumes.get? ⟨uuids⟩ = none := Table.get?_none_iff.mpr fun entry member same => by
    obtain ⟨own, inside, named⟩ := List.mem_map.mp (numbered.volumes.subset (List.mem_map_of_mem member))
    have below := numbered.made own inside
    rw [named, same] at below
    exact Nat.lt_irrefl _ below
  rw [show nodeId = Prod.fst (nodeId, (⟨uuids⟩ : Uuid)) from rfl] at absent
  refine ⟨?_, fun entry member => ?_⟩
  · rw [Table.put_fresh absent, Table.put_fresh fresh]
    exact numbered.volumes.cons _
  · rw [Table.put_fresh absent] at member
    rcases List.mem_cons.mp member with rfl | old
    · exact Nat.lt_succ_self _
    · exact Nat.lt_succ_of_lt (numbered.made entry old)

theorem startOsd_ok (obedient : agents.Obedient) {dirNode : ServiceNode} {others : List ServiceNode}
    (first : m.dirNodes = dirNode :: others) (unique : (nodes.map ServiceNode.id).Nodup)
    (absent : ∀ node ∈ nodes, m.osdNodeUuidMap.get? node.id = none) (equipped : ∀ node ∈ nodes, node.volumes ≠ [])
    (numbered : Numbered m.osdNodeUuidMap m.osdUuidVolumeMap m.uuids) : ∃ map volumes uuids calls,
      startOsd agents nodes m = .ok () { m with osdNodeUuidMap := map, osdUuidVolumeMap := volumes, uuids, calls } ∧
        (map.rows.map Prod.fst).Perm (nodes.map ServiceNode.id ++ m.osdNodeUuidMap.rows.map Prod.fst) ∧
        Numbered map volumes uuids := by
  induction nodes generalizing m with
  | nil => exact ⟨m.osdNodeUuidMap, m.osdUuidVolumeMap, m.uuids, m.calls, rfl, .refl _, numbered⟩
  | cons node rest ih =>
    have fresh := absent node (List.mem_cons_self ..)
    obtain ⟨volume, more, volumes⟩ := List.exists_cons_of_ne_nil (equipped node (List.mem_cons_self ..))
    obtain ⟨map, volumes', uuids, calls, started, keys, numbered⟩ :=
      @ih { m with osdNodeUuidMap := m.osdNodeUuidMap.put (node.id, ⟨m.uuids⟩), uuids := m.uuids + 1,
                   osdUuidVolumeMap := m.osdUuidVolumeMap.put (⟨m.uuids⟩, volume.volId),
                   calls := m.calls ++ [⟨node.ip, .createOSD dirNode.ip ⟨m.uuids⟩ true volume.devName⟩] }
        first (List.nodup_cons.mp unique).2 (absent_put unique absent)
        (fun other member => equipped other (List.mem_cons_of_mem _ member)) (numbered.put fresh volume.volId)
    refine ⟨map, volumes', uuids, calls, ?_, keys_put fresh keys, numbered⟩
    have named := @getUuid_new m node.id .osd fresh
    have at_dir := @dirHost_ok (rememberVolume ⟨m.uuids⟩ volume
      (withUuidMap { m with uuids := m.uuids + 1 } (m.osdNodeUuidMap.put (node.id, ⟨m.uuids⟩)) .osd)) dirNode others first
    obtain ⟨result, asked⟩ := ask_ok obedient node.ip (.createOSD dirNode.ip ⟨m.uuids⟩ true volume.devName)
      (rememberVolume ⟨m.uuids⟩ volume
        (withUuidMap { m with uuids := m.uuids + 1 } (m.osdNodeUuidMap.put (node.id, ⟨m.uuids⟩)) .osd))
    rw [startOsd, forEach, volumes]
    rw [bind_of_ok ((bind_of_ok named).trans ((bind_of_ok rfl).trans ((bind_of_ok at_dir).trans (bind_of_ok asked))))]
    exact started

/-- A request to the agent of each node changes nothing of the service. -/
theorem askEach_ok (obedient : agents.Obedient) (op : ServiceNode → XtreemFSOp) (nodes : List ServiceNode) (m : XtreemFS) :
    ∃ calls, forEach (fun node => do let _ ← ask agents node.ip (op node)) nodes m = .ok () { m with calls } := by
  induction nodes generalizing m with
  | nil => exact ⟨m.calls, rfl⟩
  | cons node rest ih =>
    obtain ⟨result, asked⟩ := ask_ok obedient node.ip (op node) m
    obtain ⟨calls, later⟩ := ih { m with calls := m.calls ++ [⟨node.ip, op node⟩] }
    have told : (do let _ ← ask agents node.ip (op node)) m = .ok () { m with calls := m.calls ++ [⟨node.ip, op node⟩] } :=
      bind_of_ok asked
    exact ⟨calls, (bind_of_ok told).trans later⟩

/-- A service with one node, of which no map knows. -/
theorem startAll_ok (obedient : agents.Obedient) {node : ServiceNode} (dirNodes : m.dirNodes = [node])
    (mrcNodes : m.mrcNodes = [node]) (osdNodes : m.osdNodes = [node]) (equipped : node.volumes ≠ [])
    (absent : ∀ role, (m.uuidMap role).rows = []) (volumes : m.osdUuidVolumeMap.rows = []) :
    ∃ dirMap mrcMap osdMap volumeMap uuids calls, startAll agents m =
        .ok () { m with
          dirNodeUuidMap := dirMap, mrcNodeUuidMap := mrcMap, osdNodeUuidMap := osdMap, osdUuidVolumeMap := volumeMap
          uuids, calls } ∧
      (dirMap.rows.map Prod.fst).Perm [node.id] ∧ (mrcMap.rows.map Prod.fst).Perm [node.id] ∧
        (osdMap.rows.map Prod.fst).Perm [node.id] ∧ Numbered osdMap volumeMap uuids := by
  have unique : ([node].map ServiceNode.id).Nodup := List.nodup_singleton _
  have none : ∀ map : UuidMap, map.rows = [] → ∀ other ∈ [node], map.get? other.id = none := fun map empty other _ =>
    Table.get?_none_iff.mpr (by rw [empty]; exact nofun)
  obtain ⟨dirMap, uuids, calls, dir, dirKeys, -⟩ := startDir_ok obedient unique (none _ (absent .dir))
  obtain ⟨mrcMap, uuids', calls', mrc, mrcKeys, -⟩ :=
    @startMrc_ok agents { m with dirNodeUuidMap := dirMap, uuids, calls } _ obedient node [] dirNodes unique (none _ (absent .mrc))
  have numbered : Numbered m.osdNodeUuidMap m.osdUuidVolumeMap uuids' := by
    have empty : m.osdNodeUuidMap.rows = [] := absent .osd
    exact ⟨by rw [empty, volumes]; exact .refl _, by rw [empty]; exact nofun⟩
  obtain ⟨osdMap, volumeMap, uuids'', calls'', osd, osdKeys, numbered⟩ :=
    @startOsd_ok agents { m with dirNodeUuidMap := dirMap, mrcNodeUuidMap := mrcMap, uuids := uuids', calls := calls' } _ obedient
      node [] dirNodes unique (none _ (absent .osd)) (fun other member => List.mem_singleton.mp member ▸ equipped) numbered
  refine ⟨dirMap, mrcMap, osdMap, volumeMap, uuids'', calls'', ?_, ?_, ?_, ?_, numbered⟩
  · rw [← dirNodes] at dir
    rw [← mrcNodes] at mrc
    rw [← osdNodes] at osd
    exact (bind_of_ok rfl).trans ((bind_of_ok dir).trans ((bind_of_ok rfl).trans ((bind_of_ok mrc).trans ((bind_of_ok rfl).trans osd))))
  · simpa [show m.dirNodeUuidMap.rows = [] from absent .dir] using dirKeys
  · simpa [show m.mrcNodeUuidMap.rows = [] from absent .mrc] using mrcKeys
  · simpa [show m.osdNodeUuidMap.rows = [] from absent .osd] using osdKeys

/-- Between two requests the lists and maps agree, the first node has a DIR and an
MRC, all nodes have an OSD, and the application knows them. -/
structure Sound (m : XtreemFS) : Prop where
  dir : (m.dirNodeUuidMap.rows.map Prod.fst).Perm (m.dirNodes.map ServiceNode.id)
  mrc : (m.mrcNodeUuidMap.rows.map Prod.fst).Perm (m.mrcNodes.map ServiceNode.id)
  osd : (m.osdNodeUuidMap.rows.map Prod.fst).Perm (m.osdNodes.map ServiceNode.id)
  numbered : Numbered m.osdNodeUuidMap m.osdUuidVolumeMap m.uuids
  dirNodes : m.dirNodes = m.nodes.take 1
  mrcNodes : m.mrcNodes = m.nodes.take 1
  osdNodes : m.osdNodes = m.nodes
  known : ∃ others, (m.applicationNodes.map ServiceNode.id).Perm (m.nodes.map ServiceNode.id ++ others)
  state : m.state = .running ∧ m.nodes ≠ [] ∨ (m.state = .init ∨ m.state = .stopped) ∧ m.nodes = []

theorem Sound.mapped (sound : m.Sound) : m.Mapped := by
  refine ⟨sound.dir, sound.mrc, sound.osd, sound.numbered.volumes.trans ?_⟩
  have values : m.osdNodeUuidMap.rows.map Prod.snd =
      (m.osdNodeUuidMap.rows.map Prod.fst).filterMap fun id => (m.osdNodeUuidMap.get? id).map Prod.snd := by
    rw [List.filterMap_map, ← List.filterMap_eq_map]
    refine List.filterMap_congr fun entry member => ?_
    have found : m.osdNodeUuidMap.get? entry.1 = some entry := Table.get?_of_mem member
    simp only [Function.comp_apply, found, Option.map_some]
  rw [values]
  refine (sound.osd.filterMap _).trans ?_
  rw [List.filterMap_map]
  exact .refl _

theorem rows_of_keys {map : UuidMap} (keys : (map.rows.map Prod.fst).Perm []) : map.rows = [] :=
  List.map_eq_nil_iff.mp keys.eq_nil

theorem Sound.absent (sound : m.Sound) (idle : m.nodes = []) (role : XtreemFSRole) : (m.uuidMap role).rows = [] := by
  cases role with
  | dir =>
    have keys := sound.dir
    rw [sound.dirNodes, idle] at keys
    exact rows_of_keys keys
  | mrc =>
    have keys := sound.mrc
    rw [sound.mrcNodes, idle] at keys
    exact rows_of_keys keys
  | osd =>
    have keys := sound.osd
    rw [sound.osdNodes, idle] at keys
    exact rows_of_keys keys

theorem Sound.noVolumes (sound : m.Sound) (idle : m.nodes = []) : m.osdUuidVolumeMap.rows = [] := by
  have osd : m.osdNodeUuidMap.rows = [] := sound.absent idle .osd
  have volumes := sound.numbered.volumes
  rw [osd] at volumes
  exact List.map_eq_nil_iff.mp volumes.eq_nil

/-- The one node of a service that starts. -/
theorem Made.single (made : m.Made (getSninfo startingNodes) nodes) : ∃ node, nodes = [node] ∧ node.volumes ≠ [] := by
  have asked : getSninfo startingNodes = [roleDirMrcOsd] := rfl
  have roles := made.delivered.1
  rw [asked, List.perm_singleton] at roles
  obtain ⟨node, rfl, role⟩ := List.map_eq_singleton_iff.mp roles
  exact ⟨node, rfl, made.volumes node (List.mem_singleton_self _) (.inr role)⟩

theorem doStartService_ok (obedient : agents.Obedient) (sound : m.Sound) (idle : m.nodes = []) (state : ManagerState)
    (made : m.Made (getSninfo startingNodes) nodes) :
    ∃ after, doStartService agents nodes { m with state } = .ok () after ∧ after.Sound := by
  obtain ⟨node, rfl, equipped⟩ := made.single
  have dirNodes : m.dirNodes = [] := by rw [sound.dirNodes, idle]; rfl
  have mrcNodes : m.mrcNodes = [] := by rw [sound.mrcNodes, idle]; rfl
  have osdNodes : m.osdNodes = [] := sound.osdNodes.trans idle
  let alone : XtreemFS := { m with
    state, applicationNodes := m.applicationNodes ++ [node]
    nodes := [node], dirNodes := [node], mrcNodes := [node], osdNodes := [node] }
  have listed : (modify (withAllServices [node]) : XtreemFSM Unit)
      { m with state, applicationNodes := m.applicationNodes ++ [node], nodes := [node] } = .ok () alone := by
    refine congrArg (EStateM.Result.ok ()) ?_
    simp only [withAllServices, dirNodes, mrcNodes, osdNodes, List.nil_append, alone]
  obtain ⟨calls, certs⟩ := askEach_ok obedient (fun _ => .setCertificates) [node] alone
  obtain ⟨dirMap, mrcMap, osdMap, volumeMap, uuids, calls', started, dir, mrc, osd, numbered⟩ :=
    @startAll_ok agents { alone with calls } obedient node rfl rfl rfl equipped (sound.absent idle) (sound.noVolumes idle)
  have onStart : onStart agents [node] { m with state, applicationNodes := m.applicationNodes ++ [node], nodes := [node] } =
      .ok true { alone with
        dirCount := 1, mrcCount := 1, osdCount := 1
        dirNodeUuidMap := dirMap, mrcNodeUuidMap := mrcMap, osdNodeUuidMap := osdMap, osdUuidVolumeMap := volumeMap
        uuids, calls := calls' } := by
    refine (bind_of_ok listed).trans ?_
    refine (bind_of_ok certs).trans ((bind_of_ok started).trans ((bind_of_ok rfl).trans ((bind_of_ok rfl).trans ?_)))
    rw [obedient.ready]
    rfl
  obtain ⟨others, known⟩ := sound.known
  refine ⟨_, (bind_of_ok rfl).trans ((bind_of_ok onStart).trans rfl), ?_⟩
  refine ⟨dir, mrc, osd, numbered, rfl, rfl, rfl, ⟨others, ?_⟩, .inl ⟨rfl, (List.cons_ne_nil node [] : [node] ≠ [])⟩⟩
  rw [idle] at known
  simpa [alone] using (known.append_right [node.id]).trans List.perm_append_comm

/-- Where only OSD nodes are asked for, only OSD nodes are made. -/
theorem Made.onlyOsd {nodeRoles checked : RoleCounts} (made : m.Made (getSninfo checked) nodes)
    (passed : checkNodeRoles roles nodeRoles = .ok checked) (dir : countOf checked "dir" = 0) (mrc : countOf checked "mrc" = 0) :
    ∀ node ∈ nodes, node.role = "osd" := by
  intro node member
  obtain ⟨entry, inside, copies⟩ := List.mem_flatMap.mp (made.delivered.1.subset (List.mem_map_of_mem member))
  obtain ⟨positive, role⟩ := List.mem_replicate.mp copies
  have found : checked.get? entry.1 = some entry := Table.get?_of_mem inside
  have counted : countOf checked entry.1 = entry.2 := by
    rw [countOf, found]
    rfl
  obtain ⟨known, -⟩ := checkNodeRoles_ok (by decide) passed entry inside
  rcases List.mem_cons.mp known with osd | others
  · exact role.trans osd
  · exfalso
    have none : entry.2 = 0 := by
      rw [← counted]
      rcases List.mem_cons.mp others with own | own
      · rw [own, mrc]
      · rw [List.mem_singleton.mp own, dir]
    exact positive (by rw [none]; rfl)

theorem ofRole_all {role : String} (all : ∀ node ∈ nodes, node.role = role) : ofRole role nodes = nodes :=
  List.filter_eq_self.mpr fun node member => decide_eq_true (all node member)

theorem ofRole_none {role other : String} (all : ∀ node ∈ nodes, node.role = role) (apart : role ≠ other) :
    ofRole other nodes = [] :=
  List.filter_eq_nil_iff.mpr fun node member same => apart ((all node member).symm.trans (of_decide_eq_true same))

theorem doAddNodes_ok (obedient : agents.Obedient) (sound : m.Sound) (filled : m.nodes ≠ []) (state : ManagerState)
    {sninfo : List String} (made : m.Made sninfo nodes) (osd : ∀ node ∈ nodes, node.role = "osd") :
    ∃ after, doAddNodes agents nodes { m with state } = .ok () after ∧ after.Sound ∧ after.nodes = m.nodes ++ nodes := by
  obtain ⟨first, rest, start⟩ := List.exists_cons_of_ne_nil filled
  have dirNode : m.dirNodes = [first] := by rw [sound.dirNodes, start]; rfl
  have mrcNode : m.mrcNodes = [first] := by rw [sound.mrcNodes, start]; rfl
  obtain ⟨others, known⟩ := sound.known
  have absent : ∀ node ∈ nodes, m.osdNodeUuidMap.get? node.id = none := by
    refine fun node member => Table.get?_none_iff.mpr fun entry inside same => made.fresh node member ?_
    refine known.mem_iff.mpr (List.mem_append_left _ ?_)
    rw [← sound.osdNodes, ← same]
    exact sound.osd.subset (List.mem_map_of_mem inside)
  let longer : XtreemFS := { m with
    state, applicationNodes := m.applicationNodes ++ nodes
    nodes := m.nodes ++ nodes, dirNodes := [first], mrcNodes := [first], osdNodes := m.nodes ++ nodes }
  have listed : (modify (withServices nodes) : XtreemFSM Unit)
      { m with state, applicationNodes := m.applicationNodes ++ nodes, nodes := m.nodes ++ nodes } = .ok () longer := by
    refine congrArg (EStateM.Result.ok ()) ?_
    simp only [withServices, dirNode, mrcNode, sound.osdNodes, ofRole_all osd, ofRole_none osd (show "osd" ≠ "dir" by decide),
      ofRole_none osd (show "osd" ≠ "mrc" by decide), List.append_nil, longer]
  obtain ⟨calls, startup⟩ := askEach_ok obedient (fun _ => .startup) nodes longer
  obtain ⟨calls', certs⟩ := askEach_ok obedient (fun _ => .setCertificates) nodes { longer with calls }
  obtain ⟨map, volumes, uuids, calls'', started, keys, numbered⟩ :=
    @startOsd_ok agents { longer with calls := calls' } nodes obedient first [] rfl made.delivered.2 absent
      (fun node member => made.volumes node member (.inl (osd node member))) sound.numbered
  have onAddNodes : onAddNodes agents nodes
      { m with state, applicationNodes := m.applicationNodes ++ nodes, nodes := m.nodes ++ nodes } =
      .ok true { longer with
        osdCount := m.osdCount + nodes.length, osdNodeUuidMap := map, osdUuidVolumeMap := volumes, uuids, calls := calls'' } := by
    unfold onAddNodes
    rw [ofRole_all osd, ofRole_none osd (show "osd" ≠ "dir" by decide), ofRole_none osd (show "osd" ≠ "mrc" by decide)]
    refine (bind_of_ok listed).trans ((bind_of_ok startup).trans ((bind_of_ok certs).trans ?_))
    exact (bind_of_ok rfl).trans ((bind_of_ok rfl).trans ((bind_of_ok started).trans rfl))
  refine ⟨_, (bind_of_ok rfl).trans ((bind_of_ok onAddNodes).trans rfl), ?_, rfl⟩
  refine ⟨?_, ?_, ?_, numbered, ?_, ?_, rfl, ⟨others, ?_⟩, .inl ⟨rfl, ?_⟩⟩
  · have dir := sound.dir
    rw [dirNode] at dir
    exact dir
  · have mrc := sound.mrc
    rw [mrcNode] at mrc
    exact mrc
  · have old := sound.osd
    rw [sound.osdNodes] at old
    rw [List.map_append]
    exact keys.trans ((old.append_left _).trans List.perm_append_comm)
  · simp [longer, start]
  · simp [longer, start]
  · simp only [longer, List.map_append, List.append_assoc]
    refine (known.append_right _).trans ?_
    rw [List.append_assoc]
    exact List.perm_append_comm.append_left _
  · simp [longer, start]

theorem deleteUuid_ok (present : nodeId ∈ (m.uuidMap role).rows.map Prod.fst) :
    deleteUuid nodeId role m = .ok () (withUuidMap m ((m.uuidMap role).erase nodeId) role) := by
  obtain ⟨entry, member, named⟩ := List.mem_map.mp present
  have found : (m.uuidMap role).get? nodeId = some entry := Table.get?_iff.mpr ⟨member, named⟩
  simp only [deleteUuid, get_bind, found]
  rfl

theorem present_erase {map : UuidMap} {node : ServiceNode} {rest : List ServiceNode}
    (unique : ((node :: rest).map ServiceNode.id).Nodup)
    (present : ∀ other ∈ node :: rest, other.id ∈ map.rows.map Prod.fst) :
    ∀ other ∈ rest, other.id ∈ (map.erase node.id).rows.map Prod.fst := by
  intro other member
  obtain ⟨entry, inside, named⟩ := List.mem_map.mp (present other (List.mem_cons_of_mem _ member))
  refine List.mem_map.mpr ⟨entry, Table.mem_erase.mpr ⟨inside, fun same => ?_⟩, named⟩
  exact (List.nodup_cons.mp unique).1 (List.mem_map.mpr ⟨other, member, named.symm.trans same⟩)

theorem stopMrc_ok (obedient : agents.Obedient) (unique : (nodes.map ServiceNode.id).Nodup)
    (present : ∀ node ∈ nodes, node.id ∈ m.mrcNodeUuidMap.rows.map Prod.fst) :
    ∃ map calls, stopMrc agents true nodes m = .ok () { m with mrcNodeUuidMap := map, calls } := by
  induction nodes generalizing m with
  | nil => exact ⟨m.mrcNodeUuidMap, m.calls, rfl⟩
  | cons node rest ih =>
    obtain ⟨result, asked⟩ := ask_ok obedient node.ip .stopMRC m
    have here := present node (List.mem_cons_self ..)
    have deleted := @deleteUuid_ok { m with calls := m.calls ++ [⟨node.ip, .stopMRC⟩] } node.id .mrc here
    obtain ⟨map, calls, later⟩ := @ih { m with
      mrcNodeUuidMap := m.mrcNodeUuidMap.erase node.id, calls := m.calls ++ [⟨node.ip, .stopMRC⟩] }
      (List.nodup_cons.mp unique).2 (present_erase unique present)
    exact ⟨map, calls, (bind_of_ok ((bind_of_ok asked).trans deleted)).trans later⟩

theorem stopDir_ok (obedient : agents.Obedient) (unique : (nodes.map ServiceNode.id).Nodup)
    (present : ∀ node ∈ nodes, node.id ∈ m.dirNodeUuidMap.rows.map Prod.fst) :
    ∃ map calls, stopDir agents true nodes m = .ok () { m with dirNodeUuidMap := map, calls } := by
  induction nodes generalizing m with
  | nil => exact ⟨m.dirNodeUuidMap, m.calls, rfl⟩
  | cons node rest ih =>
    obtain ⟨result, asked⟩ := ask_ok obedient node.ip .stopDIR m
    have here := present node (List.mem_cons_self ..)
    have deleted := @deleteUuid_ok { m with calls := m.calls ++ [⟨node.ip, .stopDIR⟩] } node.id .dir here
    obtain ⟨map, calls, later⟩ := @ih { m with
      dirNodeUuidMap := m.dirNodeUuidMap.erase node.id, calls := m.calls ++ [⟨node.ip, .stopDIR⟩] }
      (List.nodup_cons.mp unique).2 (present_erase unique present)
    exact ⟨map, calls, (bind_of_ok ((bind_of_ok asked).trans deleted)).trans later⟩

/-- Nodes the application knows leave it one after the other. -/
theorem leaveApplication_ok {others : List String}
    (known : (m.applicationNodes.map ServiceNode.id).Perm (nodes.map ServiceNode.id ++ others)) :
    ∃ applicationNodes, forEach leaveApplication nodes m = .ok () { m with applicationNodes } ∧
      (applicationNodes.map ServiceNode.id).Perm others := by
  induction nodes generalizing m with
  | nil => exact ⟨m.applicationNodes, rfl, known⟩
  | cons node rest ih =>
    obtain ⟨first, left, dropped, same, perm⟩ :=
      dropNode_some (known.mem_iff.mpr (List.mem_append_left _ (List.mem_cons_self ..)))
    have ids := (perm.map ServiceNode.id).symm.trans known
    rw [List.map_cons, List.map_cons, same] at ids
    have one : leaveApplication node m = .ok () { m with applicationNodes := left } := by
      simp only [leaveApplication, get_bind, dropped]
      rfl
    obtain ⟨applicationNodes, later, kept⟩ := @ih { m with applicationNodes := left } ids.cons_inv
    exact ⟨applicationNodes, (bind_of_ok one).trans later, kept⟩

theorem doStopService_ok (obedient : agents.Obedient) (sound : m.Sound) :
    ∃ after, doStopService agents { m with state := .epilogue } = .ok () after ∧ after.Sound := by
  have dirKeys : (m.dirNodes.map ServiceNode.id).Nodup := sound.dir.nodup_iff.mp m.dirNodeUuidMap.keyed
  have mrcKeys : (m.mrcNodes.map ServiceNode.id).Nodup := sound.mrc.nodup_iff.mp m.mrcNodeUuidMap.keyed
  obtain ⟨calls, osd⟩ := askEach_ok obedient (fun _ => .stopOSD false) m.osdNodes { m with state := .epilogue }
  obtain ⟨mrcMap, calls', mrc⟩ := @stopMrc_ok agents { m with state := .epilogue, calls } m.mrcNodes obedient mrcKeys
    fun node member => sound.mrc.mem_iff.mpr (List.mem_map_of_mem member)
  obtain ⟨dirMap, calls'', dir⟩ :=
    @stopDir_ok agents { m with state := .epilogue, mrcNodeUuidMap := mrcMap, calls := calls' } m.dirNodes obedient dirKeys
      fun node member => sound.dir.mem_iff.mpr (List.mem_map_of_mem member)
  have stopAll : stopAll agents true { m with state := .epilogue } =
      .ok () { m with state := .epilogue, mrcNodeUuidMap := mrcMap, dirNodeUuidMap := dirMap, calls := calls'' } :=
    (bind_of_ok rfl).trans ((bind_of_ok osd).trans ((bind_of_ok rfl).trans ((bind_of_ok mrc).trans ((bind_of_ok rfl).trans dir))))
  obtain ⟨others, known⟩ := sound.known
  obtain ⟨applicationNodes, left, kept⟩ := @leaveApplication_ok
    { emptied { m with mrcNodeUuidMap := mrcMap, dirNodeUuidMap := dirMap, calls := calls'' } with state := .stopped } m.nodes _ known
  have onStop : onStop agents true { m with state := .epilogue } = .ok m.nodes
      (emptied { m with state := .epilogue, mrcNodeUuidMap := mrcMap, dirNodeUuidMap := dirMap, calls := calls'' }) :=
    (bind_of_ok stopAll).trans ((bind_of_ok rfl).trans ((bind_of_ok rfl).trans rfl))
  have done : doStopService agents { m with state := .epilogue } = .ok ()
      { emptied { m with mrcNodeUuidMap := mrcMap, dirNodeUuidMap := dirMap, calls := calls'' } with
        state := .stopped, applicationNodes } := by
    refine (bind_of_ok rfl).trans ?_
    rw [if_neg (by simp)]
    exact (bind_of_ok onStop).trans ((bind_of_ok rfl).trans left)
  exact ⟨_, done, .refl _, .refl _, .refl _, ⟨.refl _, nofun⟩, rfl, rfl, rfl, ⟨others, kept⟩, .inr ⟨.inr rfl, rfl⟩⟩

/-- What an accepted request is. -/
theorem serve_cases {result : EStateM.Result String XtreemFS Unit} (served : m.serve agents request = .ok result) :
    (∃ credit nodes, request = .startService credit nodes ∧ (m.state = .init ∨ m.state = .stopped) ∧
        result = doStartService agents nodes { m with state := .prologue }) ∨
      (∃ nodeRoles checked credit nodes, request = .addNodes nodeRoles credit nodes ∧ m.state = .running ∧
        checkNodeRoles roles nodeRoles = .ok checked ∧ result = doAddNodes agents nodes { m with state := .adapting }) ∨
      (∃ nodeRoles, request = .removeNodes nodeRoles) ∨
      (request = .stopService ∧ result = doStopService agents { m with state := .epilogue }) := by
  obtain ⟨⟨state, work⟩, accepted, rfl⟩ := Fallible.map_ok.mp served
  cases request with
  | startService credit nodes =>
    obtain ⟨-, -, later⟩ := Fallible.bind_ok.mp accepted
    obtain ⟨_, allowed, last⟩ := Fallible.bind_ok.mp later
    cases last
    exact .inl ⟨credit, nodes, rfl, by simpa using checkState_ok allowed, rfl⟩
  | addNodes nodeRoles credit nodes =>
    obtain ⟨-, -, later⟩ := Fallible.bind_ok.mp accepted
    obtain ⟨checked, passed, later⟩ := Fallible.bind_ok.mp later
    obtain ⟨_, allowed, last⟩ := Fallible.bind_ok.mp later
    cases last
    exact .inr (.inl ⟨nodeRoles, checked, credit, nodes, rfl, by simpa using checkState_ok allowed, passed, rfl⟩)
  | removeNodes nodeRoles => exact .inr (.inr (.inl ⟨nodeRoles, rfl⟩))
  | stopService =>
    cases accepted
    exact .inr (.inr (.inr ⟨rfl, rfl⟩))

theorem ForRoles.holds {nodeRoles checked : RoleCounts} {holds : RoleCounts → Prop} (forRoles : ForRoles nodeRoles holds)
    (passed : checkNodeRoles roles nodeRoles = .ok checked) : holds checked := by
  rw [ForRoles, passed] at forRoles
  exact forRoles

theorem Sound.step (obedient : agents.Obedient) (sound : m.Sound) (supplied : m.Supplied request) (careful : Careful request)
    (taken : Step agents m request after) : after.Sound ∧ Completes agents m request after := by
  unfold Step handle at taken
  split at taken
  · rename_i result served
    obtain rfl := Option.some.inj taken
    rcases serve_cases served with ⟨credit, nodes, rfl, allowed, rfl⟩ | ⟨nodeRoles, checked, credit, nodes, rfl, running, passed, rfl⟩ |
      ⟨nodeRoles, rfl⟩ | ⟨rfl, rfl⟩
    · have idle : m.nodes = [] := by
        rcases sound.state with ⟨running, -⟩ | ⟨-, idle⟩
        · rw [running] at allowed
          rcases allowed with wrong | wrong <;> cases wrong
        · exact idle
      obtain ⟨after, done, kept⟩ := doStartService_ok obedient sound idle .prologue supplied
      rw [done] at served ⊢
      refine ⟨kept, served, fun _ node first => ?_⟩
      rw [idle] at first
      cases first
    · have filled : m.nodes ≠ [] := by
        rcases sound.state with ⟨-, filled⟩ | ⟨wrong, -⟩
        · exact filled
        · rw [running] at wrong
          rcases wrong with wrong | wrong <;> cases wrong
      have made := supplied.holds passed
      obtain ⟨dir, mrc⟩ := careful.holds passed
      obtain ⟨after, done, kept, longer⟩ := doAddNodes_ok obedient sound filled .adapting made (made.onlyOsd passed dir mrc)
      rw [done] at served ⊢
      refine ⟨kept, served, fun _ node first => ?_⟩
      rw [outcome, longer]
      exact List.head?_append_of_ne_nil _ filled ▸ first
    · exact careful.elim
    · obtain ⟨after, done, kept⟩ := doStopService_ok obedient sound
      rw [done] at served ⊢
      exact ⟨kept, served, fun other => absurd rfl other⟩
  · cases taken

theorem created_sound (applicationNodes : List ServiceNode) : (created applicationNodes).Sound :=
  ⟨.refl _, .refl _, .refl _, ⟨.refl _, nofun⟩, rfl, rfl, rfl, ⟨_, .refl _⟩, .inr ⟨.inl rfl, rfl⟩⟩

/-- In every run of requests that add only OSD nodes and remove none, the maps agree
with the lists, and each further request of this kind is carried out. -/
theorem maps_agree (obedient : agents.Obedient) {applicationNodes : List ServiceNode}
    (run : Run (Guarded (fun m request => m.Supplied request ∧ Careful request) (Step agents)) (created applicationNodes) requests m) :
    m.Mapped ∧ ∀ request after, m.Supplied request → Careful request → Step agents m request after →
      Completes agents m request after := by
  have sound : m.Sound := run.guarded_invariant (created_sound applicationNodes) fun sound guard taken =>
    (sound.step obedient guard.1 guard.2 taken).1
  exact ⟨sound.mapped, fun request after supplied careful taken => (sound.step obedient supplied careful taken).2⟩

/-- Agents that do what they are asked. -/
def willing : XtreemFSAgents := ⟨fun _ _ => .ok "", fun _ => true⟩

theorem willing_obedient : willing.Obedient := ⟨fun _ _ => ⟨"", rfl⟩, fun _ => rfl⟩

/-- A node with a volume. -/
def storageNode (vmid role : String) : ServiceNode :=
  ⟨vmid, "10.0.0." ++ vmid, "10.0.0." ++ vmid, "iaas", 100, role,
    [⟨"osd-" ++ vmid, 1024, some ("vol-" ++ vmid), some vmid, some "sdb", some "iaas"⟩]⟩

/-- A request for OSD nodes. -/
def osds (count : Int) : RoleCounts := ⟨[("osd", count)], List.nodup_singleton _⟩

/-- A service is started, gets two more nodes, and is stopped and started again. -/
def restarted : List XtreemFSRequest :=
  [.startService true [storageNode "1" roleDirMrcOsd], .addNodes (osds 2) true [storageNode "2" "osd", storageNode "3" "osd"],
    .stopService, .startService true [storageNode "4" roleDirMrcOsd]]

theorem restarted_mapped : ∃ m,
    Run (Guarded (fun m request => m.Supplied request ∧ Careful request) (Step willing)) (created []) restarted m ∧
      m.nodes.map ServiceNode.vmid = ["4"] ∧ m.Mapped := by
  have ended : (play (fun m request => if m.Supplied request ∧ Careful request then handle willing m request else none) (created [])
      restarted).map (fun m => m.nodes.map ServiceNode.vmid) = some ["4"] := by
    decide +kernel
  obtain ⟨m, played, nodes⟩ := Option.map_eq_some_iff.mp ended
  have run := Run.play_guarded played
  exact ⟨m, run, nodes, (maps_agree willing_obedient run).1⟩

/-- An OSD node is added and removed again. -/
def removedOsd : List XtreemFSRequest :=
  [.startService true [storageNode "1" roleDirMrcOsd], .addNodes (osds 1) true [storageNode "2" "osd"], .removeNodes (osds 1)]

/-- The removed node keeps its entries. -/
theorem removedOsd_kept : ¬∀ (agents : XtreemFSAgents) (applicationNodes : List ServiceNode) (requests : List XtreemFSRequest)
    (m : XtreemFS), agents.Obedient → Run (Guarded Supplied (Step agents)) (created applicationNodes) requests m →
      m.Mapped ∧ ∀ request after, m.Supplied request → Step agents m request after → Completes agents m request after := by
  intro law
  have ended : (play (fun m request => if m.Supplied request then handle willing m request else none) (created []) removedOsd).map
      (fun m => (m.osdNodeUuidMap.rows.length, m.osdNodes.length)) = some (2, 1) := by
    decide +kernel
  obtain ⟨m, played, lengths⟩ := Option.map_eq_some_iff.mp ended
  obtain ⟨entries, nodes⟩ := Prod.mk.inj lengths
  have same := (law willing [] removedOsd m willing_obedient (Run.play_guarded played)).1.osd.length_eq
  rw [List.length_map, List.length_map, entries, nodes] at same
  cases same

end XtreemFS

end ConPaaS
