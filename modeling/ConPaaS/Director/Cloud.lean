import ConPaaS.Director.Authentication
import ConPaaS.Director.Controller
import ConPaaS.Director.Credits

namespace ConPaaS

open Keyed

inductive Response
  | error (message : String)
  | nodes (nodes : List ServiceNode)
  | volumeId (volumeId : String)
  | credit (credit : Int)
  | certificate (cert : Certificate)
  | done
  | crashed (error : String)
  deriving DecidableEq, Repr

/-- What comes of a request: the answer, the tables and what was done. -/
structure Reply where
  response : Response
  db : Database
  acts : List Act
  deriving DecidableEq

namespace Database

/-- `get_resource_by_id`. -/
def getResourceById (db : Database) (vmid : String) : Option Resource :=
  db.resource.rows.find? fun res => res.vmid = vmid

/-- The key of the next row of a table. -/
def nextRid (rows : List Resource) : Int := (rows.map Resource.rid).foldr max 0 + 1

/-- Rows under keys from a first one on. -/
def numbered : Int → List Resource → List Resource
  | _, [] => []
  | rid, res :: rest => { res with rid } :: numbered (rid + 1) rest

theorem nextRid_above {rows : List Resource} {res : Resource} (member : res ∈ rows) : res.rid < nextRid rows := by
  unfold nextRid
  induction rows with
  | nil => cases member
  | cons row rest ih =>
    simp only [List.map_cons, List.foldr_cons]
    rcases List.mem_cons.mp member with rfl | member
    · omega
    · have later := ih member
      omega

theorem mem_numbered {rid : Int} {rows : List Resource} {res : Resource} (member : res ∈ numbered rid rows) :
    rid ≤ res.rid ∧ ∃ row ∈ rows, res = { row with rid := res.rid } := by
  induction rows generalizing rid with
  | nil => cases member
  | cons row rest ih =>
    rcases List.mem_cons.mp member with rfl | member
    · exact ⟨le_rfl, row, List.mem_cons_self .., rfl⟩
    · obtain ⟨above, source, inside, same⟩ := ih member
      exact ⟨by omega, source, List.mem_cons_of_mem _ inside, same⟩

theorem numbered_keyed (rid : Int) (rows : List Resource) : ((numbered rid rows).map Resource.rid).Nodup := by
  induction rows generalizing rid with
  | nil => exact .nil
  | cons row rest ih =>
    refine List.nodup_cons.mpr ⟨?_, ih (rid + 1)⟩
    intro member
    obtain ⟨res, inside, same⟩ := List.mem_map.mp member
    have above := (mem_numbered inside).1
    have equal : res.rid = rid := same
    omega

/-- New rows do not take the keys of old ones. -/
theorem append_keyed (db : Database) (rows : List Resource) :
    ((db.resource.rows ++ numbered (nextRid db.resource.rows) rows).map Resource.rid).Nodup := by
  rw [List.map_append]
  refine List.nodup_append.mpr ⟨db.resource.keyed, numbered_keyed _ rows, ?_⟩
  rintro _ old _ new rfl
  obtain ⟨res, stored, rid⟩ := List.mem_map.mp old
  obtain ⟨row, added, same⟩ := List.mem_map.mp new
  have below := nextRid_above stored
  have above := (mem_numbered added).1
  omega

/-- The ids of machines are unique in the table. -/
def Refuses (db : Database) (rows : List Resource) : Prop :=
  ¬ (rows.map Resource.vmid).Nodup ∨ ∃ row ∈ rows, ∃ res ∈ db.resource.rows, res.vmid = row.vmid

instance (db : Database) (rows : List Resource) : Decidable (db.Refuses rows) :=
  inferInstanceAs (Decidable (_ ∨ _))

/-- New rows are added in one commit, or refused together. -/
def addResources (db : Database) (rows : List Resource) : Except String (Database × List Resource) :=
  if db.Refuses rows then .error "IntegrityError"
  else
    let added := numbered (nextRid db.resource.rows) rows
    .ok ({ db with resource := db.resource.append added (db.append_keyed rows) }, added)

end Database

/-- A form posted to `create_nodes`. Lists that are missing or cannot be read
are `none`. -/
structure CreateNodes where
  appId : Option String
  serviceId : Option String
  serviceType : Option String
  managerIp : Option String
  startupScript : Option String
  nodesInfo : Option (List NodeInfo)
  context : Option (List (String × String))
  deriving DecidableEq, Repr

/-- The requests of managers. -/
inductive ManagerRequest
  | createNodes (body : CreateNodes)
  | removeNodes (nodes : Option (List NodeEntry))
  | createVolume (size name vmId cloud : Option String)
  | attachVolume (vmId volumeId deviceName cloud : Option String)
  | detachVolume (volumeId cloud : Option String)
  | destroyVolume (volumeId cloud : Option String)
  | credit
  | decrementUserCredit (aid decrement : Option String)
  | getCert (csr : Option Subject) (serial : Int)
  deriving DecidableEq, Repr

def CreateNodes.order (body : CreateNodes) (userId : Int) (context : List (String × String)) : AgentOrder where
  userId
  appId := body.appId
  serviceId := body.serviceId
  serviceType := body.serviceType
  managerIp := body.managerIp
  context
  startupScript := body.startupScript

/-- `str` of a form value: a missing one is `None`, and a text that is not
ASCII raises an error. -/
def pythonStr (text : Option String) : Except String String :=
  if (formatted text).toList.all fun c => c.toNat < 128 then .ok (formatted text) else .error "UnicodeEncodeError"

/-- `int` of a form value. -/
def formInt (text : Option String) : Except String Int :=
  match text with
  | none => .error "TypeError"
  | some text =>
    match pythonInt text with
    | none => .error "ValueError"
    | some number => .ok number

namespace Outside

variable (outside : Outside)

/-- The row of a machine that started. -/
def newResource (now : Int) (order : AgentOrder) (node : ServiceNode) : Resource where
  rid := 0
  vmid := node.vmid
  appId := outside.column order.appId
  serviceId := outside.column order.serviceId
  charged := 0
  ip := node.ip
  role := "agent"
  cloud := node.cloudName
  created := now

/-- The machines of the rows that are gone are killed, those of each
application in a thread of their own. -/
def killRemoved (removed : List Resource) : List Act :=
  (removed.map Resource.appId).dedup.flatMap fun appId =>
    (outside.deleteNodes .vmDestroyed ((removed.filter fun res => res.appId = appId).map Resource.entry)).1

/-- The end of `_create_nodes`: the machines get their rows, and then the
credits of all users are checked. -/
def register (now : Int) (db : Database) (order : AgentOrder) (nodes : List ServiceNode) : Reply :=
  if nodes = [] then ⟨.nodes [], db, []⟩
  else
    match db.addResources (nodes.map (outside.newResource now order)) with
    | .error error => ⟨.crashed error, db, []⟩
    | .ok (db, added) =>
      let checked := (db.checkCredits now).1
      let removed := db.resource.rows.filter fun res => (checked.resource.get? res.rid).isNone
      ⟨.nodes nodes, checked, added.map .rowCreated ++ removed.map .rowDeleted ++ outside.killRemoved removed⟩

/-- What starting machines does. -/
def launchActs (order : AgentOrder) (launch : Launch) : List Act × Except String Unit :=
  let appId := outside.column order.appId
  let deleted := outside.deleteNodes (.newVmDestroyed appId) (launch.failed.map ServiceNode.entry)
  (launch.volumes.map (.newVolume appId) ++ deleted.1, deleted.2)

/-- `_create_nodes` from the deletion of the machines that did not start. -/
def settle (now : Int) (db : Database) (order : AgentOrder) (launch : Launch) : Reply :=
  let acts := outside.launchActs order launch
  match launch.ready, acts.2 with
  | .ok nodes, .ok () =>
    let reply := outside.register now db order nodes
    { reply with acts := acts.1 ++ reply.acts }
  | .error error, _ => ⟨.crashed error, db, acts.1⟩
  | _, .error error => ⟨.crashed error, db, acts.1⟩

end Outside

/-- What a volume request does: the answer and the acts, or an error. -/
abbrev VolumeReply := Except String (Response × List Act)

namespace Director

variable (outside : Outside)

/-- `create_nodes` and `_create_nodes`. -/
def createNodes (now : Int) (db : Database) (user : User) (body : CreateNodes) : Reply :=
  match body.nodesInfo, body.context with
  | some infos, some context =>
    if user.credit ≤ 0 then ⟨.error "Insufficient credits", db, []⟩
    else
      let order := body.order user.uid context
      outside.settle now db order (outside.launch order (infos.map NodeInfo.withDefault))
  | _, _ => ⟨.crashed "nodes_info or context", db, []⟩

/-- The second loop of `remove_nodes`. A machine without a row ends it with an
error. -/
def removeResources (db : Database) : List NodeEntry → Reply
  | [] => ⟨.done, db, []⟩
  | node :: rest =>
    match db.getResourceById node.vmid with
    | none => ⟨.crashed "AttributeError", db, []⟩
    | some res =>
      let reply := removeResources { db with resource := db.resource.erase res.rid } rest
      { reply with acts := .rowDeleted res :: reply.acts }

/-- `remove_nodes`: the machines are killed as the request names them, then
their rows are removed. -/
def removeNodes (db : Database) : Option (List NodeEntry) → Reply
  | none => ⟨.crashed "nodes", db, []⟩
  | some nodes =>
    let deleted := outside.deleteNodes .vmDestroyed nodes
    match deleted.2 with
    | .error error => ⟨.crashed error, db, deleted.1⟩
    | .ok () =>
      let reply := removeResources db nodes
      { reply with acts := deleted.1 ++ reply.acts }

/-- `create_volume`. -/
def createVolume (size name vmId cloud : Option String) : VolumeReply := do
  let size ← formInt size
  let name ← pythonStr name
  let vmId ← pythonStr vmId
  let cloud ← pythonStr cloud
  let cloud ← outside.getCloudByName (some cloud)
  let volumeId ← outside.createVolume size name vmId cloud
  return (.volumeId volumeId, [.volumeCreated vmId ⟨volumeId, cloud⟩])

/-- A request that has a cloud do something to a volume. -/
def volumeCall (volumeId cloud : Option String) (call : String → String → Except String Bool)
    (act : CloudVolume → Act) : VolumeReply := do
  let volumeId ← pythonStr volumeId
  let cloud ← pythonStr cloud
  let cloud ← outside.getCloudByName (some cloud)
  let carried ← call volumeId cloud
  return (.done, if carried then [act ⟨volumeId, cloud⟩] else [])

/-- `attach_volume`. The values of the form are read in another order, but they
all fail alike. -/
def attachVolume (vmId volumeId deviceName cloud : Option String) : VolumeReply := do
  let vmId ← pythonStr vmId
  let deviceName ← pythonStr deviceName
  volumeCall outside volumeId cloud (fun volumeId cloud => outside.attachVolume vmId volumeId deviceName cloud)
    .volumeAttached

/-- `detach_volume`. -/
def detachVolume (volumeId cloud : Option String) : VolumeReply :=
  volumeCall outside volumeId cloud outside.detachVolume .volumeDetached

/-- `destroy_volume`. -/
def destroyVolume (volumeId cloud : Option String) : VolumeReply :=
  volumeCall outside volumeId cloud outside.destroyVolume .volumeDestroyed

/-- `decrementUserCredit.php`, which calls `_deduct_credit` with an argument
too many. -/
def decrementUserCredit (aid decrement : Option String) : VolumeReply := do
  let _ ← formInt (some (aid.getD "-1"))
  let _ ← formInt (some (decrement.getD "1"))
  .error "TypeError"

/-- A request that leaves the tables alone. -/
def outsideTables (db : Database) : VolumeReply → Reply
  | .error error => ⟨.crashed error, db, []⟩
  | .ok (response, acts) => ⟨response, db, acts⟩

/-- The handlers under `cert_required(role='manager')`. They are told who the
user is, and none of them looks at the application. -/
def serve (now : Int) (db : Database) (user : User) : ManagerRequest → Reply
  | .createNodes body => createNodes outside now db user body
  | .removeNodes nodes => removeNodes outside db nodes
  | .createVolume size name vmId cloud => outsideTables db (createVolume outside size name vmId cloud)
  | .attachVolume vmId volumeId deviceName cloud =>
    outsideTables db (attachVolume outside vmId volumeId deviceName cloud)
  | .detachVolume volumeId cloud => outsideTables db (detachVolume outside volumeId cloud)
  | .destroyVolume volumeId cloud => outsideTables db (destroyVolume outside volumeId cloud)
  | .credit => ⟨.credit user.credit, db, []⟩
  | .decrementUserCredit aid decrement => outsideTables db (decrementUserCredit aid decrement)
  | .getCert none _ => ⟨.crashed "csr", db, []⟩
  | .getCert (some subject) serial => ⟨.certificate (createX509Cert subject serial), db, []⟩

/-- A request with a certificate. -/
def respond (now : Int) (db : Database) (cert : Certificate) (request : ManagerRequest) : Except Denial Reply :=
  (certRequiredManager db cert).map fun grant => serve outside now db grant.user request

end Director

end ConPaaS
