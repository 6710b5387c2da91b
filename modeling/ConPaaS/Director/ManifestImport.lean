import ConPaaS.Director.Manifests
import Mathlib.Data.List.Forall2

namespace ConPaaS

open Keyed

/-- An id that is not in use. -/
def freshId (ids : List Int) : Int := ids.foldl max 0 + 1

namespace Database

variable (db : Database) (userId : Int)

/-- The id of a new application, which no application has or had. -/
def newAid : Int := freshId (db.application.rows.map Application.aid ++ db.service.rows.map Service.applicationId)

/-- `_createapp`, when no other request is served at the same time. -/
def createApp (appName : String) : Except String (Int × Database) :=
  if appName = "" then .error "\"name\" is a required argument"
  else if db.checkAppExists userId appName then .error ("Application name \"" ++ appName ++ "\" is already taken")
  else .ok (db.newAid, db.insertApp userId db.newAid appName)

/-- The loop over other names. -/
def tryNames (appName : String) : List Nat → Except String (Int × Database)
  | [] => .error "Application cannot be created"
  | i :: rest =>
    if db.checkAppExists userId (candidate appName i) then tryNames appName rest
    else db.createApp userId (candidate appName i)

/-- `create_manifest_app`. -/
def createManifestApp (appName : String) : Except String (Int × Database) :=
  if appName = "" then .error "Application is not defined"
  else if db.checkAppExists userId appName then db.tryNames userId appName (List.range' 2 97)
  else db.createApp userId appName

/-- The services of an application, as `download_manifest` lists them. -/
def servicesIn (appId : Int) : List Service := db.service.rows.filter fun service => service.applicationId = appId

end Database

/-- What decides about the start of the manager of an application. -/
structure ManagerStart where
  vpn : Except String (Option String)
  outside : Outside
  now : Int
  launch : Launch

/-- The types of services a manager can add. -/
def validServices : List String := ["php", "java", "helloworld", "xtreemfs", "mysql", "generic"]

namespace ManifestOutside

variable {μ : Type} (out : ManifestOutside μ) (userId : Int) (start : ManagerStart)

/-- `_add`. -/
def addService (serviceType : Datum) (appId : Int) : ManifestM μ Datum := do
  let db := (← get).db
  let found := if appId = 0 then db.getDefaultApp userId else db.getAppById userId appId
  if appId = 0 && found.isNone then return errorResponse (.str "No existing applications")
  let appId := if appId = 0 then (found.map Application.aid).getD appId else appId
  if !validServices.any fun known => serviceType.isStr known then
    return errorResponse (.str ("Unknown service type '" ++ out.format serviceType ++ "'"))
  let res ← out.callmanager userId [.int appId, .int 0, .str "add_service", .bool true, .obj [("service_type", serviceType)]] []
  if !(← res.has "service_id") then return res
  if found.isNone then throw (.raised "AttributeError: to_dict")
  let sid ← Datum.toInt (← res.item "service_id")
  let type ← serviceType.text
  modify fun w => { w with
    db := { w.db with
      service := w.db.service.put ⟨freshId (w.db.service.rows.map Service.recId), sid, "New " ++ type ++ " service", type, "INIT",
        start.now, none, none, appId⟩ } }
  return .obj [("service", .obj [("sid", .int sid)])]

/-- `_rename` of a service. -/
def renameService (appId : Int) (sid newName : Datum) : ManifestM μ Datum := do
  let serviceId ← sid.toInt
  if !newName.truthy then return errorResponse (.str "\"name\" is a required argument")
  match (← get).db.getService userId appId serviceId with
  | .service (some service) =>
    let name ← newName.text
    modify fun w => { w with db := { w.db with service := w.db.service.modify service.recId fun row => { row with name } } }
    return .obj []
  | .crashed error => throw (.raised error)
  | _ => return errorResponse (.str "Invalid service_id")

/-- `wait_for_state`, for at most so many polls. -/
def waitForState (appId : Int) (sid : Datum) (state : String) : Nat → Datum → ManifestM μ Unit
  | 0, _ => throw .endless
  | polls + 1, res => do
    if (← res.item "state").isStr state then return ()
    let res ← tryCatch (out.callmanager userId [.int appId, sid, .str "get_service_info", .bool false, .obj []] [])
      fun error => if error = .unreachable then pure res else throw error
    waitForState appId sid state polls res

def waitForRunning (appId : Int) (sid : Datum) : ManifestM μ Unit :=
  out.waitForState userId appId sid "RUNNING" out.patience (.obj [("state", .null)])

/-- A part of the environment. An exception while it is made leaves it out. -/
def environmentOf (type : String) (appId : Int) (lines : Datum → Datum → ManifestM μ String) : ManifestM μ String :=
  tryCatch
    (do
      match (← get).db.service.rows.find? fun service => service.applicationId = appId && service.type = type with
      | none => throw (.raised "AttributeError: sid")
      | some service =>
        let nodes ← out.callmanager userId [.int appId, .int service.sid, .str "list_nodes", .bool false, .obj []] []
        lines (.int service.sid) nodes)
    fun _ => pure ""

/-- The first node of a role. -/
def firstOf (nodes : Datum) (role : String) : ManifestM μ Datum := do
  match ← (← nodes.item role).items with
  | [] => throw (.raised "IndexError: list index out of range")
  | node :: _ => return node

/-- The lines that make an address known under a name. -/
def addressLines (appId : Int) (sid node : Datum) (name : String) : ManifestM μ String := do
  let details ← out.callmanager userId
    [.int appId, sid, .str "get_node_info", .bool false, .obj [("serviceNodeId", node)]] []
  let ip := out.format (← (← details.item "serviceNode").item "ip")
  return "echo \"env[" ++ name ++ "]='" ++ ip ++ "'\" >> /root/ConPaaS/src/conpaas/services/webservers/etc/fpm.tmpl\n" ++
    "export " ++ name ++ "='" ++ ip ++ "'\n"

/-- `update_environment`. Lines that are there before an exception stay. -/
def updateEnvironment (appId : Int) : ManifestM μ String := do
  let mysql ← out.environmentOf userId "mysql" appId fun sid nodes => do
    let node ← if (← nodes.item "glb").truthy then firstOf nodes "glb" else firstOf nodes "mysql"
    out.addressLines userId appId sid node "MYSQL_IP"
  let xtreemfs ← out.environmentOf userId "xtreemfs" appId fun sid nodes => do
    let lines ← out.addressLines userId appId sid (← firstOf nodes "dir") "XTREEMFS_IP"
    let lines := lines ++ "export XTREEMFS_PASSPHRASE='contrail123'\n"
    tryCatch
      (do
        let res ← out.callmanager userId [.int appId, sid, .str "get_client_cert", .bool true,
          .obj [("passphrase", .str "contrail123"), ("adminflag", .bool false)]] []
        return lines ++ "export XTREEMFS_CERT='" ++ out.format (← res.item "cert") ++ "'\n")
      fun _ => pure lines
  return mysql ++ xtreemfs

/-- `url.split('/')[-1]`. -/
def lastPart (url : String) : String := (url.splitOn "/").getLastD ""

def uploadStartupScript (appId : Int) (sid url : Datum) (environment : String) : ManifestM μ Datum := do
  let file : Upload ← if url.isStr "" then pure ⟨"script", "env.sh", environment⟩ else do
    let address ← url.text
    let script ← out.readFromUrl address
    pure ⟨"script", lastPart address, environment ++ script⟩
  out.callmanager userId
    [.int appId, .int 0, .str "/", .bool true, .obj [("method", .str "upload_startup_script"), ("sid", sid)]] [file]

/-- `add_nodes`, with its positional arguments without `self`. -/
def addNodes (args : List Datum) : ManifestM μ Datum :=
  match args with
  | [appId, serviceId, params] => do
    let params ← params.set "cloud" (.str "default")
    let params ← params.set "service_id" serviceId
    out.callmanager userId [appId, .int 0, .str "add_nodes", .bool true, params] []
  | _ => throw (Datum.typeError ("add_nodes() takes exactly 4 arguments (" ++ toString (args.length + 1) ++ " given)"))

/-- `MGeneral.start`: the id of the new service, or an error. -/
def generalStart (json : Datum) (appId : Int) (cloud : Datum) (needEnv : Bool) : ManifestM μ Datum := do
  let servicetype ← json.get "Type"
  let given ← json.get "Cloud"
  let cloud := if given.truthy then given else cloud
  let res ← out.addService userId start servicetype appId
  if ← res.has "error" then return ← res.item "error"
  let sid ← (← res.item "service").item "sid"
  let name ← json.get "ServiceName"
  if name.truthy then
    let res ← renameService userId appId sid name
    if ← res.has "error" then return ← res.item "error"
  let env ← if needEnv then out.updateEnvironment userId appId else pure ""
  let script ← json.get "StartupScript"
  let url := if script.truthy then script else .str ""
  if url.truthy || env ≠ "" then
    let res ← out.uploadStartupScript userId appId sid url env
    if ← res.has "error" then return ← res.item "error"
  let res ← out.callmanager userId
    [.int appId, .int 0, .str "start_service", .bool true, .obj [("cloud", cloud), ("service_id", sid)]] []
  if ← res.has "error" then return ← res.item "error"
  return sid

/-- `type(sid) != int`. -/
def isInt : Datum → Bool
  | .int _ => true
  | _ => false

/-- `upload_code` of an archive. -/
def uploadCode (appId : Int) (sid : Datum) (archive : Datum) : ManifestM μ Datum := do
  let url ← archive.text
  let contents ← out.readFromUrl url
  out.callmanager userId [.int appId, sid, .str "/", .bool true, .obj [("method", .str "upload_code_version")]]
    [⟨"code", lastPart url, contents⟩]

/-- `enable_code`, under the name that the service has for it. -/
def enableCode (method : String) (appId : Int) (sid codeVersion : Datum) : ManifestM μ Datum :=
  out.callmanager userId [.int appId, sid, .str method, .bool true, .obj [("codeVersionId", codeVersion)]] []

/-- `MPhp.start` and `MJava.start`. -/
def phpStart (method : String) (json : Datum) (appId : Int) (cloud : Datum) : ManifestM μ Datum := do
  let sid ← out.generalStart userId start json appId cloud true
  if !isInt sid then return sid
  let archive ← json.get "Archive"
  if archive.truthy then
    let res ← out.uploadCode userId appId sid archive
    if ← res.has "error" then return ← res.item "error"
    out.waitForRunning userId appId sid
    let res ← out.enableCode userId method appId sid (← res.item "codeVersionId")
    if ← res.has "error" then return ← res.item "error"
  return .str "ok"

/-- `int(d)` of an entry of a dictionary, or what it is without the entry. -/
def countOf (instances : Datum) (role : String) (without : Int) : Except ManifestError Int := do
  let given ← instances.get role
  if given.truthy then given.toInt else .ok without

def mysqlStart (json : Datum) (appId : Int) (cloud : Datum) : ManifestM μ Datum := do
  let sid ← out.generalStart userId start json appId cloud false
  if !isInt sid then return sid
  out.waitForRunning userId appId sid
  let password ← json.get "Password"
  if password.truthy then
    let res ← out.callmanager userId [.int appId, sid, .str "set_password", .bool true,
      .obj [("user", .str "mysqldb"), ("password", password)]] []
    if ← res.has "error" then return ← res.item "error"
  let dump ← json.get "Dump"
  if dump.truthy then
    let url ← dump.text
    let contents ← out.readFromUrl url
    let res ← out.callmanager userId [.int appId, sid, .str "/", .bool true, .obj [("method", .str "load_dump")]]
      [⟨"mysqldump_file", lastPart url, contents⟩]
    if ← res.has "error" then return ← res.item "error"
  let instances ← json.get "StartupInstances"
  if instances.truthy then
    let mysql ← countOf instances "mysql" 0
    let glb ← countOf instances "glb" 0
    if mysql ≠ 0 || glb ≠ 0 then
      let res ← out.addNodes userId [.int appId, sid, .obj [("mysql", .int mysql), ("glb", .int glb)]]
      if ← res.has "error" then return ← res.item "error"
  return .str "ok"

/-- The volume `MXTreemFS.start` creates. -/
def startVolume (volume : Datum) (appId : Int) (sid : Datum) : ManifestM μ (Option Datum) := do
  let name ← volume.get "volumeName"
  let owner ← volume.get "owner"
  out.waitForRunning userId appId sid
  if name.isStr "" || owner.isStr "" then return none
  let res ← out.callmanager userId
    [.int appId, sid, .str "createVolume", .bool true, .obj [("volumeName", name), ("owner", owner)]] []
  if ← res.has "error" then return some (← res.item "error")
  return none

/-- `add_nodes` is not given the id of the application here. -/
def xtreemfsStart (json : Datum) (appId : Int) (cloud : Datum) : ManifestM μ Datum := do
  let toResume : Datum ← match Datum.find (← json.entries) "StartupInstances" with
    | none => pure (.obj [])
    | some instances => do
      match Datum.find (← instances.entries) "resume" with
      | none => pure (.obj [])
      | some nodes => pure (.obj [("nodes", nodes)])
  let sid ← out.generalStart userId start json appId cloud false
  if !isInt sid then return sid
  let volume ← json.get "VolumeStartup"
  if volume.truthy then
    match ← out.startVolume userId volume appId sid with
    | some error => return error
    | none => pure ()
  let instances ← json.get "StartupInstances"
  if instances.truthy then
    let osd ← countOf instances "osd" 1
    let res ← out.addNodes userId [sid, .obj [("osd", .int (osd - 1)), ("resuming", toResume)]]
    if ← res.has "error" then return ← res.item "error"
    if toResume.truthy then
      out.waitForRunning userId appId sid
      let res ← out.callmanager userId [.int appId, sid, .str "set_service_snapshot", .bool true, toResume] []
      if ← res.has "error" then return ← res.item "error"
  return .str "ok"

/-- `MGeneric.start`, which goes on after an error of `MGeneral.start`. It does
not give the id of the application to `wait_for_state` and to `add_nodes`. -/
def genericStart (json : Datum) (appId : Int) (cloud : Datum) : ManifestM μ Datum := do
  let sid ← out.generalStart userId start json appId cloud false
  let archive ← json.get "Archive"
  if archive.truthy then
    let res ← out.uploadCode userId appId sid archive
    if ← res.has "error" then return ← res.item "error"
    let res ← out.enableCode userId "enable_code" appId sid (← res.item "codeVersionId")
    if ← res.has "error" then return ← res.item "error"
    throw (Datum.typeError "wait_for_state() takes exactly 4 arguments (3 given)")
  let instances ← json.get "StartupInstances"
  if instances.truthy then
    let counts ← (← instances.entries).mapM fun (_, count) => (count.toInt : Except ManifestError Int)
    if counts.sum ≠ 0 then
      let given ← json.get "StartRole"
      let startRole := if given.truthy then given else .str "*"
      let res ← out.addNodes userId [sid, .obj [("nodes", instances), ("start_role", startRole)]]
      if ← res.has "error" then return ← res.item "error"
  return .str "ok"

/-- `cls().start(service, appid, cloud)`. -/
def startService (cls : ManifestClass) (json : Datum) (appId : Int) (cloud : Datum) : ManifestM μ Datum :=
  match cls with
  | .php => out.phpStart userId start "update_php_configuration" json appId cloud
  | .java => out.phpStart userId start "update_java_configuration" json appId cloud
  | .mysql => out.mysqlStart userId start json appId cloud
  | .xtreemfs => out.xtreemfsStart userId start json appId cloud
  | .generic => out.genericStart userId start json appId cloud

/-- The loop over the services of a manifest. -/
def startServices (appId : Int) (cloud : Datum) : List Datum → ManifestM μ Datum
  | [] => do
    modify fun w => { w with db := w.db.withStatus appId .running }
    return .str "ok"
  | service :: rest => do
    let type ← service.get "Type"
    match getManifestClass type with
    | .error _ => return .str ("Service " ++ out.format type ++ " does not exists")
    | .ok cls =>
      let msg ← out.startService userId start cls service appId cloud
      if msg.isStr "ok" then startServices appId cloud rest else return msg

/-- `start_manifest_app`. -/
def startManifestApp (parse : Datum) (appId : Int) (cloud : Datum) : ManifestM μ Datum := do
  match (← get).db.user.get? userId with
  | none => throw (.raised "AttributeError: user")
  | some user =>
    match Director.startApp (← get).db user appId true start.vpn with
    | (.error error, db) =>
      modify fun w => { w with db }
      return .str error
    | (.ok (), db) =>
      let (db, created) := Director.manifestCreated start.outside start.now db userId appId start.launch
      modify fun w => { w with db }
      if !created then return .str "Error upon application starting"
      out.startServices userId start appId cloud (← (← parse.get "Services").items)

/-- `check_manifest`, of a text that is JSON. -/
def checkManifest (parse : Datum) : Except ManifestError Bool := do
  let services ← (← parse.get "Services").items
  let types ← services.mapM (Datum.get "Type")
  return types.all Datum.truthy

/-- `upload_manifest`. Nothing of a start in a process of its own is reported. -/
def uploadManifest (parse : Datum) (cloud : Option String) (thread : Bool) : ManifestM μ Datum := do
  if !(← checkManifest parse) then return errorResponse (.str "The uploded manifest is not valid")
  let appName ← parse.get "Application"
  if !appName.truthy then return errorResponse (.str "Application is not defined")
  match (← get).db.createManifestApp userId (← appName.text) with
  | .error error => return errorResponse (.str error)
  | .ok (appId, db) =>
    modify fun w => { w with db }
    let services ← parse.get "Services"
    if !services.truthy then return .obj []
    modify fun w => { w with db := w.db.withStatus appId .prologue }
    let cloud := .str ((cloud.filter fun name => name ≠ "" && name ≠ "None").getD "default")
    if thread then
      let _ ← tryCatch (out.startManifestApp userId start parse appId cloud) fun _ => pure .null
      return .obj [("aid", .int appId)]
    let msg ← out.startManifestApp userId start parse appId cloud
    if msg.isStr "ok" then return .obj [("aid", .int appId)] else return errorResponse msg

end ManifestOutside

/-- An entry of a manifest describes a service with its instances. -/
structure Describes (entry : Datum) (service : Service) (instances : List (String × Int)) : Prop where
  type : entry.get "Type" = .ok (.str service.type)
  name : entry.get "ServiceName" = .ok (.str service.name)
  cloud : entry.get "Cloud" = .ok ((service.cloud.map Json.Doc.str).getD .null)
  instances : ∃ counts, entry.get "StartupInstances" = .ok counts ∧
    ∀ role count, (role, count) ∈ instances ↔ counts.get role = .ok (.int count)

namespace ManifestOutside

variable {μ : Type} (out : ManifestOutside μ) (userId : Int) (start : ManagerStart)

/-- A manifest lists each service of an application once. -/
def ListsOnce (w : ManifestWorld μ) (appId : Int) (manifest : Datum) : Prop :=
  ∃ entries listed, manifest.get "Services" = .ok (.arr entries) ∧ listed.Perm (w.db.servicesIn appId) ∧
    List.Forall₂ (fun entry service => Describes entry service (out.instances w.managers service)) entries listed

/-- The services of an application: type, name, cloud, and the instances in each role. -/
def summaries (w : ManifestWorld μ) (appId : Int) : List (String × String × Option String × List (String × Int)) :=
  (w.db.servicesIn appId).map fun service => (service.type, service.name, service.cloud, out.instances w.managers service)

/-- An application is exported, and the import of its manifest makes another one
with the same services. -/
def RoundTrips (cloud : Option String) (thread : Bool) (w : ManifestWorld μ) (appId : Int) : Prop :=
  ∃ manifest exported, out.downloadManifest userId appId w = .ok manifest exported ∧ out.ListsOnce w appId manifest ∧
    ∃ answer imported, out.uploadManifest userId start manifest cloud thread exported = .ok answer imported ∧
      ∃ aid app, exported.db.application.get? aid = none ∧ imported.db.application.get? aid = some app ∧
        app.userId = userId ∧ (out.summaries imported aid).Perm (out.summaries w appId)

end ManifestOutside

theorem le_foldl_max (ids : List Int) (base : Int) : base ≤ ids.foldl max base ∧ ∀ id ∈ ids, id ≤ ids.foldl max base := by
  induction ids generalizing base with
  | nil => exact ⟨le_rfl, nofun⟩
  | cons id rest ih =>
    obtain ⟨above, each⟩ := ih (max base id)
    exact ⟨(le_max_left base id).trans above, List.forall_mem_cons.mpr ⟨(le_max_right base id).trans above, each⟩⟩

theorem freshId_not_mem (ids : List Int) : freshId ids ∉ ids := fun member => by
  have above := (le_foldl_max ids 0).2 _ member
  unfold freshId at above
  omega

theorem candidate_ne_empty {appName : String} (named : appName ≠ "") (i : Nat) : candidate appName i ≠ "" := by
  unfold candidate
  split
  · exact named
  · intro empty
    exact named (String.append_eq_empty_iff.mp (String.append_eq_empty_iff.mp (String.append_eq_empty_iff.mp empty).1).1).1

namespace Database

variable {db after : Database} {userId aid : Int} {appName : String}

theorem newAid_fresh : db.application.get? db.newAid = none :=
  Table.get?_none_iff.mpr fun app member same => freshId_not_mem _ (List.mem_append_left _
    (List.mem_map.mpr ⟨app, member, same⟩))

theorem servicesIn_newAid : db.servicesIn db.newAid = [] := by
  refine List.filter_eq_nil_iff.mpr fun service member same => ?_
  exact freshId_not_mem _ (List.mem_append_right _ (List.mem_map.mpr ⟨service, member, of_decide_eq_true same⟩))

theorem createApp_free (named : appName ≠ "") (free : db.checkAppExists userId appName = false) :
    db.createApp userId appName = .ok (db.newAid, db.insertApp userId db.newAid appName) := by
  rw [createApp, if_neg named, if_neg (by simp [free])]

/-- The loop takes the first name that is free. -/
theorem tryNames_cases (named : appName ≠ "") (list : List Nat) :
    (∃ i ∈ list, db.checkAppExists userId (candidate appName i) = false) ∧
        (∃ name, db.tryNames userId appName list = .ok (db.newAid, db.insertApp userId db.newAid name)) ∨
      (∀ i ∈ list, db.checkAppExists userId (candidate appName i) = true) ∧
        ∃ error, db.tryNames userId appName list = .error error := by
  induction list with
  | nil => exact .inr ⟨nofun, _, rfl⟩
  | cons i rest ih =>
    cases taken : db.checkAppExists userId (candidate appName i) with
    | true =>
      simp only [tryNames, taken, if_true]
      rcases ih with ⟨⟨j, member, free⟩, made⟩ | ⟨none, failed⟩
      · exact .inl ⟨⟨j, List.mem_cons_of_mem _ member, free⟩, made⟩
      · exact .inr ⟨List.forall_mem_cons.mpr ⟨taken, none⟩, failed⟩
    | false =>
      simp only [tryNames, taken, Bool.false_eq_true, if_false]
      exact .inl ⟨⟨i, List.mem_cons_self .., taken⟩, _, createApp_free (candidate_ne_empty named i) taken⟩

/-- One of the names that are tried for a manifest is free. -/
def HasFreeName (db : Database) (userId : Int) (appName : String) : Prop :=
  ∃ i, 1 ≤ i ∧ i < 99 ∧ db.checkAppExists userId (candidate appName i) = false

theorem createManifestApp_cases (named : appName ≠ "") :
    db.HasFreeName userId appName ∧
        (∃ name, db.createManifestApp userId appName = .ok (db.newAid, db.insertApp userId db.newAid name)) ∨
      ¬ db.HasFreeName userId appName ∧ ∃ error, db.createManifestApp userId appName = .error error := by
  unfold createManifestApp HasFreeName
  rw [if_neg named]
  cases taken : db.checkAppExists userId appName with
  | false => exact .inl ⟨⟨1, le_rfl, by omega, taken⟩, appName, createApp_free named taken⟩
  | true =>
    rw [if_pos rfl]
    have attempts : _ ∨ _ := @tryNames_cases db userId appName named (List.range' 2 97)
    rcases attempts with ⟨⟨i, member, free⟩, made⟩ | ⟨none, failed⟩
    · have bounds := List.mem_range'_1.mp member
      exact .inl ⟨⟨i, by omega, by omega, free⟩, made⟩
    · refine .inr ⟨?_, failed⟩
      rintro ⟨i, above, below, free⟩
      by_cases first : i = 1
      · rw [first, candidate, if_pos rfl, taken] at free
        cases free
      · rw [none i (List.mem_range'_1.mpr ⟨by omega, by omega⟩)] at free
        cases free

end Database

namespace ManifestOutside

variable {μ : Type} {out : ManifestOutside μ} {userId appId : Int} {start : ManagerStart} {w : ManifestWorld μ} {app : Application}

/-- The manifest of an application without services. -/
def emptyManifest (appName : String) : Datum := .obj [("Services", .arr []), ("Application", .str appName)]

theorem downloadManifest_empty (found : w.db.getAppById userId appId = some app) (empty : w.db.servicesIn appId = []) :
    out.downloadManifest userId appId w = .ok (emptyManifest app.name) w := by
  unfold Database.servicesIn at empty
  simp only [downloadManifest, Effect.get_bind, found, empty]
  rfl

theorem downloadManifest_raises (found : w.db.getAppById userId appId = some app) (filled : w.db.servicesIn appId ≠ []) :
    ∃ error, out.downloadManifest userId appId w = .error error w := by
  obtain ⟨service, rest, services⟩ := List.exists_cons_of_ne_nil filled
  obtain ⟨error, raised⟩ := out.getServiceManifest_raises userId service w
  unfold Database.servicesIn at services
  refine ⟨error, ?_⟩
  simp only [downloadManifest, Effect.get_bind, found, services, List.mapM_cons]
  exact Effect.bind_of_error (Effect.bind_of_error raised)

/-- A manifest without services makes an application or nothing. -/
theorem uploadManifest_empty {appName : String} {cloud : Option String} {thread : Bool} (named : appName ≠ "") :
    out.uploadManifest userId start (emptyManifest appName) cloud thread w =
      match w.db.createManifestApp userId appName with
      | .ok (_, db) => .ok (.obj []) { w with db }
      | .error error => .ok (errorResponse (.str error)) w := by
  have truthy : Datum.truthy (.str appName) = true := decide_eq_true named
  have get : (emptyManifest appName).get "Application" = .ok (.str appName) := rfl
  have checked : checkManifest (emptyManifest appName) = .ok true := rfl
  simp only [uploadManifest, checked, get, bind, liftM, monadLift, MonadLift.monadLift, EStateM.bind, pure, EStateM.pure,
    Bool.not_true, Bool.false_eq_true, if_false, truthy, Datum.text]
  cases made : w.db.createManifestApp userId appName with
  | error error =>
    simp only [Effect.get_run, made]
    rfl
  | ok result =>
    simp only [Effect.get_run, made, EStateM.bind, Effect.modify_run]
    rfl

/-- A manifest without a name makes nothing. -/
theorem uploadManifest_unnamed {cloud : Option String} {thread : Bool} :
    out.uploadManifest userId start (emptyManifest "") cloud thread w =
      .ok (errorResponse (.str "Application is not defined")) w := rfl

theorem listsOnce_empty {appName : String} (empty : w.db.servicesIn appId = []) :
    out.ListsOnce w appId (emptyManifest appName) :=
  ⟨[], [], rfl, by rw [empty], .nil⟩

theorem insertApp_found {db : Database} {appName : String} :
    (db.insertApp userId db.newAid appName).application.get? db.newAid = some ⟨db.newAid, appName, .init, userId⟩ :=
  Table.get?_put_self db.application ⟨db.newAid, appName, .init, userId⟩

/-- An application comes back as it was exactly if it has no service, as the
export of a service calls the manager without the id of the application. -/
theorem roundTrips_iff (found : w.db.getAppById userId appId = some app) {cloud : Option String} {thread : Bool} :
    out.RoundTrips userId start cloud thread w appId ↔
      w.db.servicesIn appId = [] ∧ app.name ≠ "" ∧ w.db.HasFreeName userId app.name := by
  constructor
  · rintro ⟨manifest, exported, exports, -, answer, imported, imports, aid, made, fresh, stored, -, -⟩
    by_cases empty : w.db.servicesIn appId = []
    · rw [downloadManifest_empty found empty] at exports
      cases exports
      by_cases named : app.name = ""
      · rw [named, uploadManifest_unnamed] at imports
        cases imports
        cases fresh.symm.trans stored
      · refine ⟨empty, named, ?_⟩
        rw [uploadManifest_empty named] at imports
        rcases Database.createManifestApp_cases named with ⟨free, -⟩ | ⟨-, error, failed⟩
        · exact free
        · rw [failed] at imports
          cases imports
          cases fresh.symm.trans stored
    · obtain ⟨error, raised⟩ : ∃ error, out.downloadManifest userId appId w = .error error w := downloadManifest_raises found empty
      rw [raised] at exports
      cases exports
  · rintro ⟨empty, named, free⟩
    refine ⟨_, w, downloadManifest_empty found empty, listsOnce_empty empty, ?_⟩
    rcases Database.createManifestApp_cases named with ⟨-, name, made⟩ | ⟨none, -⟩
    · refine ⟨.obj [], { w with db := w.db.insertApp userId w.db.newAid name }, ?_, w.db.newAid, _, Database.newAid_fresh,
        insertApp_found, rfl, ?_⟩
      · rw [uploadManifest_empty named, made]
      · have bare : (w.db.insertApp userId w.db.newAid name).servicesIn w.db.newAid = [] := Database.servicesIn_newAid
        simp only [summaries, bare, empty, List.map_nil, List.Perm.refl]
    · exact absurd free none

/-- Every request to a manager succeeds. -/
def Answers (out : ManifestOutside μ) : Prop := ∀ managers call, ∃ entries, (out.reply managers call).1 = .json (.obj entries)

/-- Managers that answer every request. -/
def answering : ManifestOutside Unit where
  reply _ _ := (.json (.obj [("result", .obj [("state", .str "RUNNING"), ("service_id", .int 1)])]), ())
  instances _ _ := []
  directorUrl := "https://director"
  tempName suffix _ := "startup" ++ suffix
  readFromUrl _ := .ok ""
  b64decode text := .ok text
  format _ := ""
  patience := 1

/-- A start of a manager at a cloud without machines. -/
def noMachines : ManagerStart := ⟨.ok none, killingCloud true, 0, ⟨[], [], .ok []⟩⟩

/-- A running application with some services. -/
def shop (services : Table Service.recId) : ManifestWorld Unit where
  db := ⟨.empty, Table.empty.put ⟨1, "shop", .running, 1⟩,
    Table.empty.put ⟨1, "vm-1", some 1, some 0, 0, "10.0.0.1", "manager", "default", 0⟩, services⟩
  managers := ()

theorem shop_found (services : Table Service.recId) : (shop services).db.getAppById 1 1 = some ⟨1, "shop", .running, 1⟩ := rfl

theorem shop_roundTrips : answering.RoundTrips 1 noMachines none false (shop .empty) 1 :=
  (roundTrips_iff (shop_found .empty)).mpr ⟨rfl, by decide, 2, by decide, by decide, by decide +kernel⟩

/-- The application with a PHP service. -/
def phpShop : ManifestWorld Unit := shop (Table.empty.put ⟨1, 1, "New php service", "php", "INIT", 0, none, none, 1⟩)

theorem phpShop_not_exported : ¬∀ (out : ManifestOutside Unit) (userId : Int) (start : ManagerStart) (cloud : Option String)
    (thread : Bool) (w : ManifestWorld Unit) (appId : Int) (app : Application), out.Answers →
    w.db.getAppById userId appId = some app → out.RoundTrips userId start cloud thread w appId := by
  intro law
  obtain ⟨manifest, exported, exports, -⟩ :=
    law answering 1 noMachines none false phpShop 1 _ (fun _ _ => ⟨_, rfl⟩) (shop_found _)
  obtain ⟨error, raised⟩ : ∃ error, answering.downloadManifest 1 1 phpShop = .error error phpShop :=
    downloadManifest_raises (shop_found _) (by decide +kernel)
  rw [raised] at exports
  cases exports

end ManifestOutside

end ConPaaS
