import ConPaaS.Director.ApplicationNames
import ConPaaS.Director.StartingApplications
import ConPaaS.Lib.Effect
import ConPaaS.Lib.Json
import Mathlib.Data.List.Infix

namespace ConPaaS

open Keyed

/-- A value of a Python program as far as it is sent to a manager or written in
a manifest. -/
abbrev Datum := Json.Doc String Empty

/-- What ends a request: a connection that fails, another exception, or a loop
that is never left. -/
inductive ManifestError
  | unreachable
  | raised (error : String)
  | endless
  deriving DecidableEq, Repr

namespace Datum

def typeError (error : String) : ManifestError := .raised ("TypeError: " ++ error)

def isStr (text : String) : Datum → Bool
  | .str own => own = text
  | _ => false

def truthy : Datum → Bool
  | .null => false
  | .bool value => value
  | .int value => value ≠ 0
  | .float value => nomatch value
  | .str text => text ≠ ""
  | .arr items => !items.isEmpty
  | .obj entries => !entries.isEmpty

def find (entries : List (String × Datum)) (key : String) : Option Datum :=
  (entries.find? fun entry => entry.1 = key).map Prod.snd

/-- `d[key]`. -/
def item (key : String) : Datum → Except ManifestError Datum
  | .obj entries =>
    match find entries key with
    | some value => .ok value
    | none => .error (.raised ("KeyError: " ++ key))
  | _ => .error (typeError "indices must be integers")

/-- `d.get(key)`. -/
def get (key : String) : Datum → Except ManifestError Datum
  | .obj entries => .ok ((find entries key).getD .null)
  | _ => .error (.raised "AttributeError: get")

/-- `key in d`. -/
def has (key : String) : Datum → Except ManifestError Bool
  | .obj entries => .ok (find entries key).isSome
  | .arr items => .ok (items.any (isStr key))
  | .str text => .ok (decide (key.toList <:+: text.toList))
  | _ => .error (typeError "argument is not iterable")

/-- `d[key] = value`. -/
def set (key : String) (value : Datum) : Datum → Except ManifestError Datum
  | .obj entries =>
    .ok (.obj (if (find entries key).isSome then entries.map fun entry => if entry.1 = key then (key, value) else entry
      else entries ++ [(key, value)]))
  | _ => .error (typeError "object does not support item assignment")

def len : Datum → Except ManifestError Datum
  | .obj entries => .ok (.int entries.length)
  | .arr items => .ok (.int items.length)
  | .str text => .ok (.int text.length)
  | _ => .error (typeError "object has no len()")

/-- `int(d)`. -/
def toInt : Datum → Except ManifestError Int
  | .int value => .ok value
  | .bool value => .ok (if value then 1 else 0)
  | .str text =>
    match pythonInt text with
    | some value => .ok value
    | none => .error (.raised ("ValueError: invalid literal for int(): " ++ text))
  | _ => .error (typeError "int() argument must be a string or a number")

/-- A text that is written to a file or split. -/
def text : Datum → Except ManifestError String
  | .str text => .ok text
  | _ => .error (typeError "must be string")

/-- The entries of `d`, which is a dictionary. -/
def entries : Datum → Except ManifestError (List (String × Datum))
  | .obj entries => .ok entries
  | _ => .error (typeError "object is not a dictionary")

/-- A loop over `d`, which is a list. -/
def items : Datum → Except ManifestError (List Datum)
  | .arr items => .ok items
  | _ => .error (typeError "object is not a list")

end Datum

/-- A file in a request: the name of the field, its own name, and what it holds. -/
structure Upload where
  field : String
  filename : String
  contents : String
  deriving DecidableEq, Repr

/-- A request to the manager of an application. -/
inductive ManagerCall
  | upload (ip : String) (data : Datum) (files : List Upload)
  | post (ip : String) (method serviceId data : Datum)
  | get (ip : String) (method serviceId data : Datum)

/-- What comes of a request to a manager: no connection, another code than 200,
or an answer that is JSON or not. -/
inductive ManagerReply
  | unreachable
  | failed (text : String)
  | plain (text : String)
  | json (answer : Datum)

/-- The world around the director: what the managers answer and which nodes their
services have, the names of new files, the addresses that can be read, how
Python writes a value, and for how many polls a state is waited for. -/
structure ManifestOutside (μ : Type) where
  reply : μ → ManagerCall → ManagerReply × μ
  instances : μ → Service → List (String × Int)
  directorUrl : String
  tempName : String → String → String
  readFromUrl : String → Except ManifestError String
  b64decode : String → Except ManifestError String
  format : Datum → String
  patience : Nat

/-- The database and the managers. -/
structure ManifestWorld (μ : Type) where
  db : Database
  managers : μ

abbrev ManifestM (μ : Type) := EStateM ManifestError (ManifestWorld μ)

instance {μ : Type} : MonadLift (Except ManifestError) (ManifestM μ) where
  monadLift
    | .ok a => pure a
    | .error error => throw error

def errorResponse (message : Datum) : Datum := .obj [("error", message)]

namespace ManifestOutside

variable {μ : Type} (out : ManifestOutside μ) (userId : Int)

/-- `get_app_by_id`, for an id that may be no number. -/
def application (db : Database) : Datum → Option Application
  | .int appId => db.getAppById userId appId
  | _ => none

/-- `callmanager`, with its positional arguments and the files. It takes five of
them. -/
def callmanager (args : List Datum) (files : List Upload) : ManifestM μ Datum :=
  match args with
  | [appId, serviceId, method, post, data] => do
    let w ← get
    match application userId w.db appId with
    | none => return errorResponse (.str ("Application " ++ out.format appId ++ " not found."))
    | some app =>
      match w.db.manager app.aid with
      | none => return errorResponse (.str ("Application " ++ out.format appId ++ " has not started. Try to start it first."))
      | some manager =>
        let sent ← if files.isEmpty then pure data else data.set "service_id" serviceId
        let call :=
          if !files.isEmpty then .upload manager.ip sent files
          else if post.truthy then .post manager.ip method serviceId sent
          else .get manager.ip method serviceId sent
        let (reply, managers) := out.reply w.managers call
        modify fun w => { w with managers }
        match reply with
        | .unreachable => throw .unreachable
        | .failed text => throw (.raised ("Call to method " ++ out.format method ++ " on " ++ manager.ip ++ " failed: " ++ text ++
            ".\nParams = " ++ out.format sent))
        | .plain text => return .str text
        | .json (.obj entries) => return (Datum.find entries "result").getD (.obj entries)
        | .json _ => throw (.raised "AttributeError: get")
  | _ => throw (Datum.typeError ("callmanager() takes at least 5 arguments (" ++ toString args.length ++ " given)"))

def getServiceState (sid : Int) : ManifestM μ Datum := do
  let res ← out.callmanager userId [.int sid, .str "get_service_info", .bool false, .obj []] []
  res.item "state"

def getListNodes (sid : Int) : ManifestM μ Datum := do
  let nodes ← out.callmanager userId [.int sid, .str "list_nodes", .bool false, .obj []] []
  if ← nodes.has "error" then return .str ""
  let counted ← (← nodes.entries).mapM fun (node, list) => do return (node, ← (list.len : Except ManifestError Datum))
  return .obj counted

/-- The address of a new file. -/
def save (suffix : String) (contents : Datum) : ManifestM μ Datum := do
  let text ← contents.text
  return .str (out.directorUrl ++ "/download_data/" ++ out.tempName suffix text)

/-- The lines before the first one that names the shell are left out. -/
def createStartupScript (sid : Int) : ManifestM μ Datum := do
  let script ← out.callmanager userId [.int sid, .str "get_startup_script", .bool false, .obj []] []
  if ← script.has "error" then return .str ""
  let lines := (← script.text).splitOn "\n"
  return .str ("\n".intercalate (lines.dropWhile fun line => !decide ("/bin/bash".toList <:+: line.toList)))

def getStartupScript (sid : Int) : ManifestM μ Datum := do
  let script ← out.createStartupScript userId sid
  if !script.truthy then return .str ""
  out.save "" script

/-- `MGeneral.get_service_manifest`. -/
def generalManifest (service : Service) : ManifestM μ Datum := do
  let tmp := [("Type", .str service.type), ("ServiceName", .str service.name),
    ("Cloud", (service.cloud.map Json.Doc.str).getD .null)]
  let state ← out.getServiceState userId service.sid
  let tmp := if state.isStr "RUNNING" then tmp ++ [("Start", .int 1)] else tmp
  let nodes ← out.getListNodes userId service.sid
  let tmp := if nodes.isStr "" then tmp else tmp ++ [("StartupInstances", nodes)]
  let script ← out.getStartupScript userId service.sid
  return .obj (if script.isStr "" then tmp else tmp ++ [("StartupScript", script)])

/-- `MPhp.get_archive`. -/
def getArchive (serviceId : Int) : ManifestM μ Datum := do
  let res ← out.callmanager userId [.int serviceId, .str "list_code_versions", .bool false, .obj []] []
  if ← res.has "error" then return .str ""
  let rows ← (← res.item "codeVersions").items
  for row in rows do
    if ← row.has "current" then
      let version ← row.item "codeVersionId"
      let filename ← row.item "filename"
      if version.isStr "" || filename.isStr "" then return .str ""
      let res ← out.callmanager userId
        [.int serviceId, .str "download_code_version", .bool false, .obj [("codeVersionId", version)]] []
      if ← res.has "error" then return .str ""
      return ← out.save (← filename.text) res
  return .str ""

/-- `MPhp.get_service_manifest`, which `MJava` has as well. -/
def phpManifest (service : Service) : ManifestM μ Datum := do
  let tmp ← out.generalManifest userId service
  let archive ← out.getArchive userId service.sid
  if archive.isStr "" then return tmp
  tmp.set "Archive" archive

/-- `MXTreemFS.set_persistent`. -/
def setPersistent (serviceId : Int) : ManifestM μ Datum := do
  let res ← out.callmanager userId [.int serviceId, .str "get_service_info", .bool false, .obj []] []
  if (← res.item "persistent").truthy then return ← res.item "persistent"
  let res ← out.callmanager userId [.int serviceId, .str "toggle_persistent", .bool true, .obj []] []
  res.item "persistent"

/-- A node of a snapshot as it is put into the manifest: its data goes to a file
of its own. -/
def archiveNode (node : Datum) : ManifestM μ Datum := do
  let osd ← node.item "osd_uuid"
  let dir ← node.item "dir_uuid"
  let mrc ← node.item "mrc_uuid"
  let nodeId := out.format osd ++ "_" ++ out.format dir ++ "_" ++ out.format mrc
  let data ← (← node.item "data").text
  let _ ← out.b64decode data
  let kept := (← node.entries).filter fun entry => entry.1 ≠ "data"
  Datum.set "archive" (.str (out.directorUrl ++ "/download_data/" ++ nodeId ++ ".tar.gz")) (.obj kept)

/-- `MXTreemFS.get_service_manifest`. -/
def xtreemfsManifest (service : Service) : ManifestM μ Datum := do
  let tmp ← out.generalManifest userId service
  let _ ← out.setPersistent userId service.sid
  let snapshot ← out.callmanager userId [.int service.sid, .str "get_service_snapshot", .bool true, .obj []] []
  let instances ← if ← tmp.has "StartupInstances" then tmp.item "StartupInstances" else pure (.obj [])
  let resume ← (← snapshot.items).mapM out.archiveNode
  tmp.set "StartupInstances" (← instances.set "resume" (.arr resume))

/-- `MMySql.get_service_manifest`, which takes the id of the application before
the service and is not given one. -/
def mysqlManifest (_ : Service) : ManifestM μ Datum :=
  throw (Datum.typeError "get_service_manifest() takes exactly 3 arguments (2 given)")

end ManifestOutside

/-- The classes `get_manifest_class` knows. -/
inductive ManifestClass
  | php
  | java
  | mysql
  | xtreemfs
  | generic
  deriving DecidableEq, Repr

def getManifestClass (serviceType : Datum) : Except ManifestError ManifestClass :=
  if serviceType.isStr "php" then .ok .php
  else if serviceType.isStr "java" then .ok .java
  else if serviceType.isStr "mysql" then .ok .mysql
  else if serviceType.isStr "xtreemfs" then .ok .xtreemfs
  else if serviceType.isStr "generic" then .ok .generic
  else .error (.raised "Service type does not exists")

namespace ManifestOutside

variable {μ : Type} (out : ManifestOutside μ) (userId : Int)

/-- `get_manifest_class(service.type)().get_service_manifest(service)`. -/
def getServiceManifest (service : Service) : ManifestM μ Datum := do
  match ← getManifestClass (.str service.type) with
  | .php | .java => out.phpManifest userId service
  | .mysql => mysqlManifest service
  | .xtreemfs => out.xtreemfsManifest userId service
  | .generic => out.generalManifest userId service

/-- An application with an XtreemFS service is deleted once it is exported. -/
def downloadManifest (appId : Int) : ManifestM μ Datum := do
  match (← get).db.getAppById userId appId with
  | none => return errorResponse (.str ("The appid " ++ toString appId ++ " does not exist"))
  | some app =>
    let services := (← get).db.service.rows.filter fun service => service.applicationId = appId
    let entries ← services.mapM (out.getServiceManifest userId)
    if services.any fun service => service.type = "xtreemfs" then
      modify fun w =>
        match w.db.deleteApp userId appId true with
        | .ok (db, _) => { w with db }
        | .error _ => w
    return .obj [("Services", .arr entries), ("Application", .str app.name)]

/-- A call of the manager without the id of the application raises. -/
theorem callmanager_four (serviceId method post data : Datum) (files : List Upload) (w : ManifestWorld μ) :
    ∃ error, out.callmanager userId [serviceId, method, post, data] files w = .error error w := ⟨_, rfl⟩

theorem generalManifest_raises (service : Service) (w : ManifestWorld μ) :
    ∃ error, out.generalManifest userId service w = .error error w := by
  obtain ⟨error, raised⟩ := out.callmanager_four userId (.int service.sid) (.str "get_service_info") (.bool false) (.obj []) [] w
  exact ⟨error, Effect.bind_of_error (Effect.bind_of_error raised)⟩

theorem phpManifest_raises (service : Service) (w : ManifestWorld μ) :
    ∃ error, out.phpManifest userId service w = .error error w := by
  obtain ⟨error, raised⟩ := out.generalManifest_raises userId service w
  exact ⟨error, Effect.bind_of_error raised⟩

theorem xtreemfsManifest_raises (service : Service) (w : ManifestWorld μ) :
    ∃ error, out.xtreemfsManifest userId service w = .error error w := by
  obtain ⟨error, raised⟩ := out.generalManifest_raises userId service w
  exact ⟨error, Effect.bind_of_error raised⟩

/-- No service is ever exported. -/
theorem getServiceManifest_raises (service : Service) (w : ManifestWorld μ) :
    ∃ error, out.getServiceManifest userId service w = .error error w := by
  unfold getServiceManifest
  cases getManifestClass (.str service.type) with
  | error unknown => exact ⟨unknown, rfl⟩
  | ok own =>
    cases own with
    | mysql => exact ⟨_, rfl⟩
    | generic => exact out.generalManifest_raises userId service w
    | php | java => exact out.phpManifest_raises userId service w
    | xtreemfs => exact out.xtreemfsManifest_raises userId service w

end ManifestOutside

end ConPaaS
