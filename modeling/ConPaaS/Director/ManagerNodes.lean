import ConPaaS.Director.Cloud

namespace ConPaaS

open Keyed

/-- The tables once the status of an application is set. -/
def Database.withStatus (db : Database) (appId : Int) (status : ApplicationStatus) : Database :=
  { db with application := db.application.modify appId fun app => { app with status } }

/-- The row of the machine of an application manager. -/
def managerResource (now appId : Int) (node : ServiceNode) : Resource where
  rid := 0
  vmid := node.vmid
  appId := some appId
  serviceId := some 0
  charged := 0
  ip := node.ip
  role := "manager"
  cloud := node.cloudName
  created := now

/-- The end of `_create_nodes`: rows for the new machines, and a check of the
credits of all users. -/
def Outside.enroll (outside : Outside) (now : Int) (db : Database) (rows : List Resource) (nodes : List ServiceNode) :
    Reply :=
  if nodes = [] then ⟨.nodes [], db, []⟩
  else
    match db.addResources rows with
    | .error error => ⟨.crashed error, db, []⟩
    | .ok (db, added) =>
      let checked := (db.checkCredits now).1
      let removed := db.resource.rows.filter fun res => (checked.resource.get? res.rid).isNone
      ⟨.nodes nodes, checked, added.map .rowCreated ++ removed.map .rowDeleted ++ outside.killRemoved removed⟩

/-- The rows of the machines of managers are written like those of agents. -/
theorem Outside.register_eq_enroll (outside : Outside) (now : Int) (db : Database) (order : AgentOrder)
    (nodes : List ServiceNode) :
    outside.register now db order nodes = outside.enroll now db (nodes.map (outside.newResource now order)) nodes := rfl

/-- `_create_nodes` sets an application running once its manager has started,
unless it is told to leave the status alone. -/
def Database.asStarted (db : Database) (appId : Int) (ignoreStatus : Bool) : Database :=
  if ignoreStatus then db else db.withStatus appId .running

/-- `_create_nodes` for the manager of an application, from the deletion of the
machines that did not start. The new status is saved together with the new
rows, and not at all when there are none. -/
def Director.createManager (outside : Outside) (now : Int) (db : Database) (userId appId : Int) (ignoreStatus : Bool)
    (launch : Launch) : Reply :=
  let deleted := outside.deleteNodes (.newVmDestroyed (some appId)) (launch.failed.map ServiceNode.entry)
  let acts := launch.volumes.map (.newVolume (some appId)) ++ deleted.1
  match launch.ready, deleted.2 with
  | .ok nodes, .ok () =>
    if !ignoreStatus && (db.getAppById userId appId).isNone then ⟨.crashed "AttributeError", db, acts⟩
    else if nodes = [] ∨ db.Refuses (nodes.map (managerResource now appId)) then
      { outside.enroll now db (nodes.map (managerResource now appId)) nodes with acts }
    else
      let reply := outside.enroll now (db.asStarted appId ignoreStatus) (nodes.map (managerResource now appId)) nodes
      { reply with acts := acts ++ reply.acts }
  | .error error, _ => ⟨.crashed error, db, acts⟩
  | _, .error error => ⟨.crashed error, db, acts⟩

end ConPaaS
