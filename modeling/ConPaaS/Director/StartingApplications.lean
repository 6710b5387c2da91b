import ConPaaS.Director.Billing
import ConPaaS.Director.CreditExhaustion

namespace ConPaaS

open Keyed Transition

/-- What `Controller.create_nodes` returns for the manager of an application. -/
def Outside.createdNodes (outside : Outside) (appId : Int) (launch : Launch) : Except String (List ServiceNode) :=
  match launch.ready, (outside.deleteNodes (.newVmDestroyed (some appId)) (launch.failed.map ServiceNode.entry)).2 with
  | .ok nodes, .ok () => .ok nodes
  | .error error, _ => .error error
  | _, .error error => .error error

namespace Director

/-- `_startapp` before the nodes are created: the answer, if there is one
already, and the tables. `vpn` is the subnet found for the application. -/
def startApp (db : Database) (user : User) (appId : Int) (ignoreStatus : Bool) (vpn : Except String (Option String)) :
    Except String Unit × Database :=
  match db.getAppById user.uid appId with
  | none => (.error "Application not found", db)
  | some app =>
    if !ignoreStatus && app.status ∉ [.init, .stopped] then (.error "Application already started", db)
    else if user.credit ≤ 0 then (.error "Insufficient credits", db)
    else
      match vpn with
      | .error error => (.error ("Error upon application starting: " ++ error), db.withStatus appId .stopped)
      | .ok _ => (.ok (), db.withStatus appId .prologue)

/-- The end of `upload_manifest`, up to the creation of the nodes. -/
def uploadManifest (db : Database) (user : User) (appId : Int) (services : List String)
    (vpn : Except String (Option String)) : Except String Unit × Database :=
  match services, db.getAppById user.uid appId with
  | [], _ => (.error "Application not started", db)
  | _, none => (.error "AttributeError", db)
  | _, some _ => startApp (db.withStatus appId .prologue) user appId true vpn

/-- `start_manifest_app` from the creation of the nodes up to the first
service. An exception stops the application, but nothing is saved any more
after rows were refused. -/
def manifestCreated (outside : Outside) (now : Int) (db : Database) (userId appId : Int) (launch : Launch) :
    Database × Bool :=
  let reply := createManager outside now db userId appId true launch
  match outside.createdNodes appId launch, reply.response with
  | .error _, _ => (reply.db.withStatus appId .stopped, false)
  | .ok _, .crashed _ => (reply.db, false)
  | .ok _, _ =>
    match reply.db.getAppById userId appId with
    | none => (reply.db, false)
    | some _ => (reply.db.withStatus appId .adapting, true)

end Director

/-- A start of an application that goes on: in a background thread, or for a
manifest, with the services that are to follow. -/
inductive AppWork
  | starting
  | creating (services : List String)
  | adding (services : List String)
  deriving DecidableEq, Repr

/-- The director with the starts of one application that go on. -/
structure AppServer where
  db : Database
  inFlight : List AppWork

/-- What happens to the application: a request of its owner, the end of the
creation of its nodes, or the end of the start of a service of its manifest,
with the row of the service if there is one. -/
inductive AppEvent
  | startApp (vpn : Except String (Option String))
  | stopApp
  | deleteApp
  | uploadManifest (services : List String) (vpn : Except String (Option String))
  | created (position : Nat) (outside : Outside) (now : Int) (launch : Launch)
  | added (position : Nat) (row : Option Service) (answer : Except String Unit)

namespace AppServer

/-- A start is over. -/
def ended (s : AppServer) (position : Nat) (db : Database) : AppServer := ⟨db, s.inFlight.eraseIdx position⟩

/-- A request either goes on in the background or is answered. -/
def launched (s : AppServer) (work : AppWork) : Except String Unit × Database → AppServer
  | (.ok (), db) => ⟨db, s.inFlight ++ [work]⟩
  | (.error _, db) => { s with db }

/-- `stopapp` and `deleteapp`. -/
def removed (s : AppServer) (userId appId : Int) (delAppEntry : Bool) : AppServer :=
  match s.db.deleteApp userId appId delAppEntry with
  | .error _ => s
  | .ok (db, _) => { s with db }

/-- The tables with the row of a service. -/
def withService (db : Database) : Option Service → Database
  | none => db
  | some row => { db with service := db.service.put row }

/-- The loop over the services of a manifest: a service that does not start
ends it, and after the last one the application is running. -/
def afterService (s : AppServer) (appId : Int) (position : Nat) (row : Option Service) (answer : Except String Unit) :
    AppWork → Option AppServer
  | .adding (_ :: rest) =>
    match answer, rest with
    | .error _, _ => some (s.ended position (withService s.db row))
    | .ok (), [] => some (s.ended position ((withService s.db row).withStatus appId .running))
    | .ok (), rest => some ⟨withService s.db row, s.inFlight.set position (.adding rest)⟩
  | _ => none

/-- What a start does once its nodes are created, or not. -/
def afterCreation (s : AppServer) (userId appId : Int) (position : Nat) (outside : Outside) (now : Int)
    (launch : Launch) : AppWork → Option AppServer
  | .starting => some (s.ended position (Director.createManager outside now s.db userId appId false launch).db)
  | .creating services =>
    match Director.manifestCreated outside now s.db userId appId launch with
    | (db, true) => some ⟨db, s.inFlight.set position (.adding services)⟩
    | (db, false) => some (s.ended position db)
  | .adding _ => none

/-- A request or the next part of a start, for an application and its owner. -/
def handle (userId appId : Int) (s : AppServer) : AppEvent → Option AppServer
  | .startApp vpn => (s.db.user.get? userId).map fun user =>
    s.launched .starting (Director.startApp s.db user appId false vpn)
  | .stopApp => some (s.removed userId appId false)
  | .deleteApp => some (s.removed userId appId true)
  | .uploadManifest services vpn => (s.db.user.get? userId).map fun user =>
    s.launched (.creating services) (Director.uploadManifest s.db user appId services vpn)
  | .created position outside now launch =>
    (s.inFlight[position]?).bind (s.afterCreation userId appId position outside now launch)
  | .added position row answer => (s.inFlight[position]?).bind (s.afterService appId position row answer)

def Step (userId appId : Int) (before : AppServer) (event : AppEvent) (after : AppServer) : Prop :=
  before.handle userId appId event = some after

end AppServer

/-- Exactly one node comes of a start, and its row is accepted. -/
def Outside.Provides (outside : Outside) (now : Int) (db : Database) (appId : Int) (launch : Launch)
    (node : ServiceNode) : Prop :=
  outside.createdNodes appId launch = .ok [node] ∧ ¬ db.Refuses [managerResource now appId node]

/-- No row comes of a start. -/
def Outside.Bare (outside : Outside) (now : Int) (db : Database) (appId : Int) (launch : Launch) : Prop :=
  ∀ nodes, outside.createdNodes appId launch = .ok nodes →
    nodes = [] ∨ db.Refuses (nodes.map (managerResource now appId))

namespace Database

variable {db : Database} {now appId : Int} {app : Application}

/-- The rows of the managers of an application. -/
def managers (db : Database) (appId : Int) : Nat := (db.own appId).countP fun res => res.role = "manager"

theorem getAppById_of_get? (found : db.application.get? appId = some app) : db.getAppById app.userId appId = some app :=
  Option.filter_eq_some_iff.mpr ⟨found, by simp⟩

theorem own_eq {userId : Int} (owner : db.owns userId appId = true) :
    db.own appId = (db.resourcesOf userId).filter fun res => res.appId = some appId := by
  rw [own, resourcesOf, List.filter_filter]
  refine List.filter_congr fun res _ => ?_
  by_cases here : res.appId = some appId
  · have paid : db.pays userId res = true := pays_iff.mpr ⟨appId, here, owner⟩
    simp [here, paid]
  · simp [here]

theorem owns_of_get? (found : db.application.get? appId = some app) : db.owns app.userId appId = true :=
  getAppById_iff.mp (by rw [getAppById_of_get? found]; rfl)

/-- A charge leaves everything else of a row as it was. -/
theorem chargeResources_strip (now : Int) (rows : List Resource) (toCharge : Int) :
    (chargeResources now rows toCharge).1.map Resource.strip = rows.map Resource.strip := by
  have rewritten := chargeResources_rows now rows toCharge
  generalize (chargeResources now rows toCharge).1 = charged at rewritten
  induction rewritten with
  | nil => rfl
  | cons same _ ih =>
    rw [List.map_cons, List.map_cons, ih]
    congr 1
    rw [same]
    rfl

theorem filter_strip (rows : List Resource) (appId : Int) :
    (rows.filter fun res => res.appId = some appId).map Resource.strip =
      (rows.map Resource.strip).filter fun res => res.appId = some appId := by
  rw [List.filter_map]
  rfl

theorem managers_strip {other : Database} (same : (db.own appId).map Resource.strip = (other.own appId).map Resource.strip) :
    db.managers appId = other.managers appId := by
  have counted (rows : List Resource) : (rows.map Resource.strip).countP (fun res => res.role = "manager") =
      rows.countP fun res => res.role = "manager" := by
    rw [List.countP_map]
    rfl
  rw [managers, managers, ← counted (db.own appId), same, counted]

/-- A check of the credits stops an application with all its rows, or leaves it
alone but for the charges. -/
theorem checkCredits_application (found : db.application.get? appId = some app) {user : User} (member : user ∈ db.user.rows)
    (owner : user.uid = app.userId) :
    if db.chargeOf now user.uid = user.credit then
      (db.checkCredits now).1.application.get? appId = some app.stop ∧ (db.checkCredits now).1.own appId = []
    else
      (db.checkCredits now).1.application.get? appId = some app ∧
        ((db.checkCredits now).1.own appId).map Resource.strip = (db.own appId).map Resource.strip := by
  have owns : db.owns user.uid appId = true := by rw [owner]; exact owns_of_get? found
  have rows := checkCredits_applications now member
  have resources := (checkCredits_user now member).2
  have stored : app ∈ db.applicationRows user.uid := mem_applicationRows.mpr ⟨Table.get?_mem found, owner.symm⟩
  have own := @own_eq (db.checkCredits now).1 appId user.uid ((checkCredits_owns now db user.uid appId).trans owns)
  rw [resources, User.rowsAfter, creditAfter_charge] at own
  obtain rfl : app.aid = appId := Table.get?_key found
  split
  · rename_i spent
    rw [if_pos spent] at rows
    rw [if_pos (by omega)] at own
    refine ⟨Table.get?_of_mem (a := app.stop) ?_, own⟩
    exact (mem_applicationRows.mp (rows ▸ List.mem_map_of_mem stored)).1
  · rename_i left
    rw [if_neg left] at rows
    rw [if_neg (by omega)] at own
    refine ⟨Table.get?_of_mem (mem_applicationRows.mp (rows ▸ stored)).1, ?_⟩
    rw [own, own_eq owns, filter_strip, filter_strip, chargeResources_strip]

/-- A check of the credits brings no application back. -/
theorem checkCredits_absent (absent : db.application.get? appId = none) :
    (db.checkCredits now).1.application.get? appId = none := by
  cases found : (db.checkCredits now).1.application.get? appId with
  | none => rfl
  | some app =>
    have owns := owns_of_get? found
    rw [checkCredits_owns] at owns
    obtain ⟨stored, inside, same, _⟩ := owns_iff.mp owns
    exact absurd same (Table.get?_none_iff.mp absent stored inside)

/-- The row of its manager is the only one of an application that had none. -/
theorem managers_added {next : Database} {added : List Resource} {node : ServiceNode}
    (ok : db.addResources [managerResource now appId node] = .ok (next, added)) (none : db.own appId = []) :
    next.managers appId = 1 := by
  obtain ⟨-, rfl, -, rows⟩ := addResources_ok ok
  have only : next.own appId = [{ managerResource now appId node with rid := nextRid db.resource.rows }] := by
    rw [own, rows, List.filter_append]
    change db.own appId ++ _ = _
    rw [none]
    simp [numbered, managerResource]
  rw [managers, only]
  rfl

theorem withStatus_get? (db : Database) (appId : Int) (status : ApplicationStatus) :
    (db.withStatus appId status).application.get? appId =
      (db.application.get? appId).map fun app => { app with status } :=
  Table.get?_modify db.application appId (fun app => { app with status }) fun _ => rfl

theorem withoutApp_get? (db : Database) (appId : Int) (delAppEntry : Bool) :
    (db.withoutApp appId delAppEntry).application.get? appId =
      if delAppEntry then none else (db.application.get? appId).map Application.stop := by
  unfold withoutApp
  cases delAppEntry with
  | true => exact Table.get?_erase_self db.application appId
  | false => exact Table.get?_modify db.application appId (fun app => { app with status := .stopped }) fun _ => rfl

theorem withoutApp_own (db : Database) (appId : Int) (delAppEntry : Bool) : (db.withoutApp appId delAppEntry).own appId = [] := by
  refine List.filter_eq_nil_iff.mpr fun res member => ?_
  simpa using (List.mem_filter.mp member).2

end Database

namespace Director

open Database

variable {outside : Outside} {now userId appId : Int} {db : Database} {launch : Launch} {ignoreStatus : Bool}

theorem asStarted_refuses (db : Database) (appId : Int) (ignoreStatus : Bool) (rows : List Resource) :
    (db.asStarted appId ignoreStatus).Refuses rows ↔ db.Refuses rows := by
  unfold asStarted
  cases ignoreStatus <;> rfl

/-- A start that provides a node leaves its row, up to a check of the credits. -/
theorem createManager_provided (userId : Int) (ignoreStatus : Bool) {node : ServiceNode} (provides : outside.Provides now db appId launch node)
    (known : ignoreStatus = false → (db.getAppById userId appId).isSome = true) :
    ∃ next added, (db.asStarted appId ignoreStatus).addResources [managerResource now appId node] = .ok (next, added) ∧
      (createManager outside now db userId appId ignoreStatus launch).response = .nodes [node] ∧
      (createManager outside now db userId appId ignoreStatus launch).db = (next.checkCredits now).1 := by
  obtain ⟨created, accepted⟩ := provides
  obtain ⟨next, added, ok⟩ := addResources_accepts (mt (asStarted_refuses db appId ignoreStatus _).mp accepted)
  refine ⟨next, added, ok, ?_⟩
  unfold Outside.createdNodes at created
  split at created
  · rename_i nodes ready deleted
    cases created
    have found : ¬ ((!ignoreStatus && (db.getAppById userId appId).isNone) = true) := by
      cases ignoreStatus with
      | true => simp
      | false => simpa [Option.isSome_iff_ne_none] using known rfl
    simp only [createManager, ready, deleted, if_neg found, Outside.enroll, List.map_cons, List.map_nil, ok]
    rw [if_neg (by simpa using accepted)]
    exact ⟨rfl, rfl⟩
  · cases created
  · cases created

/-- A start without rows changes nothing. -/
theorem createManager_bare (bare : outside.Bare now db appId launch) :
    (createManager outside now db userId appId ignoreStatus launch).db = db := by
  unfold Outside.Bare Outside.createdNodes at bare
  unfold createManager
  simp only
  split
  · rename_i nodes ready deleted
    simp only [ready, deleted] at bare
    split
    · rfl
    · rw [if_pos (bare nodes rfl)]
      unfold Outside.enroll
      split
      · rfl
      · rename_i some
        rw [addResources, if_pos ((bare nodes rfl).resolve_left some)]
  · rfl
  · rfl

theorem createManager_refused (now userId : Int) {nodes : List ServiceNode} (created : outside.createdNodes appId launch = .ok nodes)
    (some : nodes ≠ []) (refused : db.Refuses (nodes.map (managerResource now appId))) :
    ∃ error, (createManager outside now db userId appId true launch).response = .crashed error := by
  unfold Outside.createdNodes at created
  split at created
  · rename_i ready deleted
    cases created
    refine ⟨"IntegrityError", ?_⟩
    simp only [createManager, ready, deleted, Bool.not_true, Bool.false_and, Bool.false_eq_true, if_false,
      if_pos (Or.inr refused), Outside.enroll, if_neg some, addResources, if_pos refused]
  · cases created
  · cases created

/-- A start brings no application back. -/
theorem createManager_absent (outside : Outside) (now userId : Int) (launch : Launch) (ignoreStatus : Bool) (absent : db.application.get? appId = none) :
    (createManager outside now db userId appId ignoreStatus launch).db.application.get? appId = none := by
  rcases createManager_cases outside now db userId appId ignoreStatus launch with quiet | ⟨nodes, next, _, enrolled⟩
  · rwa [quiet.db]
  · obtain ⟨added, ok⟩ := enrolled.added
    obtain ⟨-, -, same, -⟩ := addResources_ok ok
    rw [enrolled.db]
    refine checkCredits_absent ?_
    rw [same]
    unfold asStarted
    cases ignoreStatus with
    | true => exact absent
    | false => exact (withStatus_get? db appId .running).trans (by rw [absent]; rfl)

theorem createManager_users (outside : Outside) (now : Int) (db : Database) (userId appId : Int) (ignoreStatus : Bool)
    (launch : Launch) : (createManager outside now db userId appId ignoreStatus launch).db.user.rows.map User.uid =
      db.user.rows.map User.uid := by
  rcases createManager_cases outside now db userId appId ignoreStatus launch with quiet | ⟨nodes, next, _, enrolled⟩
  · rw [quiet.db]
  · obtain ⟨added, ok⟩ := enrolled.added
    obtain ⟨-, -, same, -⟩ := addResources_ok ok
    rw [enrolled.db, checkCredits_userIds, same]
    unfold asStarted
    cases ignoreStatus <;> rfl

/-- What a start that is accepted needs, and what it writes. -/
theorem startApp_cases (db : Database) (user : User) (appId : Int) (ignoreStatus : Bool)
    (vpn : Except String (Option String)) :
    ((∃ error, startApp db user appId ignoreStatus vpn = (.error error, db)) ∧
        (db.getAppById user.uid appId = none ∨ ignoreStatus = false ∨ user.credit ≤ 0)) ∨
      ∃ app, db.getAppById user.uid appId = some app ∧
        (ignoreStatus = true ∨ app.status = .stopped ∨ app.status = .init) ∧
        ((∃ error, startApp db user appId ignoreStatus vpn = (.error error, db.withStatus appId .stopped)) ∨
          startApp db user appId ignoreStatus vpn = (.ok (), db.withStatus appId .prologue)) := by
  unfold startApp
  split
  · rename_i unknown
    exact Or.inl ⟨⟨_, rfl⟩, Or.inl unknown⟩
  · rename_i app found
    split
    · rename_i started
      exact Or.inl ⟨⟨_, rfl⟩, Or.inr (Or.inl (by simpa using (Bool.and_eq_true_iff.mp started).1))⟩
    · rename_i asked
      have resting : ignoreStatus = true ∨ app.status = .stopped ∨ app.status = .init := by
        by_cases ignored : ignoreStatus = true
        · exact Or.inl ignored
        · exact Or.inr (or_iff_not_imp_right.mpr (by simpa [ignored] using asked))
      split
      · rename_i spent
        exact Or.inl ⟨⟨_, rfl⟩, Or.inr (Or.inr spent)⟩
      · split
        · exact Or.inr ⟨app, found, resting, Or.inl ⟨_, rfl⟩⟩
        · exact Or.inr ⟨app, found, resting, Or.inr rfl⟩

end Director

end ConPaaS
