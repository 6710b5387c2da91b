import ConPaaS.Director.Authentication
import Mathlib.Data.List.Sort

namespace ConPaaS

open Keyed

/-- `Application.to_dict`. -/
structure ApplicationDict where
  aid : Int
  name : String
  uid : Int
  status : ApplicationStatus
  manager : Option String
  vmid : Option String
  cloud : Option String
  deriving DecidableEq, Repr

/-- `Service.to_dict`: the columns of a service, with its application. -/
structure ServiceDict where
  service : Service
  application : ApplicationDict
  deriving DecidableEq, Repr

/-- The operations that list applications and services or look one up. -/
inductive Lookup
  | listApplications
  | listAllServices
  | listServices (appId : Int)
  | getAppById (appId : Int)
  | getAppByName (appName : String)
  | getDefaultApp
  | checkAppExists (appName : String)
  | getService (appId serviceId : Int)
  deriving DecidableEq, Repr

inductive LookupResult
  | applications (dicts : List ApplicationDict)
  | services (dicts : List ServiceDict)
  | application (app : Option Application)
  | service (service : Option Service)
  | known (taken : Bool)
  | crashed (error : String)
  deriving DecidableEq, Repr

namespace Database

/-- The relation `Application.manager`: the row of the manager's machine. -/
def manager (db : Database) (aid : Int) : Option Resource :=
  db.resource.rows.find? fun res => res.appId = some aid && res.role = "manager"

def applicationDict (db : Database) (app : Application) : ApplicationDict where
  aid := app.aid
  name := app.name
  uid := app.userId
  status := app.status
  manager := (db.manager app.aid).map Resource.ip
  vmid := (db.manager app.aid).map Resource.vmid
  cloud := (db.manager app.aid).map Resource.cloud

/-- There is no dictionary for a service whose application is gone. -/
def serviceDict (db : Database) (service : Service) : Option ServiceDict :=
  (db.application.get? service.applicationId).map fun app => ⟨service, db.applicationDict app⟩

def serviceDicts (db : Database) (services : List Service) : LookupResult :=
  match services.mapM db.serviceDict with
  | some dicts => .services dicts
  | none => .crashed "AttributeError"

/-- `Service.query.join(Application).filter_by(user_id=...)`. -/
def servicesOf (db : Database) (userId : Int) : List Service :=
  db.service.rows.filter fun service => db.owns userId service.applicationId

/-- The first application of a name, of any user, is found only by its owner. -/
def getAppByName (db : Database) (userId : Int) (appName : String) : Option Application :=
  (db.application.rows.find? fun app => app.name = appName).filter fun app => app.userId = userId

def getDefaultApp (db : Database) (userId : Int) : Option Application :=
  ((db.applicationRows userId).mergeSort fun app other => app.aid ≤ other.aid).head?

def checkAppExists (db : Database) (userId : Int) (appName : String) : Bool :=
  db.application.rows.any fun app => app.name = appName && app.userId = userId

/-- `get_service` looks at the owner of the application of the service. -/
def getService (db : Database) (userId appId serviceId : Int) : LookupResult :=
  match db.service.rows.find? fun service => service.sid = serviceId && service.applicationId = appId with
  | none => .service none
  | some service =>
    match db.application.get? service.applicationId with
    | none => .crashed "AttributeError"
    | some app => .service (if app.userId = userId then some service else none)

/-- `list_services` lists the services of an application without a look at
its owner. -/
def listServices (db : Database) (appId : Int) : LookupResult :=
  db.serviceDicts (db.service.rows.filter fun service => service.applicationId = appId)

def lookup (db : Database) (userId : Int) : Lookup → LookupResult
  | .listApplications => .applications ((db.applicationRows userId).map db.applicationDict)
  | .listAllServices => db.serviceDicts (db.servicesOf userId)
  | .listServices appId => db.listServices appId
  | .getAppById appId => .application (db.getAppById userId appId)
  | .getAppByName appName => .application (db.getAppByName userId appName)
  | .getDefaultApp => .application (db.getDefaultApp userId)
  | .checkAppExists appName => .known (db.checkAppExists userId appName)
  | .getService appId serviceId => db.getService userId appId serviceId

/-- A lookup behind `cert_required(role='user')`. -/
def respondLookup (db : Database) (cert : Certificate) (request : Lookup) : Except Denial LookupResult :=
  (certUser db cert).map fun user => db.lookup user.uid request

/-- Two databases agree on a user: on the row of the user, the applications,
and the services and machines of these. -/
structure SameTenant (userId : Int) (db other : Database) : Prop where
  user : other.user.get? userId = db.user.get? userId
  application : other.applicationRows userId = db.applicationRows userId
  service : other.servicesOf userId = db.servicesOf userId
  resource : other.resourcesOf userId = db.resourcesOf userId

/-- A service under a number in an application. -/
def Holds (db : Database) (appId serviceId : Int) : Prop :=
  ∃ service ∈ db.service.rows, service.sid = serviceId ∧ service.applicationId = appId

/-- An application with services. -/
def Serves (db : Database) (appId : Int) : Prop := ∃ service ∈ db.service.rows, service.applicationId = appId

end Database

/-- Everything in a result is about applications of a user. -/
def LookupResult.About (db : Database) (userId : Int) : LookupResult → Prop
  | .applications dicts => ∀ dict ∈ dicts, ∃ app ∈ db.applicationRows userId, dict = db.applicationDict app
  | .services dicts => ∀ dict ∈ dicts, dict.service ∈ db.servicesOf userId ∧
      ∃ app ∈ db.applicationRows userId, app.aid = dict.service.applicationId ∧ dict.application = db.applicationDict app
  | .application app => ∀ row ∈ app, row ∈ db.applicationRows userId
  | .service found => ∀ row ∈ found, row ∈ db.servicesOf userId
  | .known _ => True
  | .crashed _ => True

theorem mapM_total {α β : Type} {f : α → Option β} {l : List α} (total : ∀ a ∈ l, (f a).isSome = true) :
    l.mapM f = some (l.filterMap f) := by
  induction l with
  | nil => rfl
  | cons a rest ih =>
    obtain ⟨b, value⟩ := Option.isSome_iff_exists.mp (total a (List.mem_cons_self ..))
    rw [List.mapM_cons, value, ih fun c member => total c (List.mem_cons_of_mem _ member),
      List.filterMap_cons_some value]
    rfl

theorem mapM_stuck {α β : Type} {f : α → Option β} {l : List α} {a : α} (member : a ∈ l) (stuck : f a = none) :
    l.mapM f = none := by
  induction l with
  | nil => cases member
  | cons b rest ih =>
    rw [List.mapM_cons]
    rcases List.mem_cons.mp member with rfl | later
    · rw [stuck]
      rfl
    · cases f b with
      | none => rfl
      | some _ =>
        rw [ih later]
        rfl

theorem find?_of_filter {α : Type} {l : List α} {mine p : α → Bool} {a : α} (found : l.find? p = some a)
    (own : mine a = true) : (l.filter mine).find? p = some a := by
  obtain ⟨holds, before, after, rfl, none⟩ := List.find?_eq_some_iff_append.mp found
  rw [List.filter_append, List.filter_cons_of_pos own]
  refine List.find?_eq_some_iff_append.mpr ⟨holds, _, _, rfl, ?_⟩
  intro b member
  exact none b (List.mem_filter.mp member).1

theorem find?_filter_of_imp {α : Type} {l : List α} {mine p : α → Bool} (own : ∀ a ∈ l, p a = true → mine a = true) :
    (l.filter mine).find? p = l.find? p := by
  cases found : l.find? p with
  | none =>
    refine List.find?_eq_none.mpr fun a member => ?_
    exact List.find?_eq_none.mp found a (List.mem_filter.mp member).1
  | some a => exact find?_of_filter found (own a (List.mem_of_find?_eq_some found) (List.find?_some found))

namespace Database

variable {db other : Database} {userId : Int}

theorem owns_iff_applicationRows {appId : Int} :
    db.owns userId appId = true ↔ ∃ app ∈ db.applicationRows userId, app.aid = appId := by
  rw [owns_iff]
  constructor
  · rintro ⟨app, stored, id, owner⟩
    exact ⟨app, mem_applicationRows.mpr ⟨stored, owner⟩, id⟩
  · rintro ⟨app, member, id⟩
    obtain ⟨stored, owner⟩ := mem_applicationRows.mp member
    exact ⟨app, stored, id, owner⟩

theorem get?_applicationRows {app : Application} (member : app ∈ db.applicationRows userId) :
    db.application.get? app.aid = some app := Table.get?_of_mem (mem_applicationRows.mp member).1

theorem mem_servicesOf {service : Service} :
    service ∈ db.servicesOf userId ↔ service ∈ db.service.rows ∧ db.owns userId service.applicationId = true :=
  List.mem_filter

namespace SameTenant

theorem owns (same : SameTenant userId db other) (appId : Int) : other.owns userId appId = db.owns userId appId := by
  rw [Bool.eq_iff_iff, owns_iff_applicationRows, owns_iff_applicationRows, same.application]

theorem manager (same : SameTenant userId db other) {aid : Int} (owner : db.owns userId aid = true) : other.manager aid = db.manager aid := by
  have mine (tables : Database) (owner : tables.owns userId aid = true) : tables.manager aid =
      (tables.resourcesOf userId).find? fun res => res.appId = some aid && res.role = "manager" := by
    refine (find?_filter_of_imp fun res _ managing => ?_).symm
    have named : res.appId = some aid := by simpa using (Bool.and_eq_true_iff.mp managing).1
    exact pays_iff.mpr ⟨aid, named, owner⟩
  rw [mine db owner, mine other ((same.owns aid).trans owner), same.resource]

theorem applicationDict (same : SameTenant userId db other) {app : Application} (member : app ∈ db.applicationRows userId) :
    other.applicationDict app = db.applicationDict app := by
  simp only [Database.applicationDict, same.manager (owns_iff_applicationRows.mpr ⟨app, member, rfl⟩)]

end SameTenant

/-- The services of a user's applications can all be shown. -/
theorem serviceDicts_own {services : List Service} (own : ∀ service ∈ services, service ∈ db.servicesOf userId) :
    db.serviceDicts services = .services (services.filterMap db.serviceDict) := by
  have total : services.mapM db.serviceDict = some (services.filterMap db.serviceDict) := by
    refine mapM_total fun service member => ?_
    obtain ⟨app, mine, id⟩ := owns_iff_applicationRows.mp (mem_servicesOf.mp (own service member)).2
    simp only [serviceDict, ← id, get?_applicationRows mine, Option.map_some, Option.isSome_some]
  simp only [serviceDicts, total]

theorem serviceDicts_about {services : List Service} (own : ∀ service ∈ services, service ∈ db.servicesOf userId) :
    (db.serviceDicts services).About db userId := by
  rw [serviceDicts_own own]
  intro dict member
  obtain ⟨service, inside, shown⟩ := List.mem_filterMap.mp member
  obtain ⟨app, mine, id⟩ := owns_iff_applicationRows.mp (mem_servicesOf.mp (own service inside)).2
  simp only [serviceDict, ← id, get?_applicationRows mine, Option.map_some, Option.some.injEq] at shown
  subst shown
  exact ⟨own service inside, app, mine, id, rfl⟩

theorem SameTenant.serviceDicts (same : SameTenant userId db other) {services : List Service}
    (own : ∀ service ∈ services, service ∈ db.servicesOf userId) :
    other.serviceDicts services = db.serviceDicts services := by
  have there : ∀ service ∈ services, service ∈ other.servicesOf userId := by rwa [same.service]
  rw [serviceDicts_own own, serviceDicts_own there]
  congr 1
  refine List.filterMap_congr fun service member => ?_
  obtain ⟨app, mine, id⟩ := owns_iff_applicationRows.mp (mem_servicesOf.mp (own service member)).2
  have there : app ∈ other.applicationRows userId := by rwa [same.application]
  simp only [serviceDict, ← id, get?_applicationRows mine, get?_applicationRows there, Option.map_some,
    same.applicationDict mine]

end Database

namespace Database

variable {db other : Database} {userId : Int}

theorem listServices_none {appId : Int} (none : ¬ db.Serves appId) : db.listServices appId = .services [] := by
  have empty : db.service.rows.filter (fun service => service.applicationId = appId) = [] := by
    refine List.filter_eq_nil_iff.mpr fun service member here => ?_
    exact none ⟨service, member, of_decide_eq_true here⟩
  rw [listServices, empty]
  rfl

/-- The services of an application that is gone cannot be listed. -/
theorem listServices_stray {appId : Int} (serves : db.Serves appId) (gone : db.application.get? appId = none) :
    db.listServices appId = .crashed "AttributeError" := by
  obtain ⟨service, member, here⟩ := serves
  have inside : service ∈ db.service.rows.filter fun service => service.applicationId = appId :=
    List.mem_filter.mpr ⟨member, decide_eq_true here⟩
  have stuck := mapM_stuck (f := db.serviceDict) inside (by simp only [serviceDict, here, gone, Option.map_none])
  simp only [listServices, serviceDicts, stuck]

/-- Whoever asks, the services of an application are listed with it. -/
theorem listServices_shown {appId : Int} (serves : db.Serves appId) {app : Application}
    (stored : db.application.get? appId = some app) :
    ∃ dicts dict, db.listServices appId = .services dicts ∧ dict ∈ dicts ∧ dict.service.applicationId = appId := by
  obtain ⟨service, member, here⟩ := serves
  have total : ∀ row ∈ db.service.rows.filter (fun service => service.applicationId = appId),
      (db.serviceDict row).isSome = true := by
    intro row inside
    have there : row.applicationId = appId := of_decide_eq_true (List.mem_filter.mp inside).2
    simp only [serviceDict, there, stored, Option.map_some, Option.isSome_some]
  have listed : db.listServices appId = .services
      ((db.service.rows.filter fun service => service.applicationId = appId).filterMap db.serviceDict) := by
    simp only [listServices, serviceDicts, mapM_total total]
  refine ⟨_, ⟨service, db.applicationDict app⟩, listed, List.mem_filterMap.mpr ⟨service, ?_, ?_⟩, here⟩
  · exact List.mem_filter.mpr ⟨member, decide_eq_true here⟩
  · simp only [serviceDict, here, stored, Option.map_some]

theorem listServices_own {appId : Int} (owner : db.owns userId appId = true) :
    db.listServices appId =
      db.serviceDicts ((db.servicesOf userId).filter fun service => service.applicationId = appId) := by
  rw [listServices, servicesOf, List.filter_filter]
  congr 1
  refine List.filter_congr fun service _ => ?_
  by_cases here : service.applicationId = appId
  · simp [here, owner]
  · simp [here]

theorem service_found {appId serviceId : Int} {service : Service}
    (found : db.service.rows.find? (fun service => service.sid = serviceId && service.applicationId = appId) = some service) :
    service ∈ db.service.rows ∧ service.sid = serviceId ∧ service.applicationId = appId := by
  have holds := List.find?_some found
  simp only [Bool.and_eq_true, decide_eq_true_eq] at holds
  exact ⟨List.mem_of_find?_eq_some found, holds⟩

theorem getService_own {appId serviceId : Int} (owner : db.owns userId appId = true) :
    db.getService userId appId serviceId = .service ((db.servicesOf userId).find? fun service =>
      service.sid = serviceId && service.applicationId = appId) := by
  have mine : ∀ service ∈ db.service.rows, (decide (service.sid = serviceId) && decide (service.applicationId = appId)) = true →
      db.owns userId service.applicationId = true := by
    intro service _ holds
    have here : service.applicationId = appId := by simpa using (Bool.and_eq_true_iff.mp holds).2
    rwa [here]
  rw [servicesOf, find?_filter_of_imp mine, getService]
  split
  · rename_i absent
    rw [absent]
  · rename_i service found
    rw [found]
    obtain ⟨_, _, here⟩ := service_found found
    obtain ⟨app, own, id⟩ := owns_iff_applicationRows.mp owner
    simp only [here, ← id, get?_applicationRows own, (mem_applicationRows.mp own).2, if_true]

theorem getService_stray {appId serviceId : Int} (holds : db.Holds appId serviceId)
    (gone : db.application.get? appId = none) : db.getService userId appId serviceId = .crashed "AttributeError" := by
  obtain ⟨service, member, number, here⟩ := holds
  cases found : db.service.rows.find? fun service => service.sid = serviceId && service.applicationId = appId with
  | none => simpa [number, here] using List.find?_eq_none.mp found service member
  | some first =>
    simp only [getService, found, (service_found found).2.2, gone]

/-- A service of an application of another user is not found. -/
theorem getService_foreign {appId serviceId : Int} (foreign : ¬ db.owns userId appId = true)
    (kept : ¬ (db.Holds appId serviceId ∧ db.application.get? appId = none)) :
    db.getService userId appId serviceId = .service none := by
  cases found : db.service.rows.find? fun service => service.sid = serviceId && service.applicationId = appId with
  | none => simp only [getService, found]
  | some first =>
    have holds := service_found found
    cases stored : db.application.get? appId with
    | none => exact absurd ⟨⟨first, holds⟩, stored⟩ kept
    | some app =>
      have owner : app.userId ≠ userId := by
        intro mine
        exact foreign (owns_iff.mpr ⟨app, Table.get?_mem stored, Table.get?_key stored, mine⟩)
      simp only [getService, found, holds.2.2, stored, owner, if_false]

theorem getAppByName_some {appName : String} {app : Application} :
    db.getAppByName userId appName = some app ↔
      db.application.rows.find? (fun app => app.name = appName) = some app ∧ app.userId = userId := by
  simp [getAppByName, Option.filter_eq_some_iff]

end Database

/-- A lookup keeps users apart. Over databases that agree on the user it gives
one result, with rows of the user only, and an application of the user is found
by its name. -/
structure Private (cert : Certificate) (user : User) (db other : Database) (request : Lookup) : Prop where
  same : other.respondLookup cert request = db.respondLookup cert request
  own : ∃ result, db.respondLookup cert request = .ok result ∧ result.About db user.uid
  named : ∀ appName, request = .getAppByName appName →
    ∀ app ∈ db.applicationRows user.uid, app.name = appName →
      ∃ row ∈ db.applicationRows user.uid, row.name = appName ∧
        db.respondLookup cert request = .ok (.application (some row))

/-- When a lookup keeps a user apart from the others. Services are listed for
an application of the user, or for one without services. A name is one no
application of the user has, or the first application of the name is the
user's. Services left behind by an application that is gone make both
databases crash, or none. -/
def KeptApart (user : User) (db other : Database) : Lookup → Prop
  | .listServices appId => db.owns user.uid appId = true ∨ ¬ db.Serves appId ∧ ¬ other.Serves appId ∨
      (db.Serves appId ∧ db.application.get? appId = none) ∧ other.Serves appId ∧ other.application.get? appId = none
  | .getService appId serviceId => db.owns user.uid appId = true ∨
      (db.Holds appId serviceId ∧ db.application.get? appId = none ↔
        other.Holds appId serviceId ∧ other.application.get? appId = none)
  | .getAppByName appName => (∀ app ∈ db.applicationRows user.uid, app.name ≠ appName) ∨
      ∀ tables ∈ [db, other], ∃ first, tables.application.rows.find? (fun app => app.name = appName) = some first ∧
        first.userId = user.uid
  | _ => True

namespace Database

variable {db other : Database} {user : User}

/-- Services are listed for the user alone exactly for an application of the
user, or where the other applications have none to list. -/
theorem listServices_apart {appId : Int} (same : SameTenant user.uid db other) :
    other.listServices appId = db.listServices appId ∧ (db.listServices appId).About db user.uid ↔
      KeptApart user db other (.listServices appId) := by
  constructor
  · rintro ⟨equal, own⟩
    by_cases owner : db.owns user.uid appId = true
    · exact Or.inl owner
    by_cases serves : db.Serves appId
    · cases stored : db.application.get? appId with
      | some app =>
        obtain ⟨dicts, dict, listed, member, here⟩ := listServices_shown serves stored
        rw [listed] at own
        exact absurd (here ▸ (mem_servicesOf.mp (own dict member).1).2) owner
      | none =>
        rw [listServices_stray serves stored] at equal
        refine Or.inr (Or.inr ⟨⟨serves, stored⟩, ?_⟩)
        by_cases serves' : other.Serves appId
        · cases stored' : other.application.get? appId with
          | none => exact ⟨serves', rfl⟩
          | some app =>
            obtain ⟨dicts, dict, listed, -⟩ := listServices_shown serves' stored'
            rw [listed] at equal
            cases equal
        · rw [listServices_none serves'] at equal
          cases equal
    · rw [listServices_none serves] at equal
      refine Or.inr (Or.inl ⟨serves, fun serves' => ?_⟩)
      cases stored' : other.application.get? appId with
      | none =>
        rw [listServices_stray serves' stored'] at equal
        cases equal
      | some app =>
        obtain ⟨dicts, dict, listed, member, -⟩ := listServices_shown serves' stored'
        rw [listed] at equal
        cases equal
        cases member
  · rintro (owner | ⟨none, none'⟩ | ⟨⟨serves, gone⟩, serves', gone'⟩)
    · have own : ∀ service ∈ (db.servicesOf user.uid).filter (fun service => service.applicationId = appId),
          service ∈ db.servicesOf user.uid := fun service member => (List.mem_filter.mp member).1
      rw [listServices_own owner, listServices_own ((same.owns appId).trans owner), same.service]
      exact ⟨same.serviceDicts own, serviceDicts_about own⟩
    · rw [listServices_none none, listServices_none none']
      exact ⟨rfl, fun dict member => by cases member⟩
    · rw [listServices_stray serves gone, listServices_stray serves' gone']
      exact ⟨rfl, trivial⟩

theorem getService_apart {appId serviceId : Int} (same : SameTenant user.uid db other) :
    other.getService user.uid appId serviceId = db.getService user.uid appId serviceId ∧
        (db.getService user.uid appId serviceId).About db user.uid ↔
      KeptApart user db other (.getService appId serviceId) := by
  by_cases owner : db.owns user.uid appId = true
  · rw [getService_own owner, getService_own ((same.owns appId).trans owner), same.service]
    refine iff_of_true ⟨rfl, fun row found => ?_⟩ (Or.inl owner)
    exact List.mem_of_find?_eq_some (Option.mem_def.mp found)
  · have foreign : ¬ other.owns user.uid appId = true := by rwa [same.owns]
    have condition : KeptApart user db other (.getService appId serviceId) ↔
        (db.Holds appId serviceId ∧ db.application.get? appId = none ↔
          other.Holds appId serviceId ∧ other.application.get? appId = none) := or_iff_right owner
    rw [condition]
    by_cases stray : db.Holds appId serviceId ∧ db.application.get? appId = none
    · by_cases stray' : other.Holds appId serviceId ∧ other.application.get? appId = none
      · rw [getService_stray stray.1 stray.2, getService_stray stray'.1 stray'.2]
        exact iff_of_true ⟨rfl, trivial⟩ (iff_of_true stray stray')
      · rw [getService_stray stray.1 stray.2, getService_foreign foreign stray']
        exact iff_of_false (fun both => by cases both.1) fun equal => stray' (equal.mp stray)
    · by_cases stray' : other.Holds appId serviceId ∧ other.application.get? appId = none
      · rw [getService_foreign owner stray, getService_stray stray'.1 stray'.2]
        exact iff_of_false (fun both => by cases both.1) fun equal => stray (equal.mpr stray')
      · rw [getService_foreign owner stray, getService_foreign foreign stray']
        exact iff_of_true ⟨rfl, fun row found => by cases found⟩ (iff_of_false stray stray')

/-- An application of the user is found by its name exactly when the first
application of the name is the user's. -/
theorem getAppByName_apart {appName : String} (same : SameTenant user.uid db other) :
    other.getAppByName user.uid appName = db.getAppByName user.uid appName ∧
        (∀ app ∈ db.applicationRows user.uid, app.name = appName →
          ∃ row ∈ db.applicationRows user.uid, row.name = appName ∧ db.getAppByName user.uid appName = some row) ↔
      KeptApart user db other (.getAppByName appName) := by
  constructor
  · rintro ⟨equal, found⟩
    by_cases named : ∃ app ∈ db.applicationRows user.uid, app.name = appName
    · obtain ⟨app, mine, here⟩ := named
      obtain ⟨row, _, _, here⟩ := found app mine here
      refine Or.inr fun tables member => ⟨row, ?_⟩
      rcases List.mem_pair.mp member with rfl | rfl
      · exact getAppByName_some.mp here
      · exact getAppByName_some.mp (equal.trans here)
    · exact Or.inl fun app mine here => named ⟨app, mine, here⟩
  · rintro (none | first)
    · have absent (tables : Database) (rows : tables.applicationRows user.uid = db.applicationRows user.uid) :
          tables.getAppByName user.uid appName = .none := by
        cases found : tables.getAppByName user.uid appName with
        | none => rfl
        | some row =>
          obtain ⟨first, owner⟩ := getAppByName_some.mp found
          have mine := mem_applicationRows.mpr ⟨List.mem_of_find?_eq_some first, owner⟩
          exact absurd (by simpa using List.find?_some first) (none row (rows ▸ mine))
      exact ⟨(absent other same.application).trans (absent db rfl).symm, fun app mine here => absurd here (none app mine)⟩
    · have finds (tables : Database) (member : tables ∈ [db, other]) : ∃ row, tables.getAppByName user.uid appName = some row ∧
          (tables.applicationRows user.uid).find? (fun app => app.name = appName) = some row := by
        obtain ⟨row, found, owner⟩ := first tables member
        exact ⟨row, getAppByName_some.mpr ⟨found, owner⟩, find?_of_filter found (by simpa using owner)⟩
      obtain ⟨row, found, listed⟩ := finds db (by simp)
      obtain ⟨row', found', listed'⟩ := finds other (by simp)
      rw [same.application, listed] at listed'
      obtain rfl := Option.some.inj listed'
      refine ⟨found'.trans found.symm, fun app mine here => ⟨row, ?_, ?_, found⟩⟩
      · exact List.mem_of_find?_eq_some listed
      · simpa using List.find?_some listed

end Database

theorem SameTenant_certUser {db other : Database} {cert : Certificate} {user : User}
    (granted : certUser db cert = .ok user) (same : db.SameTenant user.uid other) : certUser other cert = .ok user := by
  obtain ⟨named, member⟩ := certUser_ok.mp granted
  exact certUser_ok.mpr ⟨named, Table.get?_mem (same.user.trans (Table.get?_of_mem member))⟩

/-- A user is kept apart from the others by what the lookup itself gives. -/
theorem private_iff {db other : Database} {cert : Certificate} {user : User} (granted : certUser db cert = .ok user)
    (same : db.SameTenant user.uid other) (request : Lookup) : Private cert user db other request ↔
      other.lookup user.uid request = db.lookup user.uid request ∧ (db.lookup user.uid request).About db user.uid ∧
        ∀ appName, request = .getAppByName appName → ∀ app ∈ db.applicationRows user.uid, app.name = appName →
          ∃ row ∈ db.applicationRows user.uid, row.name = appName ∧ db.getAppByName user.uid appName = some row := by
  have here : db.respondLookup cert request = .ok (db.lookup user.uid request) := by
    simp only [Database.respondLookup, granted, Except.map]
  have there : other.respondLookup cert request = .ok (other.lookup user.uid request) := by
    simp only [Database.respondLookup, SameTenant_certUser granted same, Except.map]
  constructor
  · rintro ⟨equal, ⟨result, found, own⟩, named⟩
    refine ⟨?_, ?_, ?_⟩
    · rw [here, there] at equal
      exact Except.ok.inj equal
    · rw [here] at found
      rwa [Except.ok.inj found]
    · rintro appName rfl app mine name
      obtain ⟨row, inside, named, found⟩ := named appName rfl app mine name
      rw [here] at found
      exact ⟨row, inside, named, LookupResult.application.inj (Except.ok.inj found)⟩
  · rintro ⟨equal, own, named⟩
    refine ⟨?_, ⟨_, here, own⟩, ?_⟩
    · rw [here, there, equal]
    · rintro appName rfl app mine name
      obtain ⟨row, inside, named, found⟩ := named appName rfl app mine name
      exact ⟨row, inside, named, here.trans (by rw [← found]; rfl)⟩

/-- The results of the other lookups come from the rows of the user alone. -/
theorem ownRows_private {db other : Database} {user : User} (same : db.SameTenant user.uid other) {request : Lookup}
    (own : request = .listApplications ∨ request = .listAllServices ∨ (∃ appId, request = .getAppById appId) ∨
      request = .getDefaultApp ∨ ∃ appName, request = .checkAppExists appName) :
    other.lookup user.uid request = db.lookup user.uid request ∧ (db.lookup user.uid request).About db user.uid := by
  rcases own with rfl | rfl | ⟨appId, rfl⟩ | rfl | ⟨appName, rfl⟩
  · constructor
    · simp only [Database.lookup, same.application]
      exact congrArg LookupResult.applications (List.map_congr_left fun app mine => same.applicationDict mine)
    · intro dict member
      obtain ⟨app, mine, rfl⟩ := List.mem_map.mp member
      exact ⟨app, mine, rfl⟩
  · constructor
    · simp only [Database.lookup, same.service]
      exact same.serviceDicts fun _ => id
    · exact Database.serviceDicts_about fun _ => id
  · have mine (tables : Database) (row : Application) : tables.getAppById user.uid appId = some row ↔
        row ∈ tables.applicationRows user.uid ∧ row.aid = appId := by
      simp only [Database.getAppById, Option.filter_eq_some_iff, Table.get?_iff, Database.mem_applicationRows,
        decide_eq_true_eq]
      tauto
    constructor
    · refine congrArg LookupResult.application (Option.ext fun row => ?_)
      rw [mine, mine, same.application]
    · exact fun row found => ((mine db row).mp found).1
  · constructor
    · simp only [Database.lookup, Database.getDefaultApp, same.application]
    · intro row found
      exact List.mem_mergeSort.mp (List.mem_of_mem_head? found)
  · constructor
    · have known (tables : Database) : tables.checkAppExists user.uid appName =
          (tables.applicationRows user.uid).any fun app => app.name = appName := by
        rw [Database.applicationRows, List.any_filter, Database.checkAppExists]
        simp only [Bool.and_comm]
      simp only [Database.lookup, known, same.application]
    · trivial

/-- Over all databases that agree on a user, a lookup keeps the user apart from
the others exactly when it lists services of an application of the user (or of
one without any), and looks a name up that no other user had before. -/
theorem lookup_private_iff {db other : Database} {cert : Certificate} {user : User}
    (granted : certUser db cert = .ok user) (same : db.SameTenant user.uid other) (request : Lookup) :
    Private cert user db other request ↔ KeptApart user db other request := by
  rw [private_iff granted same]
  have unnamed : (∀ appName, request ≠ .getAppByName appName) → ((∀ appName, request = .getAppByName appName →
      ∀ app ∈ db.applicationRows user.uid, app.name = appName → ∃ row ∈ db.applicationRows user.uid,
        row.name = appName ∧ db.getAppByName user.uid appName = some row) ↔ True) :=
    fun other => iff_true_intro fun appName equal => absurd equal (other appName)
  cases request with
  | listServices appId =>
    rw [unnamed (by simp), and_true]
    exact Database.listServices_apart same
  | getService appId serviceId =>
    rw [unnamed (by simp), and_true]
    exact Database.getService_apart same
  | getAppByName appName =>
    rw [← Database.getAppByName_apart same]
    constructor
    · rintro ⟨equal, _, named⟩
      exact ⟨LookupResult.application.inj equal, named appName rfl⟩
    · rintro ⟨equal, named⟩
      refine ⟨congrArg LookupResult.application equal, fun row found => ?_, fun name same => ?_⟩
      · obtain ⟨first, owner⟩ := Database.getAppByName_some.mp (Option.mem_def.mp found)
        exact Database.mem_applicationRows.mpr ⟨List.mem_of_find?_eq_some first, owner⟩
      · obtain rfl := Lookup.getAppByName.inj same
        exact named
  | listApplications =>
    rw [unnamed (by simp), and_true]
    exact iff_of_true (ownRows_private same (by simp)) trivial
  | listAllServices =>
    rw [unnamed (by simp), and_true]
    exact iff_of_true (ownRows_private same (by simp)) trivial
  | getAppById appId =>
    rw [unnamed (by simp), and_true]
    exact iff_of_true (ownRows_private same (by simp)) trivial
  | getDefaultApp =>
    rw [unnamed (by simp), and_true]
    exact iff_of_true (ownRows_private same (by simp)) trivial
  | checkAppExists appName =>
    rw [unnamed (by simp), and_true]
    exact iff_of_true (ownRows_private same (by simp)) trivial

/-- Two users who both have an application called shop. -/
def twoShops : Database where
  user := ⟨[⟨1, "ann", "ann@example.org", 50⟩, ⟨2, "bob", "bob@example.org", 50⟩], by decide⟩
  application := ⟨[⟨1, "shop", .running, 2⟩, ⟨2, "shop", .running, 1⟩], by decide⟩
  resource := .empty
  service := ⟨[⟨1, 1, "New php service", "php", "INIT", 0, none, none, 1⟩], by decide⟩

def annCert : Certificate := createX509Cert (Leaf.user "1" "ann" "ann@example.org").subject 3

/-- The same director without the second user. -/
def oneShop : Database :=
  { twoShops with application := ⟨[⟨2, "shop", .running, 1⟩], by decide⟩, service := .empty }

theorem oneShop_same : oneShop.SameTenant 1 twoShops := ⟨by decide, by decide, by decide, by decide⟩

/-- The applications of one user are listed alike without and with the other. -/
theorem oneShop_private : Private annCert ⟨1, "ann", "ann@example.org", 50⟩ oneShop twoShops .listApplications :=
  (lookup_private_iff (by decide) oneShop_same .listApplications).mpr trivial

/-- With the other user's shop in the tables the user's own is no longer found
by its name. -/
theorem twoShops_shown : ¬ ∀ (db other : Database) (cert : Certificate) (user : User) (request : Lookup),
    certUser db cert = .ok user → db.SameTenant user.uid other → Private cert user db other request := by
  intro law
  have named := (law oneShop twoShops annCert ⟨1, "ann", "ann@example.org", 50⟩ (.getAppByName "shop") (by decide)
    oneShop_same).same
  exact absurd named (by decide)

end ConPaaS
