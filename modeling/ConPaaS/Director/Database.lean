import ConPaaS.Lib.Table

namespace ConPaaS

open Keyed

/-- The states of a service manager. -/
inductive ManagerState
  | init | prologue | running | adapting | epilogue | stopped | error
  deriving DecidableEq, Repr

/-- The states the director records for an application. -/
abbrev ApplicationStatus := ManagerState

/-- A user of the director. Money is kept in whole credits. -/
structure User where
  uid : Int
  username : String
  email : String
  credit : Int
  deriving DecidableEq, Repr

structure Application where
  aid : Int
  name : String
  status : ApplicationStatus
  userId : Int
  deriving DecidableEq, Repr

/-- A virtual machine the director pays for. `created` is its creation time
in seconds, `charged` the number of hours paid so far. The columns `app_id` and
`service_id` may hold nothing or a text that is no number. -/
structure Resource where
  rid : Int
  vmid : String
  appId : Option Int
  serviceId : Option Int
  charged : Int
  ip : String
  role : String
  cloud : String
  created : Int
  deriving DecidableEq, Repr

/-- A service of an application. Nothing sets its cloud and its subnet. -/
structure Service where
  recId : Int
  sid : Int
  name : String
  type : String
  state : String
  created : Int
  cloud : Option String
  subnet : Option String
  applicationId : Int
  deriving DecidableEq, Repr

/-- The keys of a table with only its first row. -/
theorem firstRow_distinct : [(1 : Int)].Nodup := List.nodup_singleton 1

/-- The tables of the director, each under its primary key. -/
structure Database where
  user : Table User.uid
  application : Table Application.aid
  resource : Table Resource.rid
  service : Table Service.recId
  deriving DecidableEq

namespace Database

/-- An application of a user. -/
def owns (db : Database) (userId appId : Int) : Bool :=
  db.application.rows.any fun app => app.aid = appId && app.userId = userId

/-- A resource of one of the applications of a user. -/
def pays (db : Database) (userId : Int) (res : Resource) : Bool := res.appId.any (db.owns userId)

/-- `Resource.query.join(Application).filter_by(user_id=...)`. -/
def resourcesOf (db : Database) (userId : Int) : List Resource := db.resource.rows.filter (db.pays userId)

/-- The ids of `Application.query.filter_by(user_id=...)`. -/
def applicationsOf (db : Database) (userId : Int) : List Int :=
  (db.application.rows.filter fun app => app.userId = userId).map Application.aid

/-- The rows of the applications of a user. -/
def applicationRows (db : Database) (userId : Int) : List Application :=
  db.application.rows.filter fun app => app.userId = userId

/-- An application is found by its id only for the user who owns it. -/
def getAppById (db : Database) (userId appId : Int) : Option Application :=
  (db.application.get? appId).filter fun app => app.userId = userId

theorem owns_iff {db : Database} {userId appId : Int} :
    db.owns userId appId = true ↔ ∃ app ∈ db.application.rows, app.aid = appId ∧ app.userId = userId := by
  simp [owns]

/-- An application has one owner. -/
theorem owns_unique {db : Database} {first second appId : Int} (left : db.owns first appId = true)
    (right : db.owns second appId = true) : first = second := by
  obtain ⟨app, member, id, owner⟩ := owns_iff.mp left
  obtain ⟨other, inside, same, owner'⟩ := owns_iff.mp right
  have equal := db.application.unique member inside (id.trans same.symm)
  rw [← owner, ← owner', equal]

theorem getAppById_iff {db : Database} {userId appId : Int} :
    (db.getAppById userId appId).isSome = true ↔ db.owns userId appId = true := by
  rw [owns_iff, Option.isSome_iff_exists]
  constructor
  · rintro ⟨app, found⟩
    obtain ⟨stored, owner⟩ := Option.filter_eq_some_iff.mp found
    obtain ⟨member, id⟩ := Table.get?_iff.mp stored
    exact ⟨app, member, id, by simpa using owner⟩
  · rintro ⟨app, member, rfl, owner⟩
    exact ⟨app, Option.filter_eq_some_iff.mpr ⟨Table.get?_of_mem member, by simpa using owner⟩⟩

theorem pays_iff {db : Database} {userId : Int} {res : Resource} :
    db.pays userId res = true ↔ ∃ appId, res.appId = some appId ∧ db.owns userId appId = true := by
  unfold pays
  cases res.appId with
  | none => simp
  | some appId => simp

theorem mem_applicationRows {db : Database} {userId : Int} {app : Application} :
    app ∈ db.applicationRows userId ↔ app ∈ db.application.rows ∧ app.userId = userId := by
  simp [applicationRows, List.mem_filter]

/-- A resource is paid for by one user. -/
theorem pays_unique {db : Database} {first second : Int} {res : Resource} (left : db.pays first res = true)
    (right : db.pays second res = true) : first = second := by
  obtain ⟨appId, named, owner⟩ := pays_iff.mp left
  obtain ⟨other, same, owner'⟩ := pays_iff.mp right
  obtain rfl : appId = other := Option.some.inj (named.symm.trans same)
  exact owns_unique owner owner'

theorem mem_resourcesOf {db : Database} {userId : Int} {res : Resource} :
    res ∈ db.resourcesOf userId ↔ res ∈ db.resource.rows ∧ db.pays userId res = true :=
  List.mem_filter

theorem mem_applicationsOf {db : Database} {userId appId : Int} :
    appId ∈ db.applicationsOf userId ↔ db.owns userId appId = true := by
  rw [owns_iff]
  constructor
  · intro member
    obtain ⟨app, inside, id⟩ := List.mem_map.mp member
    obtain ⟨stored, owner⟩ := List.mem_filter.mp inside
    exact ⟨app, stored, id, by simpa using owner⟩
  · rintro ⟨app, stored, id, owner⟩
    exact List.mem_map.mpr ⟨app, List.mem_filter.mpr ⟨stored, by simpa using owner⟩, id⟩

end Database

end ConPaaS
