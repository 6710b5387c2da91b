import ConPaaS.Director.Database

namespace ConPaaS

open Keyed

/-- A machine at a cloud, as far as killing it needs to know it. -/
structure Vm where
  vmid : String
  cloud : String
  deriving DecidableEq, Repr

def Resource.vm (res : Resource) : Vm := ⟨res.vmid, res.cloud⟩

namespace Database

/-- The tables after the rows of an application are removed and its status
is set, or its own row removed as well. -/
def withoutApp (db : Database) (appId : Int) (delAppEntry : Bool) : Database where
  user := db.user
  application :=
    if delAppEntry then db.application.erase appId
    else db.application.modify appId (fun app => { app with status := .stopped }) fun _ => rfl
  resource := db.resource.filter fun res => res.appId ≠ some appId
  service := db.service.filter fun service => service.applicationId ≠ appId

/-- `_deleteapp`: the resource rows and the services of the application go,
and its machines are handed to a thread that kills them. -/
def deleteApp (db : Database) (userId appId : Int) (delAppEntry : Bool) : Except String (Database × List Vm) :=
  match db.getAppById userId appId with
  | none => .error "Application not found"
  | some _ =>
    .ok (db.withoutApp appId delAppEntry, (db.resource.rows.filter fun res => res.appId = some appId).map Resource.vm)

/-- The applications of a user are stopped one after the other. The machines
of all of them are destroyed. -/
def stopApplications (userId : Int) : List Int → Database × List Vm → Database × List Vm
  | [], state => state
  | appId :: rest, state =>
    match state.1.deleteApp userId appId false with
    | .ok (db, vms) => stopApplications userId rest (db, state.2 ++ vms)
    | .error _ => stopApplications userId rest state

theorem deleteApp_owned {db : Database} {userId appId : Int} (owner : db.owns userId appId = true)
    (delAppEntry : Bool) : db.deleteApp userId appId delAppEntry =
      .ok (db.withoutApp appId delAppEntry, (db.resource.rows.filter fun res => res.appId = some appId).map Resource.vm) := by
  obtain ⟨app, found⟩ := Option.isSome_iff_exists.mp (getAppById_iff.mpr owner)
  simp only [deleteApp, found]

/-- Stopping an application changes no ownership. -/
theorem owns_withoutApp (db : Database) (stopped userId appId : Int) :
    (db.withoutApp stopped false).owns userId appId = db.owns userId appId := by
  simp only [owns, withoutApp, Bool.false_eq_true, if_false, Table.modify_rows, List.any_map]
  congr 1
  funext app
  by_cases here : app.aid = stopped <;> simp [here]

theorem stopApplications_user (userId : Int) (apps : List Int) (state : Database × List Vm) :
    (stopApplications userId apps state).1.user = state.1.user := by
  induction apps generalizing state with
  | nil => rfl
  | cons appId rest ih =>
    cases run : state.1.deleteApp userId appId false with
    | error => simpa only [stopApplications, run] using ih state
    | ok result =>
      simp only [stopApplications, run, ih]
      unfold deleteApp at run
      split at run
      · cases run
      · cases run
        rfl

theorem stopApplications_owns (userId : Int) (apps : List Int) (state : Database × List Vm) (uid appId : Int) :
    (stopApplications userId apps state).1.owns uid appId = state.1.owns uid appId := by
  induction apps generalizing state with
  | nil => rfl
  | cons stopped rest ih =>
    cases run : state.1.deleteApp userId stopped false with
    | error => simpa only [stopApplications, run] using ih state
    | ok result =>
      simp only [stopApplications, run, ih]
      unfold deleteApp at run
      split at run
      · cases run
      · cases run
        exact owns_withoutApp _ _ _ _

theorem stopApplications_pays (userId : Int) (apps : List Int) (state : Database × List Vm) (uid : Int)
    (res : Resource) : (stopApplications userId apps state).1.pays uid res = state.1.pays uid res := by
  simp only [pays, funext fun appId => stopApplications_owns userId apps state uid appId]

/-- Stopping applications of a user keeps exactly the rows of the others. -/
theorem stopApplications_resource {userId : Int} {apps : List Int} {state : Database × List Vm}
    (owned : ∀ appId ∈ apps, state.1.owns userId appId = true) :
    (stopApplications userId apps state).1.resource.rows = state.1.resource.rows.filter fun res => res.appId ∉ apps.map some := by
  induction apps generalizing state with
  | nil => simp [stopApplications]
  | cons stopped rest ih =>
    have run := deleteApp_owned (owned stopped (List.mem_cons_self ..)) false
    simp only [stopApplications, run]
    rw [ih]
    · simp only [withoutApp, Table.filter_rows, List.filter_filter]
      congr 1
      funext res
      simp only [List.map_cons, List.mem_cons, not_or, Bool.decide_and, ne_eq, Bool.and_comm]
    · intro appId member
      rw [owns_withoutApp]
      exact owned appId (List.mem_cons_of_mem _ member)

/-- The machines of the stopped applications, and no others, are destroyed. -/
theorem stopApplications_destroyed {userId : Int} {apps : List Int} {state : Database × List Vm}
    (owned : ∀ appId ∈ apps, state.1.owns userId appId = true) {vm : Vm} :
    vm ∈ (stopApplications userId apps state).2 ↔
      vm ∈ state.2 ∨ ∃ res ∈ state.1.resource.rows, res.appId ∈ apps.map some ∧ res.vm = vm := by
  induction apps generalizing state with
  | nil => simp [stopApplications]
  | cons stopped rest ih =>
    have run := deleteApp_owned (owned stopped (List.mem_cons_self ..)) false
    simp only [stopApplications, run]
    rw [ih fun appId member => by rw [owns_withoutApp]; exact owned appId (List.mem_cons_of_mem _ member)]
    simp only [List.mem_append, List.mem_map (f := Resource.vm), List.mem_filter, decide_eq_true_eq, withoutApp,
      Table.filter_rows, List.map_cons]
    constructor
    · rintro ((old | ⟨res, ⟨inside, here⟩, rfl⟩) | ⟨res, ⟨inside, _⟩, later, rfl⟩)
      · exact Or.inl old
      · exact Or.inr ⟨res, inside, by simp [here], rfl⟩
      · exact Or.inr ⟨res, inside, List.mem_cons_of_mem _ later, rfl⟩
    · rintro (old | ⟨res, inside, member, rfl⟩)
      · exact Or.inl (Or.inl old)
      · by_cases here : res.appId = stopped
        · exact Or.inl (Or.inr ⟨res, ⟨inside, here⟩, rfl⟩)
        · exact Or.inr ⟨res, ⟨inside, by simpa using here⟩, (List.mem_cons.mp member).resolve_left here, rfl⟩

end Database

end ConPaaS
