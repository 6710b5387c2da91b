import ConPaaS.Director.CreditRuns

namespace ConPaaS

open Keyed

/-- An application as `_deleteapp` leaves it. -/
def Application.stop (app : Application) : Application := { app with status := .stopped }

/-- What the resources of a user have to be charged at some time: the units
begun by each of them that are not paid yet. -/
def Database.chargeOf (now : Int) (db : Database) (userId : Int) : Int :=
  (((db.resourcesOf userId).filter (due now)).map fun res => totCost now res - res.charged + 1).sum

theorem chargeResources_sum (now : Int) (rows : List Resource) (toCharge : Int) :
    (chargeResources now rows toCharge).2 =
      toCharge + ((rows.filter (due now)).map fun res => totCost now res - res.charged + 1).sum := by
  induction rows generalizing toCharge with
  | nil => simp [chargeResources]
  | cons res rest ih =>
    simp only [chargeResources]
    split
    · rename_i isDue
      rw [ih, List.filter_cons_of_pos isDue, List.map_cons, List.sum_cons]
      ring
    · rename_i notDue
      rw [ih, List.filter_cons_of_neg notDue]

theorem creditAfter_charge (now : Int) (db : Database) (user : User) :
    user.creditAfter now (db.resourcesOf user.uid) = user.credit - db.chargeOf now user.uid := by
  rw [User.creditAfter, chargeResources_sum, Int.zero_add]
  rfl

namespace Database

theorem withoutApp_application (db : Database) (appId : Int) : (db.withoutApp appId false).application.rows =
    db.application.rows.map fun app => if app.aid = appId then app.stop else app := rfl

/-- Stopping applications changes their status and no other column of any
application. -/
theorem stopApplications_application {userId : Int} {apps : List Int} {state : Database × List Vm}
    (owned : ∀ appId ∈ apps, state.1.owns userId appId = true) :
    (stopApplications userId apps state).1.application.rows =
      state.1.application.rows.map fun app => if app.aid ∈ apps then app.stop else app := by
  induction apps generalizing state with
  | nil => simp [stopApplications]
  | cons stopped rest ih =>
    have run := deleteApp_owned (owned stopped (List.mem_cons_self ..)) false
    simp only [stopApplications, run]
    rw [ih fun appId member => by rw [owns_withoutApp]; exact owned appId (List.mem_cons_of_mem _ member),
      withoutApp_application, List.map_map]
    refine List.map_congr_left fun app _ => ?_
    by_cases here : app.aid = stopped
    · by_cases again : stopped ∈ rest <;> simp [here, again, Application.stop]
    · simp [here]

/-- Stopping the applications of a user leaves those of the others alone. -/
theorem stopAll_applicationRows (db : Database) (vms : List Vm) (userId uid : Int) :
    (stopApplications userId (db.applicationsOf userId) (db, vms)).1.applicationRows uid =
      if uid = userId then (db.applicationRows uid).map Application.stop else db.applicationRows uid := by
  have stops : (stopApplications userId (db.applicationsOf userId) (db, vms)).1.application.rows =
      db.application.rows.map fun app => if app.aid ∈ db.applicationsOf userId then app.stop else app :=
    stopApplications_application fun _ member => mem_applicationsOf.mp member
  have owner (app : Application) (stored : app ∈ db.application.rows) :
      app.aid ∈ db.applicationsOf userId ↔ app.userId = userId := by
    rw [mem_applicationsOf, owns_iff]
    constructor
    · rintro ⟨other, inside, same, owner⟩
      rwa [← db.application.unique inside stored same]
    · intro owner
      exact ⟨app, stored, rfl, owner⟩
  have rows : (stopApplications userId (db.applicationsOf userId) (db, vms)).1.application.rows =
      db.application.rows.map fun app => if app.userId = userId then app.stop else app := by
    rw [stops]
    exact List.map_congr_left fun app stored => by simp only [owner app stored]
  have kept : ((fun app : Application => decide (app.userId = uid)) ∘
      fun app => if app.userId = userId then app.stop else app) = fun app => decide (app.userId = uid) := by
    funext app
    by_cases here : app.userId = userId <;> simp [here, Application.stop]
  rw [applicationRows, rows, List.filter_map, kept]
  split
  · rename_i same
    refine List.map_congr_left fun app member => if_pos ?_
    rw [← same]
    simpa using (List.mem_filter.mp member).2
  · rename_i other
    refine (List.map_congr_left fun app member => if_neg ?_).trans (List.map_id _)
    intro mine
    exact other ((of_decide_eq_true (List.mem_filter.mp member).2).symm.trans mine)

theorem checkUser_applications_other (now : Int) {userId uid : Int} (state : Database × List Vm) (other : uid ≠ userId) :
    (checkUser now state userId).1.applicationRows uid = state.1.applicationRows uid := by
  cases found : state.1.user.get? userId with
  | none => simp only [checkUser, found]
  | some user =>
    simp only [checkUser, found]
    split
    · rw [stopAll_applicationRows, if_neg other]
      rfl
    · rfl

theorem checkUser_applications_self {now : Int} {state : Database × List Vm} {user : User}
    (found : state.1.user.get? user.uid = some user) :
    (checkUser now state user.uid).1.applicationRows user.uid =
      if user.creditAfter now (state.1.resourcesOf user.uid) = 0 then
        (state.1.applicationRows user.uid).map Application.stop
      else state.1.applicationRows user.uid := by
  simp only [checkUser, found]
  split
  · rename_i spent
    rw [stopAll_applicationRows, if_pos rfl]
    exact (if_pos spent).symm
  · rename_i left
    exact (if_neg left).symm

theorem foldl_checkUser_applications {now uid : Int} {users : List Int} (apart : uid ∉ users)
    (state : Database × List Vm) :
    (users.foldl (checkUser now) state).1.applicationRows uid = state.1.applicationRows uid := by
  induction users generalizing state with
  | nil => rfl
  | cons userId rest ih =>
    obtain ⟨here, later⟩ := not_or.mp (List.mem_cons.not.mp apart)
    exact (ih later _).trans (checkUser_applications_other now state here)

/-- The applications of a user are stopped exactly when the charge is the
whole credit. -/
theorem checkCredits_applications (now : Int) {db : Database} {user : User} (member : user ∈ db.user.rows) :
    (checkCredits now db).1.applicationRows user.uid =
      if db.chargeOf now user.uid = user.credit then (db.applicationRows user.uid).map Application.stop
      else db.applicationRows user.uid := by
  obtain ⟨before, after, users⟩ := List.append_of_mem (List.mem_map_of_mem (f := User.uid) member)
  have distinct := db.user.keyed
  rw [users, List.nodup_middle, List.nodup_cons, List.mem_append, not_or] at distinct
  obtain ⟨⟨notBefore, notAfter⟩, _⟩ := distinct
  have others : (before.foldl (checkUser now) (db, [])).1.user.get? user.uid = db.user.get? user.uid ∧
      (before.foldl (checkUser now) (db, [])).1.resourcesOf user.uid = db.resourcesOf user.uid :=
    foldl_checkUser_other notBefore (db, [])
  obtain ⟨sameUser, sameRows⟩ := others
  have found := sameUser.trans (Table.get?_of_mem member)
  rw [checkCredits, users, List.foldl_append, List.foldl_cons, foldl_checkUser_applications notAfter,
    checkUser_applications_self found, sameRows, foldl_checkUser_applications notBefore, creditAfter_charge]
  change (if user.credit - db.chargeOf now user.uid = 0 then _ else _) = _
  by_cases spent : db.chargeOf now user.uid = user.credit
  · rw [if_pos (by omega), if_pos spent]
  · rw [if_neg (by omega), if_neg spent]

theorem withCharges_userIds (db : Database) (userId credit : Int) (rows : List Resource) :
    (db.withCharges userId credit rows).user.rows.map User.uid = db.user.rows.map User.uid :=
  Table.keys_modify db.user userId (fun user => { user with credit }) fun _ => rfl

theorem checkCredits_userIds (now : Int) (db : Database) :
    (checkCredits now db).1.user.rows.map User.uid = db.user.rows.map User.uid := by
  have kept (users : List Int) : ∀ state : Database × List Vm,
      (users.foldl (checkUser now) state).1.user.rows.map User.uid = state.1.user.rows.map User.uid := by
    induction users with
    | nil => exact fun _ => rfl
    | cons userId rest ih =>
      refine fun state => (ih _).trans ?_
      cases found : state.1.user.get? userId with
      | none => simp only [checkUser, found]
      | some user =>
        simp only [checkUser, found]
        split
        · rw [stopApplications_user]
          exact withCharges_userIds _ _ _ _
        · exact withCharges_userIds _ _ _ _
  exact kept _ (db, [])

end Database

/-- What a check of the credits is for. No user is left in debt, a user whose
charge takes the whole credit has every application stopped and keeps no
machine, and the applications of a user with credit left are as they were. -/
structure ExhaustionLaw (now : Int) (before after : Database) : Prop where
  solvent : ∀ user ∈ after.user.rows, 0 ≤ user.credit
  exhausted : ∀ user ∈ before.user.rows, user.credit ≤ before.chargeOf now user.uid →
    (∀ app ∈ after.applicationRows user.uid, app.status = .stopped) ∧ after.resourcesOf user.uid = []
  spared : ∀ user ∈ before.user.rows, before.chargeOf now user.uid < user.credit →
    after.applicationRows user.uid = before.applicationRows user.uid

theorem creditAfter_row {now : Int} {db : Database} {left : User} (member : left ∈ (db.checkCredits now).1.user.rows) :
    ∃ user ∈ db.user.rows, left = { user with credit := user.credit - db.chargeOf now user.uid } := by
  have uid : left.uid ∈ db.user.rows.map User.uid := by
    rw [← Database.checkCredits_userIds now db]
    exact List.mem_map_of_mem member
  obtain ⟨user, stored, same⟩ := List.mem_map.mp uid
  have found := (Database.checkCredits_user now stored).1
  rw [creditAfter_charge] at found
  have kept := Table.get?_of_mem member
  rw [← same] at kept
  exact ⟨user, stored, Option.some.inj (kept.symm.trans found)⟩

/-- A check of the credits does all it is for exactly when no user is charged
more than the credit. A debt is left standing and stops nothing. -/
theorem exhaustionLaw_iff (now : Int) (db : Database) :
    ExhaustionLaw now db (db.checkCredits now).1 ↔ ∀ user ∈ db.user.rows, db.chargeOf now user.uid ≤ user.credit := by
  constructor
  · intro law user member
    obtain ⟨found, _⟩ := Database.checkCredits_user now member
    have solvent := law.solvent _ (Table.get?_mem found)
    rw [creditAfter_charge] at solvent
    change 0 ≤ user.credit - db.chargeOf now user.uid at solvent
    omega
  · intro covered
    refine ⟨?_, ?_, ?_⟩
    · intro left member
      obtain ⟨user, stored, rfl⟩ := creditAfter_row member
      have bound := covered user stored
      change 0 ≤ user.credit - db.chargeOf now user.uid
      omega
    · intro user member whole
      have exact := le_antisymm (covered user member) whole
      obtain ⟨_, rows⟩ := Database.checkCredits_user now member
      constructor
      · intro app inside
        rw [Database.checkCredits_applications now member, if_pos exact] at inside
        obtain ⟨old, _, rfl⟩ := List.mem_map.mp inside
        rfl
      · rw [rows, User.rowsAfter, creditAfter_charge, if_pos (by omega)]
    · intro user member less
      rw [Database.checkCredits_applications now member, if_neg (by omega)]

/-- A user with one credit and one machine that has run for two hours unpaid. -/
def overdrawn : Database where
  user := ⟨[⟨1, "ann", "ann@example.org", 1⟩], by decide⟩
  application := ⟨[⟨1, "shop", .running, 1⟩], firstRow_distinct⟩
  resource := ⟨[⟨1, "vm1", some 1, some 1, 0, "10.0.0.1", "agent", "iaas", 0⟩], firstRow_distinct⟩
  service := .empty

/-- The charge of three credits leaves the user two in debt, with the
application running. -/
theorem overdrawn_runs : ¬ ExhaustionLaw 7200 overdrawn (overdrawn.checkCredits 7200).1 := by
  intro law
  have debt := law.solvent ⟨1, "ann", "ann@example.org", -2⟩ (by decide)
  exact absurd debt (by decide)

end ConPaaS
