import ConPaaS.Director.Application
import Mathlib.Tactic.Ring
import Mathlib.Tactic.Linarith

namespace ConPaaS

open Keyed

/-- `Credit.charging_unit`: the minutes one credit pays for. -/
def chargingUnit : Int := 60

/-- `Credit.mins_from_creation`, for times in seconds. -/
def minsFromCreation (now created : Int) : Int := (now - created) / 60

/-- The full charging units a resource has been alive for. -/
def totCost (now : Int) (res : Resource) : Int := minsFromCreation now res.created / chargingUnit

/-- The test of the inner loop of `check_credits`. -/
def due (now : Int) (res : Resource) : Bool := totCost now res ≥ res.charged || res.charged = 0

/-- The inner loop of `check_credits` over the resources of one user. Every
charged row is raised by the running total, not by its own part of it. -/
def chargeResources (now : Int) : List Resource → Int → List Resource × Int
  | [], toCharge => ([], toCharge)
  | res :: rest, toCharge =>
    if due now res then
      let toCharge := toCharge + (totCost now res - res.charged + 1)
      let result := chargeResources now rest toCharge
      ({ res with charged := res.charged + toCharge } :: result.1, result.2)
    else
      let result := chargeResources now rest toCharge
      (res :: result.1, result.2)

/-- The value of the column `charged` in a row some loop has written. -/
def Resource.withCharge (rows : List Resource) (res : Resource) : Resource :=
  match rows.find? fun row => row.rid = res.rid with
  | some row => { res with charged := row.charged }
  | none => res

theorem Resource.withCharge_rid (rows : List Resource) (res : Resource) : (res.withCharge rows).rid = res.rid := by
  unfold withCharge
  split <;> rfl

theorem Resource.withCharge_appId (rows : List Resource) (res : Resource) :
    (res.withCharge rows).appId = res.appId := by
  unfold withCharge
  split <;> rfl

namespace Database

/-- The tables after the charges of some rows are written and the credit of
their user is set. -/
def withCharges (db : Database) (userId credit : Int) (rows : List Resource) : Database where
  user := db.user.modify userId (fun user => { user with credit }) fun _ => rfl
  application := db.application
  resource := db.resource.map (Resource.withCharge rows) (Resource.withCharge_rid rows)
  service := db.service

/-- One round of the outer loop of `check_credits`. The statement
`user.credit == 0` under the test `user.credit < 0` is a comparison, so a
negative credit stays and stops no application. -/
def checkUser (now : Int) (state : Database × List Vm) (userId : Int) : Database × List Vm :=
  match state.1.user.get? userId with
  | none => state
  | some user =>
    let charged := chargeResources now (state.1.resourcesOf userId) 0
    let credit := user.credit - charged.2
    let db := state.1.withCharges userId credit charged.1
    if credit = 0 then stopApplications userId (db.applicationsOf userId) (db, state.2) else (db, state.2)

/-- `Credit.check_credits`, with the machines of the applications it stops. -/
def checkCredits (now : Int) (db : Database) : Database × List Vm :=
  (db.user.rows.map User.uid).foldl (checkUser now) (db, [])

end Database

/-- The charge of a resource once every charging unit begun is paid. -/
def paidCharge (now : Int) (res : Resource) : Int := max res.charged (totCost now res + 1)

def Resource.paid (now : Int) (res : Resource) : Resource := { res with charged := paidCharge now res }

/-- What a resource still owes. -/
def owed (now : Int) (res : Resource) : Int := paidCharge now res - res.charged

/-- What the resources of a user owe together. -/
def Database.owedBy (now : Int) (db : Database) (userId : Int) : Int := ((db.resourcesOf userId).map (owed now)).sum

/-- A row the director can hold: paid for from zero on, and not from the future. -/
def Resource.Aged (clock : Int) (res : Resource) : Prop := 0 ≤ res.charged ∧ res.created ≤ clock

theorem totCost_nonneg {now : Int} {res : Resource} (aged : res.Aged now) : 0 ≤ totCost now res := by
  have born := aged.2
  have minutes : 0 ≤ minsFromCreation now res.created := Int.ediv_nonneg (by omega) (by decide)
  exact Int.ediv_nonneg minutes (by decide)

theorem due_iff {now : Int} {res : Resource} (aged : res.Aged now) : due now res = true ↔ res.charged ≤ totCost now res := by
  have cost := totCost_nonneg aged
  simp only [due, Bool.or_eq_true, decide_eq_true_eq]
  omega

theorem owed_due {now : Int} {res : Resource} (aged : res.Aged now) (isDue : due now res = true) :
    owed now res = totCost now res - res.charged + 1 ∧ 0 < owed now res := by
  have bound := (due_iff aged).mp isDue
  simp only [owed, paidCharge]
  omega

theorem owed_not_due {now : Int} {res : Resource} (aged : res.Aged now) (notDue : due now res = false) :
    owed now res = 0 := by
  have bound : ¬ res.charged ≤ totCost now res := fun reached => by simp [(due_iff aged).mpr reached] at notDue
  simp only [owed, paidCharge]
  omega

/-- The total is right: it is what all the resources owe. -/
theorem chargeResources_total {now : Int} {rows : List Resource} (aged : ∀ res ∈ rows, res.Aged now) (toCharge : Int) :
    (chargeResources now rows toCharge).2 = toCharge + (rows.map (owed now)).sum := by
  induction rows generalizing toCharge with
  | nil => simp [chargeResources]
  | cons res rest ih =>
    have old := aged res (List.mem_cons_self ..)
    have later := ih fun row member => aged row (List.mem_cons_of_mem _ member)
    simp only [List.map_cons, List.sum_cons, chargeResources]
    split
    · rename_i isDue
      rw [later, (owed_due old isDue).1]
      ring
    · rename_i notDue
      rw [later, owed_not_due old (by simpa using notDue)]
      ring

/-- The loop rewrites nothing but charges. -/
theorem chargeResources_rows (now : Int) (rows : List Resource) (toCharge : Int) :
    List.Forall₂ (fun old new => new = { old with charged := new.charged }) rows (chargeResources now rows toCharge).1 := by
  induction rows generalizing toCharge with
  | nil => exact .nil
  | cons res rest ih =>
    simp only [chargeResources]
    split
    · exact .cons rfl (ih _)
    · exact .cons rfl (ih _)

theorem chargeResources_appId (now : Int) (rows : List Resource) (toCharge : Int) :
    (chargeResources now rows toCharge).1.map Resource.appId = rows.map Resource.appId := by
  induction rows generalizing toCharge with
  | nil => rfl
  | cons res rest ih =>
    simp only [chargeResources]
    split <;> simp only [List.map_cons, ih]

theorem chargeResources_add (now : Int) (rows : List Resource) (toCharge more : Int) :
    (chargeResources now rows (toCharge + more)).2 = (chargeResources now rows toCharge).2 + more := by
  induction rows generalizing toCharge with
  | nil => rfl
  | cons res rest ih =>
    simp only [chargeResources]
    split
    · rw [← ih, add_right_comm]
    · exact ih toCharge

/-- What is carried into the loop shows in the charges it records. -/
theorem chargeResources_moved {now : Int} {rows : List Resource} (some : ∃ res ∈ rows, due now res = true)
    (toCharge : Int) {more : Int} (moved : more ≠ 0) :
    (chargeResources now rows (toCharge + more)).1.map Resource.charged ≠
      (chargeResources now rows toCharge).1.map Resource.charged := by
  induction rows with
  | nil => simp at some
  | cons res rest ih =>
    simp only [chargeResources]
    split
    · intro same
      have head := (List.cons.inj same).1
      simp only at head
      omega
    · rename_i notDue
      obtain ⟨row, member, isDue⟩ := some
      have later : row ∈ rest := (List.mem_cons.mp member).resolve_left fun same => notDue (same ▸ isDue)
      intro same
      exact ih ⟨row, later, isDue⟩ (List.cons.inj same).2

theorem paid_eq_iff {now : Int} {res : Resource} {charge : Int} :
    { res with charged := charge } = res.paid now ↔ charge = paidCharge now res := by
  constructor
  · intro same
    exact congrArg Resource.charged same
  · rintro rfl
    rfl

theorem paid_not_due {now : Int} {res : Resource} (aged : res.Aged now) (notDue : due now res = false) :
    res.paid now = res := by
  have settled := owed_not_due aged notDue
  have same : paidCharge now res = res.charged := by unfold owed at settled; omega
  unfold Resource.paid
  rw [same]

/-- A total carried over from an earlier row spoils every later charge. -/
theorem chargeResources_carried {now : Int} {rows : List Resource} (aged : ∀ res ∈ rows, res.Aged now)
    {toCharge : Int} (carried : 0 < toCharge) :
    (chargeResources now rows toCharge).1 = rows.map (Resource.paid now) ↔ ∀ res ∈ rows, due now res = false := by
  induction rows with
  | nil => simp [chargeResources]
  | cons res rest ih =>
    have old := aged res (List.mem_cons_self ..)
    have later := ih fun row member => aged row (List.mem_cons_of_mem _ member)
    simp only [chargeResources]
    split
    · rename_i isDue
      have amount := (owed_due old isDue).1
      constructor
      · intro same
        have head := congrArg Resource.charged (List.cons.inj same).1
        simp only [Resource.paid] at head
        unfold owed at amount
        omega
      · intro none
        have never := none res (List.mem_cons_self ..)
        simp [isDue] at never
    · rename_i notDue
      have idle : due now res = false := by simpa using notDue
      simp only [List.map_cons, paid_not_due old idle, List.cons.injEq, true_and, later, List.mem_cons, forall_eq_or_imp,
        idle]

/-- The loop pays every row exactly when at most one row is due. -/
theorem chargeResources_paid_iff {now : Int} {rows : List Resource} (aged : ∀ res ∈ rows, res.Aged now) :
    (chargeResources now rows 0).1 = rows.map (Resource.paid now) ↔ (rows.filter (due now)).length ≤ 1 := by
  induction rows with
  | nil => simp [chargeResources]
  | cons res rest ih =>
    have old := aged res (List.mem_cons_self ..)
    have agedRest : ∀ row ∈ rest, row.Aged now := fun row member => aged row (List.mem_cons_of_mem _ member)
    simp only [chargeResources]
    split
    · rename_i isDue
      obtain ⟨amount, positive⟩ := owed_due old isDue
      have head : { res with charged := res.charged + (0 + (totCost now res - res.charged + 1)) } = res.paid now := by
        refine paid_eq_iff.mpr ?_
        unfold owed at amount
        omega
      have carried := chargeResources_carried agedRest (show 0 < 0 + (totCost now res - res.charged + 1) by omega)
      have alone : (rest.filter (due now)).length + 1 ≤ 1 ↔ ∀ row ∈ rest, due now row = false := by
        rw [show (rest.filter (due now)).length + 1 ≤ 1 ↔ (rest.filter (due now)).length = 0 by omega,
          List.length_eq_zero_iff, List.filter_eq_nil_iff]
        simp only [Bool.not_eq_true]
      simp only [head, List.map_cons, List.cons.injEq, true_and, carried, List.filter_cons, isDue, if_true,
        List.length_cons, alone]
    · rename_i notDue
      have idle : due now res = false := by simpa using notDue
      simp only [List.map_cons, paid_not_due old idle, List.cons.injEq, true_and, ih agedRest, List.filter_cons, idle,
        Bool.false_eq_true, if_false]

theorem Resource.withCharge_self {rows : List Resource} {res : Resource}
    (absent : ∀ row ∈ rows, row.rid ≠ res.rid) : res.withCharge rows = res := by
  have missing : rows.find? (fun row => row.rid = res.rid) = none := by
    simpa [List.find?_eq_none] using absent
  simp only [withCharge, missing]

/-- Writing the charged rows back puts each on its own row. -/
theorem Resource.map_withCharge {old new : List Resource} (distinct : (old.map Resource.rid).Nodup)
    (charged : List.Forall₂ (fun before after => after = { before with charged := after.charged }) old new) :
    old.map (Resource.withCharge new) = new := by
  induction charged with
  | nil => rfl
  | @cons before after old new same rest ih =>
    obtain ⟨apart, distinct⟩ := List.nodup_cons.mp distinct
    have rid : after.rid = before.rid := by rw [same]
    have head : before.withCharge (after :: new) = after := by
      simp only [withCharge, List.find?_cons, rid, decide_true]
      exact same.symm
    have tail : old.map (Resource.withCharge (after :: new)) = old.map (Resource.withCharge new) := by
      refine List.map_congr_left fun row member => ?_
      have other : ¬ after.rid = row.rid := by
        rw [rid]
        intro equal
        exact apart (equal ▸ List.mem_map_of_mem member)
      simp only [withCharge, List.find?_cons, other, decide_false]
    rw [List.map_cons, head, tail, ih distinct]

namespace Database

theorem owns_withCharges (db : Database) (userId credit : Int) (rows : List Resource) (uid appId : Int) :
    (db.withCharges userId credit rows).owns uid appId = db.owns uid appId := rfl

theorem withCharges_user_self {db : Database} {user : User} (found : db.user.get? user.uid = some user)
    (credit : Int) (rows : List Resource) :
    (db.withCharges user.uid credit rows).user.get? user.uid = some { user with credit } :=
  Table.get?_modify_self found (fun user => { user with credit }) fun _ => rfl

theorem withCharges_user_other (db : Database) {userId uid : Int} (other : uid ≠ userId) (credit : Int)
    (rows : List Resource) : (db.withCharges userId credit rows).user.get? uid = db.user.get? uid :=
  Table.get?_modify_ne db.user other (fun user => { user with credit }) fun _ => rfl

theorem resourcesOf_nodup (db : Database) (userId : Int) : ((db.resourcesOf userId).map Resource.rid).Nodup :=
  db.resource.keyed.sublist (List.filter_sublist.map Resource.rid)

theorem resourcesOf_withCharges (db : Database) (userId credit uid : Int) (rows : List Resource) :
    (db.withCharges userId credit rows).resourcesOf uid = (db.resourcesOf uid).map (Resource.withCharge rows) := by
  simp only [resourcesOf, withCharges, Table.map_rows, List.filter_map]
  congr 2
  funext res
  simp only [Function.comp_apply, pays, Resource.withCharge_appId]
  rfl

theorem withCharges_self {db : Database} {now userId : Int} (credit : Int) :
    (db.withCharges userId credit (chargeResources now (db.resourcesOf userId) 0).1).resourcesOf userId =
      (chargeResources now (db.resourcesOf userId) 0).1 := by
  rw [resourcesOf_withCharges]
  exact Resource.map_withCharge (db.resourcesOf_nodup userId) (chargeResources_rows _ _ _)

/-- The rows of other users are not written. -/
theorem withCharges_other {db : Database} {now userId uid : Int} (credit : Int) (other : uid ≠ userId) :
    (db.withCharges userId credit (chargeResources now (db.resourcesOf userId) 0).1).resourcesOf uid =
      db.resourcesOf uid := by
  rw [resourcesOf_withCharges]
  refine (List.map_congr_left fun res member => Resource.withCharge_self ?_).trans (List.map_id _)
  intro row written same
  obtain ⟨stored, owner⟩ := mem_resourcesOf.mp member
  have rids : (chargeResources now (db.resourcesOf userId) 0).1.map Resource.rid =
      (db.resourcesOf userId).map Resource.rid := by
    refine List.ext_getElem (by simpa using (chargeResources_rows now _ 0).length_eq.symm) ?_
    intro i left right
    simp only [List.length_map] at left right
    have value := (List.forall₂_iff_get.mp (chargeResources_rows now (db.resourcesOf userId) 0)).2 i right left
    simpa only [List.getElem_map, List.get_eq_getElem] using congrArg Resource.rid value
  obtain ⟨source, inside, equal⟩ := List.mem_map.mp (rids ▸ List.mem_map_of_mem written)
  obtain ⟨kept, owner'⟩ := mem_resourcesOf.mp inside
  have one := db.resource.unique kept stored (equal.trans same)
  exact other (pays_unique owner (one ▸ owner'))

end Database

end ConPaaS
