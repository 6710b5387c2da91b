import ConPaaS.Lib.Transition
import ConPaaS.Director.Credits

namespace ConPaaS

open Keyed Transition

/-- The credit a round of the outer loop leaves to a user. -/
def User.creditAfter (now : Int) (rows : List Resource) (user : User) : Int :=
  user.credit - (chargeResources now rows 0).2

/-- The rows a round of the outer loop leaves to a user: none once the
credit is used up to zero. -/
def User.rowsAfter (now : Int) (rows : List Resource) (user : User) : List Resource :=
  if user.creditAfter now rows = 0 then [] else (chargeResources now rows 0).1

namespace Database

theorem checkUser_owns (now : Int) (state : Database × List Vm) (userId uid appId : Int) :
    (checkUser now state userId).1.owns uid appId = state.1.owns uid appId := by
  cases found : state.1.user.get? userId with
  | none => simp only [checkUser, found]
  | some user =>
    simp only [checkUser, found]
    split
    · rw [stopApplications_owns, owns_withCharges]
    · rfl

/-- Stopping all applications of a user takes that user's rows, and only those. -/
theorem stopAll_resourcesOf (db : Database) (vms : List Vm) (userId uid : Int) :
    (stopApplications userId (db.applicationsOf userId) (db, vms)).1.resourcesOf uid =
      if uid = userId then [] else db.resourcesOf uid := by
  have owned : ∀ appId ∈ db.applicationsOf userId, db.owns userId appId = true :=
    fun _ member => mem_applicationsOf.mp member
  have kept : (stopApplications userId (db.applicationsOf userId) (db, vms)).1.resource.rows =
      db.resource.rows.filter fun res => res.appId ∉ (db.applicationsOf userId).map some := stopApplications_resource owned
  simp only [resourcesOf, kept, List.filter_filter]
  split
  · rename_i same
    subst same
    refine List.filter_eq_nil_iff.mpr fun res _ both => ?_
    obtain ⟨owner, apart⟩ := Bool.and_eq_true_iff.mp both
    rw [stopApplications_pays] at owner
    obtain ⟨appId, named, owner⟩ := pays_iff.mp owner
    exact (of_decide_eq_true apart) (named ▸ List.mem_map_of_mem (mem_applicationsOf.mpr owner))
  · rename_i other
    refine List.filter_congr fun res _ => ?_
    rw [stopApplications_pays]
    cases owner : db.pays uid res with
    | false => simp
    | true =>
      have apart : res.appId ∉ (db.applicationsOf userId).map some := by
        intro member
        obtain ⟨appId, inside, named⟩ := List.mem_map.mp member
        exact other (pays_unique owner (pays_iff.mpr ⟨appId, named.symm, mem_applicationsOf.mp inside⟩))
      simp [apart]

theorem checkUser_user_other (now : Int) {userId uid : Int} (state : Database × List Vm) (other : uid ≠ userId) :
    (checkUser now state userId).1.user.get? uid = state.1.user.get? uid := by
  cases found : state.1.user.get? userId with
  | none => simp only [checkUser, found]
  | some user =>
    simp only [checkUser, found]
    split
    · rw [stopApplications_user]
      exact withCharges_user_other _ other _ _
    · exact withCharges_user_other _ other _ _

theorem checkUser_rows_other (now : Int) {userId uid : Int} (state : Database × List Vm) (other : uid ≠ userId) :
    (checkUser now state userId).1.resourcesOf uid = state.1.resourcesOf uid := by
  cases found : state.1.user.get? userId with
  | none => simp only [checkUser, found]
  | some user =>
    simp only [checkUser, found]
    split
    · rw [stopAll_resourcesOf, if_neg other, withCharges_other _ other]
    · exact withCharges_other _ other

theorem checkUser_user_self {now : Int} {state : Database × List Vm} {user : User}
    (found : state.1.user.get? user.uid = some user) :
    (checkUser now state user.uid).1.user.get? user.uid =
      some { user with credit := user.creditAfter now (state.1.resourcesOf user.uid) } := by
  simp only [checkUser, found]
  split
  · rw [stopApplications_user]
    exact withCharges_user_self found _ _
  · exact withCharges_user_self found _ _

theorem checkUser_rows_self {now : Int} {state : Database × List Vm} {user : User}
    (found : state.1.user.get? user.uid = some user) :
    (checkUser now state user.uid).1.resourcesOf user.uid =
      user.rowsAfter now (state.1.resourcesOf user.uid) := by
  unfold User.rowsAfter User.creditAfter
  simp only [checkUser, found]
  split
  · rw [stopAll_resourcesOf, if_pos rfl]
  · exact withCharges_self _

theorem foldl_checkUser_other {now uid : Int} {users : List Int} (apart : uid ∉ users) (state : Database × List Vm) :
    (users.foldl (checkUser now) state).1.user.get? uid = state.1.user.get? uid ∧
      (users.foldl (checkUser now) state).1.resourcesOf uid = state.1.resourcesOf uid := by
  induction users generalizing state with
  | nil => exact ⟨rfl, rfl⟩
  | cons userId rest ih =>
    obtain ⟨here, later⟩ := not_or.mp (List.mem_cons.not.mp apart)
    obtain ⟨user, rows⟩ := ih later (checkUser now state userId)
    exact ⟨user.trans (checkUser_user_other now state here), rows.trans (checkUser_rows_other now state here)⟩

/-- What happens to a user is decided by the round for that user alone. -/
theorem foldl_checkUser_self {now : Int} {user : User} {users : List Int} (distinct : users.Nodup)
    (member : user.uid ∈ users) {state : Database × List Vm} (found : state.1.user.get? user.uid = some user) :
    (users.foldl (checkUser now) state).1.user.get? user.uid =
        some { user with credit := user.creditAfter now (state.1.resourcesOf user.uid) } ∧
      (users.foldl (checkUser now) state).1.resourcesOf user.uid =
        user.rowsAfter now (state.1.resourcesOf user.uid) := by
  induction users generalizing state with
  | nil => cases member
  | cons userId rest ih =>
    obtain ⟨apart, distinct⟩ := List.nodup_cons.mp distinct
    by_cases here : user.uid = userId
    · subst here
      obtain ⟨kept, rows⟩ := foldl_checkUser_other apart (checkUser now state user.uid)
      exact ⟨kept.trans (checkUser_user_self found), rows.trans (checkUser_rows_self found)⟩
    · have found' := (checkUser_user_other now state here).trans found
      have result := ih distinct ((List.mem_cons.mp member).resolve_left here) found'
      rwa [checkUser_rows_other now state here] at result

theorem checkCredits_user (now : Int) {db : Database} {user : User} (member : user ∈ db.user.rows) :
    (checkCredits now db).1.user.get? user.uid =
        some { user with credit := user.creditAfter now (db.resourcesOf user.uid) } ∧
      (checkCredits now db).1.resourcesOf user.uid = user.rowsAfter now (db.resourcesOf user.uid) :=
  foldl_checkUser_self db.user.keyed (List.mem_map_of_mem member) (Table.get?_of_mem member)

theorem checkCredits_owns (now : Int) (db : Database) (uid appId : Int) :
    (checkCredits now db).1.owns uid appId = db.owns uid appId := by
  have kept (users : List Int) : ∀ state : Database × List Vm,
      (users.foldl (checkUser now) state).1.owns uid appId = state.1.owns uid appId := by
    induction users with
    | nil => exact fun _ => rfl
    | cons userId rest ih => exact fun state => (ih _).trans (checkUser_owns now state userId uid appId)
  exact kept _ (db, [])

end Database

/-- The rows of a table are paid for from zero on and not from the future. -/
def Database.Aged (clock : Int) (db : Database) : Prop := ∀ res ∈ db.resource.rows, res.Aged clock

theorem Database.Aged.mono {clock now : Int} {db : Database} (aged : db.Aged clock) (later : clock ≤ now) :
    db.Aged now := fun res member => ⟨(aged res member).1, (aged res member).2.trans later⟩

theorem Database.Aged.of_resourcesOf {clock : Int} {db : Database} (aged : db.Aged clock) (userId : Int) :
    ∀ res ∈ db.resourcesOf userId, res.Aged clock := fun res member => aged res (Database.mem_resourcesOf.mp member).1

theorem chargeResources_aged {now : Int} {rows : List Resource} (aged : ∀ res ∈ rows, res.Aged now)
    {toCharge : Int} (carried : 0 ≤ toCharge) : ∀ res ∈ (chargeResources now rows toCharge).1, res.Aged now := by
  induction rows generalizing toCharge with
  | nil => simp [chargeResources]
  | cons res rest ih =>
    have old := aged res (List.mem_cons_self ..)
    have later := fun row member => aged row (List.mem_cons_of_mem _ member)
    simp only [chargeResources]
    split
    · rename_i isDue
      obtain ⟨amount, positive⟩ := owed_due old isDue
      intro row member
      rcases List.mem_cons.mp member with rfl | member
      · have unpaid := old.1
        refine ⟨?_, old.2⟩
        change 0 ≤ res.charged + (toCharge + (totCost now res - res.charged + 1))
        omega
      · exact ih later (by omega) row member
    · intro row member
      rcases List.mem_cons.mp member with rfl | member
      · exact old
      · exact ih later carried row member

theorem Resource.withCharge_aged {now : Int} {rows : List Resource} (aged : ∀ row ∈ rows, row.Aged now)
    {res : Resource} (old : res.Aged now) : (res.withCharge rows).Aged now := by
  unfold withCharge
  split
  · rename_i row found
    exact ⟨(aged row (List.mem_of_find?_eq_some found)).1, old.2⟩
  · exact old

theorem Database.Aged.checkUser {now : Int} {state : Database × List Vm} (aged : state.1.Aged now) (userId : Int) :
    (Database.checkUser now state userId).1.Aged now := by
  have written (credit : Int) :
      (state.1.withCharges userId credit (chargeResources now (state.1.resourcesOf userId) 0).1).Aged now := by
    intro res member
    obtain ⟨old, stored, rfl⟩ := List.mem_map.mp member
    exact Resource.withCharge_aged (chargeResources_aged (aged.of_resourcesOf userId) le_rfl) (aged old stored)
  cases found : state.1.user.get? userId with
  | none => simpa only [Database.checkUser, found] using aged
  | some user =>
    simp only [Database.checkUser, found]
    split
    · intro res member
      rw [Database.stopApplications_resource (by exact fun _ => Database.mem_applicationsOf.mp)] at member
      exact written _ res (List.mem_filter.mp member).1
    · exact written _

theorem Database.Aged.checkCredits {now : Int} {db : Database} (aged : db.Aged now) :
    (db.checkCredits now).1.Aged now := by
  have preserved (users : List Int) : ∀ state : Database × List Vm, state.1.Aged now →
      (users.foldl (Database.checkUser now) state).1.Aged now := by
    induction users with
    | nil => exact fun _ old => old
    | cons userId rest ih => exact fun state old => ih _ (old.checkUser userId)
  exact preserved _ (db, []) aged

/-- What happens between two runs of `check_credits`: time passes until the
next run, and the rest of the director leaves any rows a director can hold. -/
inductive CreditEvent
  | checked (now : Int)
  | between (db : Database)

/-- The times and tables `check_credits` goes through. -/
def creditStep (before : Int × Database) : CreditEvent → Int × Database → Prop
  | .checked now, after => before.1 ≤ now ∧ after = (now, (before.2.checkCredits now).1)
  | .between db, after => db.Aged before.1 ∧ after = (before.1, db)

/-- The account of one user over a run. While credit is left, the fall of the
credit is the rise of the charges, and every row is paid for the hours begun,
whatever other rows there are. Credit used up to zero pays what was owed, and
the rows are gone with their applications. -/
structure Conserves (now : Int) (before after : Database) (user left : User) : Prop where
  found : after.user.get? user.uid = some left
  fall : left.credit ≠ 0 → user.credit - left.credit =
    ((after.resourcesOf user.uid).map Resource.charged).sum - ((before.resourcesOf user.uid).map Resource.charged).sum
  charged : left.credit ≠ 0 →
    after.resourcesOf user.uid = (before.resourcesOf user.uid).map (Resource.paid now)
  spent : left.credit = 0 → user.credit - left.credit = before.owedBy now user.uid ∧ after.resourcesOf user.uid = []

/-- The account of every user whose credit covers the charge. -/
def CreditLaw (now : Int) (before after : Database) : Prop :=
  ∀ user ∈ before.user.rows, before.owedBy now user.uid ≤ user.credit → ∃ left, Conserves now before after user left

/-- No running total is carried from one charged row into another: each user
who keeps some credit has at most one row to charge. -/
def ChargesOne (now : Int) (db : Database) : Prop :=
  ∀ user ∈ db.user.rows, db.owedBy now user.uid < user.credit →
    ((db.resourcesOf user.uid).filter (due now)).length ≤ 1

theorem creditAfter_eq {now : Int} {db : Database} (aged : db.Aged now) (user : User) :
    user.creditAfter now (db.resourcesOf user.uid) = user.credit - db.owedBy now user.uid := by
  rw [User.creditAfter, chargeResources_total (aged.of_resourcesOf _), Int.zero_add]
  rfl

theorem sum_paid (now : Int) (rows : List Resource) :
    ((rows.map (Resource.paid now)).map Resource.charged).sum =
      (rows.map Resource.charged).sum + (rows.map (owed now)).sum := by
  induction rows with
  | nil => rfl
  | cons res rest ih =>
    have head : (res.paid now).charged = res.charged + owed now res := by
      simp only [Resource.paid, owed]
      ring
    simp only [List.map_cons, List.sum_cons, ih, head]
    ring

/-- One user's account balances exactly if at most one row of the user is
charged or nothing of the credit is left. -/
theorem conserves_iff {now : Int} {db : Database} (aged : db.Aged now) {user : User} (member : user ∈ db.user.rows)
    (covered : db.owedBy now user.uid ≤ user.credit) :
    (∃ left, Conserves now db (db.checkCredits now).1 user left) ↔
      (db.owedBy now user.uid < user.credit → ((db.resourcesOf user.uid).filter (due now)).length ≤ 1) := by
  obtain ⟨found, rows⟩ := Database.checkCredits_user now member
  have credit := creditAfter_eq aged user
  rw [← chargeResources_paid_iff (aged.of_resourcesOf user.uid)]
  constructor
  · rintro ⟨left, account⟩ more
    have same : left = { user with credit := user.creditAfter now (db.resourcesOf user.uid) } :=
      Option.some.inj (account.found.symm.trans found)
    have some : left.credit ≠ 0 := by rw [same]; show user.creditAfter _ _ ≠ 0; omega
    have charged := account.charged some
    rwa [rows, User.rowsAfter, if_neg (by omega)] at charged
  · intro paid
    refine ⟨_, found, fun more => ?_, fun more => ?_, fun none => ?_⟩
    · have charged := paid (by change user.creditAfter _ _ ≠ 0 at more; omega)
      rw [rows, User.rowsAfter, if_neg more, charged, sum_paid]
      change user.credit - user.creditAfter _ _ = _
      rw [credit, Database.owedBy]
      ring
    · rw [rows, User.rowsAfter, if_neg more]
      exact paid (by change user.creditAfter _ _ ≠ 0 at more; omega)
    · rw [rows, User.rowsAfter, if_pos none]
      change user.credit - user.creditAfter _ _ = _ ∧ _
      exact ⟨by omega, rfl⟩

/-- Ages are kept by every step. -/
theorem creditStep_aged {before after : Int × Database} {event : CreditEvent} (aged : before.2.Aged before.1)
    (taken : creditStep before event after) : after.2.Aged after.1 := by
  cases event with
  | checked now =>
    obtain ⟨later, rfl⟩ := taken
    exact (aged.mono later).checkCredits
  | between db =>
    obtain ⟨old, rfl⟩ := taken
    exact old

/-- In every run of the director, a check of the credits balances the account
of every user whose credit covers the charge exactly when no user who keeps
credit has two rows charged in it. -/
theorem creditLaw_iff {start current : Int × Database} {events : List CreditEvent} {now : Int}
    (first : start.2.Aged start.1) (run : Run creditStep start events current) (later : current.1 ≤ now) :
    CreditLaw now current.2 (current.2.checkCredits now).1 ↔ ChargesOne now current.2 := by
  have reached : current.2.Aged current.1 := run.invariant first creditStep_aged
  have aged : current.2.Aged now := reached.mono later
  constructor
  · intro law user member more
    exact (conserves_iff aged member more.le).mp (law user member more.le) more
  · intro one user member covered
    exact (conserves_iff aged member covered).mpr (one user member)

/-- A user with fifty credits who runs two machines since time zero. -/
def twoMachines : Database where
  user := ⟨[⟨1, "ann", "ann@example.org", 50⟩], by decide⟩
  application := ⟨[⟨1, "shop", .running, 1⟩], firstRow_distinct⟩
  resource := ⟨[⟨1, "vm1", some 1, some 1, 0, "10.0.0.1", "agent", "iaas", 0⟩, ⟨2, "vm2", some 1, some 1, 0, "10.0.0.2", "agent", "iaas", 0⟩],
    by decide⟩
  service := .empty

theorem twoMachines_aged : twoMachines.Aged 0 := by
  intro res member
  simp only [twoMachines, List.mem_cons, List.not_mem_nil, or_false] at member
  rcases member with rfl | rfl <;> exact ⟨by decide, by decide⟩

/-- The first check of two fresh machines takes two credits and records
three: the second machine is charged for the first as well. -/
theorem twoMachines_overcharged :
    ¬ ∀ (start current : Int × Database) (events : List CreditEvent) (now : Int), start.2.Aged start.1 →
      Run creditStep start events current → current.1 ≤ now →
      CreditLaw now current.2 (current.2.checkCredits now).1 := by
  intro conserved
  have law := conserved (0, twoMachines) (0, twoMachines) [] 0 twoMachines_aged .start le_rfl
  obtain ⟨left, account⟩ := law ⟨1, "ann", "ann@example.org", 50⟩ (by decide) (by decide)
  have same : left = ⟨1, "ann", "ann@example.org", 48⟩ := Option.some.inj (account.found.symm.trans (by decide))
  have charged := account.charged (by rw [same]; decide)
  exact absurd charged (by decide)

/-- The same user with one machine. -/
def oneMachine : Database :=
  { twoMachines with resource := ⟨[⟨1, "vm1", some 1, some 1, 0, "10.0.0.1", "agent", "iaas", 0⟩], by decide⟩ }

/-- With one machine, a second check an hour after the first is exact. -/
theorem oneMachine_conserved :
    CreditLaw 3600 (oneMachine.checkCredits 0).1 ((oneMachine.checkCredits 0).1.checkCredits 3600).1 := by
  have checked : Run creditStep (0, oneMachine) [.checked 0] (0, (oneMachine.checkCredits 0).1) :=
    Run.single ⟨le_rfl, rfl⟩
  refine (creditLaw_iff ?_ checked (by decide)).mpr ?_
  · intro res member
    simp only [oneMachine, List.mem_singleton] at member
    subst member
    exact ⟨by decide, by decide⟩
  · intro user member _
    have rows : ((oneMachine.checkCredits 0).1.resource.rows.filter (due 3600)).length ≤ 1 := by decide
    refine le_trans (List.Sublist.length_le ?_) rows
    exact List.filter_sublist.filter _

end ConPaaS
