import ConPaaS.Director.Certificates
import ConPaaS.Director.Isolation
import ConPaaS.Lib.Fallible
import Mathlib.Data.Fintype.EquivFin

namespace ConPaaS

open Keyed Fallible

namespace Database

/-- An application's rows are among those its user pays for. -/
theorem own_eq_filter {db : Database} {userId appId : Int} (owner : db.owns userId appId = true) :
    db.own appId = (db.resourcesOf userId).filter fun res => res.appId = some appId := by
  rw [own, resourcesOf, List.filter_filter]
  refine List.filter_congr fun res _ => ?_
  by_cases named : res.appId = some appId
  · simp [named, pays, owner]
  · simp [named]

/-- What a check of the credits leaves of an application's rows. -/
theorem checkCredits_own (now : Int) {db : Database} {user : User} (member : user ∈ db.user.rows) {appId : Int}
    (owner : db.owns user.uid appId = true) : (db.checkCredits now).1.own appId =
      (user.rowsAfter now (db.resourcesOf user.uid)).filter fun res => res.appId = some appId := by
  rw [own_eq_filter ((checkCredits_owns now db user.uid appId).trans owner), (checkCredits_user now member).2]

/-- The tables with one application and a row its user has in another one. -/
def crowded (db : Database) (appId : Int) (user : User) (res : Resource) : Database :=
  { db.alone appId with
    application := (db.alone appId).application.put ⟨appId + 1, "", .running, user.uid⟩
    resource := (db.alone appId).resource.put res }

/-- A row of another application that is new to the tables of the one. -/
structure Stranger (db : Database) (appId : Int) (res : Resource) : Prop where
  app : res.appId = some (appId + 1)
  rid : ∀ row ∈ db.own appId, row.rid ≠ res.rid
  low : res.rid ≤ 0
  vmid : ¬ db.Has appId res.vmid

theorem crowded_rows {db : Database} {appId : Int} (user : User) {res : Resource} (stranger : db.Stranger appId res) :
    (db.crowded appId user res).resource.rows = res :: (db.alone appId).resource.rows :=
  Table.put_fresh (Table.get?_none_iff.mpr fun row member => stranger.rid row (mem_alone.mp member))

theorem crowded_alike {db : Database} (unique : db.VmidsUnique) {appId : Int} (user : User) {res : Resource}
    (stranger : db.Stranger appId res) : db.Alike appId (db.crowded appId user res) where
  user := rfl
  application := by
    refine (Table.get?_put_ne _ ?_).trans (alone_alike unique appId).application
    change appId ≠ appId + 1
    omega
  resource := by
    rw [own, crowded_rows user stranger, List.filter_cons_of_neg (by simp [stranger.app])]
    exact (alone_alike unique appId).resource
  service := (alone_alike unique appId).service
  vmids := by
    unfold VmidsUnique
    rw [crowded_rows user stranger]
    refine List.nodup_cons.mpr ⟨fun member => ?_, (alone_alike unique appId).vmids⟩
    obtain ⟨row, inside, same⟩ := List.mem_map.mp member
    exact stranger.vmid ⟨row, mem_alone.mp inside, same⟩

theorem crowded_nextRid {db : Database} {appId : Int} (user : User) {res : Resource}
    (stranger : db.Stranger appId res) :
    nextRid (db.crowded appId user res).resource.rows = nextRid (db.alone appId).resource.rows := by
  have positive (rids : List Int) : 0 ≤ rids.foldr max 0 := by
    induction rids with
    | nil => exact le_rfl
    | cons rid rest ih => exact ih.trans (le_max_right _ _)
  rw [crowded_rows user stranger]
  unfold nextRid
  rw [List.map_cons, List.foldr_cons, max_eq_right (stranger.low.trans (positive _))]

/-- There are strangers that cost any number of credits. -/
theorem exists_stranger (db : Database) (appId now : Int) (taken : List String) (cost : Int) :
    ∃ res, db.Stranger appId res ∧ res.vmid ∉ taken ∧ due now res = true ∧ totCost now res - res.charged + 1 = cost := by
  have below (rows : List Resource) : ∃ low ≤ (0 : Int), ∀ row ∈ rows, low < row.rid := by
    induction rows with
    | nil => exact ⟨0, le_rfl, fun _ member => nomatch member⟩
    | cons row rest ih =>
      obtain ⟨low, under, lower⟩ := ih
      refine ⟨min low (row.rid - 1), (min_le_left _ _).trans under, ?_⟩
      intro other member
      rcases List.mem_cons.mp member with rfl | member
      · omega
      · have lowest := lower other member
        omega
  obtain ⟨low, under, lower⟩ := below (db.own appId)
  obtain ⟨vmid, new⟩ := Infinite.exists_notMem_finset (((db.own appId).map Resource.vmid ++ taken).toFinset)
  simp only [List.mem_toFinset, List.mem_append, not_or] at new
  have total : totCost now ⟨low, vmid, some (appId + 1), none, 0, "", "agent", "iaas", now - 3600 * (cost - 1)⟩ =
      cost - 1 := by
    simp only [totCost, minsFromCreation, chargingUnit]
    omega
  refine ⟨⟨low, vmid, some (appId + 1), none, 0, "", "agent", "iaas", now - 3600 * (cost - 1)⟩,
    ⟨rfl, fun row member => (lower row member).ne', under, ?_⟩, new.2, ?_, ?_⟩
  · rintro ⟨row, owned, same⟩
    exact new.1 (List.mem_map.mpr ⟨row, owned, same⟩)
  · simp [due]
  · rw [total]
    ring

end Database

namespace Outside

variable {outside : Outside} {now : Int} {order : AgentOrder} {nodes : List ServiceNode}

/-- The rows a table has once the machines that started have theirs. -/
def registered (outside : Outside) (now : Int) (order : AgentOrder) (nodes : List ServiceNode) (rows : List Resource) :
    List Resource :=
  rows ++ Database.numbered (Database.nextRid rows) (nodes.map (outside.newResource now order))

theorem mem_registered {rows : List Resource} {res : Resource} (member : res ∈ outside.registered now order nodes rows) :
    res ∈ rows ∨ res.appId = outside.column order.appId := by
  rcases List.mem_append.mp member with old | new
  · exact Or.inl old
  · obtain ⟨-, row, inside, same⟩ := Database.mem_numbered new
    obtain ⟨node, -, rfl⟩ := List.mem_map.mp inside
    exact Or.inr (by rw [same]; rfl)

/-- A new row is charged in the check that follows. -/
theorem registered_due (nonempty : nodes ≠ []) (rows : List Resource) :
    ∃ res ∈ outside.registered now order nodes rows, due now res = true := by
  obtain ⟨node, rest, rfl⟩ := List.exists_cons_of_ne_nil nonempty
  refine ⟨{ outside.newResource now order node with rid := Database.nextRid rows }, ?_, ?_⟩
  · exact List.mem_append_right _ (List.mem_cons_self ..)
  · simp [due, newResource]

/-- The charges of an application's rows after machines are registered are
what the check makes of all the rows of its user. -/
theorem register_charges {db : Database} {user : User} {appId : Int} (nonempty : nodes ≠ [])
    (accepts : ¬ db.Refuses (nodes.map (outside.newResource now order))) (member : user ∈ db.user.rows)
    (owner : db.owns user.uid appId = true)
    (paid : ∀ res ∈ outside.registered now order nodes db.resource.rows, db.pays user.uid res = true) :
    ((outside.register now db order nodes).db.share appId).resource.map Resource.charged =
      ((user.rowsAfter now (outside.registered now order nodes db.resource.rows)).filter
        fun res => res.appId = some appId).map Resource.charged := by
  obtain ⟨next, added, ok⟩ := Database.addResources_accepts accepts
  obtain ⟨-, rows, tables, table⟩ := Database.addResources_ok ok
  have known : user ∈ next.user.rows := by rw [tables]; exact member
  have owner' : next.owns user.uid appId = true := by rw [tables]; exact owner
  have all : next.resourcesOf user.uid = outside.registered now order nodes db.resource.rows := by
    have same : next.resource.rows = outside.registered now order nodes db.resource.rows := by rw [table, rows]; rfl
    rw [Database.resourcesOf, same, tables]
    exact List.filter_eq_self.mpr paid
  simp only [register, if_neg nonempty, ok, Database.share, List.map_map]
  rw [Database.checkCredits_own now known owner', all]
  rfl

end Outside

/-- The user's other rows carry over: with one of them in front, the rows of
the application are charged in another way. -/
theorem rowsAfter_moved {now : Int} {user : User} {appId : Int} {rows : List Resource} {res : Resource}
    (own : ∀ row ∈ rows, row.appId = some appId) (some : ∃ row ∈ rows, due now row = true)
    (other : res.appId ≠ .some appId) (isDue : due now res = true)
    (positive : 0 < totCost now res - res.charged + 1)
    (left : user.creditAfter now rows ≠ totCost now res - res.charged + 1) :
    ((user.rowsAfter now (res :: rows)).filter fun row => row.appId = .some appId).map Resource.charged ≠
      ((user.rowsAfter now rows).filter fun row => row.appId = .some appId).map Resource.charged := by
  set cost := totCost now res - res.charged + 1
  have kept (toCharge : Int) : (chargeResources now rows toCharge).1.filter (fun row => row.appId = .some appId) =
      (chargeResources now rows toCharge).1 := by
    refine List.filter_eq_self.mpr fun row member => ?_
    have app : row.appId ∈ rows.map Resource.appId :=
      chargeResources_appId now rows toCharge ▸ List.mem_map_of_mem member
    obtain ⟨source, inside, same⟩ := List.mem_map.mp app
    simpa using same ▸ own source inside
  have charged : chargeResources now (res :: rows) 0 =
      ({ res with charged := res.charged + (0 + cost) } :: (chargeResources now rows (0 + cost)).1,
        (chargeResources now rows (0 + cost)).2) := by
    simp only [chargeResources, if_pos isDue, cost]
  have more : user.creditAfter now (res :: rows) = user.creditAfter now rows - cost := by
    simp only [User.creditAfter, charged, chargeResources_add]
    ring
  have front : (user.rowsAfter now (res :: rows)).filter (fun row => row.appId = .some appId) =
      (chargeResources now rows (0 + cost)).1 := by
    rw [User.rowsAfter, if_neg (by omega), charged, List.filter_cons_of_neg (by simpa using other), kept]
  rw [front, User.rowsAfter]
  split
  · intro none
    obtain ⟨row, member, -⟩ := some
    have length := congrArg List.length (chargeResources_appId now rows (0 + cost))
    simp only [List.filter_nil, List.map_nil, List.map_eq_nil_iff] at none
    rw [none] at length
    exact List.ne_nil_of_mem member (List.length_eq_zero_iff.mp (by simpa using length.symm))
  · rw [kept]
    exact chargeResources_moved some 0 positive.ne'

namespace Outside

variable {outside : Outside} {now : Int} {order : AgentOrder} {nodes : List ServiceNode}

/-- The rows of new machines are accepted where their ids are new. -/
theorem accepts_new {db : Database} (distinct : (nodes.map ServiceNode.vmid).Nodup)
    (new : ∀ node ∈ nodes, ∀ res ∈ db.resource.rows, res.vmid ≠ node.vmid) :
    ¬ db.Refuses (nodes.map (outside.newResource now order)) := by
  rintro (repeated | ⟨row, member, res, stored, same⟩)
  · rw [List.map_map] at repeated
    exact repeated distinct
  · obtain ⟨node, inside, rfl⟩ := List.mem_map.mp member
    exact new node inside res stored same

/-- Registering machines never keeps to an application. Either the rows are not
the application's or a row its user has in another application moves the
charges of its rows in the check that follows. -/
theorem register_leaks {holder : CloudVolume → Option Int} {db : Database} (unique : db.VmidsUnique) {user : User}
    {app : Application} (member : user ∈ db.user.rows) (inside : app ∈ db.application.rows)
    (owner : app.userId = user.uid) (nonempty : nodes ≠ []) (distinct : (nodes.map ServiceNode.vmid).Nodup)
    (new : ∀ node ∈ nodes, ¬ db.Has app.aid node.vmid) :
    ¬ ∀ other, db.Alike app.aid other → (outside.register now other order nodes).Confined other holder app.aid ∧
      (outside.register now other order nodes).db.share app.aid =
        (outside.register now db order nodes).db.share app.aid := by
  intro apart
  have single := Database.alone_alike unique app.aid
  have ownedAlone : (db.alone app.aid).owns user.uid app.aid = true :=
    Database.owns_iff.mpr ⟨app, by simpa [Database.alone] using inside, rfl, owner⟩
  have acceptsAlone : ¬ (db.alone app.aid).Refuses (nodes.map (outside.newResource now order)) :=
    accepts_new distinct fun node listed res stored same => new node listed ⟨res, Database.mem_alone.mp stored, same⟩
  have named : outside.column order.appId = some app.aid := by
    obtain ⟨next, added, ok⟩ := Database.addResources_accepts acceptsAlone
    obtain ⟨node, rest, rfl⟩ := List.exists_cons_of_ne_nil nonempty
    obtain ⟨-, rows, -, -⟩ := Database.addResources_ok ok
    have confined := (apart _ single).1
    simp only [register, if_neg nonempty, ok, rows, Reply.Confined] at confined
    refine confined (.rowCreated { outside.newResource now order node with
      rid := Database.nextRid (db.alone app.aid).resource.rows }) ?_
    simp [Database.numbered]
  have own : ∀ res ∈ outside.registered now order nodes (db.alone app.aid).resource.rows, res.appId = some app.aid := by
    intro res listed
    rcases mem_registered listed with stored | fresh
    · exact (Database.mem_own.mp (Database.mem_alone.mp stored)).2
    · exact fresh.trans named
  -- One credit more or less tells the two databases apart, unless it is the last one.
  obtain ⟨cost, positive, left⟩ : ∃ cost > 0, user.creditAfter now
      (outside.registered now order nodes (db.alone app.aid).resource.rows) ≠ cost := by
    by_cases last : user.creditAfter now (outside.registered now order nodes (db.alone app.aid).resource.rows) = 1
    · exact ⟨2, by decide, by omega⟩
    · exact ⟨1, by decide, last⟩
  obtain ⟨res, stranger, apartIds, isDue, price⟩ :=
    Database.exists_stranger db app.aid now (nodes.map ServiceNode.vmid) cost
  have crowded := Database.crowded_alike unique user stranger
  have table := Database.crowded_rows user stranger
  have rows : outside.registered now order nodes (db.crowded app.aid user res).resource.rows =
      res :: outside.registered now order nodes (db.alone app.aid).resource.rows := by
    rw [registered, Database.crowded_nextRid user stranger, table]
    rfl
  have ownedCrowded (appId : Int) (mine : appId = app.aid ∨ appId = app.aid + 1) :
      (db.crowded app.aid user res).owns user.uid appId = true := by
    refine Database.owns_iff.mpr ?_
    rcases mine with rfl | rfl
    · refine ⟨app, ?_, rfl, owner⟩
      simp only [Database.crowded, Table.put_rows, List.mem_cons, Table.mem_erase]
      exact Or.inr ⟨by simpa [Database.alone] using inside, by omega⟩
    · exact ⟨⟨app.aid + 1, "", .running, user.uid⟩, List.mem_cons_self .., rfl, rfl⟩
  have acceptsCrowded : ¬ (db.crowded app.aid user res).Refuses (nodes.map (outside.newResource now order)) := by
    refine accepts_new distinct fun node listed row stored same => ?_
    rcases List.mem_cons.mp (table ▸ stored) with rfl | stored
    · exact apartIds (same ▸ List.mem_map_of_mem listed)
    · exact new node listed ⟨row, Database.mem_alone.mp stored, same⟩
  have shares := ((apart _ crowded).2).trans ((apart _ single).2).symm
  have charges := congrArg (fun share => share.resource.map Resource.charged) shares
  rw [register_charges nonempty acceptsCrowded member (ownedCrowded _ (Or.inl rfl)),
    register_charges nonempty acceptsAlone member ownedAlone, rows] at charges
  · exact rowsAfter_moved own (registered_due nonempty _) (by simp [stranger.app]) isDue (price ▸ positive)
      (price ▸ left) charges
  · exact fun row listed => Database.pays_iff.mpr ⟨app.aid, own row listed, ownedAlone⟩
  · intro row listed
    rcases List.mem_cons.mp (rows ▸ listed) with rfl | listed
    · exact Database.pays_iff.mpr ⟨app.aid + 1, stranger.app, ownedCrowded _ (Or.inr rfl)⟩
    · exact Database.pays_iff.mpr ⟨app.aid, own row listed, ownedCrowded _ (Or.inl rfl)⟩

end Outside

/-- A handler that leaves the tables alone keeps to an application exactly if
its acts do. -/
theorem apart_acts_iff {holder : CloudVolume → Option Int} {appId : Int} {db : Database} (unique : db.VmidsUnique)
    {response : Response} {acts : List Act} : Apart holder appId db (fun other => ⟨response, other, acts⟩) ↔
      ∀ other, db.Alike appId other → Reply.Confined ⟨response, other, acts⟩ other holder appId := by
  constructor
  · exact fun apart other alike => (apart other alike).1
  · intro confined other alike
    exact ⟨confined other alike, .of_acts rfl alike.share rfl (confined db (.refl appId unique)) (confined other alike)⟩

namespace Outside

variable {outside : Outside} {now : Int} {order : AgentOrder} {nodes : List ServiceNode}

/-- Volumes made and machines deleted in a launch are the application's if it
is the one the order names. -/
def LaunchesOwn (outside : Outside) (holder : CloudVolume → Option Int) (appId : Int) (order : AgentOrder)
    (launch : Launch) : Prop :=
  (launch.volumes ≠ [] → outside.column order.appId = some appId) ∧
    ∀ vm ∈ outside.reached (launch.failed.map ServiceNode.entry),
      outside.KillsOwn holder appId (outside.column order.appId) vm

theorem launchActs_confined {db : Database} {holder : CloudVolume → Option Int} {appId : Int} {launch : Launch} :
    (∀ act ∈ (outside.launchActs order launch).1, act.owner db holder = some appId) ↔
      outside.LaunchesOwn holder appId order launch := by
  simp only [launchActs, List.mem_append, or_imp, forall_and, LaunchesOwn]
  refine and_congr ?_ deleteNodes_confined
  constructor
  · intro all nonempty
    obtain ⟨volume, rest, same⟩ := List.exists_cons_of_ne_nil nonempty
    exact all (.newVolume _ volume) (by simp [same])
  · intro named act member
    obtain ⟨volume, inside, rfl⟩ := List.mem_map.mp member
    exact named (List.ne_nil_of_mem inside)

/-- Machines that need no rows, or whose rows are refused because of their own
ids or the application's rows. -/
def RegistersNone (db : Database) (appId : Int) (nodes : List ServiceNode) : Prop :=
  nodes = [] ∨ ¬ (nodes.map ServiceNode.vmid).Nodup ∨ ∃ node ∈ nodes, db.Has appId node.vmid

theorem register_none (outside : Outside) (now : Int) (order : AgentOrder) {db : Database} {appId : Int} (none : RegistersNone db appId nodes) :
    ∃ response, ∀ other, db.Alike appId other → outside.register now other order nodes = ⟨response, other, []⟩ := by
  by_cases empty : nodes = []
  · exact ⟨.nodes [], fun other _ => by simp only [register, if_pos empty]⟩
  · refine ⟨.crashed "IntegrityError", fun other alike => ?_⟩
    have refused : other.Refuses (nodes.map (outside.newResource now order)) := by
      rcases none.resolve_left empty with repeated | ⟨node, listed, has⟩
      · refine Or.inl fun distinct => repeated ?_
        rw [List.map_map] at distinct
        exact distinct
      · obtain ⟨res, owned, same⟩ := (alike.has node.vmid).mpr has
        exact Or.inr ⟨_, List.mem_map_of_mem listed, res, (Database.mem_own.mp owned).1, same⟩
    simp only [register, if_neg empty, Database.addResources, if_pos refused]

end Outside

namespace Outside

variable {outside : Outside} {now : Int} {order : AgentOrder}

theorem settle_apart_iff {holder : CloudVolume → Option Int} {db : Database} (unique : db.VmidsUnique) {user : User}
    {app : Application} (member : user ∈ db.user.rows) (inside : app ∈ db.application.rows)
    (owner : app.userId = user.uid) {launch : Launch} :
    Apart holder app.aid db (fun other => outside.settle now other order launch) ↔
      outside.LaunchesOwn holder app.aid order launch ∧
        (outside.Known (launch.failed.map ServiceNode.entry) →
          ∀ nodes, launch.ready = .ok nodes → RegistersNone db app.aid nodes) := by
  have deleted : (outside.launchActs order launch).2 = .ok () ↔ outside.Known (launch.failed.map ServiceNode.entry) :=
    deleteNodes_ok
  have crashes (error : String) (same : ∀ other, outside.settle now other order launch =
      ⟨.crashed error, other, (outside.launchActs order launch).1⟩) :
      Apart holder app.aid db (fun other => outside.settle now other order launch) ↔
        outside.LaunchesOwn holder app.aid order launch := by
    simp only [same, apart_acts_iff unique, Reply.Confined, launchActs_confined]
    exact ⟨fun all => all db (.refl _ unique), fun own _ _ => own⟩
  cases ready : launch.ready with
  | error error =>
    rw [crashes error fun other => by simp only [settle, ready]]
    simp
  | ok nodes =>
    cases outcome : (outside.launchActs order launch).2 with
    | error error =>
      rw [crashes error fun other => by simp only [settle, ready, outcome]]
      simp [← deleted, outcome]
    | ok =>
      have replies (other : Database) : outside.settle now other order launch =
          { outside.register now other order nodes with
            acts := (outside.launchActs order launch).1 ++ (outside.register now other order nodes).acts } := by
        simp only [settle, ready, outcome]
      simp only [deleted.mp outcome, true_implies, Except.ok.injEq, forall_eq', replies]
      constructor
      · intro apart
        refine ⟨launchActs_confined.mp fun act member =>
          (apart db (.refl _ unique)).1 act (List.mem_append_left _ member), ?_⟩
        by_contra registers
        obtain ⟨nonempty, rest⟩ := not_or.mp registers
        obtain ⟨distinct, new⟩ := not_or.mp rest
        have registering : ∀ other, db.Alike app.aid other →
            (outside.register now other order nodes).Confined other holder app.aid ∧
              (outside.register now other order nodes).db.share app.aid =
                (outside.register now db order nodes).db.share app.aid := by
          intro other alike
          obtain ⟨confined, same⟩ := apart other alike
          exact ⟨fun act member => confined act (List.mem_append_right _ member), same.share⟩
        exact register_leaks unique member inside owner nonempty (not_not.mp distinct)
          (fun node listed has => new ⟨node, listed, has⟩) registering
      · rintro ⟨own, none⟩
        obtain ⟨response, registered⟩ := register_none outside now order none
        intro other alike
        have confined {tables : Database} : Reply.Confined
            ⟨response, tables, (outside.launchActs order launch).1⟩ tables holder app.aid :=
          launchActs_confined.mpr own
        simp only [registered other alike, registered db (.refl _ unique), List.append_nil]
        exact ⟨confined, .of_acts rfl alike.share rfl confined confined⟩

end Outside

/-- What a request to create nodes may do: everything that is made or deleted
on the way is the application's, and no machine is registered. -/
def CreatesOwn (outside : Outside) (holder : CloudVolume → Option Int) (db : Database) (user : User) (appId : Int)
    (body : CreateNodes) : Prop :=
  ∀ infos context, body.nodesInfo = some infos → body.context = some context → 0 < user.credit →
    let order := body.order user.uid context
    let launch := outside.launch order (infos.map NodeInfo.withDefault)
    outside.LaunchesOwn holder appId order launch ∧
      (outside.Known (launch.failed.map ServiceNode.entry) →
        ∀ nodes, launch.ready = .ok nodes → Outside.RegistersNone db appId nodes)

theorem createNodes_apart_iff {outside : Outside} {holder : CloudVolume → Option Int} {now : Int} {db : Database}
    (unique : db.VmidsUnique) {user : User} {app : Application} (member : user ∈ db.user.rows)
    (inside : app ∈ db.application.rows) (owner : app.userId = user.uid) {body : CreateNodes} :
    Apart holder app.aid db (fun other => Director.createNodes outside now other user body) ↔
      CreatesOwn outside holder db user app.aid body := by
  unfold Director.createNodes CreatesOwn
  cases readable : body.nodesInfo with
  | none => simp [apart_acts_iff unique, Reply.Confined]
  | some infos =>
    cases parsed : body.context with
    | none => simp [apart_acts_iff unique, Reply.Confined]
    | some context =>
      by_cases poor : user.credit ≤ 0
      · simp only [if_pos poor, apart_acts_iff unique]
        simp [Reply.Confined, poor]
      · simp only [if_neg poor]
        rw [Outside.settle_apart_iff unique member inside owner]
        constructor
        · rintro own _ _ ⟨⟩ ⟨⟩ -
          exact own
        · intro own
          exact own infos context rfl rfl (Int.not_le.mp poor)

/-- A request that leaves the tables alone is judged by its acts. -/
theorem outsideTables_apart_iff {holder : CloudVolume → Option Int} {appId : Int} {db : Database}
    (unique : db.VmidsUnique) {reply : VolumeReply} :
    Apart holder appId db (fun other => Director.outsideTables other reply) ↔
      ∀ response acts, reply = .ok (response, acts) →
        ∀ other, db.Alike appId other → ∀ act ∈ acts, act.owner other holder = some appId := by
  cases reply with
  | error error => simp [Director.outsideTables, apart_acts_iff unique, Reply.Confined]
  | ok answer =>
    simp only [Director.outsideTables, apart_acts_iff unique, Reply.Confined]
    constructor
    · rintro own response acts ⟨⟩
      exact own
    · exact fun own => own _ _ rfl

namespace Outside

variable (outside : Outside)

/-- The cloud a form names is in the configuration under a name. -/
def CloudOf (cloud : Option String) (name : String) : Prop :=
  ∃ text, pythonStr cloud = .ok text ∧ outside.getCloudByName (some text) = .ok name

/-- What a cloud is made to do to a volume is done to one of the application's. -/
def CallsOwn (holder : CloudVolume → Option Int) (appId : Int) (volumeId cloud : Option String)
    (call : String → String → Except String Bool) : Prop :=
  ∀ volume site, pythonStr volumeId = .ok volume → outside.CloudOf cloud site → call volume site = .ok true →
    holder ⟨volume, site⟩ = some appId

/-- A volume that is made is made for a machine of the application. -/
def MakesOwn (db : Database) (appId : Int) (size name vmId cloud : Option String) : Prop :=
  ∀ number label vm site volumeId, formInt size = .ok number → pythonStr name = .ok label → pythonStr vmId = .ok vm →
    outside.CloudOf cloud site → outside.createVolume number label vm site = .ok volumeId → db.Has appId vm

end Outside

section

variable {outside : Outside} {holder : CloudVolume → Option Int} {appId : Int} {db : Database}

theorem createVolume_ok {size name vmId cloud : Option String} {response : Response} {acts : List Act} :
    Director.createVolume outside size name vmId cloud = .ok (response, acts) ↔
      ∃ number label vm site volumeId, formInt size = .ok number ∧ pythonStr name = .ok label ∧
        pythonStr vmId = .ok vm ∧ outside.CloudOf cloud site ∧
        outside.createVolume number label vm site = .ok volumeId ∧
        response = .volumeId volumeId ∧ acts = [.volumeCreated vm ⟨volumeId, site⟩] := by
  simp only [Director.createVolume, bind_ok, pure, Except.pure, Except.ok.injEq, Prod.mk.injEq, Outside.CloudOf]
  constructor
  · rintro ⟨number, sized, label, labelled, vm, named, text, read, site, known, volumeId, made, rfl, rfl⟩
    exact ⟨number, label, vm, site, volumeId, sized, labelled, named, ⟨text, read, known⟩, made, rfl, rfl⟩
  · rintro ⟨number, label, vm, site, volumeId, sized, labelled, named, ⟨text, read, known⟩, made, rfl, rfl⟩
    exact ⟨number, sized, label, labelled, vm, named, text, read, site, known, volumeId, made, rfl, rfl⟩

theorem volumeCall_ok {volumeId cloud : Option String} {call : String → String → Except String Bool}
    {act : CloudVolume → Act} {response : Response} {acts : List Act} :
    Director.volumeCall outside volumeId cloud call act = .ok (response, acts) ↔
      ∃ volume site carried, pythonStr volumeId = .ok volume ∧ outside.CloudOf cloud site ∧
        call volume site = .ok carried ∧ response = .done ∧ acts = if carried then [act ⟨volume, site⟩] else [] := by
  simp only [Director.volumeCall, bind_ok, pure, Except.pure, Except.ok.injEq, Prod.mk.injEq, Outside.CloudOf]
  constructor
  · rintro ⟨volume, listed, text, read, site, known, carried, made, rfl, rfl⟩
    exact ⟨volume, site, carried, listed, ⟨text, read, known⟩, made, rfl, rfl⟩
  · rintro ⟨volume, site, carried, listed, ⟨text, read, known⟩, made, rfl, rfl⟩
    exact ⟨volume, listed, text, read, site, known, carried, made, rfl, rfl⟩

theorem createVolume_apart_iff (unique : db.VmidsUnique) {size name vmId cloud : Option String} :
    Apart holder appId db (fun other => Director.outsideTables other (Director.createVolume outside size name vmId cloud)) ↔
      outside.MakesOwn db appId size name vmId cloud := by
  rw [outsideTables_apart_iff unique]
  constructor
  · intro own number label vm site volumeId sized labelled named known made
    have done := createVolume_ok.mpr ⟨number, label, vm, site, volumeId, sized, labelled, named, known, made, rfl, rfl⟩
    exact (Database.getResourceById_has unique).mp (own _ _ done db (.refl appId unique) _ (List.mem_singleton.mpr rfl))
  · intro own response acts done other alike act member
    obtain ⟨number, label, vm, site, volumeId, sized, labelled, named, known, made, -, rfl⟩ := createVolume_ok.mp done
    rw [List.mem_singleton.mp member]
    have has := own number label vm site volumeId sized labelled named known made
    exact (Database.getResourceById_has alike.vmids).mpr ((alike.has vm).mpr has)

theorem volumeCall_apart_iff (unique : db.VmidsUnique) {volumeId cloud : Option String}
    {call : String → String → Except String Bool} {act : CloudVolume → Act}
    (owned : ∀ tables volume, (act volume).owner tables holder = holder volume) :
    Apart holder appId db (fun other => Director.outsideTables other (Director.volumeCall outside volumeId cloud call act)) ↔
      outside.CallsOwn holder appId volumeId cloud call := by
  rw [outsideTables_apart_iff unique]
  constructor
  · intro own volume site listed known made
    have done : Director.volumeCall outside volumeId cloud call act = .ok (.done, [act ⟨volume, site⟩]) :=
      volumeCall_ok.mpr ⟨volume, site, true, listed, known, made, rfl, rfl⟩
    exact (owned db _).symm.trans (own _ _ done db (.refl appId unique) _ (List.mem_singleton.mpr rfl))
  · intro own response acts done other _ performed member
    obtain ⟨volume, site, carried, listed, known, made, -, rfl⟩ := volumeCall_ok.mp done
    cases carried with
    | false => cases member
    | true =>
      rw [List.mem_singleton.mp member, owned]
      exact own volume site listed known made

theorem attachVolume_apart_iff (unique : db.VmidsUnique) {vmId volumeId deviceName cloud : Option String} :
    Apart holder appId db
        (fun other => Director.outsideTables other (Director.attachVolume outside vmId volumeId deviceName cloud)) ↔
      ∀ vm device, pythonStr vmId = .ok vm → pythonStr deviceName = .ok device →
        outside.CallsOwn holder appId volumeId cloud fun volume site => outside.attachVolume vm volume device site := by
  cases named : pythonStr vmId with
  | error error => simp [Director.attachVolume, named, bind, Except.bind, outsideTables_apart_iff unique]
  | ok vm =>
    cases free : pythonStr deviceName with
    | error error => simp [Director.attachVolume, named, free, bind, Except.bind, outsideTables_apart_iff unique]
    | ok device =>
      have call : Director.attachVolume outside vmId volumeId deviceName cloud =
          Director.volumeCall outside volumeId cloud
            (fun volume site => outside.attachVolume vm volume device site) .volumeAttached := by
        simp only [Director.attachVolume, named, free, bind, Except.bind]
      rw [call, volumeCall_apart_iff unique fun _ _ => rfl]
      constructor
      · rintro own _ _ ⟨⟩ ⟨⟩
        exact own
      · exact fun own => own vm device rfl rfl

end

/-- What the handlers leave to their callers: a request names nothing that
belongs to another application, and registers no machines. -/
def Heeds (outside : Outside) (holder : CloudVolume → Option Int) (db : Database) (user : User) (appId : Int) :
    ManagerRequest → Prop
  | .createNodes body => CreatesOwn outside holder db user appId body
  | .removeNodes none => True
  | .removeNodes (some nodes) => RemovesOwn outside holder db appId nodes
  | .createVolume size name vmId cloud => outside.MakesOwn db appId size name vmId cloud
  | .attachVolume vmId volumeId deviceName cloud =>
    ∀ vm device, pythonStr vmId = .ok vm → pythonStr deviceName = .ok device →
      outside.CallsOwn holder appId volumeId cloud fun volume site => outside.attachVolume vm volume device site
  | .detachVolume volumeId cloud => outside.CallsOwn holder appId volumeId cloud outside.detachVolume
  | .destroyVolume volumeId cloud => outside.CallsOwn holder appId volumeId cloud outside.destroyVolume
  | .credit => True
  | .decrementUserCredit _ _ => True
  | .getCert _ _ => True

/-- A manager's request keeps to its application, whatever rows the others
have, exactly if it names nothing of theirs and registers no machines: the
application of the certificate is looked up and then not looked at. -/
theorem isolated_iff {outside : Outside} {holder : CloudVolume → Option Int} {now : Int} {db : Database}
    {cert : Certificate} {request : ManagerRequest} {grant : Grant} (unique : db.VmidsUnique)
    (granted : certRequiredManager db cert = .ok grant) :
    Isolated outside holder now db cert request grant.application.aid ↔
      Heeds outside holder db grant.user grant.application.aid request := by
  obtain ⟨-, -, member, inside, owner⟩ := certRequiredManager_ok.mp granted
  rw [isolated_serve_iff granted]
  cases request with
  | createNodes body => exact createNodes_apart_iff unique member inside owner
  | removeNodes nodes =>
    cases nodes with
    | none => exact (apart_acts_iff unique).trans (by simp [Reply.Confined, Heeds])
    | some nodes => exact removeNodes_apart_iff unique
  | createVolume size name vmId cloud => exact createVolume_apart_iff unique
  | attachVolume vmId volumeId deviceName cloud => exact attachVolume_apart_iff unique
  | detachVolume volumeId cloud => exact volumeCall_apart_iff unique fun _ _ => rfl
  | destroyVolume volumeId cloud => exact volumeCall_apart_iff unique fun _ _ => rfl
  | credit => exact (apart_acts_iff unique).trans (by simp [Reply.Confined, Heeds])
  | decrementUserCredit aid decrement =>
    refine (outsideTables_apart_iff unique).trans ⟨fun _ => trivial, fun _ response acts done => ?_⟩
    obtain ⟨number, -, rest⟩ := bind_ok.mp done
    obtain ⟨amount, -, never⟩ := bind_ok.mp rest
    cases never
  | getCert csr serial =>
    cases csr with
    | none => exact (apart_acts_iff unique).trans (by simp [Reply.Confined, Heeds])
    | some subject => exact (apart_acts_iff unique).trans (by simp [Reply.Confined, Heeds])

/-- Two users with an application and a machine each. -/
def twoTenants : Database where
  user := ⟨[⟨1, "joe", "joe@example.org", 50⟩, ⟨2, "ann", "ann@example.org", 50⟩], by decide⟩
  application := ⟨[⟨1, "shop", .running, 1⟩, ⟨2, "blog", .running, 2⟩], by decide⟩
  resource := ⟨[⟨1, "i-1", some 1, some 1, 1, "10.0.0.1", "agent", "iaas", 0⟩,
    ⟨2, "i-2", some 2, some 1, 1, "10.0.0.2", "agent", "iaas", 0⟩], by decide⟩
  service := .empty

/-- One cloud that does what it is told. -/
def oneCloud : Outside where
  deploymentName := "conpaas"
  available := ["iaas"]
  contextFile := fun _ _ => .ok ""
  newInstances := fun cloud _ _ infos => ([], .ok (infos.zipIdx.map fun info =>
    ⟨"i-" ++ toString (100 + info.2), "10.0.1.1", "10.0.1.1", cloud, 100, "node", []⟩))
  checkNode := fun _ => .ok true
  killInstance := fun _ => ([], true)
  createVolume := fun _ _ _ _ => .ok "vol-1"
  attachVolume := fun _ _ _ _ => .ok true
  detachVolume := fun _ _ => .ok true
  destroyVolume := fun _ _ => .ok true
  column := fun text => text.bind pythonInt

theorem twoTenants_unique : twoTenants.VmidsUnique := by
  unfold Database.VmidsUnique
  decide

theorem twoTenants_grant : certRequiredManager twoTenants tenantManager =
    .ok ⟨⟨1, "joe", "joe@example.org", 50⟩, ⟨1, "shop", .running, 1⟩⟩ := by
  decide

/-- A manager that removes a machine of its own application. -/
theorem ownNode_isolated : Isolated oneCloud (fun _ => none) 3600 twoTenants tenantManager
    (.removeNodes (some [⟨"i-1", some "iaas"⟩])) 1 := by
  refine (isolated_iff twoTenants_unique twoTenants_grant).mpr ⟨?_, ?_⟩
  · intro vm member
    rw [show oneCloud.reached [⟨"i-1", some "iaas"⟩] = [⟨"i-1", "iaas"⟩] from by decide, List.mem_singleton] at member
    subst member
    exact ⟨fun _ => by decide, by decide⟩
  · intro _ vmid member
    obtain rfl : vmid = "i-1" := by simpa [untilRepeated] using member
    exact ⟨⟨1, "i-1", some 1, some 1, 1, "10.0.0.1", "agent", "iaas", 0⟩, by decide, rfl⟩

/-- The manager of the first application removes the machine of the second:
it is killed, and its row is deleted. -/
theorem foreignNode_removed : ¬ ∀ (outside : Outside) (holder : CloudVolume → Option Int) (now : Int) (db : Database)
    (cert : Certificate) (request : ManagerRequest) (grant : Grant), db.VmidsUnique →
      certRequiredManager db cert = .ok grant →
        Isolated outside holder now db cert request grant.application.aid := by
  intro law
  have isolated := law oneCloud (fun _ => none) 3600 twoTenants tenantManager
    (.removeNodes (some [⟨"i-2", some "iaas"⟩])) _ twoTenants_unique twoTenants_grant
  have confined := isolated.confined twoTenants (.refl _ twoTenants_unique) _ rfl
  have owner := confined (.vmDestroyed ⟨"i-2", "iaas"⟩) (by decide)
  exact absurd owner (by decide)

end ConPaaS
