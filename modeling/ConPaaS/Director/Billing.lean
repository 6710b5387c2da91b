import ConPaaS.Director.Isolation
import ConPaaS.Director.ManagerNodes

namespace ConPaaS

open Keyed Transition

/-- An act after which a machine is gone from its cloud. -/
def Act.Destroys (vm : Vm) : Act → Prop
  | .vmDestroyed gone => gone = vm
  | .newVmDestroyed _ gone => gone = vm
  | _ => False

/-- The machines an answer hands over. -/
def Response.returned : Response → List Vm
  | .nodes handed => handed.map ServiceNode.vm
  | _ => []

/-- The director with the machines it has handed over and no cloud has
destroyed since. -/
structure Billing where
  db : Database
  running : Set Vm

/-- The requests that create and remove machines: of a manager for nodes, and
of the thread that starts an application. The clouds may answer each of them in
another way. -/
inductive BillingEvent
  | created (outside : Outside) (now : Int) (user : User) (body : CreateNodes)
  | started (outside : Outside) (now userId appId : Int) (ignoreStatus : Bool) (launch : Launch)
  | removed (outside : Outside) (nodes : Option (List NodeEntry))

def BillingEvent.reply (db : Database) : BillingEvent → Reply
  | .created outside now user body => Director.createNodes outside now db user body
  | .started outside now userId appId ignoreStatus launch =>
    Director.createManager outside now db userId appId ignoreStatus launch
  | .removed outside nodes => Director.removeNodes outside db nodes

/-- What a request does to the machines. -/
def Billing.after (billing : Billing) (event : BillingEvent) : Billing where
  db := (event.reply billing.db).db
  running := {vm | (vm ∈ billing.running ∨ vm ∈ (event.reply billing.db).response.returned) ∧
    ∀ act ∈ (event.reply billing.db).acts, ¬ act.Destroys vm}

def billingStep (before : Billing) (event : BillingEvent) (after : Billing) : Prop := after = before.after event

namespace Database

/-- A machine has one row, and no other has its id. -/
def Billed (db : Database) (vm : Vm) : Prop := ∃! res, res ∈ db.resource.rows ∧ res.vmid = vm.vmid ∧ res.cloud = vm.cloud

/-- The rows a check of the credits deletes. -/
def lost (now : Int) (db : Database) : List Resource :=
  db.resource.rows.filter fun res => ((db.checkCredits now).1.resource.get? res.rid).isNone

end Database

/-- What a step has to keep. Every machine an answer hands over has one row,
rows are deleted only of machines a cloud has destroyed, and every machine that
is still running has one row. -/
structure BillingLaw (before : Billing) (event : BillingEvent) (after : Billing) : Prop where
  returned : ∀ vm ∈ (event.reply before.db).response.returned, after.db.Billed vm
  deleted : ∀ res, .rowDeleted res ∈ (event.reply before.db).acts → res.vm ∈ before.running →
    ∃ act ∈ (event.reply before.db).acts, act.Destroys res.vm
  running : ∀ vm ∈ after.running, after.db.Billed vm

/-- A row may go if its machine does, or is not running any more. -/
def MayGo (running : Set Vm) (acts : List Act) (res : Resource) : Prop :=
  .vmDestroyed res.vm ∈ acts ∨ res.vm ∉ running

/-- The check of the credits after new rows are written deletes none of the new
rows, and the thread it starts destroys the machines of the rows it deletes. -/
def Outside.ChecksWell (outside : Outside) (now : Int) (db : Database) (running : Set Vm) (rows : List Resource)
    (nodes : List ServiceNode) : Prop :=
  ∀ next added, db.addResources rows = .ok (next, added) → ∀ res ∈ next.lost now,
    res.vmid ∉ nodes.map ServiceNode.vmid ∧ MayGo running (outside.killRemoved (next.lost now)) res

/-- When a request keeps rows and machines together: every row it deletes is of
a machine it has a cloud destroy. -/
def BillingEvent.Destroying (before : Billing) : BillingEvent → Prop
  | .created outside now user body => ∀ infos context nodes, body.nodesInfo = some infos → body.context = some context →
      (outside.launch (body.order user.uid context) (infos.map NodeInfo.withDefault)).ready = .ok nodes →
        outside.ChecksWell now before.db before.running
          (nodes.map (outside.newResource now (body.order user.uid context))) nodes
  | .started outside now _ appId ignoreStatus launch => ∀ nodes, launch.ready = .ok nodes →
      outside.ChecksWell now (before.db.asStarted appId ignoreStatus) before.running
        (nodes.map (managerResource now appId)) nodes
  | .removed outside nodes => ∀ named, nodes = some named → outside.Known named →
      ∀ res, .rowDeleted res ∈ (Director.removeResources before.db named).acts →
        MayGo before.running (outside.deleteNodes .vmDestroyed named).1 res

/-- A row apart from what is charged for it. -/
def Resource.strip (res : Resource) : Resource := { res with charged := 0 }

namespace Database

variable {db : Database} {now : Int}

theorem checkUser_sublist (now : Int) (state : Database × List Vm) (userId : Int) :
    ((checkUser now state userId).1.resource.rows.map Resource.strip).Sublist
      (state.1.resource.rows.map Resource.strip) := by
  have written (credit : Int) (rows : List Resource) :
      (state.1.withCharges userId credit rows).resource.rows.map Resource.strip =
        state.1.resource.rows.map Resource.strip := by
    simp only [withCharges, Table.map_rows, List.map_map]
    refine List.map_congr_left fun res _ => ?_
    simp only [Function.comp_apply, Resource.withCharge]
    split <;> rfl
  cases found : state.1.user.get? userId with
  | none => simp only [checkUser, found, List.Sublist.refl]
  | some user =>
    simp only [checkUser, found]
    split
    · rw [stopApplications_resource (by exact fun _ => mem_applicationsOf.mp)]
      exact (List.filter_sublist.map _).trans (written _ _ ▸ .refl _)
    · exact written _ _ ▸ .refl _

/-- A check of the credits deletes rows and changes charges. -/
theorem checkCredits_sublist (now : Int) (db : Database) :
    ((db.checkCredits now).1.resource.rows.map Resource.strip).Sublist (db.resource.rows.map Resource.strip) := by
  have each (users : List Int) : ∀ state : Database × List Vm,
      ((users.foldl (checkUser now) state).1.resource.rows.map Resource.strip).Sublist
        (state.1.resource.rows.map Resource.strip) := by
    induction users with
    | nil => exact fun _ => .refl _
    | cons userId rest ih => exact fun state => (ih _).trans (checkUser_sublist now state userId)
  exact each _ (db, [])

theorem VmidsUnique.checkCredits (unique : db.VmidsUnique) (now : Int) : (db.checkCredits now).1.VmidsUnique := by
  have vmids (rows : List Resource) : (rows.map Resource.strip).map Resource.vmid = rows.map Resource.vmid := by
    rw [List.map_map]
    rfl
  have sublist := (checkCredits_sublist now db).map Resource.vmid
  rw [vmids, vmids] at sublist
  exact unique.sublist sublist

/-- A row that is not lost is still there. -/
theorem kept_row {res : Resource} (stored : res ∈ db.resource.rows) (kept : res ∉ db.lost now) :
    ∃ row ∈ (db.checkCredits now).1.resource.rows, row.strip = res.strip := by
  have found : ((db.checkCredits now).1.resource.get? res.rid).isSome = true := by
    refine Option.isSome_iff_ne_none.mpr fun gone => kept (List.mem_filter.mpr ⟨stored, ?_⟩)
    rw [gone]
    rfl
  obtain ⟨row, found⟩ := Option.isSome_iff_exists.mp found
  obtain ⟨member, rid⟩ := Table.get?_iff.mp found
  obtain ⟨old, inside, same⟩ := List.mem_map.mp ((checkCredits_sublist now db).subset (List.mem_map_of_mem member))
  have one : old = res := db.resource.unique inside stored ((congrArg Resource.rid same).trans rid)
  exact ⟨row, member, by rw [← same, one]⟩

theorem VmidsUnique.billed_iff (unique : db.VmidsUnique) {vm : Vm} :
    db.Billed vm ↔ ∃ res ∈ db.resource.rows, res.vm = vm := by
  constructor
  · rintro ⟨res, ⟨stored, vmid, cloud⟩, -⟩
    exact ⟨res, stored, by rw [Resource.vm, vmid, cloud]⟩
  · rintro ⟨res, stored, rfl⟩
    refine ⟨res, ⟨stored, rfl, rfl⟩, ?_⟩
    rintro other ⟨inside, vmid, -⟩
    exact unique.same inside stored vmid

end Database

theorem Resource.strip_vm {res row : Resource} (same : row.strip = res.strip) : row.vm = res.vm := by
  have vmid := congrArg Resource.vmid same
  have cloud := congrArg Resource.cloud same
  change row.vmid = res.vmid at vmid
  change row.cloud = res.cloud at cloud
  rw [Resource.vm, Resource.vm, vmid, cloud]

section Removal

variable {db : Database} {outside : Outside}

/-- What the loop over the rows does: it deletes rows, each with an act that
says so, and nothing else. -/
theorem removeResources_spec (db : Database) (nodes : List NodeEntry) :
    ((Director.removeResources db nodes).db.resource.rows.Sublist db.resource.rows) ∧
      (∀ res ∈ db.resource.rows, res ∈ (Director.removeResources db nodes).db.resource.rows ∨
        .rowDeleted res ∈ (Director.removeResources db nodes).acts) ∧
      (Director.removeResources db nodes).response.returned = [] := by
  induction nodes generalizing db with
  | nil => exact ⟨.refl _, fun res stored => Or.inl stored, rfl⟩
  | cons node rest ih =>
    cases found : db.getResourceById node.vmid with
    | none =>
      simp only [Director.removeResources, found]
      exact ⟨.refl _, fun res stored => Or.inl stored, rfl⟩
    | some res =>
      obtain ⟨fewer, kept, quiet⟩ := ih (db.dropResource res)
      simp only [Director.removeResources, found]
      refine ⟨fewer.trans List.filter_sublist, fun row stored => ?_, quiet⟩
      by_cases same : row = res
      · exact Or.inr (same ▸ List.mem_cons_self ..)
      · have inside := (Database.mem_dropResource (Database.getResourceById_some found).1).mpr ⟨stored, same⟩
        exact (kept row inside).imp_right (List.mem_cons_of_mem _)

/-- Deleting machines deletes no row. -/
theorem deleteNodes_rows {destroyed : Vm → Act} (machines : ∀ vm res, destroyed vm ≠ .rowDeleted res)
    (nodes : List NodeEntry) (res : Resource) : .rowDeleted res ∉ (outside.deleteNodes destroyed nodes).1 := by
  rw [Outside.deleteNodes_acts]
  intro member
  obtain ⟨vm, _, killed⟩ := List.mem_flatMap.mp member
  rcases List.mem_append.mp killed with volume | machine
  · obtain ⟨_, _, act⟩ := List.mem_map.mp volume
    cases act
  · split at machine
    · exact machines vm res (List.mem_singleton.mp machine).symm
    · cases machine

theorem killRemoved_rows (removed : List Resource) (res : Resource) : .rowDeleted res ∉ outside.killRemoved removed := by
  intro member
  obtain ⟨appId, _, killed⟩ := List.mem_flatMap.mp member
  exact deleteNodes_rows (fun _ _ same => by cases same) _ res killed

end Removal

/-- A reply that leaves the rows alone and hands nothing over. -/
structure Quiet (db : Database) (reply : Reply) : Prop where
  db : reply.db = db
  returned : reply.response.returned = []
  deleted : ∀ res, .rowDeleted res ∉ reply.acts

/-- A reply that hands machines over, with rows for them, after a check of the
credits. -/
structure Enrolled (outside : Outside) (now : Int) (db : Database) (rows : List Resource) (nodes : List ServiceNode)
    (next : Database) (reply : Reply) : Prop where
  added : ∃ added, db.addResources rows = .ok (next, added)
  db : reply.db = (next.checkCredits now).1
  returned : reply.response.returned = nodes.map ServiceNode.vm
  deleted : ∀ res, .rowDeleted res ∈ reply.acts → res ∈ next.lost now
  killed : ∀ act ∈ outside.killRemoved (next.lost now), act ∈ reply.acts

section Creation

variable {outside : Outside}

theorem enroll_cases (now : Int) (db : Database) (rows : List Resource) (nodes : List ServiceNode) {acts : List Act}
    (quiet : ∀ res, .rowDeleted res ∉ acts) :
    Quiet db { outside.enroll now db rows nodes with acts := acts ++ (outside.enroll now db rows nodes).acts } ∨
      ∃ next, Enrolled outside now db rows nodes next
        { outside.enroll now db rows nodes with acts := acts ++ (outside.enroll now db rows nodes).acts } := by
  unfold Outside.enroll
  split
  · exact Or.inl ⟨rfl, rfl, fun res => by simpa using quiet res⟩
  · cases added : db.addResources rows with
    | error error => exact Or.inl ⟨rfl, rfl, fun res => by simpa using quiet res⟩
    | ok result =>
      obtain ⟨next, added'⟩ := result
      refine Or.inr ⟨next, ⟨added', added⟩, rfl, rfl, fun res member => ?_, fun act member => ?_⟩
      · simp only [List.mem_append, List.mem_map] at member
        rcases member with old | ((⟨_, _, act⟩ | ⟨lost, gone, act⟩) | killed)
        · exact absurd old (quiet res)
        · cases act
        · cases act
          exact gone
        · exact absurd killed (killRemoved_rows _ res)
      · exact List.mem_append_right _ (List.mem_append_right _ member)

/-- Nodes are created for a manager, with rows for all of them, or none is
handed over. -/
theorem createNodes_cases (outside : Outside) (now : Int) (db : Database) (user : User) (body : CreateNodes) :
    Quiet db (Director.createNodes outside now db user body) ∨ ∃ infos context nodes next,
      body.nodesInfo = some infos ∧ body.context = some context ∧
      (outside.launch (body.order user.uid context) (infos.map NodeInfo.withDefault)).ready = .ok nodes ∧
      Enrolled outside now db (nodes.map (outside.newResource now (body.order user.uid context))) nodes next
        (Director.createNodes outside now db user body) := by
  unfold Director.createNodes
  split
  · rename_i infos context named given
    split
    · exact Or.inl ⟨rfl, rfl, fun _ member => by cases member⟩
    · have quiet : ∀ res, .rowDeleted res ∉ (outside.launchActs (body.order user.uid context)
          (outside.launch (body.order user.uid context) (infos.map NodeInfo.withDefault))).1 := by
        intro res member
        rcases List.mem_append.mp member with volume | machine
        · obtain ⟨_, _, act⟩ := List.mem_map.mp volume
          cases act
        · exact deleteNodes_rows (fun _ _ same => by cases same) _ res machine
      simp only [Outside.settle]
      split
      · rename_i nodes ready _
        simp only [Outside.register_eq_enroll]
        rcases enroll_cases _ _ _ _ quiet with none | ⟨next, some⟩
        · exact Or.inl none
        · exact Or.inr ⟨infos, context, nodes, next, named, given, ready, some⟩
      · exact Or.inl ⟨rfl, rfl, quiet⟩
      · exact Or.inl ⟨rfl, rfl, quiet⟩
  · exact Or.inl ⟨rfl, rfl, fun _ member => by cases member⟩

theorem createManager_cases (outside : Outside) (now : Int) (db : Database) (userId appId : Int) (ignoreStatus : Bool)
    (launch : Launch) : Quiet db (Director.createManager outside now db userId appId ignoreStatus launch) ∨
      ∃ nodes next, launch.ready = .ok nodes ∧
        Enrolled outside now (db.asStarted appId ignoreStatus) (nodes.map (managerResource now appId)) nodes next
          (Director.createManager outside now db userId appId ignoreStatus launch) := by
  have quiet : ∀ res, .rowDeleted res ∉ launch.volumes.map (Act.newVolume (some appId)) ++
      (outside.deleteNodes (.newVmDestroyed (some appId)) (launch.failed.map ServiceNode.entry)).1 := by
    intro res member
    rcases List.mem_append.mp member with volume | machine
    · obtain ⟨_, _, act⟩ := List.mem_map.mp volume
      cases act
    · exact deleteNodes_rows (fun _ _ same => by cases same) _ res machine
  unfold Director.createManager
  simp only
  split
  · rename_i nodes ready _
    split
    · exact Or.inl ⟨rfl, rfl, quiet⟩
    · split
      · rename_i none
        refine Or.inl ?_
        unfold Outside.enroll
        rcases none with rfl | refused
        · exact ⟨rfl, rfl, quiet⟩
        · split
          · exact ⟨rfl, rfl, quiet⟩
          · simp only [Database.addResources, if_pos refused]
            exact ⟨rfl, rfl, quiet⟩
      · rename_i accepted
        rcases enroll_cases now (db.asStarted appId ignoreStatus) (nodes.map (managerResource now appId)) nodes quiet with
          none | ⟨next, some⟩
        · exfalso
          obtain ⟨empty, refused⟩ := not_or.mp accepted
          have same : (db.asStarted appId ignoreStatus).Refuses (nodes.map (managerResource now appId)) ↔
              db.Refuses (nodes.map (managerResource now appId)) := by
            unfold Database.asStarted
            cases ignoreStatus <;> rfl
          have returned := none.returned
          simp only [Outside.enroll, if_neg empty, Database.addResources, if_neg (same.not.mpr refused),
            Response.returned, List.map_eq_nil_iff] at returned
          exact empty returned
        · exact Or.inr ⟨nodes, next, ready, some⟩
  · exact Or.inl ⟨rfl, rfl, quiet⟩
  · exact Or.inl ⟨rfl, rfl, quiet⟩

end Creation

/-- The rows of the machines that are running, whatever else the tables hold. -/
structure Billing.Sound (billing : Billing) : Prop where
  unique : billing.db.VmidsUnique
  billed : ∀ vm ∈ billing.running, billing.db.Billed vm

/-- The law for one reply, in the tables it is computed from. -/
structure ReplyLaw (running : Set Vm) (reply : Reply) : Prop where
  unique : reply.db.VmidsUnique
  returned : ∀ vm ∈ reply.response.returned, reply.db.Billed vm
  deleted : ∀ res, .rowDeleted res ∈ reply.acts → res.vm ∈ running → ∃ act ∈ reply.acts, act.Destroys res.vm
  running : ∀ vm ∈ running, (∀ act ∈ reply.acts, ¬ act.Destroys vm) → reply.db.Billed vm

section Laws

variable {outside : Outside} {now : Int} {db : Database} {running : Set Vm} {reply : Reply}

theorem Quiet.law (quiet : Quiet db reply) (unique : db.VmidsUnique) (billed : ∀ vm ∈ running, db.Billed vm) :
    ReplyLaw running reply where
  unique := quiet.db ▸ unique
  returned := fun vm member => by
    rw [quiet.returned] at member
    cases member
  deleted := fun res member => absurd member (quiet.deleted res)
  running := fun vm member _ => quiet.db ▸ billed vm member

/-- New machines get rows, and a check of the credits that keeps these rows
deletes no row of a machine that stays. -/
theorem Enrolled.law {rows : List Resource} {nodes : List ServiceNode} {next : Database}
    (enrolled : Enrolled outside now db rows nodes next reply) (machines : rows.map Resource.vm = nodes.map ServiceNode.vm)
    (unique : db.VmidsUnique) (billed : ∀ vm ∈ running, db.Billed vm)
    (well : outside.ChecksWell now db running rows nodes) : ReplyLaw running reply := by
  obtain ⟨added, ok⟩ := enrolled.added
  obtain ⟨_, fresh, _, table⟩ := Database.addResources_ok ok
  have unique' := unique.addResources ok
  have unique'' := unique'.checkCredits now
  have kept {res : Resource} (stored : res ∈ next.resource.rows) (safe : res ∉ next.lost now) :
      reply.db.Billed res.vm := by
    obtain ⟨row, member, same⟩ := Database.kept_row stored safe
    rw [enrolled.db]
    exact unique''.billed_iff.mpr ⟨row, member, Resource.strip_vm same⟩
  have new {vm : Vm} (member : vm ∈ nodes.map ServiceNode.vm) : ∃ res ∈ next.resource.rows, res.vm = vm := by
    have inside : vm ∈ added.map Resource.vm := by
      rw [fresh, Database.numbered_map Resource.vm (fun _ _ => rfl), machines]
      exact member
    obtain ⟨res, row, same⟩ := List.mem_map.mp inside
    exact ⟨res, by rw [table]; exact List.mem_append_right _ row, same⟩
  refine ⟨enrolled.db ▸ unique'', fun vm member => ?_, fun res member alive => ?_, fun vm alive stays => ?_⟩
  · rw [enrolled.returned] at member
    obtain ⟨res, stored, rfl⟩ := new member
    refine kept stored fun gone => (well next added ok res gone).1 ?_
    obtain ⟨node, inside, same⟩ := List.mem_map.mp member
    exact List.mem_map.mpr ⟨node, inside, congrArg Vm.vmid same⟩
  · obtain ⟨-, gone | dead⟩ := well next added ok res (enrolled.deleted res member)
    · exact ⟨_, enrolled.killed _ gone, rfl⟩
    · exact absurd alive dead
  · obtain ⟨res, stored, rfl⟩ := unique.billed_iff.mp (billed vm alive)
    refine kept (by rw [table]; exact List.mem_append_left _ stored) fun gone => ?_
    obtain ⟨-, destroyed | dead⟩ := well next added ok res gone
    · exact stays _ (enrolled.killed _ destroyed) rfl
    · exact dead alive

theorem removeNodes_law (unique : db.VmidsUnique) (billed : ∀ vm ∈ running, db.Billed vm)
    {nodes : Option (List NodeEntry)} (destroying : ∀ named, nodes = some named → outside.Known named →
      ∀ res, .rowDeleted res ∈ (Director.removeResources db named).acts →
        MayGo running (outside.deleteNodes .vmDestroyed named).1 res) :
    ReplyLaw running (Director.removeNodes outside db nodes) := by
  have machines : ∀ vm res, Act.vmDestroyed vm ≠ .rowDeleted res := fun _ _ same => by cases same
  cases nodes with
  | none => exact Quiet.law ⟨rfl, rfl, fun _ member => by cases member⟩ unique billed
  | some named =>
    cases ended : (outside.deleteNodes .vmDestroyed named).2 with
    | error error =>
      simp only [Director.removeNodes, ended]
      exact Quiet.law ⟨rfl, rfl, deleteNodes_rows machines named⟩ unique billed
    | ok _ =>
      have goes := destroying named rfl (Outside.deleteNodes_ok.mp ended)
      obtain ⟨fewer, kept, quiet⟩ := removeResources_spec db named
      have unique' : (Director.removeResources db named).db.VmidsUnique := unique.sublist (fewer.map Resource.vmid)
      simp only [Director.removeNodes, ended]
      refine ⟨unique', fun vm member => ?_, fun res member alive => ?_, fun vm alive stays => ?_⟩
      · change vm ∈ (Director.removeResources db named).response.returned at member
        rw [quiet] at member
        cases member
      · have gone := (List.mem_append.mp member).resolve_left (deleteNodes_rows machines named res)
        rcases goes res gone with destroyed | dead
        · exact ⟨_, List.mem_append_left _ destroyed, rfl⟩
        · exact absurd alive dead
      · obtain ⟨res, stored, rfl⟩ := unique.billed_iff.mp (billed vm alive)
        rcases kept res stored with still | gone
        · exact unique'.billed_iff.mpr ⟨res, still, rfl⟩
        · rcases goes res gone with destroyed | dead
          · exact absurd rfl (stays _ (List.mem_append_left _ destroyed))
          · exact absurd alive dead

end Laws

theorem asStarted_resource (db : Database) (appId : Int) (ignoreStatus : Bool) :
    (db.asStarted appId ignoreStatus).resource = db.resource := by
  cases ignoreStatus <;> rfl

/-- Every request that destroys the machines of the rows it deletes keeps the
law. -/
theorem reply_law {before : Billing} (sound : before.Sound) {event : BillingEvent} (destroying : event.Destroying before) :
    ReplyLaw before.running (event.reply before.db) := by
  cases event with
  | created outside now user body =>
    rcases createNodes_cases outside now before.db user body with
      quiet | ⟨infos, context, nodes, next, named, given, ready, enrolled⟩
    · exact quiet.law sound.unique sound.billed
    · refine enrolled.law ?_ sound.unique sound.billed (destroying infos context nodes named given ready)
      rw [List.map_map]
      rfl
  | started outside now userId appId ignoreStatus launch =>
    rcases createManager_cases outside now before.db userId appId ignoreStatus launch with
      quiet | ⟨nodes, next, ready, enrolled⟩
    · exact quiet.law sound.unique sound.billed
    · have same := asStarted_resource before.db appId ignoreStatus
      have unique : (before.db.asStarted appId ignoreStatus).VmidsUnique := by
        rw [Database.VmidsUnique, same]
        exact sound.unique
      refine enrolled.law ?_ unique (fun vm alive => ?_) (destroying nodes ready)
      · rw [List.map_map]
        rfl
      · rw [Database.Billed, same]
        exact sound.billed vm alive
  | removed outside nodes => exact removeNodes_law sound.unique sound.billed destroying

theorem billingStep_sound {before after : Billing} {event : BillingEvent} (sound : before.Sound)
    (destroying : event.Destroying before) (taken : billingStep before event after) : after.Sound := by
  obtain rfl := taken
  have law := reply_law sound destroying
  refine ⟨law.unique, fun vm member => ?_⟩
  obtain ⟨alive | returned, stays⟩ := member
  · exact law.running vm alive stays
  · exact law.returned vm returned

/-- A director with one machine of one application. -/
def oneBilled : Billing where
  db :=
    { user := ⟨[⟨1, "joe", "joe@example.org", 50⟩], firstRow_distinct⟩
      application := ⟨[⟨1, "shop", .running, 1⟩], firstRow_distinct⟩
      resource := ⟨[⟨1, "i-1", some 1, some 1, 1, "10.0.0.1", "agent", "iaas", 0⟩], firstRow_distinct⟩
      service := .empty }
  running := {⟨"i-1", "iaas"⟩}

theorem oneBilled_sound : oneBilled.Sound := by
  have unique : oneBilled.db.VmidsUnique := by
    unfold Database.VmidsUnique
    decide
  refine ⟨unique, fun vm member => unique.billed_iff.mpr ⟨⟨1, "i-1", some 1, some 1, 1, "10.0.0.1", "agent", "iaas", 0⟩, ?_, ?_⟩⟩
  · decide
  · obtain rfl : vm = ⟨"i-1", "iaas"⟩ := member
    rfl

/-- A cloud with no machines to give, that does or does not kill them. -/
def killingCloud (kills : Bool) : Outside where
  deploymentName := "conpaas"
  available := ["iaas"]
  contextFile _ _ := .ok ""
  newInstances _ _ _ _ := ([], .ok [])
  checkNode _ := .ok true
  killInstance _ := ([], kills)
  createVolume _ _ _ _ := .ok "vol-1"
  attachVolume _ _ _ _ := .ok true
  detachVolume _ _ := .ok true
  destroyVolume _ _ := .ok true
  column text := text.bind pythonInt

/-- The removal of the machine. -/
def removal (kills : Bool) : BillingEvent := .removed (killingCloud kills) (some [⟨"i-1", some "iaas"⟩])

theorem removal_destroying : (removal true).Destroying oneBilled := by
  rintro named same known res deleted
  obtain rfl := Option.some.inj same
  refine Or.inl ?_
  obtain rfl : res = ⟨1, "i-1", some 1, some 1, 1, "10.0.0.1", "agent", "iaas", 0⟩ := by
    have acts : (Director.removeResources oneBilled.db [⟨"i-1", some "iaas"⟩]).acts =
        [.rowDeleted ⟨1, "i-1", some 1, some 1, 1, "10.0.0.1", "agent", "iaas", 0⟩] := by decide
    rw [acts] at deleted
    exact Act.rowDeleted.inj (List.mem_singleton.mp deleted)
  decide

end ConPaaS
