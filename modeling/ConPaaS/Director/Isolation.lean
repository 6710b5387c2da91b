import ConPaaS.Director.Cloud
import ConPaaS.Director.CreditRuns

namespace ConPaaS

open Keyed

namespace Database

/-- The rows of the machines of an application. -/
def own (db : Database) (appId : Int) : List Resource := db.resource.rows.filter fun res => res.appId = some appId

/-- An application has a row for a machine. -/
def Has (db : Database) (appId : Int) (vmid : String) : Prop := ∃ res ∈ db.own appId, res.vmid = vmid

/-- The application the row of a machine names. -/
def appOf (db : Database) (vm : Vm) : Option Int :=
  (db.resource.rows.find? fun res => res.vm = vm).bind Resource.appId

def VmidsUnique (db : Database) : Prop := (db.resource.rows.map Resource.vmid).Nodup

/-- Two databases differ in rows of other applications only. -/
structure Alike (appId : Int) (db other : Database) : Prop where
  user : other.user = db.user
  application : other.application.get? appId = db.application.get? appId
  resource : other.own appId = db.own appId
  service : other.service.rows.filter (fun service => service.applicationId = appId) =
    db.service.rows.filter fun service => service.applicationId = appId
  vmids : other.VmidsUnique

end Database

/-- What the tables say about an application, up to the keys the rows of its
machines have got. -/
structure Share where
  application : Option Application
  resource : List Resource
  service : List Service
  deriving DecidableEq

def Database.share (db : Database) (appId : Int) : Share where
  application := db.application.get? appId
  resource := (db.own appId).map fun res => { res with rid := 0 }
  service := db.service.rows.filter fun service => service.applicationId = appId

/-- The application that what an act is about belongs to. A row names it, a
machine belongs where its row does, a volume made for a machine belongs with
the machine, and `holder` tells where the volumes at the clouds belong. -/
def Act.owner (db : Database) (holder : CloudVolume → Option Int) : Act → Option Int
  | .rowCreated res | .rowDeleted res => res.appId
  | .vmDestroyed vm => db.appOf vm
  | .newVmDestroyed appId _ | .newVolume appId _ => appId
  | .volumeCreated vmId _ => (db.getResourceById vmId).bind Resource.appId
  | .volumeAttached volume | .volumeDetached volume | .volumeDestroyed volume => holder volume

/-- An act on machines and volumes, not on rows. -/
def Act.atCloud : Act → Bool
  | .rowCreated _ | .rowDeleted _ => false
  | _ => true

/-- What a request does to the machines and volumes of an application. -/
def Reply.cloudActs (reply : Reply) (db : Database) (holder : CloudVolume → Option Int) (appId : Int) : List Act :=
  reply.acts.filter fun act => act.atCloud && act.owner db holder = some appId

/-- Everything a request has done is about what belongs to an application. -/
def Reply.Confined (reply : Reply) (db : Database) (holder : CloudVolume → Option Int) (appId : Int) : Prop :=
  ∀ act ∈ reply.acts, act.owner db holder = some appId

/-- Two databases have answered and changed an application alike. -/
structure SameFor (holder : CloudVolume → Option Int) (appId : Int) (db other : Database) (reply reply' : Reply) :
    Prop where
  response : reply'.response = reply.response
  share : reply'.db.share appId = reply.db.share appId
  acts : reply'.cloudActs other holder appId = reply.cloudActs db holder appId

/-- A request with a certificate keeps to an application: whatever rows the
other applications have, everything it does is about what belongs to the
application, and the answer and the change to the application do not depend on
the other rows. -/
structure Isolated (outside : Outside) (holder : CloudVolume → Option Int) (now : Int) (db : Database)
    (cert : Certificate) (request : ManagerRequest) (appId : Int) : Prop where
  confined : ∀ other, db.Alike appId other →
    ∀ reply, Director.respond outside now other cert request = .ok reply → reply.Confined other holder appId
  indifferent : ∀ other, db.Alike appId other →
    ∀ reply, Director.respond outside now db cert request = .ok reply →
      ∃ reply', Director.respond outside now other cert request = .ok reply' ∧
        SameFor holder appId db other reply reply'

namespace Database

theorem mem_own {db : Database} {appId : Int} {res : Resource} :
    res ∈ db.own appId ↔ res ∈ db.resource.rows ∧ res.appId = some appId := by
  simp [own, List.mem_filter]

theorem Alike.refl {db : Database} (appId : Int) (unique : db.VmidsUnique) : db.Alike appId db :=
  ⟨rfl, rfl, rfl, rfl, unique⟩

theorem Alike.share {appId : Int} {db other : Database} (alike : db.Alike appId other) :
    other.share appId = db.share appId := by
  simp only [Database.share, alike.application, alike.resource, alike.service]

theorem Alike.has {appId : Int} {db other : Database} (alike : db.Alike appId other) (vmid : String) :
    other.Has appId vmid ↔ db.Has appId vmid := by
  simp only [Has, alike.resource]

theorem VmidsUnique.same {db : Database} (unique : db.VmidsUnique) {res row : Resource}
    (left : res ∈ db.resource.rows) (right : row ∈ db.resource.rows) (same : res.vmid = row.vmid) : res = row :=
  List.inj_on_of_nodup_map unique left right same

theorem VmidsUnique.getResourceById {db : Database} (unique : db.VmidsUnique) {res : Resource}
    (stored : res ∈ db.resource.rows) : db.getResourceById res.vmid = some res := by
  unfold Database.getResourceById
  cases found : db.resource.rows.find? fun row => row.vmid = res.vmid with
  | none => simpa using List.find?_eq_none.mp found res stored
  | some row =>
    have same : row.vmid = res.vmid := by simpa using List.find?_some found
    rw [unique.same (List.mem_of_find?_eq_some found) stored same]

theorem getResourceById_none {db : Database} {vmid : String} :
    db.getResourceById vmid = none ↔ ∀ res ∈ db.resource.rows, res.vmid ≠ vmid := by
  simp [getResourceById, List.find?_eq_none]

theorem getResourceById_some {db : Database} {vmid : String} {res : Resource}
    (found : db.getResourceById vmid = some res) : res ∈ db.resource.rows ∧ res.vmid = vmid :=
  ⟨List.mem_of_find?_eq_some found, by simpa using List.find?_some found⟩

theorem VmidsUnique.appOf {db : Database} (unique : db.VmidsUnique) {res : Resource}
    (stored : res ∈ db.resource.rows) : db.appOf res.vm = res.appId := by
  unfold Database.appOf
  cases found : db.resource.rows.find? fun row => row.vm = res.vm with
  | none => simpa using List.find?_eq_none.mp found res stored
  | some row =>
    have same : row.vm = res.vm := by simpa using List.find?_some found
    rw [unique.same (List.mem_of_find?_eq_some found) stored (congrArg Vm.vmid same)]
    rfl

/-- The rows of an application are found whatever the others are. -/
theorem Alike.mem {appId : Int} {db other : Database} (alike : db.Alike appId other) {res : Resource}
    (owned : res ∈ db.own appId) : res ∈ other.resource.rows :=
  (mem_own.mp (alike.resource ▸ owned)).1

theorem Alike.appOf {appId : Int} {db other : Database} (alike : db.Alike appId other) {vm : Vm}
    (owned : db.appOf vm = some appId) : other.appOf vm = some appId := by
  obtain ⟨res, found, named⟩ := Option.bind_eq_some_iff.mp owned
  have same : res.vm = vm := by simpa using List.find?_some found
  have stored := mem_own.mpr ⟨List.mem_of_find?_eq_some found, named⟩
  rw [← same, alike.vmids.appOf (alike.mem stored), named]

theorem getResourceById_has {db : Database} {vmId : String} {appId : Int} (unique : db.VmidsUnique) :
    (db.getResourceById vmId).bind Resource.appId = some appId ↔ db.Has appId vmId := by
  constructor
  · intro owned
    obtain ⟨res, found, named⟩ := Option.bind_eq_some_iff.mp owned
    obtain ⟨stored, same⟩ := getResourceById_some found
    exact ⟨res, mem_own.mpr ⟨stored, named⟩, same⟩
  · rintro ⟨res, owned, rfl⟩
    obtain ⟨stored, named⟩ := mem_own.mp owned
    rw [unique.getResourceById stored]
    exact named

end Database

/-- A certificate speaks for the same user and application whatever rows the
other applications have. -/
theorem certRequiredManager_alike {db other : Database} {cert : Certificate} {grant : Grant}
    (granted : certRequiredManager db cert = .ok grant) (alike : db.Alike grant.application.aid other) :
    certRequiredManager other cert = .ok grant := by
  obtain ⟨named, located, member, inside, owner⟩ := certRequiredManager_ok.mp granted
  refine certRequiredManager_ok.mpr ⟨named, located, alike.user ▸ member, ?_, owner⟩
  exact Table.get?_mem (alike.application.trans (Table.get?_of_mem inside))

/-- Isolation is about what the handler does for the user of the certificate. -/
theorem isolated_serve_iff {outside : Outside} {holder : CloudVolume → Option Int} {now : Int} {db : Database}
    {cert : Certificate} {request : ManagerRequest} {grant : Grant}
    (granted : certRequiredManager db cert = .ok grant) :
    Isolated outside holder now db cert request grant.application.aid ↔
      ∀ other, db.Alike grant.application.aid other →
        (Director.serve outside now other grant.user request).Confined other holder grant.application.aid ∧
          SameFor holder grant.application.aid db other (Director.serve outside now db grant.user request)
            (Director.serve outside now other grant.user request) := by
  have answered (other : Database) (alike : db.Alike grant.application.aid other) :
      Director.respond outside now other cert request = .ok (Director.serve outside now other grant.user request) := by
    rw [Director.respond, certRequiredManager_alike granted alike]
    rfl
  have here : Director.respond outside now db cert request = .ok (Director.serve outside now db grant.user request) := by
    rw [Director.respond, granted]
    rfl
  constructor
  · intro isolated other alike
    refine ⟨isolated.confined other alike _ (answered other alike), ?_⟩
    obtain ⟨reply, answer, same⟩ := isolated.indifferent other alike _ here
    cases (answered other alike).symm.trans answer
    exact same
  · intro both
    refine ⟨fun other alike reply answer => ?_, fun other alike reply answer => ?_⟩
    · cases (answered other alike).symm.trans answer
      exact (both other alike).1
    · cases here.symm.trans answer
      exact ⟨_, answered other alike, (both other alike).2⟩

/-- What is confined in both databases need only be the same at the clouds. -/
theorem cloudActs_confined {holder : CloudVolume → Option Int} {appId : Int} {db : Database} {reply : Reply}
    (confined : reply.Confined db holder appId) :
    reply.cloudActs db holder appId = reply.acts.filter Act.atCloud :=
  List.filter_congr fun act member => by simp [confined act member]

namespace Outside

variable (outside : Outside)

/-- The machines a list of nodes names before the first unknown cloud. -/
def reached : List NodeEntry → List Vm
  | [] => []
  | node :: rest =>
    match outside.getCloudByName node.cloudName with
    | .error _ => []
    | .ok cloud => ⟨node.vmid, cloud⟩ :: reached rest

/-- Every cloud a list of nodes names is in the configuration. -/
def Known (nodes : List NodeEntry) : Prop := ∀ node ∈ nodes, ∃ cloud, outside.getCloudByName node.cloudName = .ok cloud

/-- A kill that succeeds is of a machine of an application, and the volumes that
go with the machine are the application's. -/
def KillsOwn (holder : CloudVolume → Option Int) (appId : Int) (owner : Option Int) (vm : Vm) : Prop :=
  ((outside.killInstance vm).2 = true → owner = some appId) ∧
    ∀ volume ∈ (outside.killInstance vm).1, holder volume = some appId

variable {outside}

theorem kill_confined {db : Database} {holder : CloudVolume → Option Int} {appId : Int} {destroyed : Vm → Act}
    {vm : Vm} : (∀ act ∈ outside.kill destroyed vm, act.owner db holder = some appId) ↔
      outside.KillsOwn holder appId ((destroyed vm).owner db holder) vm := by
  unfold kill KillsOwn
  cases gone : (outside.killInstance vm).2 with
  | false => simp [Act.owner]
  | true =>
    simp only [List.mem_append, List.mem_map, if_true, List.mem_singleton, true_implies]
    constructor
    · intro all
      exact ⟨all _ (Or.inr rfl), fun volume member => all _ (Or.inl ⟨volume, member, rfl⟩)⟩
    · rintro ⟨machine, volumes⟩ act (⟨volume, member, rfl⟩ | rfl)
      · exact volumes volume member
      · exact machine

/-- What a deletion does is what it does to the machines it reaches. -/
theorem deleteNodes_acts (destroyed : Vm → Act) (nodes : List NodeEntry) :
    (outside.deleteNodes destroyed nodes).1 = (outside.reached nodes).flatMap (outside.kill destroyed) := by
  induction nodes with
  | nil => rfl
  | cons node rest ih =>
    cases cloud : outside.getCloudByName node.cloudName with
    | error error => simp only [deleteNodes, reached, cloud, List.flatMap_nil]
    | ok cloud => simp only [deleteNodes, reached, cloud, List.flatMap_cons, ih]

theorem deleteNodes_ok {destroyed : Vm → Act} {nodes : List NodeEntry} :
    (outside.deleteNodes destroyed nodes).2 = .ok () ↔ outside.Known nodes := by
  induction nodes with
  | nil => simp [deleteNodes, Known]
  | cons node rest ih =>
    simp only [deleteNodes, Known, List.forall_mem_cons]
    split
    · rename_i error unknown
      simp [unknown]
    · rename_i cloud known
      rw [ih]
      simp [known, Known]

theorem deleteNodes_confined {db : Database} {holder : CloudVolume → Option Int} {appId : Int}
    {destroyed : Vm → Act} {nodes : List NodeEntry} :
    (∀ act ∈ (outside.deleteNodes destroyed nodes).1, act.owner db holder = some appId) ↔
      ∀ vm ∈ outside.reached nodes, outside.KillsOwn holder appId ((destroyed vm).owner db holder) vm := by
  simp only [deleteNodes_acts, List.mem_flatMap, ← kill_confined]
  constructor
  · exact fun all vm member act inside => all act ⟨vm, member, inside⟩
  · rintro all act ⟨vm, member, inside⟩
    exact all vm member act inside

theorem KillsOwn.mono {holder : CloudVolume → Option Int} {appId : Int} {owner owner' : Option Int} {vm : Vm}
    (own : outside.KillsOwn holder appId owner vm) (same : owner = some appId → owner' = some appId) :
    outside.KillsOwn holder appId owner' vm :=
  ⟨fun gone => same (own.1 gone), own.2⟩

end Outside

/-- The machines of a list up to the first that is listed a second time. -/
def untilRepeated : List String → List String → List String
  | _, [] => []
  | seen, vmid :: rest => if vmid ∈ seen then [] else vmid :: untilRepeated (vmid :: seen) rest

theorem untilRepeated_unseen {seen vmids : List String} {vmid : String} (member : vmid ∈ untilRepeated seen vmids) :
    vmid ∉ seen := by
  induction vmids generalizing seen with
  | nil => cases member
  | cons first rest ih =>
    unfold untilRepeated at member
    split at member
    · cases member
    · rename_i new
      rcases List.mem_cons.mp member with rfl | member
      · exact new
      · exact fun old => ih member (List.mem_cons_of_mem _ old)

namespace Database

/-- The tables without a row. -/
def dropResource (db : Database) (res : Resource) : Database := { db with resource := db.resource.erase res.rid }

theorem mem_dropResource {db : Database} {res row : Resource} (stored : res ∈ db.resource.rows) :
    row ∈ (db.dropResource res).resource.rows ↔ row ∈ db.resource.rows ∧ row ≠ res := by
  simp only [dropResource, Table.mem_erase]
  refine and_congr_right fun inside => not_congr ⟨fun same => ?_, congrArg Resource.rid⟩
  exact db.resource.unique inside stored same

theorem VmidsUnique.dropResource {db : Database} (unique : db.VmidsUnique) (res : Resource) :
    (db.dropResource res).VmidsUnique :=
  unique.sublist (List.filter_sublist.map Resource.vmid)

/-- A row of the application can go from both of two databases. -/
theorem Alike.dropResource {appId : Int} {db other : Database} (alike : db.Alike appId other) (res : Resource) :
    (db.dropResource res).Alike appId (other.dropResource res) where
  user := alike.user
  application := alike.application
  resource := by
    have same := congrArg (List.filter fun row => row.rid ≠ res.rid) alike.resource
    simp only [own, List.filter_filter] at same
    simp only [own, Database.dropResource, Table.erase_rows, List.filter_filter]
    simpa only [Bool.and_comm] using same
  service := alike.service
  vmids := alike.vmids.dropResource res

end Database

/-- The loop over the rows removes every machine up to the first repeated one,
if all of them have rows. -/
theorem removeResources_deletes {db : Database} (unique : db.VmidsUnique) {nodes : List NodeEntry} (seen : List String)
    (rows : ∀ vmid ∈ untilRepeated seen (nodes.map NodeEntry.vmid), ∃ res ∈ db.resource.rows, res.vmid = vmid) :
    ∀ vmid ∈ untilRepeated seen (nodes.map NodeEntry.vmid), ∃ res ∈ db.resource.rows, res.vmid = vmid ∧
      Act.rowDeleted res ∈ (Director.removeResources db nodes).acts := by
  induction nodes generalizing seen db with
  | nil => exact fun _ member => nomatch member
  | cons node rest ih =>
    rw [List.map_cons, untilRepeated] at rows ⊢
    split at rows
    · rename_i old
      rw [if_pos old]
      exact fun _ member => nomatch member
    · rename_i new
      rw [if_neg new]
      obtain ⟨res, stored, named⟩ := rows node.vmid (List.mem_cons_self ..)
      have found : db.getResourceById node.vmid = some res := named ▸ unique.getResourceById stored
      have later := ih (unique.dropResource res) (node.vmid :: seen) fun vmid member => by
        obtain ⟨row, inside, same⟩ := rows vmid (List.mem_cons_of_mem _ member)
        refine ⟨row, (Database.mem_dropResource stored).mpr ⟨inside, ?_⟩, same⟩
        rintro rfl
        exact untilRepeated_unseen member (by rw [← same, named]; exact List.mem_cons_self ..)
      simp only [Director.removeResources, found]
      intro vmid member
      rcases List.mem_cons.mp member with rfl | member
      · exact ⟨res, stored, named, List.mem_cons_self ..⟩
      · obtain ⟨row, inside, same, deleted⟩ := later vmid member
        exact ⟨row, ((Database.mem_dropResource stored).mp inside).1, same, List.mem_cons_of_mem _ deleted⟩

/-- Two databases in which an application has the same rows remove rows of its
machines alike. -/
theorem removeResources_alike {appId : Int} {db other : Database} (alike : db.Alike appId other) (unique : db.VmidsUnique)
    {nodes : List NodeEntry} (seen : List String)
    (gone : ∀ vmid ∈ seen, db.getResourceById vmid = none ∧ other.getResourceById vmid = none)
    (own : ∀ vmid ∈ untilRepeated seen (nodes.map NodeEntry.vmid), db.Has appId vmid) :
    (Director.removeResources other nodes).response = (Director.removeResources db nodes).response ∧
      (Director.removeResources other nodes).db.share appId = (Director.removeResources db nodes).db.share appId ∧
      (Director.removeResources other nodes).acts = (Director.removeResources db nodes).acts ∧
      ∀ act ∈ (Director.removeResources db nodes).acts, ∃ res ∈ db.own appId, act = .rowDeleted res := by
  induction nodes generalizing seen db other with
  | nil => exact ⟨rfl, alike.share, rfl, fun _ member => nomatch member⟩
  | cons node rest ih =>
    rw [List.map_cons, untilRepeated] at own
    split at own
    · rename_i old
      obtain ⟨here, there⟩ := gone node.vmid old
      simp only [Director.removeResources, here, there]
      exact ⟨trivial, alike.share, trivial, fun _ member => nomatch member⟩
    · obtain ⟨res, owned, named⟩ := own node.vmid (List.mem_cons_self ..)
      have stored := (Database.mem_own.mp owned).1
      have here : db.getResourceById node.vmid = some res := named ▸ unique.getResourceById stored
      have there : other.getResourceById node.vmid = some res :=
        named ▸ alike.vmids.getResourceById (alike.mem owned)
      have removed {tables : Database} (distinct : tables.VmidsUnique) (inside : res ∈ tables.resource.rows) {vmid : String}
          (absent : vmid = node.vmid ∨ tables.getResourceById vmid = none) :
          (tables.dropResource res).getResourceById vmid = none := by
        refine Database.getResourceById_none.mpr fun row member same => ?_
        obtain ⟨kept, apart⟩ := (Database.mem_dropResource inside).mp member
        rcases absent with rfl | absent
        · exact apart (distinct.same kept inside (same.trans named.symm))
        · exact Database.getResourceById_none.mp absent row kept same
      obtain ⟨response, share, acts, deleted⟩ := ih (alike.dropResource res) (unique.dropResource res)
        (node.vmid :: seen) (by
          intro vmid member
          rcases List.mem_cons.mp member with same | member
          · exact ⟨removed unique stored (Or.inl same), removed alike.vmids (alike.mem owned) (Or.inl same)⟩
          · obtain ⟨left, right⟩ := gone vmid member
            exact ⟨removed unique stored (Or.inr left), removed alike.vmids (alike.mem owned) (Or.inr right)⟩)
        (by
          intro vmid member
          obtain ⟨row, mine, same⟩ := own vmid (List.mem_cons_of_mem _ member)
          obtain ⟨inside, app⟩ := Database.mem_own.mp mine
          refine ⟨row, Database.mem_own.mpr ⟨(Database.mem_dropResource stored).mpr ⟨inside, ?_⟩, app⟩, same⟩
          rintro rfl
          exact untilRepeated_unseen member (by rw [← same, named]; exact List.mem_cons_self ..))
      simp only [Director.removeResources, here, there]
      refine ⟨response, share, congrArg _ acts, ?_⟩
      intro act member
      rcases List.mem_cons.mp member with rfl | member
      · exact ⟨res, owned, rfl⟩
      · obtain ⟨row, mine, same⟩ := deleted act member
        obtain ⟨inside, app⟩ := Database.mem_own.mp mine
        exact ⟨row, Database.mem_own.mpr ⟨((Database.mem_dropResource stored).mp inside).1, app⟩, same⟩

/-- Numbering rows changes nothing but their keys. -/
theorem Database.numbered_map {β : Type} (f : Resource → β) (same : ∀ res rid, f { res with rid } = f res) (rid : Int)
    (rows : List Resource) : (Database.numbered rid rows).map f = rows.map f := by
  induction rows generalizing rid with
  | nil => rfl
  | cons res rest ih => rw [Database.numbered, List.map_cons, same, ih, List.map_cons]

namespace Database

/-- The tables with nothing but the rows of one application. -/
def alone (db : Database) (appId : Int) : Database where
  user := db.user
  application := db.application.filter fun app => app.aid = appId
  resource := db.resource.filter fun res => res.appId = some appId
  service := db.service.filter fun service => service.applicationId = appId

theorem alone_alike {db : Database} (unique : db.VmidsUnique) (appId : Int) : db.Alike appId (db.alone appId) where
  user := rfl
  application := by
    simp only [alone, Table.get?, Table.filter_rows, List.find?_filter]
    congr 1
    funext app
    by_cases same : app.aid = appId <;> simp [same]
  resource := by simp [own, alone]
  service := by simp [alone]
  vmids := unique.sublist (List.filter_sublist.map Resource.vmid)

theorem mem_alone {db : Database} {appId : Int} {res : Resource} :
    res ∈ (db.alone appId).resource.rows ↔ res ∈ db.own appId := by
  simp [alone, own]

/-- A row of another application for a machine. -/
def foreignResource (appId : Int) (vmid : String) : Resource where
  rid := 0
  vmid := vmid
  appId := some (appId + 1)
  serviceId := none
  charged := 0
  ip := ""
  role := "agent"
  cloud := "iaas"
  created := 0

/-- What is added is there, after what there was, or is refused. -/
theorem addResources_ok {db next : Database} {rows added : List Resource}
    (ok : db.addResources rows = .ok (next, added)) :
    ¬ db.Refuses rows ∧ added = numbered (nextRid db.resource.rows) rows ∧
      next = { db with resource := next.resource } ∧ next.resource.rows = db.resource.rows ++ added := by
  unfold addResources at ok
  split at ok
  · cases ok
  · rename_i accepted
    cases ok
    exact ⟨accepted, rfl, rfl, rfl⟩

theorem addResources_accepts {db : Database} {rows : List Resource} (accepts : ¬ db.Refuses rows) :
    ∃ next added, db.addResources rows = .ok (next, added) := by
  simp only [addResources, if_neg accepts]
  exact ⟨_, _, rfl⟩

theorem VmidsUnique.addResources {db next : Database} {rows added : List Resource} (unique : db.VmidsUnique)
    (ok : db.addResources rows = .ok (next, added)) : next.VmidsUnique := by
  obtain ⟨accepted, rfl, -, table⟩ := addResources_ok ok
  obtain ⟨distinct, new⟩ := not_or.mp accepted
  unfold VmidsUnique
  rw [table, List.map_append, numbered_map Resource.vmid (fun _ _ => rfl)]
  refine List.nodup_append.mpr ⟨unique, not_not.mp distinct, ?_⟩
  rintro _ old _ fresh rfl
  obtain ⟨res, stored, same⟩ := List.mem_map.mp old
  obtain ⟨row, member, named⟩ := List.mem_map.mp fresh
  exact new ⟨row, member, res, stored, same.trans named.symm⟩

/-- Rows of other applications can be added for any machines the application
has no rows for. -/
theorem alike_strangers {db : Database} (unique : db.VmidsUnique) (appId : Int) {vmids : List String}
    (distinct : vmids.Nodup) (foreign : ∀ vmid ∈ vmids, ¬ db.Has appId vmid) :
    ∃ other, db.Alike appId other ∧ ∀ vmid ∈ vmids, ∃ res ∈ other.resource.rows, res.vmid = vmid := by
  have single := alone_alike unique appId
  have named : (vmids.map (foreignResource appId)).map Resource.vmid = vmids := by
    rw [List.map_map]
    exact List.map_id _
  have accepted : ¬ (db.alone appId).Refuses (vmids.map (foreignResource appId)) := by
    rintro (repeated | ⟨row, member, res, stored, same⟩)
    · exact repeated (named.symm ▸ distinct)
    · obtain ⟨vmid, inside, rfl⟩ := List.mem_map.mp member
      exact foreign vmid inside ⟨res, mem_alone.mp stored, same⟩
  obtain ⟨other, added, ok⟩ := addResources_accepts accepted
  obtain ⟨-, rows, tables, table⟩ := addResources_ok ok
  have others : ∀ res ∈ added, res.appId ≠ some appId := by
    intro res member
    obtain ⟨-, row, inside, same⟩ := mem_numbered (rows ▸ member)
    obtain ⟨vmid, -, rfl⟩ := List.mem_map.mp inside
    rw [same]
    simp [foreignResource]
  refine ⟨other, ⟨by rw [tables]; exact single.user, by rw [tables]; exact single.application, ?_,
    by rw [tables]; exact single.service, single.vmids.addResources ok⟩, ?_⟩
  · have none : added.filter (fun res => res.appId = some appId) = [] :=
      List.filter_eq_nil_iff.mpr (by simpa using others)
    rw [own, table, List.filter_append, none, List.append_nil]
    exact single.resource
  · intro vmid member
    have new : vmid ∈ added.map Resource.vmid := by
      rw [rows, numbered_map Resource.vmid (fun _ _ => rfl), named]
      exact member
    obtain ⟨res, inside, same⟩ := List.mem_map.mp new
    exact ⟨res, table ▸ List.mem_append_right _ inside, same⟩

end Database

theorem untilRepeated_nodup (seen vmids : List String) : (untilRepeated seen vmids).Nodup := by
  induction vmids generalizing seen with
  | nil => exact .nil
  | cons vmid rest ih =>
    unfold untilRepeated
    split
    · exact .nil
    · exact List.nodup_cons.mpr ⟨fun member => untilRepeated_unseen member (List.mem_cons_self ..), ih _⟩

/-- The handler of a request keeps to an application, for every way to fill
the tables with rows of other applications. -/
def Apart (holder : CloudVolume → Option Int) (appId : Int) (db : Database) (handler : Database → Reply) : Prop :=
  ∀ other, db.Alike appId other →
    (handler other).Confined other holder appId ∧ SameFor holder appId db other (handler db) (handler other)

/-- Where two replies do the same acts, all confined, only the answers and the
tables are left to compare. -/
theorem SameFor.of_acts {holder : CloudVolume → Option Int} {appId : Int} {db other : Database} {reply reply' : Reply}
    (response : reply'.response = reply.response) (share : reply'.db.share appId = reply.db.share appId)
    (acts : reply'.acts = reply.acts) (here : reply.Confined db holder appId)
    (there : reply'.Confined other holder appId) : SameFor holder appId db other reply reply' :=
  ⟨response, share, by rw [cloudActs_confined here, cloudActs_confined there, acts]⟩

/-- What a removal of nodes may name: machines that are killed and rows that
are removed have to be the application's. -/
def RemovesOwn (outside : Outside) (holder : CloudVolume → Option Int) (db : Database) (appId : Int)
    (nodes : List NodeEntry) : Prop :=
  (∀ vm ∈ outside.reached nodes, outside.KillsOwn holder appId (db.appOf vm) vm) ∧
    (outside.Known nodes → ∀ vmid ∈ untilRepeated [] (nodes.map NodeEntry.vmid), db.Has appId vmid)

theorem removeNodes_apart_iff {outside : Outside} {holder : CloudVolume → Option Int} {db : Database}
    (unique : db.VmidsUnique) {appId : Int} {nodes : List NodeEntry} :
    Apart holder appId db (fun other => Director.removeNodes outside other (some nodes)) ↔
      RemovesOwn outside holder db appId nodes := by
  constructor
  · intro apart
    constructor
    · have killed : ∀ act ∈ (outside.deleteNodes .vmDestroyed nodes).1, act.owner db holder = some appId := by
        refine fun act member => (apart db (.refl appId unique)).1 act ?_
        simp only [Director.removeNodes]
        split
        · exact member
        · exact List.mem_append_left _ member
      exact Outside.deleteNodes_confined.mp killed
    · intro known
      set listed := untilRepeated [] (nodes.map NodeEntry.vmid)
      have distinct : listed.Nodup := untilRepeated_nodup _ _
      classical
      obtain ⟨other, alike, strangers⟩ := Database.alike_strangers unique appId
        (distinct.filter fun vmid => ¬ db.Has appId vmid) (by simp [List.mem_filter])
      have rows : ∀ vmid ∈ listed, ∃ res ∈ other.resource.rows, res.vmid = vmid := by
        intro vmid member
        by_cases mine : db.Has appId vmid
        · obtain ⟨res, owned, same⟩ := mine
          exact ⟨res, alike.mem owned, same⟩
        · exact strangers vmid (List.mem_filter.mpr ⟨member, by simpa using mine⟩)
      intro vmid member
      obtain ⟨res, stored, same, deleted⟩ := removeResources_deletes alike.vmids [] rows vmid member
      refine (alike.has vmid).mp ⟨res, Database.mem_own.mpr ⟨stored, ?_⟩, same⟩
      refine (apart other alike).1 (.rowDeleted res) ?_
      simp only [Director.removeNodes, Outside.deleteNodes_ok.mpr known]
      exact List.mem_append_right _ deleted
  · rintro ⟨machines, rows⟩ other alike
    have killed {tables : Database} (same : db.Alike appId tables) :
        ∀ act ∈ (outside.deleteNodes .vmDestroyed nodes).1, act.owner tables holder = some appId :=
      Outside.deleteNodes_confined.mpr fun vm member => (machines vm member).mono same.appOf
    by_cases known : outside.Known nodes
    · obtain ⟨response, share, acts, deleted⟩ := removeResources_alike alike unique []
        (by rintro _ ⟨⟩) (rows known)
      have confined {tables : Database} (same : db.Alike appId tables)
          (done : (Director.removeResources tables nodes).acts = (Director.removeResources db nodes).acts) :
          (Director.removeNodes outside tables (some nodes)).Confined tables holder appId := by
        simp only [Director.removeNodes, Outside.deleteNodes_ok.mpr known, Reply.Confined, List.mem_append, done]
        rintro act (member | member)
        · exact killed same act member
        · obtain ⟨res, owned, rfl⟩ := deleted act member
          exact (Database.mem_own.mp owned).2
      refine ⟨confined alike acts, .of_acts ?_ ?_ ?_ (confined (.refl appId unique) rfl) (confined alike acts)⟩ <;>
        simp only [Director.removeNodes, Outside.deleteNodes_ok.mpr known, response, share, acts]
    · cases outcome : (outside.deleteNodes Act.vmDestroyed nodes).2 with
      | ok => exact absurd (Outside.deleteNodes_ok.mp outcome) known
      | error error =>
        have confined {tables : Database} (same : db.Alike appId tables) :
            (Director.removeNodes outside tables (some nodes)).Confined tables holder appId := by
          simp only [Director.removeNodes, outcome]
          exact killed same
        refine ⟨confined alike, .of_acts ?_ ?_ ?_ (confined (.refl appId unique)) (confined alike)⟩ <;>
          simp only [Director.removeNodes, outcome, alike.share]

end ConPaaS
