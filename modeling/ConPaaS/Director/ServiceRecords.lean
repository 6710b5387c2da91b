import ConPaaS.Director.ManifestImport
import ConPaaS.Lib.Acknowledged
import ConPaaS.Manager.States

namespace ConPaaS

open Keyed Transition

/-- What the director has to do once the reply to a call of a manager has come. -/
inductive Recording
  | add (sid : Nat) (type : String)
  | remove (sid : Nat)
  deriving DecidableEq, Repr

/-- The service that a reply says was added. -/
def Recording.added : Recording → Option Nat
  | .add sid _ => some sid
  | .remove _ => none

namespace Database

variable (db : Database)

/-- The end of `_add`. -/
def recordService (now appId sid : Int) (type : String) : Database :=
  { db with
    service := db.service.put ⟨freshId (db.service.rows.map Service.recId), sid, "New " ++ type ++ " service", type, "INIT",
      now, none, none, appId⟩ }

/-- The end of `_remove`, which raises where the service is not found. -/
def forgetService (userId appId sid : Int) : Database :=
  match db.getService userId appId sid with
  | .service (some service) => { db with service := db.service.erase service.recId }
  | _ => db

/-- The ids of the services that are listed for an application. -/
def listedIn (appId : Int) : List Int := (db.servicesIn appId).map Service.sid

def Lists (appId : Int) (sid : Nat) : Prop := (sid : Int) ∈ db.listedIn appId

end Database

/-- A reply is recorded. -/
def Recording.record (userId appId now : Int) (db : Database) : Recording → Database
  | .add sid type => db.recordService now appId sid type
  | .remove sid => db.forgetService userId appId sid

/-- `_remove`. -/
def ManifestOutside.removeService {μ : Type} (out : ManifestOutside μ) (userId : Int) (appId serviceId : Datum) : ManifestM μ Datum :=
  match appId.toInt, serviceId.toInt with
  | .ok appId, .ok serviceId => do
    let res ← out.callmanager userId
      [.int appId, .int 0, .str "remove_service", .bool true, .obj [("service_id", .int serviceId)]] []
    if ← res.has "error" then return res
    match (← get).db.getService userId appId serviceId with
    | .service (some service) =>
      modify fun w => { w with db := { w.db with service := w.db.service.erase service.recId } }
      return .obj []
    | .crashed error => throw (.raised error)
    | _ => throw (.raised "AttributeError: remove")
  | _, _ => return errorResponse (.str "Bad specification of application or service IDs")

/-- The director and the manager of an application: the tables of the director,
the manager process, the replies to the director that are on their way, and
those that never came. Only the last of these is not in the program. -/
structure ServiceRecords where
  db : Database
  process : Process
  replies : List Recording
  lost : List Recording

/-- What happens next: the manager handles a call of the director, a reply comes
and is recorded, it is lost, or the manager goes on with something else. -/
inductive RecordEvent
  | add (type : String) (construction : Construction)
  | remove (sid : Nat)
  | record (index : Nat) (now : Int)
  | lose (index : Nat)
  | manager (event : Event)

/-- What there is to record of a service that is added. -/
def ApplicationManager.addReply (am : ApplicationManager) (type : String) : Construction → List Recording
  | .made _ => [.add (am.serviceId + 1) type]
  | .unknownType | .notImported | .raised => []

/-- A request to remove a service was accepted. -/
def Process.Removing (p : Process) (sid : Nat) : Prop :=
  ∃ accepted ∈ p.accepted, accepted.operation = .removeService ∧ accepted.service = sid

/-- Threads that remove services were asked to, and no others deregister them. -/
structure Process.Removals (p : Process) : Prop where
  fresh : ∀ thread ∈ p.threads.rows, thread.ticket < p.accepted.length
  removing : ∀ thread ∈ p.threads.rows, thread.operation = .removeService → p.Removing thread.service
  deregistering : ∀ thread ∈ p.threads.rows, thread.stage = .deregistering → thread.operation = .removeService

namespace ServiceRecords

variable (userId appId : Int) (t : ServiceRecords)

/-- What the director has not recorded. -/
def unrecorded : List Recording := t.replies ++ t.lost

def handle : RecordEvent → Option ServiceRecords
  | .add type construction =>
    some { t with
      process := { t.process with manager := t.process.manager.addService construction }
      replies := t.replies ++ t.process.manager.addReply type construction }
  | .remove sid =>
    match t.process.manager.removeService sid with
    | none => some t
    | some (sid, operation) =>
      some { t with process := t.process.launch sid operation, replies := t.replies ++ [.remove sid] }
  | .record index now =>
    t.replies[index]?.map fun reply =>
      { t with db := reply.record userId appId now t.db, replies := t.replies.eraseIdx index }
  | .lose index =>
    t.replies[index]?.map fun reply => { t with replies := t.replies.eraseIdx index, lost := reply :: t.lost }
  | .manager (.addService _) | .manager (.request (.removeService _)) => none
  | .manager event => (t.process.handle event).map fun process => { t with process }

/-- One step of the director and the manager. -/
def Step (before : ServiceRecords) (event : RecordEvent) (after : ServiceRecords) : Prop :=
  before.handle userId appId event = some after

/-- Users remove services that are listed. -/
def Known (t : ServiceRecords) : RecordEvent → Prop
  | .remove sid => t.db.Lists appId sid
  | _ => True

/-- An application of a user whose manager has just come up. -/
structure Starts (t : ServiceRecords) : Prop where
  process : t.process.Starts
  owned : t.db.owns userId appId = true
  unlisted : t.db.servicesIn appId = []
  replies : t.replies = []
  lost : t.lost = []

/-- The services of the manager as a store, and the director as its client. -/
def view : Acknowledged.State Nat where
  held := {sid | sid ∈ t.process.manager.instances}
  leaving := {sid | t.process.Removing sid}
  used := {sid | sid ≤ t.process.manager.serviceId}
  recorded := {sid | t.db.Lists appId sid}
  adding := {sid | sid ∈ t.unrecorded.filterMap Recording.added}
  removing := {sid | .remove sid ∈ t.unrecorded}

/-- The tables list a service once, the manager has it once, and its addition is
acknowledged once. -/
structure Regular (t : ServiceRecords) : Prop where
  owned : t.db.owns userId appId = true
  listed : (t.db.listedIn appId).Nodup
  natural : ∀ id ∈ t.db.listedIn appId, 0 ≤ id
  instances : t.process.manager.instances.Nodup
  removals : t.process.Removals
  once : (t.unrecorded.filterMap Recording.added).Nodup

end ServiceRecords

namespace Database

variable {db : Database} {userId appId : Int}

theorem listedIn_recordService (db : Database) (now appId sid : Int) (type : String) :
    (db.recordService now appId sid type).listedIn appId = sid :: db.listedIn appId := by
  have absent : db.service.get? (freshId (db.service.rows.map Service.recId)) = none :=
    Table.get?_none_iff.mpr fun service member same =>
      freshId_not_mem (db.service.rows.map Service.recId) (same ▸ List.mem_map_of_mem member)
  rw [recordService, listedIn, servicesIn, Table.put_fresh absent, List.filter_cons_of_pos (by simp), List.map_cons]
  rfl

/-- What `getService` finds for the owner of the application. -/
theorem getService_cases (sid : Int) (owned : db.owns userId appId = true) :
    db.getService userId appId sid = .service none ∧ sid ∉ db.listedIn appId ∨
      ∃ service ∈ db.servicesIn appId, service.sid = sid ∧ db.getService userId appId sid = .service (some service) := by
  unfold getService
  split
  · rename_i none
    refine Or.inl ⟨rfl, fun member => ?_⟩
    obtain ⟨service, inside, same⟩ := List.mem_map.mp member
    have own := List.mem_filter.mp inside
    have other := List.find?_eq_none.mp none service own.1
    simp_all
  · rename_i service found
    have own := List.find?_some found
    simp only [Bool.and_eq_true, decide_eq_true_eq] at own
    obtain ⟨app, present, id, owner⟩ := owns_iff.mp owned
    have stored : db.application.get? service.applicationId = some app := by
      rw [own.2, ← id]
      exact Table.get?_of_mem present
    refine Or.inr ⟨service, List.mem_filter.mpr ⟨List.mem_of_find?_eq_some found, by simpa using own.2⟩, own.1, ?_⟩
    simp only [stored, owner, if_true]

theorem forgetService_application (db : Database) (userId appId sid : Int) :
    (db.forgetService userId appId sid).application = db.application := by
  unfold forgetService
  split
  · rfl
  · rfl

/-- A service that is forgotten is not listed any more, and the others are. -/
theorem listedIn_forgetService (sid : Int) (owned : db.owns userId appId = true) (once : (db.listedIn appId).Nodup) :
    (db.forgetService userId appId sid).listedIn appId = (db.listedIn appId).filter (· ≠ sid) := by
  unfold forgetService
  rcases getService_cases sid owned with ⟨none, absent⟩ | ⟨service, member, rfl, found⟩
  · simp only [none]
    refine (List.filter_eq_self.mpr fun other listed => ?_).symm
    exact decide_eq_true fun same => absent (same ▸ listed)
  · simp only [found]
    rw [listedIn, listedIn, servicesIn, servicesIn, Table.erase_rows, List.filter_filter, List.filter_map, List.filter_filter]
    refine congrArg (List.map Service.sid) (List.filter_congr fun other inside => ?_)
    by_cases own : other.applicationId = appId
    · have listed : other ∈ db.servicesIn appId := List.mem_filter.mpr ⟨inside, by simpa using own⟩
      have same : other.recId = service.recId ↔ other.sid = service.sid := by
        constructor
        · intro equal
          rw [db.service.unique inside (List.mem_filter.mp member).1 equal]
        · intro equal
          rw [List.inj_on_of_nodup_map once listed member equal]
      simp [own, same]
    · simp [own]

end Database

namespace Recording

theorem mem_added {recordings : List Recording} {sid : Nat} :
    sid ∈ recordings.filterMap added ↔ ∃ type, .add sid type ∈ recordings := by
  rw [List.mem_filterMap]
  constructor
  · rintro ⟨recording, member, same⟩
    cases recording with
    | add other type =>
      cases same
      exact ⟨type, member⟩
    | remove => cases same
  · rintro ⟨type, member⟩
    exact ⟨.add sid type, member, rfl⟩

end Recording

namespace ApplicationManager

variable {am after : ApplicationManager} {sid : Nat} {operation : Operation} {stage : Stage} {outcome : Outcome}

theorem hooked_next {next following : Option Stage} (step : hooked sid (am, next) = some (after, following)) :
    next = following :=
  congrArg Prod.snd (hooked_some step).2

/-- Only the removal of a service goes on to deregister it. -/
theorem advance_deregisters (step : am.advance sid operation stage outcome = some (after, some .deregistering)) :
    operation = .removeService := by
  cases operation with
  | removeService => rfl
  | startService =>
    change am.doStartService sid stage outcome = _ at step
    unfold doStartService at step
    repeat' split at step
    all_goals first | cases step | cases hooked_next step
  | stopService =>
    change am.doStopService sid false stage outcome = _ at step
    unfold doStopService at step
    repeat' split at step
    all_goals first | cases step | cases hooked_next step
  | addNodes =>
    change am.doAddNodes sid stage outcome = _ at step
    unfold doAddNodes at step
    repeat' split at step
    all_goals first | cases step | cases hooked_next step
  | removeNodes =>
    change am.doRemoveNodes sid stage outcome = _ at step
    unfold doRemoveNodes at step
    repeat' split at step
    all_goals first | cases step | cases hooked_next step
  | createVolume volName volSize agentId =>
    change am.doCreateVolume sid volName volSize agentId stage outcome = _ at step
    unfold doCreateVolume at step
    split at step
    · split at step
      · cases step
      · cases step
    · dsimp only at step
      split at step
      · cases step
      · cases step
    · cases step
    · cases step
    · cases step
    · cases step
  | deleteVolume volume =>
    change am.doDeleteVolume sid volume stage outcome = _ at step
    unfold doDeleteVolume at step
    repeat' split at step
    all_goals cases step

theorem mem_deregister (once : am.instances.Nodup) {other : Nat} :
    other ∈ (am.deregister sid).instances ↔ other ∈ am.instances ∧ other ≠ sid := by
  have erased : other ∈ am.instances.erase sid ↔ other ∈ am.instances ∧ other ≠ sid :=
    once.mem_erase_iff.trans and_comm
  by_cases member : sid ∈ am.instances
  · unfold deregister
    rw [if_pos member]
    dsimp only
    split
    · exact erased
    · exact erased
  · rw [deregister, if_neg member]
    exact ⟨fun inside => ⟨inside, fun same => member (same ▸ inside)⟩, And.left⟩

theorem deregister_nodup (once : am.instances.Nodup) : (am.deregister sid).instances.Nodup := by
  rcases deregister_cases am sid with same | same | same
  · rwa [same]
  · rw [same]
    exact once.erase sid
  · rw [same]
    exact once.erase sid

theorem removeService_some {started : Nat × Operation} (accepted : am.removeService sid = some started) :
    am.registered sid = true ∧ started = (sid, .removeService) := by
  unfold removeService at accepted
  split at accepted
  · rename_i registered
    exact ⟨registered, (Option.some.inj accepted).symm⟩
  · cases accepted

/-- A request that removes a service is one to remove it. -/
theorem request_removes {request : Request} (started : am.request request = some (sid, .removeService)) :
    request = .removeService sid := by
  cases request with
  | removeService other =>
    obtain ⟨-, same⟩ := removeService_some started
    cases same
    rfl
  | startService | stopService | addNodes | removeNodes | createVolume | deleteVolume =>
    simp only [request, startService, stopService, addNodes, removeNodes, createVolume, deleteVolume] at started
    repeat' split at started
    all_goals cases started

end ApplicationManager

namespace Process

variable {p : Process} {sid other : Nat} {operation : Operation}

theorem removing_launch : (p.launch sid operation).Removing other ↔ p.Removing other ∨ operation = .removeService ∧ sid = other := by
  simp only [Removing, launch, List.mem_cons, exists_eq_or_imp]
  exact or_comm

theorem Removals.start (starts : p.Starts) : p.Removals := by
  obtain ⟨-, -, -, -, -, threads, -⟩ := starts
  refine ⟨?_, ?_, ?_⟩
  all_goals simp [threads]

theorem Removals.manager (removals : p.Removals) (manager : ApplicationManager) : Removals { p with manager } :=
  ⟨removals.fresh, removals.removing, removals.deregistering⟩

theorem Removals.launch (removals : p.Removals) : (p.launch sid operation).Removals where
  fresh thread member := by
    rcases (mem_launch removals.fresh).mp member with rfl | old
    · exact Nat.lt_succ_self _
    · exact (removals.fresh thread old).trans (Nat.lt_succ_self _)
  removing thread member removes := by
    rcases (mem_launch removals.fresh).mp member with rfl | old
    · exact removing_launch.mpr (Or.inr ⟨removes, rfl⟩)
    · exact removing_launch.mpr (Or.inl (removals.removing thread old removes))
  deregistering thread member stage := by
    rcases (mem_launch removals.fresh).mp member with rfl | old
    · cases stage
    · exact removals.deregistering thread old stage

theorem Removals.proceed (removals : p.Removals) {thread : Thread} {outcome : Outcome} {manager : ApplicationManager}
    {next : Option Stage} (found : p.threads.get? thread.ticket = some thread)
    (advanced : p.manager.advance thread.service thread.operation thread.stage outcome = some (manager, next)) :
    (p.proceed thread.ticket (manager, next)).Removals := by
  have present := Table.get?_mem found
  refine ⟨fun other member => ?_, fun other member removes => ?_, fun other member stage => ?_⟩
  · rw [proceed_accepted]
    rcases (mem_proceed found).mp member with ⟨old, -⟩ | ⟨stage, -, rfl⟩
    · exact removals.fresh other old
    · exact removals.fresh thread present
  · unfold Removing
    rw [proceed_accepted]
    rcases (mem_proceed found).mp member with ⟨old, -⟩ | ⟨stage, -, rfl⟩
    · exact removals.removing other old removes
    · exact removals.removing thread present removes
  · rcases (mem_proceed found).mp member with ⟨old, -⟩ | ⟨later, going, rfl⟩
    · exact removals.deregistering other old stage
    · cases stage
      exact ApplicationManager.advance_deregisters (going ▸ advanced)

end Process

namespace ServiceRecords

variable {userId appId : Int} {t first before after : ServiceRecords} {event : RecordEvent} {events : List RecordEvent}

theorem unrecorded_append (process : Process) (reply : Recording) :
    ({ t with process, replies := t.replies ++ [reply] } : ServiceRecords).unrecorded.Perm (reply :: t.unrecorded) := by
  rw [unrecorded, unrecorded, List.append_assoc]
  exact List.perm_middle

/-- A reply is one of those that are not recorded. -/
theorem unrecorded_eraseIdx {index : Nat} {reply : Recording} (comes : t.replies[index]? = some reply) :
    t.unrecorded.Perm (reply :: (t.replies.eraseIdx index ++ t.lost)) := by
  obtain ⟨inside, rfl⟩ := List.getElem?_eq_some_iff.mp comes
  exact (List.getElem_cons_eraseIdx_perm inside).symm.append_right t.lost

/-- A step after which the director and the manager have the same services. -/
theorem use_step (held : ∀ sid, sid ∈ after.process.manager.instances ↔ sid ∈ t.process.manager.instances)
    (leaving : ∀ sid, after.process.Removing sid ↔ t.process.Removing sid)
    (more : t.process.manager.serviceId ≤ after.process.manager.serviceId)
    (listed : after.db.listedIn appId = t.db.listedIn appId) (replies : after.unrecorded.Perm t.unrecorded) :
    Acknowledged.Step (t.view appId) .use (after.view appId) := by
  have same : after.view appId = { t.view appId with used := (after.view appId).used } := by
    refine Acknowledged.State.ext (Set.ext held) (Set.ext leaving) rfl ?_ ?_ ?_
    · exact Set.ext fun sid => by simp only [view, Database.Lists, listed]
    · exact Set.ext fun sid => (replies.filterMap Recording.added).mem_iff
    · exact Set.ext fun sid => replies.mem_iff
  rw [same]
  exact .use fun sid bound => le_trans bound more

/-- What a step has done: it kept the books in order and it was a step of the
store and its client. -/
def Simulated (userId appId : Int) (before : ServiceRecords) (event : RecordEvent) (after : ServiceRecords) : Prop :=
  Regular userId appId after ∧ ∃ change, Acknowledged.Step (before.view appId) change (after.view appId) ∧
    (Known appId before event → Acknowledged.Known (before.view appId) change)

theorem Starts.regular (starts : Starts userId appId t) : Regular userId appId t := by
  obtain ⟨process, owned, unlisted, replies, lost⟩ := starts
  refine ⟨owned, ?_, ?_, ?_, .start process, ?_⟩
  · simp [Database.listedIn, unlisted]
  · simp [Database.listedIn, unlisted]
  · simp [process.instances]
  · simp [unrecorded, replies, lost]

theorem Starts.view (starts : Starts userId appId t) : Acknowledged.Starts (t.view appId) := by
  obtain ⟨process, -, unlisted, replies, lost⟩ := starts
  constructor
  all_goals simp [ServiceRecords.view, Process.Removing, Database.Lists, Database.listedIn, unrecorded, unlisted, replies, lost,
    process.instances, process.accepted]

/-- A call to add a service. -/
theorem Regular.add (regular : Regular userId appId t) (complete : Acknowledged.Complete (t.view appId)) (type : String)
    (construction : Construction) (handled : t.handle userId appId (.add type construction) = some after) :
    Simulated userId appId t (.add type construction) after := by
  obtain ⟨owned, listed, natural, instances, removals, once⟩ := regular
  cases handled
  have quiet (same : t.process.manager.addReply type construction = [])
      (kept : (t.process.manager.addService construction).instances = t.process.manager.instances) :
      Simulated userId appId t (.add type construction) { t with
        process := { t.process with manager := t.process.manager.addService construction }
        replies := t.replies ++ t.process.manager.addReply type construction } := by
    rw [same, List.append_nil]
    refine ⟨⟨owned, listed, natural, kept ▸ instances, removals.manager _, once⟩, .use, use_step (fun sid => by rw [kept])
      (fun _ => Iff.rfl) (ApplicationManager.addService_serviceId construction) rfl (List.Perm.refl _), fun _ _ same => ?_⟩
    cases same
  cases construction with
  | unknownType | notImported | raised => exact quiet rfl rfl
  | made exposed =>
    let sid := t.process.manager.serviceId + 1
    have fresh : sid ∉ (t.view appId).used := Nat.not_succ_le_self _
    have arrived := unrecorded_append (t := t) { t.process with manager := t.process.manager.addService (.made exposed) } (.add sid type)
    have added := arrived.filterMap Recording.added
    refine ⟨⟨owned, listed, natural, ?_, removals.manager _, added.nodup_iff.mpr ?_⟩, .add sid, ?_, fun _ _ same => ?_⟩
    · exact List.nodup_append_comm.mp (List.nodup_cons.mpr ⟨fun member => fresh (complete.held member), instances⟩)
    · exact List.nodup_cons.mpr ⟨fun member => fresh (complete.adding member), once⟩
    · have same : ServiceRecords.view appId { t with
          process := { t.process with manager := t.process.manager.addService (.made exposed) }
          replies := t.replies ++ [.add sid type] } = { t.view appId with
            held := insert sid (t.view appId).held
            used := {other | other ≤ sid}
            adding := insert sid (t.view appId).adding } := by
        refine Acknowledged.State.ext (Set.ext fun other => ?_) rfl rfl rfl (Set.ext fun other => ?_) (Set.ext fun other => ?_)
        · exact (List.mem_append.trans or_comm).trans (or_congr_left List.mem_singleton)
        · exact added.mem_iff.trans List.mem_cons
        · exact arrived.mem_iff.trans (by simp [ServiceRecords.view])
      refine same ▸ .add fresh (Set.insert_subset (Nat.le_refl sid) fun other bound => ?_)
      exact Nat.le_succ_of_le bound
    · cases same

/-- A call to remove a service. -/
theorem Regular.remove (regular : Regular userId appId t) (complete : Acknowledged.Complete (t.view appId)) (sid : Nat)
    (handled : t.handle userId appId (.remove sid) = some after) : Simulated userId appId t (.remove sid) after := by
  obtain ⟨owned, listed, natural, instances, removals, once⟩ := regular
  unfold handle at handled
  dsimp only at handled
  split at handled
  · cases handled
    refine ⟨⟨owned, listed, natural, instances, removals, once⟩, .use, use_step (fun _ => Iff.rfl) (fun _ => Iff.rfl) le_rfl rfl
      (List.Perm.refl _), fun _ _ same => ?_⟩
    cases same
  · rename_i accepted
    obtain ⟨registered, same⟩ := ApplicationManager.removeService_some accepted
    cases same
    cases handled
    have known : sid ∈ (t.view appId).used := by
      rcases (by simpa [ApplicationManager.registered] using registered) with rfl | member
      · exact Nat.zero_le _
      · exact complete.held member
    have arrived := unrecorded_append (t := t) (t.process.launch sid .removeService) (.remove sid)
    refine ⟨⟨owned, listed, natural, instances, removals.launch, (arrived.filterMap Recording.added).nodup_iff.mpr once⟩,
      .remove sid, ?_, ?_⟩
    · have same : ServiceRecords.view appId { t with
          process := t.process.launch sid .removeService, replies := t.replies ++ [.remove sid] } = { t.view appId with
            leaving := insert sid (t.view appId).leaving
            removing := insert sid (t.view appId).removing } := by
        refine Acknowledged.State.ext rfl (Set.ext fun other => ?_) rfl rfl (Set.ext fun other => ?_) (Set.ext fun other => ?_)
        · refine Process.removing_launch.trans (or_comm.trans (or_congr_left ?_))
          exact ⟨fun asked => asked.2.symm, fun same => ⟨rfl, same.symm⟩⟩
        · exact (arrived.filterMap Recording.added).mem_iff
        · exact arrived.mem_iff.trans (by simp [ServiceRecords.view])
      exact same ▸ .remove known
    · rintro listed other same
      cases same
      exact listed

/-- A reply is recorded. -/
theorem Regular.record (regular : Regular userId appId t) (complete : Acknowledged.Complete (t.view appId)) (index : Nat) (now : Int)
    (handled : t.handle userId appId (.record index now) = some after) : Simulated userId appId t (.record index now) after := by
  obtain ⟨owned, listed, natural, instances, removals, once⟩ := regular
  obtain ⟨reply, comes, rfl⟩ := Option.map_eq_some_iff.mp handled
  have rest := unrecorded_eraseIdx comes
  have added := rest.filterMap Recording.added
  have waiting := added.nodup_iff.mp once
  cases reply with
  | add sid type =>
    have acknowledged : sid ∈ (t.view appId).adding := added.mem_iff.mpr (List.mem_cons_self ..)
    have list := Database.listedIn_recordService t.db now appId sid type
    obtain ⟨absent, distinct⟩ := List.nodup_cons.mp waiting
    refine ⟨⟨owned, ?_, ?_, instances, removals, distinct⟩, .recordAdd sid, ?_, fun _ _ same => ?_⟩
    · exact list ▸ List.nodup_cons.mpr ⟨complete.apart sid acknowledged, listed⟩
    · exact list ▸ List.forall_mem_cons.mpr ⟨Int.natCast_nonneg sid, natural⟩
    · have same : ServiceRecords.view appId { t with
          db := t.db.recordService now appId sid type, replies := t.replies.eraseIdx index } = { t.view appId with
            recorded := insert sid (t.view appId).recorded
            adding := (t.view appId).adding \ {sid} } := by
        refine Acknowledged.State.ext rfl rfl rfl (Set.ext fun other => ?_) (Set.ext fun other => ?_) (Set.ext fun other => ?_)
        · have cons : (t.db.recordService now appId sid type).Lists appId other ↔ (other : Int) = sid ∨ t.db.Lists appId other := by
            rw [Database.Lists, list]
            exact List.mem_cons
          exact cons.trans (or_congr_left Int.natCast_inj)
        · constructor
          · intro member
            exact ⟨added.mem_iff.mpr (List.mem_cons_of_mem _ member), fun same => absent (same ▸ member)⟩
          · rintro ⟨member, other_ne⟩
            exact (List.mem_cons.mp (added.mem_iff.mp member)).resolve_left other_ne
        · have kept : .remove other ∈ t.unrecorded ↔ .remove other ∈ t.replies.eraseIdx index ++ t.lost :=
            rest.mem_iff.trans (by simp)
          exact kept.symm
      exact same ▸ .recordAdd acknowledged
    · cases same
  | remove sid =>
    have acknowledged : sid ∈ (t.view appId).removing := rest.mem_iff.mpr (List.mem_cons_self ..)
    have list := Database.listedIn_forgetService sid owned listed
    refine ⟨⟨?_, ?_, ?_, instances, removals, waiting⟩, .recordRemove sid, ?_, fun _ _ same => ?_⟩
    · rw [Database.owns, Recording.record, Database.forgetService_application]
      exact owned
    · exact list ▸ listed.filter _
    · exact list ▸ fun id member => natural id (List.mem_of_mem_filter member)
    · have same : ServiceRecords.view appId { t with
          db := t.db.forgetService userId appId sid, replies := t.replies.eraseIdx index } = { t.view appId with
            recorded := (t.view appId).recorded \ {sid}
            removing := {other | .remove other ∈ t.replies.eraseIdx index ++ t.lost} } := by
        refine Acknowledged.State.ext rfl rfl rfl (Set.ext fun other => ?_) (Set.ext fun other => ?_) rfl
        · have kept : (t.db.forgetService userId appId sid).Lists appId other ↔ t.db.Lists appId other ∧ (other : Int) ≠ sid := by
            rw [Database.Lists, list, List.mem_filter, decide_eq_true_eq]
            rfl
          exact kept.trans (and_congr_right fun _ => not_congr Int.natCast_inj)
        · exact added.mem_iff.symm
      have fewer : (t.replies.eraseIdx index ++ t.lost) ⊆ t.unrecorded := fun other member =>
        rest.mem_iff.mpr (List.mem_cons_of_mem _ member)
      refine same ▸ .recordRemove acknowledged (fun other member => fewer member) fun other member => ?_
      exact (List.mem_cons.mp (rest.mem_iff.mp member)).imp_left fun same => by cases same; rfl
    · cases same

theorem Regular.lose (regular : Regular userId appId t) (index : Nat)
    (handled : t.handle userId appId (.lose index) = some after) : Simulated userId appId t (.lose index) after := by
  obtain ⟨owned, listed, natural, instances, removals, once⟩ := regular
  obtain ⟨reply, comes, rfl⟩ := Option.map_eq_some_iff.mp handled
  have same : (t.replies.eraseIdx index ++ reply :: t.lost).Perm t.unrecorded :=
    List.perm_middle.trans (unrecorded_eraseIdx comes).symm
  refine ⟨⟨owned, listed, natural, instances, removals, (same.filterMap Recording.added).nodup_iff.mpr once⟩, .use,
    use_step (fun _ => Iff.rfl) (fun _ => Iff.rfl) le_rfl rfl same, fun _ _ same => ?_⟩
  cases same

/-- A step of the manager of which the director learns nothing. -/
theorem Regular.manager (regular : Regular userId appId t) (event : Event)
    (handled : t.handle userId appId (.manager event) = some after) : Simulated userId appId t (.manager event) after := by
  obtain ⟨owned, listed, natural, instances, removals, once⟩ := regular
  have unasked {change : Acknowledged.Event Nat} (other : ∀ sid, change ≠ .remove sid) :
      Known appId t (.manager event) → Acknowledged.Known (t.view appId) change := fun _ sid same => absurd same (other sid)
  cases event with
  | addService construction => cases handled
  | request request =>
    have answered : (t.process.handle (.request request)).map (fun process => { t with process }) = some after ∧
        ∀ sid, request ≠ .removeService sid := by
      cases request with
      | removeService => cases handled
      | _ => exact ⟨handled, fun _ same => by cases same⟩
    obtain ⟨run, other⟩ := answered
    obtain ⟨process, stepped, rfl⟩ := Option.map_eq_some_iff.mp run
    unfold Process.handle at stepped
    dsimp only at stepped
    split at stepped
    · cases stepped
      exact ⟨⟨owned, listed, natural, instances, removals, once⟩, .use, use_step (fun _ => Iff.rfl) (fun _ => Iff.rfl) le_rfl rfl
        (List.Perm.refl _), unasked fun _ same => by cases same⟩
    · rename_i sid operation accepted
      cases stepped
      have kept : operation ≠ .removeService := fun same =>
        other sid (ApplicationManager.request_removes (same ▸ accepted))
      refine ⟨⟨owned, listed, natural, instances, removals.launch, once⟩, .use,
        use_step (fun _ => Iff.rfl) (fun other => ?_) le_rfl rfl (List.Perm.refl _), unasked fun _ same => by cases same⟩
      exact Process.removing_launch.trans (or_iff_left fun asked => kept asked.1)
  | advance ticket outcome =>
    obtain ⟨process, stepped, rfl⟩ := Option.map_eq_some_iff.mp handled
    obtain ⟨thread, manager, next, found, -, advanced, rfl⟩ := Process.step_advance.mp stepped
    have effect := ApplicationManager.advance_effect advanced
    have stays (sid : Nat) : (t.process.proceed thread.ticket (manager, next)).Removing sid ↔ t.process.Removing sid := by
      rw [Process.Removing, Process.proceed_accepted]
      rfl
    have bound : t.process.manager.serviceId ≤ (t.process.proceed thread.ticket (manager, next)).manager.serviceId := by
      rw [Process.proceed_manager, effect.serviceId]
    rcases effect.instances with same | ⟨stage, rfl⟩
    · refine ⟨⟨owned, listed, natural, ?_, removals.proceed found advanced, once⟩, .use, use_step (fun sid => ?_) stays bound rfl
        (List.Perm.refl _), unasked fun _ same => by cases same⟩
      · rw [Process.proceed_manager, same]
        exact instances
      · rw [Process.proceed_manager, same]
    · have present := Table.get?_mem found
      have accepted : thread.service ∈ (t.view appId).leaving :=
        removals.removing thread present (removals.deregistering thread present stage)
      refine ⟨⟨owned, listed, natural, ?_, removals.proceed found advanced, once⟩, .finish thread.service, ?_,
        unasked fun _ same => by cases same⟩
      · rw [Process.proceed_manager]
        exact ApplicationManager.deregister_nodup instances
      · have same : ServiceRecords.view appId { t with
            process := t.process.proceed thread.ticket (t.process.manager.deregister thread.service, next) } = { t.view appId with
              held := (t.view appId).held \ {thread.service} } := by
          refine Acknowledged.State.ext (Set.ext fun sid => ?_) (Set.ext stays) (Set.ext fun sid => ?_) rfl rfl rfl
          · simp only [ServiceRecords.view, Process.proceed_manager]
            exact ApplicationManager.mem_deregister instances
          · simp only [ServiceRecords.view, Process.proceed_manager, effect.serviceId]
        exact same ▸ .finish accepted

theorem Regular.step (regular : Regular userId appId before) (complete : Acknowledged.Complete (before.view appId))
    (taken : Step userId appId before event after) : Simulated userId appId before event after := by
  cases event with
  | add type construction => exact regular.add complete type construction taken
  | remove sid => exact regular.remove complete sid taken
  | record index now => exact regular.record complete index now taken
  | lose index => exact regular.lose index taken
  | manager event => exact regular.manager event taken

end ServiceRecords

namespace ServiceRecords

variable {userId appId : Int} {t first : ServiceRecords} {events : List RecordEvent}

/-- Over every run the books are in order, and the director has been a client of
the services of the manager. -/
theorem regular_of_run (starts : Starts userId appId first) (run : Run (Step userId appId) first events t) :
    Regular userId appId t ∧ ∃ changes, Run Acknowledged.Step (first.view appId) changes (t.view appId) := by
  refine run.simulated (Regular userId appId) (ServiceRecords.view appId) starts.regular fun regular seen taken => ?_
  obtain ⟨kept, change, step, -⟩ := regular.step (Acknowledged.complete_of_run starts.view seen) taken
  exact ⟨kept, change, step⟩

theorem known_of_run (starts : Starts userId appId first) (run : Run (Guarded (Known appId) (Step userId appId)) first events t) :
    Regular userId appId t ∧
      ∃ changes, Run (Guarded Acknowledged.Known Acknowledged.Step) (first.view appId) changes (t.view appId) := by
  refine run.simulated (Regular userId appId) (ServiceRecords.view appId) starts.regular fun regular seen taken => ?_
  obtain ⟨kept, change, step, known⟩ := regular.step (Acknowledged.sound_of_run starts.view seen).1 taken.2
  exact ⟨kept, change, known taken.1, step⟩

/-- A service is listed once. What the manager keeps is listed, unless the reply
to its addition is on its way or was lost. -/
theorem kept_listed (starts : Starts userId appId first) (run : Run (Step userId appId) first events t) :
    (t.db.listedIn appId).Nodup ∧ ∀ sid ∈ t.process.manager.instances, ¬ t.process.Removing sid →
      t.db.Lists appId sid ∨ ∃ type, .add sid type ∈ t.replies ++ t.lost := by
  obtain ⟨regular, changes, seen⟩ := regular_of_run starts run
  have complete := Acknowledged.complete_of_run starts.view seen
  refine ⟨regular.listed, fun sid member staying => ?_⟩
  exact ((complete.kept member).resolve_left staying).imp_right Recording.mem_added.mp

/-- Where users remove what is listed, the manager keeps what is listed unless
the reply to a removal is on its way or was lost. Once every reply has come the
list is right. -/
theorem listed_kept (starts : Starts userId appId first) (run : Run (Guarded (Known appId) (Step userId appId)) first events t) :
    (∀ id ∈ t.db.listedIn appId, ∃ sid : Nat, id = sid ∧
      (sid ∈ t.process.manager.instances ∧ ¬ t.process.Removing sid ∨ .remove sid ∈ t.replies ++ t.lost)) ∧
    (t.replies = [] → t.lost = [] →
      ∀ sid : Nat, t.db.Lists appId sid ↔ sid ∈ t.process.manager.instances ∧ ¬ t.process.Removing sid) := by
  obtain ⟨regular, changes, seen⟩ := known_of_run starts run
  obtain ⟨complete, sound⟩ := Acknowledged.sound_of_run starts.view seen
  refine ⟨fun id member => ?_, fun replies lost sid => ?_⟩
  · have own : ((id.toNat : Nat) : Int) = id := Int.toNat_of_nonneg (regular.natural id member)
    have recorded : id.toNat ∈ (t.view appId).recorded := own.symm ▸ member
    exact ⟨id.toNat, own.symm, sound.recorded recorded⟩
  · have settled : t.unrecorded = [] := by rw [unrecorded, replies, lost, List.append_nil]
    have adding : (t.view appId).adding = ∅ := by simp [ServiceRecords.view, settled]
    have removing : (t.view appId).removing = ∅ := by simp [ServiceRecords.view, settled]
    have same := Acknowledged.recorded_eq complete sound adding removing
    exact Set.ext_iff.mp same sid

/-- An application without services. -/
def new : ServiceRecords where
  db := ⟨.empty, ⟨[⟨1, "shop", .running, 1⟩], firstRow_distinct⟩, .empty, .empty⟩
  process := Process.fresh
  replies := []
  lost := []

theorem new_starts : Starts 1 1 new := ⟨Process.fresh_starts, rfl, rfl, rfl, rfl⟩

theorem new_kept : ∃ t, Run (Step 1 1) new [.add "php" (.made []), .add "mysql" (.made []), .record 1 0] t ∧
    t.db.Lists 1 2 ∧ ¬ t.db.Lists 1 1 ∧ ∃ type, .add 1 type ∈ t.replies ++ t.lost := by
  obtain ⟨t, played, listed, known, accepted⟩ : ∃ t,
      play (handle 1 1) new [.add "php" (.made []), .add "mysql" (.made []), .record 1 0] = some t ∧
        t.db.listedIn 1 = [2] ∧ 1 ∈ t.process.manager.instances ∧ t.process.accepted = [] :=
    ⟨_, rfl, by decide, by decide, rfl⟩
  have run := Run.play played
  have absent : ¬ t.db.Lists 1 1 := by
    rw [Database.Lists, listed]
    decide
  have staying : ¬ t.process.Removing 1 := by simp [Process.Removing, accepted]
  refine ⟨t, run, ?_, absent, ((kept_listed new_starts run).2 1 known staying).resolve_left absent⟩
  rw [Database.Lists, listed]
  exact List.mem_singleton.mpr rfl

theorem new_listed : ∃ t, Run (Guarded (Known 1) (Step 1 1)) new
      [.add "php" (.made []), .add "mysql" (.made []), .record 1 0, .record 0 0, .remove 1, .record 0 0] t ∧
    t.db.Lists 1 2 ∧ ¬ t.db.Lists 1 1 := by
  obtain ⟨t, run, replies, lost, held, accepted⟩ : ∃ t, Run (Guarded (Known 1) (Step 1 1)) new
        [.add "php" (.made []), .add "mysql" (.made []), .record 1 0, .record 0 0, .remove 1, .record 0 0] t ∧
      t.replies = [] ∧ t.lost = [] ∧ t.process.manager.instances = [1, 2] ∧ t.process.accepted = [⟨0, 1, .removeService⟩] := by
    refine ⟨_, .cons ⟨trivial, rfl⟩ (.cons ⟨trivial, rfl⟩ (.cons ⟨trivial, rfl⟩ (.cons ⟨trivial, rfl⟩ (.cons ⟨?_, rfl⟩
      (.single ⟨trivial, rfl⟩))))), rfl, rfl, rfl, rfl⟩
    exact List.mem_cons_self ..
  have settled := (listed_kept new_starts run).2 replies lost
  have removing (sid : Nat) : t.process.Removing sid ↔ sid = 1 := by simp [Process.Removing, accepted, eq_comm]
  refine ⟨t, run, (settled 2).mpr ⟨by simp [held], by simp [removing]⟩, fun listed => ?_⟩
  exact ((settled 1).mp listed).2 ((removing 1).mpr rfl)

end ServiceRecords

namespace ManifestOutside

variable {μ : Type} {out : ManifestOutside μ} {userId appId : Int} {start : ManagerStart} {w called : ManifestWorld μ}
  {t : ServiceRecords}

/-- `_add`, when no other call is served at the same time: the manager handles
the call and its reply is recorded. -/
theorem addService_steps {type : String} (given : appId ≠ 0) (valid : type ∈ validServices) (exposed : List HttpMethod)
    (owned : w.db.owns userId appId = true) (same : called.db = t.db)
    (answered : out.callmanager userId [.int appId, .int 0, .str "add_service", .bool true, .obj [("service_type", .str type)]] [] w =
      .ok (.obj [("service_id", .int (t.process.manager.serviceId + 1 : Nat))]) called) :
    ∃ after, Run (ServiceRecords.Step userId appId) t [.add type (.made exposed), .record t.replies.length start.now] after ∧
      after.replies = t.replies ∧ Effect.left (out.addService userId start (.str type) appId) w = { called with db := after.db } := by
  let sid := t.process.manager.serviceId + 1
  have arrived : (t.replies ++ [.add sid type])[t.replies.length]? = some (.add sid type) := by simp
  have removed : (t.replies ++ [Recording.add sid type]).eraseIdx t.replies.length = t.replies := by
    rw [List.eraseIdx_append_of_length_le le_rfl, Nat.sub_self]
    exact List.append_nil _
  refine ⟨{ t with
      db := t.db.recordService start.now appId sid type
      process := { t.process with manager := t.process.manager.addService (.made exposed) } }, .cons rfl (.single ?_), rfl, ?_⟩
  · unfold ServiceRecords.Step ServiceRecords.handle
    simp only [ApplicationManager.addReply]
    rw [arrived, Option.map_some, removed]
    rfl
  · obtain ⟨app, found⟩ := Option.isSome_iff_exists.mp (Database.getAppById_iff.mpr owned)
    have known : (validServices.any fun known => Datum.isStr known (.str type)) = true :=
      List.any_eq_true.mpr ⟨type, valid, by simp [Datum.isStr]⟩
    unfold addService
    rw [Effect.left_of_eq Effect.get_bind]
    simp only [given, found, known, if_false, Bool.false_and, decide_false, Bool.not_true, Bool.false_eq_true]
    rw [Effect.left_of_eq (Effect.bind_of_ok answered), ← same]
    rfl

/-- `_remove`, when no other call is served at the same time. -/
theorem removeService_steps {sid : Nat} (registered : t.process.manager.registered sid = true) (same : called.db = t.db) (now : Int)
    (answered : out.callmanager userId [.int appId, .int 0, .str "remove_service", .bool true, .obj [("service_id", .int sid)]] [] w =
      .ok (.obj []) called) :
    ∃ after, Run (ServiceRecords.Step userId appId) t [.remove sid, .record t.replies.length now] after ∧
      after.replies = t.replies ∧ Effect.left (out.removeService userId (.int appId) (.int sid)) w = { called with db := after.db } := by
  have arrived : (t.replies ++ [.remove sid])[t.replies.length]? = some (.remove sid) := by simp
  have removed : (t.replies ++ [Recording.remove sid]).eraseIdx t.replies.length = t.replies := by
    rw [List.eraseIdx_append_of_length_le le_rfl, Nat.sub_self]
    exact List.append_nil _
  have accepted : t.process.manager.removeService sid = some (sid, .removeService) := if_pos registered
  have handled : ServiceRecords.Step userId appId t (.remove sid)
      { t with process := t.process.launch sid .removeService, replies := t.replies ++ [.remove sid] } := by
    unfold ServiceRecords.Step ServiceRecords.handle
    simp only [accepted]
  refine ⟨{ t with db := t.db.forgetService userId appId sid, process := t.process.launch sid .removeService },
    .cons handled (.single ?_), rfl, ?_⟩
  · unfold ServiceRecords.Step ServiceRecords.handle
    simp only [arrived, Option.map_some, removed]
    rfl
  · unfold removeService
    simp only [Datum.toInt]
    rw [Effect.left_of_eq (Effect.bind_of_ok answered), ← same]
    have unrefused : (liftM (Datum.has "error" (.obj [])) : ManifestM μ Bool) called = .ok false called := rfl
    rw [Effect.left_of_eq (Effect.bind_of_ok unrefused), if_neg Bool.false_ne_true, Effect.left_of_eq Effect.get_bind]
    unfold Database.forgetService
    split
    · rename_i service found
      simp only [found]
      rfl
    · rename_i error found
      simp only [found]
      rfl
    · rename_i other _
      split
      · rename_i service found
        exact absurd found (other service)
      · rfl

end ManifestOutside

end ConPaaS
