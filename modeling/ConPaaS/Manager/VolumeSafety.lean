import ConPaaS.Manager.VolumeRuns

namespace ConPaaS

open Keyed Transition ApplicationManager

def Operation.onVolumes : Operation → Bool
  | .createVolume _ _ _ | .deleteVolume _ => true
  | _ => false

/-- The managers whose lists lose the nodes that a stop or a removal gives up. -/
def Operation.holders (sid : Nat) : Operation → List Nat
  | .removeNodes => [0, sid]
  | _ => [0]

namespace ApplicationManager

variable {am after : ApplicationManager} {sid : Nat} {operation : Operation} {stage : Stage} {next : Option Stage}
  {outcome : Outcome}

/-- A record is there, and it is one of those that were there. -/
structure Fewer (nodes : List Entry) (before after : Table Volume.volName) : Prop where
  subset : ∀ volume ∈ after.rows, volume ∈ before.rows
  lost : ∀ volume ∈ before.rows, volume ∉ after.rows → ∃ node ∈ nodes, node.id = volume.vmId

theorem Fewer.refl (nodes : List Entry) (volumes : Table Volume.volName) : Fewer nodes volumes volumes :=
  ⟨fun _ member => member, fun _ member gone => absurd member gone⟩

theorem removeNode_volumes (vmId : String) (holders : List Nat) (am : ApplicationManager) :
    (removeNode vmId holders am).1.volumes = am.volumes := by
  induction holders generalizing am with
  | nil => rfl
  | cons holder rest ih =>
    rw [removeNode]
    split
    · rfl
    · exact ih _

/-- Giving up nodes loses no records but theirs. -/
theorem forget_volumes (holders : List Nat) (nodes : List Entry) (am : ApplicationManager) :
    Fewer nodes am.volumes (forget holders nodes am).1.volumes := by
  induction nodes generalizing am with
  | nil => exact .refl _ _
  | cons entry rest ih =>
    cases entry with
    | key => exact .refl _ _
    | node node =>
      have dropped (volume : Volume) : volume ∈ (removeNode node.id holders (am.dropVolumes node.id)).1.volumes.rows ↔
          volume ∈ am.volumes.rows ∧ volume.vmId ≠ node.id := by
        rw [removeNode_volumes, dropVolumes, Table.filter_rows, List.mem_filter, decide_eq_true_eq]
      have first {volume : Volume} (member : volume ∈ am.volumes.rows)
          (gone : volume ∉ (removeNode node.id holders (am.dropVolumes node.id)).1.volumes.rows) : node.id = volume.vmId := by
        by_contra other
        exact gone ((dropped volume).mpr ⟨member, Ne.symm other⟩)
      rw [forget]
      split
      · rename_i mid removed
        rw [removed] at dropped first
        obtain ⟨subset, lost⟩ := ih mid
        refine ⟨fun volume member => ((dropped volume).mp (subset volume member)).1, fun volume member gone => ?_⟩
        by_cases still : volume ∈ mid.volumes.rows
        · obtain ⟨other, inside, same⟩ := lost volume still gone
          exact ⟨other, List.mem_cons_of_mem _ inside, same⟩
        · exact ⟨_, List.mem_cons_self .., first member still⟩
      · rename_i mid removed
        rw [removed] at dropped first
        exact ⟨fun volume member => ((dropped volume).mp member).1, fun volume member gone =>
          ⟨_, List.mem_cons_self .., first member gone⟩⟩

theorem extend_volumes {holder : Nat} {nodes : Nodes} (extended : am.extend holder nodes = some after) :
    after.volumes = am.volumes := by
  obtain ⟨_, -, rfl⟩ := Option.map_eq_some_iff.mp extended
  rfl

theorem deregister_volumes (am : ApplicationManager) (sid : Nat) : (am.deregister sid).volumes = am.volumes := by
  rcases deregister_cases am sid with same | same | same
  · rw [same]
  · rw [same]
  · rw [same]
    rfl

/-- What an operation that is not about volumes does to the records: it gives
up nodes in one step and else leaves them alone. -/
def Leaves (am : ApplicationManager) (sid : Nat) (operation : Operation) (stage : Stage) (outcome : Outcome)
    (after : ApplicationManager) : Prop :=
  (∃ nodes, stage = .removing nodes ∧ outcome = .runs ∧ after.volumes = (forget (operation.holders sid) nodes am).1.volumes) ∨
    (∀ nodes, stage ≠ .removing nodes) ∧ after.volumes = am.volumes

theorem doStartService_volumes (step : am.doStartService sid stage outcome = some (after, next)) :
    am.Leaves sid .startService stage outcome after := by
  unfold doStartService at step
  split at step
  · cases step
    exact .inr ⟨nofun, rfl⟩
  · split at step
    · cases step
      exact .inr ⟨nofun, rfl⟩
    · split at step
      · cases step
        exact .inr ⟨nofun, rfl⟩
      · rename_i extended
        have first := extend_volumes extended
        cases step
        exact .inr ⟨nofun, first⟩
  · obtain ⟨-, same⟩ := hooked_some step
    cases same
    exact .inr ⟨nofun, rfl⟩
  · obtain ⟨-, same⟩ := hooked_some step
    cases same
    exact .inr ⟨nofun, rfl⟩
  · cases step
    exact .inr ⟨nofun, rfl⟩
  · cases step

theorem doAddNodes_volumes (step : am.doAddNodes sid stage outcome = some (after, next)) :
    am.Leaves sid .addNodes stage outcome after := by
  unfold doAddNodes at step
  split at step
  · cases step
    exact .inr ⟨nofun, rfl⟩
  · split at step
    · cases step
      exact .inr ⟨nofun, rfl⟩
    · split at step
      · cases step
        exact .inr ⟨nofun, rfl⟩
      · rename_i extended
        have first := extend_volumes extended
        split at step
        · cases step
          exact .inr ⟨nofun, first⟩
        · rename_i extended
          cases step
          exact .inr ⟨nofun, (extend_volumes extended).trans first⟩
  · obtain ⟨-, same⟩ := hooked_some step
    cases same
    exact .inr ⟨nofun, rfl⟩
  · obtain ⟨-, same⟩ := hooked_some step
    cases same
    exact .inr ⟨nofun, rfl⟩
  · cases step
    exact .inr ⟨nofun, rfl⟩
  · cases step

theorem doStopService_volumes {remove : Bool} (kind : operation.holders sid = [0])
    (step : am.doStopService sid remove stage outcome = some (after, next)) : am.Leaves sid operation stage outcome after := by
  unfold doStopService at step
  split at step
  · split at step
    · split at step <;> cases step <;> exact .inr ⟨nofun, rfl⟩
    · cases step
      exact .inr ⟨nofun, rfl⟩
  · split at step
    · obtain ⟨-, same⟩ := hooked_some step
      cases same
      exact .inr ⟨nofun, rfl⟩
    · cases step
  · obtain ⟨-, same⟩ := hooked_some step
    cases same
    exact .inr ⟨nofun, rfl⟩
  · split at step
    · cases step
      exact .inr ⟨nofun, rfl⟩
    · cases step
  · rename_i nodes
    refine .inl ⟨nodes, rfl, rfl, ?_⟩
    rw [kind]
    split at step <;> rename_i run <;> cases step <;> rw [run]
  · cases step
    exact .inr ⟨nofun, deregister_volumes am sid⟩
  · cases step

theorem doRemoveNodes_volumes (step : am.doRemoveNodes sid stage outcome = some (after, next)) :
    am.Leaves sid .removeNodes stage outcome after := by
  unfold doRemoveNodes at step
  split at step
  · cases step
    exact .inr ⟨nofun, rfl⟩
  · split at step
    · obtain ⟨-, same⟩ := hooked_some step
      cases same
      exact .inr ⟨nofun, rfl⟩
    · cases step
  · obtain ⟨-, same⟩ := hooked_some step
    cases same
    exact .inr ⟨nofun, rfl⟩
  · cases step
    exact .inr ⟨nofun, rfl⟩
  · cases step
    exact .inl ⟨_, rfl, rfl, rfl⟩
  · cases step

theorem advance_volumes (other : operation.onVolumes = false) (step : am.advance sid operation stage outcome = some (after, next)) :
    am.Leaves sid operation stage outcome after := by
  cases operation with
  | startService => exact doStartService_volumes step
  | stopService => exact doStopService_volumes rfl step
  | removeService => exact doStopService_volumes rfl step
  | addNodes => exact doAddNodes_volumes step
  | removeNodes => exact doRemoveNodes_volumes step
  | createVolume | deleteVolume => cases other

/-- What a request on volumes was checked for. -/
theorem request_volumes {request : Request} (started : am.request request = some (sid, operation)) :
    operation.onVolumes = false ∨
      (∃ volName volSize agentId, operation = .createVolume volName volSize agentId ∧ am.volumes.get? volName = none) ∨
        ∃ volume, operation = .deleteVolume volume ∧ am.volumes.get? volume.volName = some volume := by
  cases request with
  | startService sid' checked =>
    simp only [request, startService] at started
    split at started <;> cases started
    exact .inl rfl
  | stopService sid' =>
    simp only [request, stopService] at started
    split at started <;> cases started
    exact .inl rfl
  | removeService sid' =>
    simp only [request, removeService] at started
    split at started <;> cases started
    exact .inl rfl
  | addNodes sid' checked =>
    simp only [request, addNodes] at started
    split at started <;> cases started
    exact .inl rfl
  | removeNodes sid' checked =>
    simp only [request, removeNodes] at started
    split at started <;> cases started
    exact .inl rfl
  | createVolume volName volSize agentId checked =>
    simp only [request, createVolume] at started
    split at started
    · rename_i ready
      simp only [Bool.and_eq_true, Option.isNone_iff_eq_none] at ready
      split at started
      · cases started
      · split at started <;> cases started
        exact .inr (.inl ⟨_, _, _, rfl, ready.1.1⟩)
    · cases started
  | deleteVolume volName checked =>
    simp only [request, deleteVolume] at started
    split at started
    · cases started
    · rename_i volume found
      split at started
      · split at started
        · cases started
        · split at started <;> cases started
          refine .inr (.inr ⟨volume, rfl, ?_⟩)
          rwa [Table.get?_key found]
      · cases started

end ApplicationManager

namespace Site

/-- The disk of a volume is attached to its node under its device name. -/
def Attached (disks : Table Disk.volId) (volume : Volume) : Prop :=
  ∃ disk ∈ disks.rows, disk.volId = volume.volId ∧ disk.place = some (volume.vmId, volume.devName)

/-- Every disk that is attached to a node is recorded as it is. -/
def Known (volumes : Table Volume.volName) (disks : Table Disk.volId) (vmId : String) : Prop :=
  ∀ disk ∈ disks.rows, ∀ place ∈ disk.place, place.1 = vmId →
    ∃ volume ∈ volumes.rows, volume.volId = disk.volId ∧ volume.vmId = vmId ∧ volume.devName = place.2

/-- No disk is attached under the device name of a volume to its node. -/
def Free (disks : Table Disk.volId) (volume : Volume) : Prop :=
  ∀ disk ∈ disks.rows, disk.place ≠ some (volume.vmId, volume.devName)

/-- Two volumes attached to one node have different device names. -/
def Apart (disks : Table Disk.volId) : Prop :=
  ∀ first ∈ disks.rows, ∀ second ∈ disks.rows, first.place = second.place → first.place ≠ none → first = second

/-- What a thread relies on: no record has the name its creation will take, and
the disks of its node are all recorded until it has a device name, which then
is free. The record under the name of its deletion is the volume it deletes. -/
def Serves (volumes : Table Volume.volName) (disks : Table Disk.volId) : Operation → Stage → Prop
  | .createVolume volName _ agentId, stage => volumes.get? volName = none ∧
    match stage with
    | .attachingVolume volume => volume.volName = volName ∧ volume.vmId = agentId ∧ Free disks volume
    | .configuringVolume volume => volume.volName = volName ∧ volume.vmId = agentId
    | _ => Known volumes disks agentId
  | .deleteVolume volume, stage => (∀ found ∈ volumes.get? volume.volName, found = volume) ∧
    match stage with
    | .destroyingVolume destroyed => destroyed = volume
    | _ => True
  | _, _ => True

/-- Two operations on volumes in flight are about different names, and two
creations about different nodes. -/
def Disjoint : Operation → Operation → Prop
  | .createVolume volName _ agentId, .createVolume other _ node => volName ≠ other ∧ agentId ≠ node
  | .createVolume volName _ _, .deleteVolume volume => volName ≠ volume.volName
  | .deleteVolume volume, .createVolume volName _ _ => volName ≠ volume.volName
  | _, _ => True

structure Sound (s : Site) : Prop where
  ticketed : ∀ thread ∈ s.process.threads.rows, thread.ticket < s.process.accepted.length
  serves : ∀ thread ∈ s.process.threads.rows, Serves s.process.manager.volumes s.disks thread.operation thread.stage
  disjoint : ∀ first ∈ s.process.threads.rows, ∀ second ∈ s.process.threads.rows, first ≠ second →
    Disjoint first.operation second.operation
  apart : Apart s.disks

/-- The records and the disks after a step that makes no record and attaches no
disk. Where a record is lost, its disk is not attached to its node any more. -/
structure Shrinks (volumes : Table Volume.volName) (disks : Table Disk.volId) (volumes' : Table Volume.volName)
    (disks' : Table Disk.volId) : Prop where
  subset : ∀ volume ∈ volumes'.rows, volume ∈ volumes.rows
  placed : ∀ disk ∈ disks'.rows, disk.place ≠ none → disk ∈ disks.rows
  lost : ∀ volume ∈ volumes.rows, volume ∉ volumes'.rows → ∀ disk ∈ disks'.rows, disk.volId = volume.volId →
    ∀ place ∈ disk.place, place.1 ≠ volume.vmId

section

variable {volumes volumes' : Table Volume.volName} {disks disks' : Table Disk.volId} {operation : Operation} {stage : Stage}

theorem Shrinks.refl : Shrinks volumes disks volumes disks :=
  ⟨fun _ member => member, fun _ member _ => member, fun _ member gone => absurd member gone⟩

theorem Shrinks.unnamed (shrinks : Shrinks volumes disks volumes' disks') {volName : String}
    (unnamed : volumes.get? volName = none) : volumes'.get? volName = none :=
  Table.get?_none_iff.mpr fun volume member => Table.get?_none_iff.mp unnamed volume (shrinks.subset volume member)

theorem Shrinks.known (shrinks : Shrinks volumes disks volumes' disks') {vmId : String} (known : Known volumes disks vmId) :
    Known volumes' disks' vmId := by
  intro disk member place at_ node
  have inside := shrinks.placed disk member (by rw [at_]; exact nofun)
  obtain ⟨volume, recorded, same, home, device⟩ := known disk inside place at_ node
  refine ⟨volume, ?_, same, home, device⟩
  by_contra gone
  exact shrinks.lost volume recorded gone disk member same.symm place at_ (node.trans home.symm)

theorem Shrinks.free (shrinks : Shrinks volumes disks volumes' disks') {volume : Volume} (free : Free disks volume) :
    Free disks' volume := by
  intro disk member at_
  exact free disk (shrinks.placed disk member (by rw [at_]; exact nofun)) at_

theorem Shrinks.serves (shrinks : Shrinks volumes disks volumes' disks') (serves : Serves volumes disks operation stage) :
    Serves volumes' disks' operation stage := by
  cases operation with
  | createVolume volName volSize agentId =>
    obtain ⟨unnamed, rest⟩ := serves
    refine ⟨shrinks.unnamed unnamed, ?_⟩
    cases stage with
    | attachingVolume volume => exact ⟨rest.1, rest.2.1, shrinks.free rest.2.2⟩
    | configuringVolume volume => exact rest
    | _ => exact shrinks.known rest
  | deleteVolume volume =>
    refine ⟨fun found there => serves.1 found ?_, serves.2⟩
    have member := shrinks.subset found (Table.get?_mem there)
    have key := Table.get?_key there
    exact key ▸ Table.get?_of_mem member
  | _ => exact trivial

theorem Shrinks.apart (shrinks : Shrinks volumes disks volumes' disks') (apart : Apart disks) : Apart disks' := by
  intro first left second right same placed
  exact apart first (shrinks.placed first left placed) second (shrinks.placed second right (same ▸ placed)) same placed

/-- What happens to the disks where nodes are given up. -/
theorem effect_removing {am after : ApplicationManager} {sid : Nat} {nodes : List Entry} {next : Option Stage}
    (other : operation.onVolumes = false) (step : am.advance sid operation (.removing nodes) .runs = some (after, next)) (done : Bool) :
    effect am sid disks done operation (.removing nodes) .runs =
      if done && (forget (operation.holders sid) nodes am).2 then machinesDeleted nodes disks else disks := by
  cases operation with
  | stopService | removeService | removeNodes => rfl
  | startService | addNodes => cases step
  | createVolume | deleteVolume => cases other

theorem effect_other {am : ApplicationManager} {sid : Nat} {outcome : Outcome} (other : operation.onVolumes = false)
    (stays : ∀ nodes, stage ≠ .removing nodes) (done : Bool) : effect am sid disks done operation stage outcome = disks := by
  unfold effect
  split
  · cases other
  · cases other
  · cases other
  · cases other
  · exact absurd rfl (stays _)
  · exact absurd rfl (stays _)
  · exact absurd rfl (stays _)
  · rfl

theorem mem_machinesDeleted {nodes : List Entry} {disk : Disk} (member : disk ∈ (machinesDeleted nodes disks).rows)
    (placed : disk.place ≠ none) : disk ∈ disks.rows ∧ ∀ place ∈ disk.place, ∀ node ∈ nodes, node.id ≠ place.1 := by
  obtain ⟨old, inside, rfl⟩ := List.mem_map.mp member
  dsimp only at placed ⊢
  cases at_ : old.place with
  | none => exact absurd (by rw [at_]; rfl) placed
  | some place =>
    rw [at_] at placed
    by_cases kept : (nodes.all fun node => node.id ≠ place.1) = true
    · rw [Option.filter_some, if_pos kept]
      refine ⟨?_, ?_⟩
      · rwa [← at_]
      · rintro _ ⟨⟩ node among
        exact of_decide_eq_true (List.all_eq_true.mp kept node among)
    · rw [Option.filter_some, if_neg kept] at placed
      exact absurd rfl placed

end

/-- The name and the node of a creation are taken when it is accepted: none is
accepted for a name that another operation in flight is about, nor for a node
that another creation is about or that has a disk nobody recorded. -/
def Reserved (s : Site) : Operation → Prop
  | .createVolume volName volSize agentId =>
    (∀ thread ∈ s.process.threads.rows, Disjoint (.createVolume volName volSize agentId) thread.operation) ∧
      Known s.process.manager.volumes s.disks agentId
  | _ => True

/-- Nodes with recorded disks are given up entirely. -/
def Entire (s : Site) (done : Bool) (sid : Nat) (operation : Operation) : Stage → Prop
  | .removing nodes => (∃ volume ∈ s.process.manager.volumes.rows, (∃ node ∈ nodes, node.id = volume.vmId) ∧
      ∃ disk ∈ s.disks.rows, disk.volId = volume.volId ∧ ∃ place ∈ disk.place, place.1 = volume.vmId) →
      done = true ∧ (forget (operation.holders sid) nodes s.process.manager).2 = true
  | _ => True

def Coordinated (s : Site) : Event × Bool → Prop
  | (.addService _, _) => True
  | (.request request, _) => ∀ started ∈ s.process.manager.request request, s.Reserved started.2
  | (.advance ticket _, done) =>
    ∀ thread ∈ s.process.threads.get? ticket, s.Entire done thread.service thread.operation thread.stage

/-- What a step does to the records: a record whose disk stays attached is kept,
and a new one takes a name that no other has. -/
structure Keeps (before after : Site) : Prop where
  attached : ∀ volume ∈ before.process.manager.volumes.rows, volume ∉ after.process.manager.volumes.rows →
    ¬Attached after.disks volume
  fresh : ∀ volume ∈ after.process.manager.volumes.rows, volume ∉ before.process.manager.volumes.rows →
    before.process.manager.volumes.get? volume.volName = none

section

variable {s after : Site} {disks' : Table Disk.volId} {ticket sid : Nat} {operation : Operation} {stage : Stage}
  {manager : ApplicationManager} {next : Option Stage} {outcome : Outcome} {done : Bool}

theorem Shrinks.keeps (shrinks : Shrinks s.process.manager.volumes s.disks after.process.manager.volumes after.disks) :
    Keeps s after where
  attached := by
    rintro volume member gone ⟨disk, inside, same, at_⟩
    exact shrinks.lost volume member gone disk inside same _ at_ rfl
  fresh := fun volume member new => absurd (shrinks.subset volume member) new

/-- A thread has gone on, and everything the threads rely on still holds. -/
theorem Sound.proceed (sound : Sound s) (found : s.process.threads.get? ticket = some ⟨ticket, sid, operation, stage⟩)
    (others : ∀ other ∈ s.process.threads.rows, other ≠ ⟨ticket, sid, operation, stage⟩ →
      Serves manager.volumes disks' other.operation other.stage)
    (own : ∀ stage, next = some stage → Serves manager.volumes disks' operation stage) (apart : Apart disks') :
    Sound ⟨s.process.proceed ticket (manager, next), disks'⟩ := by
  have origin {other : Thread} (member : other ∈ (s.process.proceed ticket (manager, next)).threads.rows) :
      (other ∈ s.process.threads.rows ∧ other ≠ ⟨ticket, sid, operation, stage⟩) ∨
        ∃ stage, next = some stage ∧ other = ⟨ticket, sid, operation, stage⟩ := by
    have listed := @Process.mem_proceed s.process ⟨ticket, sid, operation, stage⟩ other found manager next
    refine (listed.mp member).imp_left fun old => ⟨old.1, ?_⟩
    rintro rfl
    exact old.2 rfl
  have old {other : Thread} (member : other ∈ (s.process.proceed ticket (manager, next)).threads.rows) :
      ∃ before ∈ s.process.threads.rows, before.ticket = other.ticket ∧ before.operation = other.operation := by
    rcases origin member with ⟨member, -⟩ | ⟨stage, -, rfl⟩
    · exact ⟨other, member, rfl, rfl⟩
    · exact ⟨_, Table.get?_mem found, rfl, rfl⟩
  refine ⟨fun other member => ?_, fun other member => ?_, fun first left second right away => ?_, apart⟩
  · obtain ⟨before, inside, ticket, -⟩ := old member
    rw [Process.proceed_accepted, ← ticket]
    exact sound.ticketed before inside
  · rw [Process.proceed_manager]
    rcases origin member with ⟨inside, away⟩ | ⟨stage, going, rfl⟩
    · exact others other inside away
    · exact own stage going
  · obtain ⟨before, inside, ticket, operation⟩ := old left
    obtain ⟨before', inside', ticket', operation'⟩ := old right
    rw [← operation, ← operation']
    refine sound.disjoint before inside before' inside' ?_
    rintro rfl
    exact away (Table.unique _ left right (ticket.symm.trans ticket'))

theorem Sound.shrink (sound : Sound s) (found : s.process.threads.get? ticket = some ⟨ticket, sid, operation, stage⟩)
    (shrinks : Shrinks s.process.manager.volumes s.disks manager.volumes disks')
    (own : ∀ stage, next = some stage → Serves manager.volumes disks' operation stage) :
    Sound ⟨s.process.proceed ticket (manager, next), disks'⟩ ∧ Keeps s ⟨s.process.proceed ticket (manager, next), disks'⟩ := by
  refine ⟨sound.proceed found (fun other member _ => shrinks.serves (sound.serves other member)) own (shrinks.apart sound.apart), ?_⟩
  refine @Shrinks.keeps s _ ?_
  rw [Process.proceed_manager]
  exact shrinks

theorem serves_other {volumes : Table Volume.volName} {disks : Table Disk.volId} {operation : Operation} {stage : Stage}
    (other : operation.onVolumes = false) : Serves volumes disks operation stage := by
  cases operation with
  | createVolume | deleteVolume => cases other
  | _ => exact trivial

/-- A step of an operation that is not about volumes. -/
theorem Sound.other (sound : Sound s) (found : s.process.threads.get? ticket = some ⟨ticket, sid, operation, stage⟩)
    (coordinated : s.Coordinated (.advance ticket outcome, done)) (other : operation.onVolumes = false)
    (step : s.process.manager.advance sid operation stage outcome = some (manager, next)) :
    Sound ⟨s.process.proceed ticket (manager, next), effect s.process.manager sid s.disks done operation stage outcome⟩ ∧
    Keeps s ⟨s.process.proceed ticket (manager, next), effect s.process.manager sid s.disks done operation stage outcome⟩ := by
  refine sound.shrink found ?_ fun _ _ => serves_other other
  rcases advance_volumes other step with ⟨nodes, removing, rfl, volumes⟩ | ⟨stays, volumes⟩
  · subst removing
    have fewer := forget_volumes (operation.holders sid) nodes s.process.manager
    rw [← volumes] at fewer
    have entire : s.Entire done sid operation (.removing nodes) := coordinated _ found
    rw [effect_removing other step]
    refine ⟨fewer.subset, fun disk member placed => ?_, fun volume recorded gone disk member same place at_ home => ?_⟩
    · split at member
      · exact (mem_machinesDeleted member placed).1
      · exact member
    · obtain ⟨node, among, here⟩ := fewer.lost volume recorded gone
      have placed : disk.place ≠ none := by
        rw [at_]
        exact nofun
      have inside : disk ∈ s.disks.rows := by
        split at member
        · exact (mem_machinesDeleted member placed).1
        · exact member
      obtain ⟨rfl, whole⟩ := entire ⟨volume, recorded, ⟨node, among, here⟩, disk, inside, same, place, at_, home⟩
      rw [whole, Bool.and_self, if_pos rfl] at member
      exact (mem_machinesDeleted member placed).2 place at_ node among (here.trans home.symm)
  · rw [effect_other other stays, volumes]
    exact .refl

/-- The name found for a device is none of those in use. -/
theorem freeDevName_unused {inUse : List String} {fuel : Nat} {name devName : String}
    (device : freeDevName inUse fuel name = some devName) : devName ∉ inUse := by
  induction fuel generalizing name with
  | zero => cases device
  | succ fuel ih =>
    rw [freeDevName] at device
    split at device
    · obtain ⟨bumped, -, later⟩ := Option.bind_eq_some_iff.mp device
      exact ih later
    · rename_i unused
      cases device
      exact unused

theorem Known.free {volumes : Table Volume.volName} {disks : Table Disk.volId} {volume : Volume}
    (known : Known volumes disks volume.vmId)
    (unused : volume.devName ∉ (volumes.rows.filter fun other => other.vmId = volume.vmId).map Volume.devName) :
    Free disks volume := by
  intro disk member at_
  obtain ⟨other, recorded, -, home, device⟩ := known disk member _ at_ rfl
  refine unused (List.mem_map.mpr ⟨other, List.mem_filter.mpr ⟨recorded, decide_eq_true home⟩, device⟩)

theorem shrinks_created (volumes : Table Volume.volName) (disks : Table Disk.volId) (volId : String) :
    Shrinks volumes disks volumes (disks.put ⟨volId, none⟩) := by
  refine ⟨fun _ member => member, fun disk member placed => ?_, fun volume member gone => absurd member gone⟩
  rcases Table.mem_put.mp member with rfl | ⟨inside, -⟩
  · exact absurd rfl placed
  · exact inside

/-- A disk is attached under a free device name of its node. -/
theorem Apart.attach {disks : Table Disk.volId} {volume : Volume} (apart : Apart disks) (free : Free disks volume) :
    Apart (attached disks volume) := by
  have stays {disk old : Disk} (inside : disk ∈ disks.rows) (same : disk.place = some (volume.vmId, volume.devName)) :
      disk = old := absurd same (free disk inside)
  intro first left second right same placed
  rcases mem_attached.mp left with ⟨left, -⟩ | ⟨old, leftOld, leftId, rfl⟩ <;>
    rcases mem_attached.mp right with ⟨right, -⟩ | ⟨old', rightOld, rightId, rfl⟩
  · exact apart first left second right same placed
  · exact stays left same
  · exact (stays right same.symm).symm
  · rw [disks.unique leftOld rightOld (leftId.trans rightId.symm)]

/-- Threads that are about other nodes and names do not notice that a disk is
attached. -/
theorem Serves.attach {volumes : Table Volume.volName} {disks : Table Disk.volId} {volume : Volume} {operation : Operation}
    {stage : Stage} (serves : Serves volumes disks operation stage)
    (away : ∀ volName volSize agentId, operation = .createVolume volName volSize agentId → agentId ≠ volume.vmId) :
    Serves volumes (attached disks volume) operation stage := by
  have moved {disk : Disk} (member : disk ∈ (attached disks volume).rows) {place : String × String} (at_ : disk.place = some place)
      (elsewhere : place.1 ≠ volume.vmId) : disk ∈ disks.rows := by
    rcases mem_attached.mp member with ⟨inside, -⟩ | ⟨old, -, -, rfl⟩
    · exact inside
    · cases at_
      exact absurd rfl elsewhere
  cases operation with
  | createVolume volName volSize agentId =>
    have elsewhere := away volName volSize agentId rfl
    obtain ⟨unnamed, rest⟩ := serves
    refine ⟨unnamed, ?_⟩
    have knows (known : Known volumes disks agentId) : Known volumes (attached disks volume) agentId := by
      intro disk member place at_ home
      exact known disk (moved member at_ fun same => elsewhere (home.symm.trans same)) place at_ home
    cases stage with
    | attachingVolume own =>
      refine ⟨rest.1, rest.2.1, fun disk member at_ => ?_⟩
      exact rest.2.2 disk (moved member at_ fun same => elsewhere (rest.2.1.symm.trans same)) at_
    | configuringVolume own => exact rest
    | _ => exact knows rest
  | deleteVolume => exact serves
  | _ => exact trivial

/-- Nor that a volume is recorded. -/
theorem Serves.record {volumes : Table Volume.volName} {disks : Table Disk.volId} {volume : Volume} {volSize : Int}
    {operation : Operation} {stage : Stage} (serves : Serves volumes disks operation stage) (unnamed : volumes.get? volume.volName = none)
    (disjoint : Disjoint (.createVolume volume.volName volSize volume.vmId) operation) :
    Serves (volumes.put volume) disks operation stage := by
  have knows {vmId : String} (known : Known volumes disks vmId) : Known (volumes.put volume) disks vmId := by
    intro disk member place at_ home
    obtain ⟨old, recorded, same⟩ := known disk member place at_ home
    refine ⟨old, ?_, same⟩
    rw [Table.put_fresh unnamed]
    exact List.mem_cons_of_mem _ recorded
  cases operation with
  | createVolume volName volSize agentId =>
    obtain ⟨own, rest⟩ := serves
    refine ⟨?_, ?_⟩
    · rw [Table.get?_put_ne _ disjoint.1.symm]
      exact own
    · cases stage with
      | attachingVolume | configuringVolume => exact rest
      | _ => exact knows rest
  | deleteVolume deleted =>
    refine ⟨fun found there => serves.1 found ?_, serves.2⟩
    have other : deleted.volName ≠ volume.volName := Ne.symm disjoint
    rwa [Table.get?_put_ne _ other] at there
  | _ => exact trivial

/-- A step of the creation of a volume. -/
theorem Sound.create (sound : Sound s) {volName agentId : String} {volSize : Int}
    (found : s.process.threads.get? ticket = some ⟨ticket, sid, .createVolume volName volSize agentId, stage⟩)
    (step : s.process.manager.doCreateVolume sid volName volSize agentId stage outcome = some (manager, next)) :
    Sound ⟨s.process.proceed ticket (manager, next),
      effect s.process.manager sid s.disks done (.createVolume volName volSize agentId) stage outcome⟩ ∧
    Keeps s ⟨s.process.proceed ticket (manager, next),
      effect s.process.manager sid s.disks done (.createVolume volName volSize agentId) stage outcome⟩ := by
  have serves := sound.serves _ (Table.get?_mem found)
  have apart {other : Thread} (member : other ∈ s.process.threads.rows)
      (away : other ≠ ⟨ticket, sid, .createVolume volName volSize agentId, stage⟩) :
      Disjoint (.createVolume volName volSize agentId) other.operation :=
    sound.disjoint _ (Table.get?_mem found) other member away.symm
  obtain ⟨unnamed, rest⟩ := serves
  unfold ApplicationManager.doCreateVolume at step
  split at step
  · split at step
    · cases step
      refine sound.shrink found .refl fun stage going => ?_
      cases going
      exact ⟨unnamed, rest⟩
    · cases step
      exact sound.shrink found .refl (fun _ next => nomatch next)
  · rename_i cloud volumeId
    cases volumeId with
    | none =>
      cases step
      exact sound.shrink found .refl (fun _ next => nomatch next)
    | some volId =>
      have shrinks := shrinks_created s.process.manager.volumes s.disks volId
      dsimp only at step
      split at step
      · rename_i same device
        cases step
        refine sound.shrink found shrinks fun stage going => ?_
        cases going
        exact ⟨unnamed, rfl, rfl, Known.free (shrinks.known rest) (freeDevName_unused device)⟩
      · cases step
        exact sound.shrink found shrinks (fun _ next => nomatch next)
  · rename_i volume
    cases step
    obtain ⟨name, home, free⟩ := rest
    cases done with
    | false =>
      refine sound.shrink found .refl fun stage going => ?_
      cases going
      exact ⟨unnamed, name, home⟩
    | true =>
      refine ⟨sound.proceed found (fun other member away => ?_) (fun stage going => ?_) (sound.apart.attach free), ?_⟩
      · refine (sound.serves other member).attach fun volName' volSize' agentId' same => ?_
        have disjoint := apart member away
        rw [same] at disjoint
        rw [home]
        exact disjoint.2.symm
      · cases going
        exact ⟨unnamed, name, home⟩
      · refine ⟨fun volume member gone => absurd ?_ gone, fun volume member new => absurd ?_ new⟩
        · rwa [Process.proceed_manager]
        · rwa [Process.proceed_manager] at member
  · rename_i volume _
    cases step
    obtain ⟨rfl, rfl⟩ := rest
    refine ⟨sound.proceed found (fun other member away => ?_) nofun sound.apart, ?_⟩
    · exact (sound.serves other member).record unnamed (apart member away)
    · have listed (old : Volume) : old ∈ (s.process.manager.volumes.put volume).rows ↔
          old = volume ∨ old ∈ s.process.manager.volumes.rows := by
        rw [Table.put_fresh unnamed, List.mem_cons]
      refine ⟨fun old member gone => absurd ?_ gone, fun old member new => ?_⟩
      · rw [Process.proceed_manager]
        exact (listed old).mpr (.inr member)
      · rw [Process.proceed_manager] at member
        rcases (listed old).mp member with rfl | inside
        · exact unnamed
        · exact absurd inside new
  · cases step
    exact sound.shrink found .refl (fun _ next => nomatch next)
  · cases step

/-- A step of the deletion of a volume. -/
theorem Sound.delete (sound : Sound s) {volume : Volume}
    (found : s.process.threads.get? ticket = some ⟨ticket, sid, .deleteVolume volume, stage⟩)
    (step : s.process.manager.doDeleteVolume sid volume stage outcome = some (manager, next)) :
    Sound ⟨s.process.proceed ticket (manager, next), effect s.process.manager sid s.disks done (.deleteVolume volume) stage outcome⟩ ∧
    Keeps s ⟨s.process.proceed ticket (manager, next),
      effect s.process.manager sid s.disks done (.deleteVolume volume) stage outcome⟩ := by
  obtain ⟨own, rest⟩ := sound.serves _ (Table.get?_mem found)
  unfold ApplicationManager.doDeleteVolume at step
  split at step
  · cases step
    have shrinks : Shrinks s.process.manager.volumes s.disks s.process.manager.volumes
        (if done then detached s.disks volume.volId else s.disks) := by
      refine ⟨fun _ member => member, fun disk member placed => ?_, fun _ member gone => absurd member gone⟩
      split at member
      · rcases mem_detached.mp member with ⟨inside, -⟩ | ⟨old, -, -, rfl⟩
        · exact inside
        · exact absurd rfl placed
      · exact member
    refine sound.shrink found shrinks fun stage going => ?_
    cases going
    exact ⟨own, rfl⟩
  · rename_i destroyed replied
    have same : destroyed = volume := rest
    subst same
    split at step
    · rename_i recorded
      cases step
      simp only [Bool.and_eq_true] at recorded
      obtain ⟨rfl, recorded⟩ := recorded
      have shrinks : Shrinks s.process.manager.volumes s.disks (s.process.manager.volumes.erase destroyed.volName)
          (s.disks.erase destroyed.volId) := by
        refine ⟨fun old member => (Table.mem_erase.mp member).1, fun disk member _ => (Table.mem_erase.mp member).1, ?_⟩
        intro old member gone disk inside same
        have named : old.volName = destroyed.volName := by
          by_contra other
          exact gone (Table.mem_erase.mpr ⟨member, other⟩)
        rw [own old (named ▸ Table.get?_of_mem member)] at same
        exact absurd same (Table.mem_erase.mp inside).2
      exact sound.shrink found shrinks (by rintro _ ⟨⟩)
    · cases step
      have shrinks : Shrinks s.process.manager.volumes s.disks s.process.manager.volumes
          (if replied then s.disks.erase destroyed.volId else s.disks) := by
        refine ⟨fun _ member => member, fun disk member _ => ?_, fun _ member gone => absurd member gone⟩
        split at member
        · exact (Table.mem_erase.mp member).1
        · exact member
      exact sound.shrink found shrinks (by rintro _ ⟨⟩)
  · cases step

/-- An accepted operation on volumes finds everything it relies on. -/
theorem Sound.launch (sound : Sound s) {request : Request} {operation : Operation} (flag : Bool)
    (coordinated : s.Coordinated (.request request, flag))
    (started : s.process.manager.request request = some (sid, operation)) : Sound ⟨s.process.launch sid operation, s.disks⟩ := by
  have listed {thread : Thread} := @Process.mem_launch s.process sid operation sound.ticketed thread
  have begins : Serves s.process.manager.volumes s.disks operation .begin ∧
      ∀ thread ∈ s.process.threads.rows, Disjoint operation thread.operation ∧ Disjoint thread.operation operation := by
    rcases request_volumes started with other | ⟨volName, volSize, agentId, rfl, unnamed⟩ | ⟨volume, rfl, recorded⟩
    · refine ⟨serves_other other, fun thread _ => ?_⟩
      cases operation with
      | createVolume | deleteVolume => cases other
      | _ => exact ⟨trivial, by cases thread.operation <;> exact trivial⟩
    · have reserved : s.Reserved (.createVolume volName volSize agentId) := coordinated _ started
      refine ⟨⟨unnamed, reserved.2⟩, fun thread member => ?_⟩
      have apart := reserved.1 thread member
      refine ⟨apart, ?_⟩
      cases kind : thread.operation with
      | createVolume =>
        rw [kind] at apart
        exact ⟨apart.1.symm, apart.2.symm⟩
      | deleteVolume =>
        rw [kind] at apart
        exact apart
      | _ => exact trivial
    · refine ⟨⟨fun found there => (Option.some.inj (recorded.symm.trans there)).symm, trivial⟩, fun thread member => ?_⟩
      have serves := sound.serves thread member
      cases kind : thread.operation with
      | createVolume volName volSize agentId =>
        rw [kind] at serves
        have other : volName ≠ volume.volName := by
          rintro rfl
          cases serves.1.symm.trans recorded
        exact ⟨other, other⟩
      | _ => exact ⟨trivial, trivial⟩
  refine ⟨fun thread member => ?_, fun thread member => ?_, fun first left second right away => ?_, sound.apart⟩
  · rcases listed.mp member with rfl | old
    · exact Nat.lt_succ_self _
    · exact (sound.ticketed thread old).trans (Nat.lt_succ_self _)
  · rcases listed.mp member with rfl | old
    · exact begins.1
    · exact sound.serves thread old
  · rcases listed.mp left with rfl | left <;> rcases listed.mp right with rfl | right
    · exact absurd rfl away
    · exact (begins.2 second right).1
    · exact (begins.2 first left).2
    · exact sound.disjoint first left second right away

/-- A step of a run in which the operations on volumes are coordinated. -/
theorem Sound.step {event : Event × Bool} (sound : Sound s) (coordinated : s.Coordinated event) (step : Step s event after) :
    Sound after ∧ Keeps s after := by
  have still : Keeps s s := @Shrinks.keeps s s .refl
  obtain ⟨event, done⟩ := event
  cases event with
  | addService construction =>
    cases step
    have volumes : (s.process.manager.addService construction).volumes = s.process.manager.volumes := by
      cases construction <;> rfl
    refine ⟨⟨sound.ticketed, fun thread member => ?_, sound.disjoint, sound.apart⟩, @Shrinks.keeps s _ ?_⟩
    · dsimp only
      rw [volumes]
      exact sound.serves thread member
    · dsimp only
      rw [volumes]
      exact .refl
  | request request =>
    obtain ⟨process, handled, rfl⟩ := Option.map_eq_some_iff.mp step
    simp only [Process.handle] at handled
    split at handled
    · cases handled
      exact ⟨sound, still⟩
    · rename_i sid operation started
      cases handled
      refine ⟨sound.launch done coordinated started, @Shrinks.keeps s _ ?_⟩
      exact .refl
  | advance ticket outcome =>
    obtain ⟨⟨ticket, sid, operation, stage⟩, manager, next, found, rfl, advanced, rfl⟩ := step_advance.mp step
    cases kind : operation.onVolumes with
    | false => exact sound.other found coordinated kind advanced
    | true =>
      cases operation with
      | createVolume volName volSize agentId => exact sound.create found advanced
      | deleteVolume volume => exact sound.delete found advanced
      | startService | stopService | removeService | addNodes | removeNodes => cases kind

/-- The device names of the volumes on a node are distinct, and no creation in
flight has a name that is recorded or that another creation has. -/
structure Safe (s : Site) : Prop where
  devices : Apart s.disks
  names : ∀ thread ∈ s.process.threads.rows, ∀ volName volSize agentId, thread.operation = .createVolume volName volSize agentId →
    s.process.manager.volumes.get? volName = none ∧
      ∀ other ∈ s.process.threads.rows, ∀ size node, other.operation = .createVolume volName size node → other = thread

theorem Sound.safe (sound : Sound s) : Safe s where
  devices := sound.apart
  names := by
    intro thread member volName volSize agentId creates
    have serves := sound.serves thread member
    rw [creates] at serves
    refine ⟨serves.1, fun other inside size node same => ?_⟩
    by_contra away
    have disjoint := sound.disjoint thread member other inside (Ne.symm away)
    rw [creates, same] at disjoint
    exact disjoint.1 rfl

theorem sound_start (starts : s.process.Starts) (bare : s.disks = .empty) : Sound s := by
  have none_ (thread : Thread) : thread ∉ s.process.threads.rows := by
    rw [starts.threads]
    exact List.not_mem_nil
  refine ⟨fun thread member => absurd member (none_ thread), fun thread member => absurd member (none_ thread),
    fun thread member => absurd member (none_ thread), ?_⟩
  rw [bare]
  exact nofun

/-- As long as the operations on volumes are coordinated, names and devices are
distinct after every step and no step loses the record of an attached volume. -/
theorem volumes_safe {first current : Site} {events : List (Event × Bool)} (starts : first.process.Starts)
    (bare : first.disks = .empty) (run : Run (Guarded Coordinated Step) first events current) :
    Safe current ∧ ∀ event after, current.Coordinated event → Step current event after → Keeps current after := by
  have sound : Sound current := run.guarded_invariant (sound_start starts bare)
    fun sound coordinated step => (sound.step coordinated step).1
  exact ⟨sound.safe, fun event after coordinated step => (sound.step coordinated step).2⟩

instance (operation other : Operation) : Decidable (Disjoint operation other) :=
  match operation, other with
  | .createVolume _ _ _, .createVolume _ _ _ => inferInstanceAs (Decidable (_ ∧ _))
  | .createVolume _ _ _, .deleteVolume _ => inferInstanceAs (Decidable (_ ≠ _))
  | .deleteVolume _, .createVolume _ _ _ => inferInstanceAs (Decidable (_ ≠ _))
  | .createVolume _ _ _, .startService | .createVolume _ _ _, .stopService | .createVolume _ _ _, .removeService
  | .createVolume _ _ _, .addNodes | .createVolume _ _ _, .removeNodes | .deleteVolume _, .startService
  | .deleteVolume _, .stopService | .deleteVolume _, .removeService | .deleteVolume _, .addNodes
  | .deleteVolume _, .removeNodes | .deleteVolume _, .deleteVolume _ => .isTrue trivial
  | .startService, _ | .stopService, _ | .removeService, _ | .addNodes, _ | .removeNodes, _ => .isTrue trivial

instance (volumes : Table Volume.volName) (disks : Table Disk.volId) (vmId : String) : Decidable (Known volumes disks vmId) :=
  inferInstanceAs (Decidable (∀ disk ∈ disks.rows, ∀ place ∈ disk.place, place.1 = vmId →
    ∃ volume ∈ volumes.rows, volume.volId = disk.volId ∧ volume.vmId = vmId ∧ volume.devName = place.2))

instance (s : Site) (operation : Operation) : Decidable (s.Reserved operation) :=
  match operation with
  | .createVolume _ _ _ => inferInstanceAs (Decidable (_ ∧ _))
  | .startService | .stopService | .removeService | .addNodes | .removeNodes | .deleteVolume _ => .isTrue trivial

instance (s : Site) (done : Bool) (sid : Nat) (operation : Operation) (stage : Stage) :
    Decidable (s.Entire done sid operation stage) :=
  match stage with
  | .removing nodes => inferInstanceAs (Decidable ((∃ volume ∈ s.process.manager.volumes.rows, (∃ node ∈ nodes, node.id = volume.vmId) ∧
      ∃ disk ∈ s.disks.rows, disk.volId = volume.volId ∧ ∃ place ∈ disk.place, place.1 = volume.vmId) →
      done = true ∧ (forget (operation.holders sid) nodes s.process.manager).2 = true))
  | .begin | .creatingNodes | .hook _ | .deregistering | .creatingVolume _ | .attachingVolume _ | .configuringVolume _
  | .destroyingVolume _ => .isTrue trivial

instance (s : Site) (event : Event × Bool) : Decidable (s.Coordinated event) :=
  match event with
  | (.addService _, _) => .isTrue trivial
  | (.request request, _) => inferInstanceAs (Decidable (∀ started ∈ s.process.manager.request request, s.Reserved started.2))
  | (.advance ticket _, done) => inferInstanceAs (Decidable (∀ thread ∈ s.process.threads.get? ticket,
      s.Entire done thread.service thread.operation thread.stage))

end

/-- A manager that has just come up, before any volume. -/
def fresh : Site := ⟨Process.fresh, .empty⟩

/-- A service is started on a node and creates a volume there. -/
def firstVolume : List (Event × Bool) :=
  [(.addService (.made [.get, .post, .upload]), true), (.request (.startService 1 true), true), (.advance 0 .runs, true),
    (.advance 0 (.nodesReply (.created [nodeOf "1"])), true), (.advance 0 (.answers true), true),
    (.request (.createVolume "data" 1 "iaas1" true), true), (.advance 1 .runs, true),
    (.advance 1 (.volumeReply (some "vol-1")), true), (.advance 1 .runs, true), (.advance 1 (.answers true), true)]

theorem firstVolume_safe : ∃ current, Run (Guarded Coordinated Step) fresh firstVolume current ∧
    (Safe current ∧ ∀ event after, current.Coordinated event → Step current event after → Keeps current after) := by
  obtain ⟨current, played⟩ := Option.isSome_iff_exists.mp
    (show (play (fun s event => if s.Coordinated event then handle s event else none) fresh firstVolume).isSome = true by
      decide +kernel)
  have run := Run.play_guarded played
  exact ⟨current, run, volumes_safe Process.fresh_starts rfl run⟩

/-- Two services create a volume of one name at the same time. -/
def sameName : List (Event × Bool) :=
  [(.addService (.made [.get, .post, .upload]), true), (.addService (.made [.get, .post, .upload]), true),
    (.request (.startService 1 true), true), (.advance 0 .runs, true), (.advance 0 (.nodesReply (.created [nodeOf "1"])), true),
    (.advance 0 (.answers true), true), (.request (.startService 2 true), true), (.advance 1 .runs, true),
    (.advance 1 (.nodesReply (.created [nodeOf "2"])), true), (.advance 1 (.answers true), true),
    (.request (.createVolume "data" 1 "iaas1" true), true), (.request (.createVolume "data" 1 "iaas2" true), true),
    (.advance 2 .runs, true), (.advance 2 (.volumeReply (some "vol-1")), true), (.advance 2 .runs, true),
    (.advance 2 (.answers true), true), (.advance 3 .runs, true), (.advance 3 (.volumeReply (some "vol-2")), true),
    (.advance 3 .runs, true)]

/-- The second volume takes the place of the first in the records. -/
theorem sameName_lost : ¬∀ (first current : Site) (events : List (Event × Bool)), first.process.Starts → first.disks = .empty →
    Run Step first events current →
      Safe current ∧ ∀ event after, Step current event after → Keeps current after := by
  intro safe
  have lost : ((play handle fresh sameName).bind fun current => (handle current (.advance 3 (.answers true), true)).map fun after =>
      decide (∃ volume ∈ current.process.manager.volumes.rows, volume ∉ after.process.manager.volumes.rows ∧
        ∃ disk ∈ after.disks.rows, disk.volId = volume.volId ∧ disk.place = some (volume.vmId, volume.devName))) = some true := by
    decide +kernel
  obtain ⟨current, played, lost⟩ := Option.bind_eq_some_iff.mp lost
  obtain ⟨after, step, lost⟩ := Option.map_eq_some_iff.mp lost
  obtain ⟨volume, member, gone, attached⟩ := of_decide_eq_true lost
  have keeps := (safe fresh current sameName Process.fresh_starts rfl (Run.play played)).2 _ after step
  exact keeps.attached volume member gone attached

end Site

end ConPaaS
