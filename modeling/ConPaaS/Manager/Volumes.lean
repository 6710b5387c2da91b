import ConPaaS.Manager.States

namespace ConPaaS

open Keyed ApplicationManager

/-- A volume at the cloud, with the node and the device name it is attached
under. -/
structure Disk where
  volId : String
  place : Option (String × String)
  deriving DecidableEq, Repr

/-- The managers of an application and the volumes at its clouds. -/
structure Holdings where
  manager : ApplicationManager
  disks : Table Disk.volId

/-- How the callbacks of an operation and the hook of the service go. The
director answers with the id of a new volume, and a failed callback is false.
The callbacks never raise, so that their first attempt is the only one. -/
structure Calls where
  create : Option String
  attach : Bool
  hook : Bool
  detach : Bool
  destroy : Bool
  deriving DecidableEq, Repr

/-- A volume is attached to its node. -/
def attached (disks : Table Disk.volId) (volume : Volume) : Table Disk.volId :=
  disks.modify volume.volId fun disk => { disk with place := some (volume.vmId, volume.devName) }

def detached (disks : Table Disk.volId) (volId : String) : Table Disk.volId :=
  disks.modify volId fun disk => { disk with place := none }

namespace Holdings

variable (h : Holdings)

def setState (sid : Nat) (state : ManagerState) : Holdings := { h with manager := h.manager.setState sid state }

def record (volume : Volume) : Holdings := { h with manager := { h.manager with volumes := h.manager.volumes.put volume } }

def forgetVolume (volName : String) : Holdings :=
  { h with manager := { h.manager with volumes := h.manager.volumes.erase volName } }

/-- The device name a creation attaches a volume of a node under. -/
def deviceFor (am : ApplicationManager) (vmId : String) : Option String :=
  freeDevName (am.devNamesInUse vmId) ((am.devNamesInUse vmId).length + 1) am.devTarget

/-- `_do_create_volume`. -/
def doCreateVolume (sid : Nat) (volName : String) (volSize : Int) (agentId : String) (calls : Calls) : Holdings :=
  match h.manager.nodeById agentId with
  | some (.node node) =>
    match calls.create with
    | none => h.setState sid .error
    | some volumeId =>
      let h := { h with disks := h.disks.put ⟨volumeId, none⟩ }
      match deviceFor h.manager agentId with
      -- `destroy_volume` wants the service manager as well and raises
      | none => h.setState sid .error
      | some devName =>
        let volume : Volume := ⟨volName, volumeId, volSize, agentId, devName, node.cloudName⟩
        -- the reply comes in a pair with the device name, which is never false
        let h := if calls.attach then { h with disks := attached h.disks volume } else h
        if calls.hook then (h.record volume).setState sid .running
        -- `detach_volume` wants the service manager as well and raises
        else h.setState sid .error
  | _ => h.setState sid .error

/-- `_do_delete_volume`. An exception of the hook is logged, the reply to
`detach_volume` is not looked at, and looking for an error in a false reply to
`destroy_volume` raises. -/
def doDeleteVolume (sid : Nat) (volume : Volume) (calls : Calls) : Holdings :=
  let h := if calls.detach then { h with disks := detached h.disks volume.volId } else h
  if calls.destroy then
    let h := { h with disks := h.disks.erase volume.volId }
    if (h.manager.volumes.get? volume.volName).isSome then (h.forgetVolume volume.volName).setState sid .running else h
  else h

end Holdings

/-- The operations on volumes. -/
inductive VolumeOperation
  | create (volName : String) (volSize : Int) (agentId : String)
  | delete (volume : Volume)
  deriving DecidableEq, Repr

namespace VolumeOperation

def operation : VolumeOperation → Operation
  | .create volName volSize agentId => .createVolume volName volSize agentId
  | .delete volume => .deleteVolume volume

/-- A request for the operation passes its checks. -/
def Accepted (am : ApplicationManager) (sid : Nat) : VolumeOperation → Prop
  | .create volName volSize agentId => ∃ checked, am.createVolume volName volSize agentId checked =
      some (sid, .createVolume volName volSize agentId)
  | .delete volume => ∃ checked, am.deleteVolume volume.volName checked = some (sid, .deleteVolume volume)

/-- The background thread of the operation, when nothing else happens. -/
def carryOut (sid : Nat) (calls : Calls) (h : Holdings) : VolumeOperation → Holdings
  | .create volName volSize agentId => h.doCreateVolume sid volName volSize agentId calls
  | .delete volume => h.doDeleteVolume sid volume calls

/-- A step of the creation of a volume fails. -/
def Fails (calls : Calls) (am : ApplicationManager) : VolumeOperation → Prop
  | .create _ _ agentId => calls.create = none ∨ Holdings.deviceFor am agentId = none ∨ calls.attach = false ∨ calls.hook = false
  | .delete _ => False

/-- The operation is without trace where it fails: a creation because the cloud
makes no volume, a deletion because it is not even detached. -/
def Clean (calls : Calls) (am : ApplicationManager) : VolumeOperation → Prop
  | .create _ _ agentId =>
    calls.create = none ∨ (Holdings.deviceFor am agentId).isSome = true ∧ calls.attach = true ∧ calls.hook = true
  | .delete _ => calls.destroy = true ∨ calls.detach = false

end VolumeOperation

/-- The recorded volumes are those that are attached at the cloud, each of them
to its node and under its device name. -/
structure Tallied (h : Holdings) : Prop where
  recorded : ∀ volume ∈ h.manager.volumes.rows, ∃ disk ∈ h.disks.rows,
    disk.volId = volume.volId ∧ disk.place = some (volume.vmId, volume.devName)
  attached : ∀ disk ∈ h.disks.rows, disk.place ≠ none → ∃ volume ∈ h.manager.volumes.rows, volume.volId = disk.volId
  single : ∀ first ∈ h.manager.volumes.rows, ∀ second ∈ h.manager.volumes.rows, first.volId = second.volId → first = second

/-- When an operation is over, the tables agree, and a creation of which a step
failed has changed no record and left no volume at the cloud. -/
structure Atomic (op : VolumeOperation) (calls : Calls) (before after : Holdings) : Prop where
  tallied : Tallied after
  undone : op.Fails calls before.manager → after.manager.volumes = before.manager.volumes ∧
    ∀ disk ∈ after.disks.rows, disk ∈ before.disks.rows

section

variable {h : Holdings}

@[simp] theorem setState_volumes (am : ApplicationManager) (sid : Nat) (state : ManagerState) :
    (am.setState sid state).volumes = am.volumes := rfl

theorem Tallied.congr {after : Holdings} (tallied : Tallied h) (volumes : after.manager.volumes = h.manager.volumes)
    (disks : after.disks = h.disks) : Tallied after := by
  obtain ⟨recorded, attached, single⟩ := tallied
  constructor
  · rw [volumes, disks]
    exact recorded
  · rw [volumes, disks]
    exact attached
  · rw [volumes]
    exact single

theorem tallied_empty {am : ApplicationManager} (volumes : am.volumes = .empty) : Tallied ⟨am, .empty⟩ := by
  constructor <;> simp [volumes]

theorem mem_attached {disks : Table Disk.volId} {volume : Volume} {disk : Disk} :
    disk ∈ (attached disks volume).rows ↔ disk ∈ disks.rows ∧ disk.volId ≠ volume.volId ∨
      ∃ old ∈ disks.rows, old.volId = volume.volId ∧ disk = { old with place := some (volume.vmId, volume.devName) } :=
  Table.mem_modify

theorem mem_detached {disks : Table Disk.volId} {volId : String} {disk : Disk} :
    disk ∈ (detached disks volId).rows ↔ disk ∈ disks.rows ∧ disk.volId ≠ volId ∨
      ∃ old ∈ disks.rows, old.volId = volId ∧ disk = { old with place := none } :=
  Table.mem_modify

/-- A new volume that is attached and recorded comes into both tables. -/
theorem Tallied.record (tallied : Tallied h) {volume : Volume} (unnamed : h.manager.volumes.get? volume.volName = none)
    (fresh : h.disks.get? volume.volId = none) {after : Holdings} (volumes : after.manager.volumes = h.manager.volumes.put volume)
    (disks : after.disks = ConPaaS.attached (h.disks.put ⟨volume.volId, none⟩) volume) : Tallied after := by
  have other := Table.get?_none_iff.mp fresh
  have unused (old) (member : old ∈ h.manager.volumes.rows) : old.volId ≠ volume.volId := by
    obtain ⟨disk, inside, same, -⟩ := tallied.recorded old member
    exact same ▸ other disk inside
  have listed {old : Volume} : old ∈ after.manager.volumes.rows ↔ old = volume ∨ old ∈ h.manager.volumes.rows := by
    rw [volumes, Table.put_fresh unnamed, List.mem_cons]
  have placed {disk : Disk} : disk ∈ after.disks.rows ↔
      disk = ⟨volume.volId, some (volume.vmId, volume.devName)⟩ ∨ disk ∈ h.disks.rows := by
    rw [disks, mem_attached, Table.put_fresh fresh]
    constructor
    · rintro (⟨member, apart⟩ | ⟨old, member, same, rfl⟩)
      · rcases List.mem_cons.mp member with rfl | member
        · exact absurd rfl apart
        · exact .inr member
      · left
        rw [same]
    · rintro (rfl | member)
      · exact .inr ⟨_, List.mem_cons_self .., rfl, rfl⟩
      · exact .inl ⟨List.mem_cons_of_mem _ member, other disk member⟩
  constructor
  · intro old member
    rcases listed.mp member with rfl | member
    · exact ⟨_, placed.mpr (.inl rfl), rfl, rfl⟩
    · obtain ⟨disk, inside, same⟩ := tallied.recorded old member
      exact ⟨disk, placed.mpr (.inr inside), same⟩
  · intro disk member place
    rcases placed.mp member with rfl | member
    · exact ⟨volume, listed.mpr (.inl rfl), rfl⟩
    · obtain ⟨old, inside, same⟩ := tallied.attached disk member place
      exact ⟨old, listed.mpr (.inr inside), same⟩
  · intro first left second right same
    rcases listed.mp left with rfl | left <;> rcases listed.mp right with rfl | right
    · rfl
    · exact absurd same.symm (unused second right)
    · exact absurd same (unused first left)
    · exact tallied.single first left second right same

/-- A volume that is destroyed goes out of both tables. -/
theorem Tallied.destroy (tallied : Tallied h) {volume : Volume} (found : h.manager.volumes.get? volume.volName = some volume)
    {after : Holdings} (volumes : after.manager.volumes = h.manager.volumes.erase volume.volName)
    (disks : ∀ disk, disk ∈ after.disks.rows ↔ disk ∈ h.disks.rows ∧ disk.volId ≠ volume.volId) : Tallied after := by
  have listed {old : Volume} : old ∈ after.manager.volumes.rows ↔ old ∈ h.manager.volumes.rows ∧ old.volName ≠ volume.volName := by
    rw [volumes, Table.mem_erase]
  constructor
  · intro old member
    obtain ⟨member, apart⟩ := listed.mp member
    obtain ⟨disk, inside, same, place⟩ := tallied.recorded old member
    refine ⟨disk, (disks disk).mpr ⟨inside, fun equal => apart ?_⟩, same, place⟩
    exact congrArg Volume.volName (tallied.single old member volume (Table.get?_mem found) (same.symm.trans equal))
  · intro disk member place
    obtain ⟨member, apart⟩ := (disks disk).mp member
    obtain ⟨old, inside, same⟩ := tallied.attached disk member place
    refine ⟨old, listed.mpr ⟨inside, fun equal => apart ?_⟩, same⟩
    rw [← same, h.manager.volumes.unique inside (Table.get?_mem found) equal]
  · intro first left second right same
    exact tallied.single first (listed.mp left).1 second (listed.mp right).1 same

end

namespace VolumeOperation

variable {h : Holdings} {calls : Calls} {sid : Nat}

/-- The node of a creation is there when it is accepted. -/
theorem Accepted.node {volName agentId : String} {volSize : Int}
    (accepted : Accepted h.manager sid (.create volName volSize agentId)) :
    h.manager.volumes.get? volName = none ∧ ∃ node, h.manager.nodeById agentId = some (.node node) := by
  obtain ⟨checked, passed⟩ := accepted
  unfold ApplicationManager.createVolume at passed
  split at passed
  · rename_i ready
    simp only [Bool.and_eq_true, Option.isNone_iff_eq_none, Option.isSome_iff_exists] at ready
    obtain ⟨⟨unnamed, -⟩, entry, found⟩ := ready
    refine ⟨unnamed, ?_⟩
    cases entry with
    | node node => exact ⟨node, found⟩
    | key text =>
      unfold ApplicationManager.nodeById at found
      split at found
      · cases List.find?_some found
      · cases found
  · cases passed

theorem Accepted.found {volume : Volume} (accepted : Accepted h.manager sid (.delete volume)) :
    h.manager.volumes.get? volume.volName = some volume := by
  obtain ⟨checked, passed⟩ := accepted
  unfold ApplicationManager.deleteVolume at passed
  split at passed
  · cases passed
  · rename_i old found
    split at passed
    · split at passed
      · cases passed
      · split at passed
        · cases passed
          exact found
        · cases passed
    · cases passed

/-- What is left at the cloud where a creation fails after its first call. -/
theorem create_leftover {volName agentId volumeId : String} {volSize : Int} {node : ServiceNode}
    (known : h.manager.nodeById agentId = some (.node node)) (created : calls.create = some volumeId) :
    ∃ disk ∈ (h.doCreateVolume sid volName volSize agentId calls).disks.rows, disk.volId = volumeId := by
  have new : (⟨volumeId, none⟩ : Disk) ∈ (h.disks.put ⟨volumeId, none⟩).rows := List.mem_cons_self ..
  unfold Holdings.doCreateVolume
  simp only [known, created]
  split
  · exact ⟨_, new, rfl⟩
  · rename_i devName _
    cases calls.attach with
    | true =>
      have placed := (@mem_attached (h.disks.put ⟨volumeId, none⟩) ⟨volName, volumeId, volSize, agentId, devName, node.cloudName⟩ _).mpr
        (.inr ⟨_, new, rfl, rfl⟩)
      cases calls.hook <;> exact ⟨_, placed, rfl⟩
    | false => cases calls.hook <;> exact ⟨_, new, rfl⟩

/-- The bookkeeping of volumes is atomic exactly if the operation goes through
or fails in its first step that changes anything at the cloud. -/
theorem atomic_iff (tallied : Tallied h) (fresh : ∀ volId, calls.create = some volId → h.disks.get? volId = none)
    (op : VolumeOperation) (accepted : op.Accepted h.manager sid) :
    Atomic op calls h (op.carryOut sid calls h) ↔ op.Clean calls h.manager := by
  cases op with
  | create volName volSize agentId =>
    obtain ⟨unnamed, node, known⟩ := accepted.node
    cases created : calls.create with
    | none =>
      have same : carryOut sid calls h (.create volName volSize agentId) = h.setState sid .error := by
        simp only [carryOut, Holdings.doCreateVolume, known, created]
      rw [same]
      exact ⟨fun _ => .inl created, fun _ => ⟨tallied.congr rfl rfl, fun _ => ⟨rfl, fun _ member => member⟩⟩⟩
    | some volumeId =>
      have unused := Table.get?_none_iff.mp (fresh volumeId created)
      constructor
      · intro atomic
        by_contra unclean
        have fails : Fails calls h.manager (.create volName volSize agentId) := by
          by_contra whole
          simp only [Fails, not_or, Bool.not_eq_false, ← Option.isSome_iff_ne_none] at whole
          exact unclean (.inr whole.2)
        obtain ⟨disk, member, same⟩ := @create_leftover h calls sid volName agentId volumeId volSize node known created
        exact unused disk ((atomic.undone fails).2 disk member) same
      · rintro (none_ | ⟨device, attach, hook⟩)
        · cases none_.symm.trans created
        · obtain ⟨devName, device⟩ := Option.isSome_iff_exists.mp device
          let volume : Volume := ⟨volName, volumeId, volSize, agentId, devName, node.cloudName⟩
          have whole : carryOut sid calls h (.create volName volSize agentId) =
              (Holdings.record { h with disks := attached (h.disks.put ⟨volumeId, none⟩) volume } volume).setState sid .running := by
            simp only [carryOut, Holdings.doCreateVolume, known, created, device, attach, hook, if_true]
            rfl
          rw [whole]
          refine ⟨@Tallied.record h tallied volume unnamed (fresh volumeId created) _ rfl rfl, fun fails => ?_⟩
          rcases fails with fails | fails | fails | fails
          · cases fails.symm.trans created
          · cases fails.symm.trans device
          · cases fails.symm.trans attach
          · cases fails.symm.trans hook
  | delete volume =>
    have found := accepted.found
    have there : (h.manager.volumes.get? volume.volName).isSome = true := by rw [found]; rfl
    cases destroy : calls.destroy with
    | true =>
      refine ⟨fun _ => .inl destroy, fun _ => ⟨?_, False.elim⟩⟩
      cases detach : calls.detach with
      | true =>
        have whole : carryOut sid calls h (.delete volume) = (Holdings.forgetVolume
            { h with disks := (detached h.disks volume.volId).erase volume.volId } volume.volName).setState sid .running := by
          simp only [carryOut, Holdings.doDeleteVolume, detach, destroy, there, if_true]
        rw [whole]
        refine tallied.destroy found rfl fun disk => ?_
        refine Table.mem_erase.trans ?_
        rw [mem_detached]
        constructor
        · rintro ⟨⟨member, apart⟩ | ⟨old, member, same, rfl⟩, other⟩
          · exact ⟨member, apart⟩
          · exact absurd same other
        · rintro ⟨member, apart⟩
          exact ⟨.inl ⟨member, apart⟩, apart⟩
      | false =>
        have whole : carryOut sid calls h (.delete volume) = (Holdings.forgetVolume
            { h with disks := h.disks.erase volume.volId } volume.volName).setState sid .running := by
          simp only [carryOut, Holdings.doDeleteVolume, detach, destroy, there, if_true, Bool.false_eq_true, if_false]
        rw [whole]
        exact tallied.destroy found rfl fun _ => Table.mem_erase
    | false =>
      cases detach : calls.detach with
      | true =>
        refine ⟨fun atomic => ?_, fun clean => ?_⟩
        · have whole : carryOut sid calls h (.delete volume) = { h with disks := detached h.disks volume.volId } := by
            simp only [carryOut, Holdings.doDeleteVolume, detach, destroy, if_true, Bool.false_eq_true, if_false]
          have held := atomic.tallied
          rw [whole] at held
          obtain ⟨disk, member, same, place⟩ := held.recorded volume (Table.get?_mem found)
          rcases mem_detached.mp member with ⟨-, other⟩ | ⟨_, -, -, rfl⟩
          · exact absurd same other
          · cases place
        · rcases clean with clean | clean
          · cases clean.symm.trans destroy
          · cases clean.symm.trans detach
      | false =>
        have whole : carryOut sid calls h (.delete volume) = h := by
          simp only [carryOut, Holdings.doDeleteVolume, detach, destroy, Bool.false_eq_true, if_false]
        rw [whole]
        exact ⟨fun _ => .inr detach, fun _ => ⟨tallied, False.elim⟩⟩

/-- A running service with one node, for operations on fixed inputs. -/
def oneNode : ApplicationManager := ⟨[1], fun _ => ⟨.running, .list [.node (nodeOf "1")], []⟩, 1, .empty, "sdb"⟩

/-- The creation of a volume of which all calls succeed. -/
def wellCalls : Calls := ⟨some "vol-1", true, true, true, true⟩

theorem oneNode_atomic : Atomic (.create "data" 1 "iaas1") wellCalls ⟨oneNode, .empty⟩
    (carryOut 1 wellCalls ⟨oneNode, .empty⟩ (.create "data" 1 "iaas1")) :=
  (atomic_iff (tallied_empty rfl) (fun _ _ => rfl) (.create "data" 1 "iaas1") ⟨true, by decide +kernel⟩).mpr
    (.inr ⟨by decide +kernel, rfl, rfl⟩)

/-- The same where the service cannot mount the volume. -/
def unmountedCalls : Calls := { wellCalls with hook := false }

/-- The volume stays at the cloud, attached to the node and not recorded. -/
theorem unmounted_not_atomic : ¬Atomic (.create "data" 1 "iaas1") unmountedCalls ⟨oneNode, .empty⟩
    (carryOut 1 unmountedCalls ⟨oneNode, .empty⟩ (.create "data" 1 "iaas1")) := by
  intro atomic
  have left : (carryOut 1 unmountedCalls ⟨oneNode, .empty⟩ (.create "data" 1 "iaas1")).disks.rows =
      [⟨"vol-1", some ("iaas1", "sdb")⟩] := by decide +kernel
  have before := (atomic.undone (.inr (.inr (.inr rfl)))).2 ⟨"vol-1", some ("iaas1", "sdb")⟩
  rw [left] at before
  exact absurd (before (List.mem_singleton_self _)) List.not_mem_nil

end VolumeOperation

end ConPaaS
