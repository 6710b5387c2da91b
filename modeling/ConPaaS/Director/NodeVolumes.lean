import ConPaaS.Director.LaunchedMachines
import Mathlib.Data.List.Forall2

namespace ConPaaS.Iaas

open Fallible

/-- A machine has an id that no other machine of the call has. -/
def Driver.Apart (driver : Driver) : Prop :=
  ∀ i j machine other, driver.createNode i = .ok machine → driver.createNode j = .ok other →
    machine.id = other.id → i = j

/-- A node has the role of an entry of the request, and the volumes that were
made for the entry. -/
def Carries (driver : Driver) (entry : InstanceInfo × Nat) (node : ServiceNode) : Prop :=
  node.role = entry.1.role.getD "node" ∧
    driver.makeVolumes entry.2 node.vmid 0 (entry.1.volumes.getD []) = .ok node.volumes

/-- What is asked for each machine is on its node: every entry is that of one
node, and the volumes of a node were made for its machine and for no other. -/
structure Survives (driver : Driver) (infos : List InstanceInfo) (nodes : List ServiceNode) : Prop where
  entries : ∃ order : List (InstanceInfo × Nat), order.Perm infos.zipIdx ∧ List.Forall₂ (Carries driver) order nodes
  machines : (nodes.map ServiceNode.vmid).Nodup
  volumes : ∀ node ∈ nodes, ∀ volume ∈ node.volumes, volume.vmId = some node.vmid

/-- The volumes of the last entry that has the key. -/
def latestVolumes (volumes : List ServiceVolume) (infos : List InstanceInfo) : List ServiceVolume :=
  infos.foldl (fun volumes info => info.volumes.getD volumes) volumes

/-- Where an entry has no volumes, the last entry before it that has the key
has none either. -/
def NoneInherited (volumes : List ServiceVolume) (infos : List InstanceInfo) : Prop :=
  ∀ before info after, infos = before ++ info :: after → info.volumes = none → latestVolumes volumes before = []

theorem noneInherited_nil (volumes : List ServiceVolume) : NoneInherited volumes [] :=
  fun before info after split => by
    cases before <;> cases split

theorem noneInherited_cons {volumes : List ServiceVolume} {info : InstanceInfo} {rest : List InstanceInfo} :
    NoneInherited volumes (info :: rest) ↔
      (info.volumes = none → volumes = []) ∧ NoneInherited (info.volumes.getD volumes) rest := by
  constructor
  · intro none
    refine ⟨none [] info rest rfl, fun before info' after split absent => ?_⟩
    exact none (info :: before) info' after (by rw [split]; rfl) absent
  · rintro ⟨here, later⟩ before info' after split absent
    cases before with
    | nil =>
      obtain ⟨rfl, _⟩ := List.cons.inj split
      exact here absent
    | cons first before =>
      obtain ⟨rfl, rest⟩ := List.cons.inj split
      exact later before info' after rest absent

/-- Each entry of the second of two related lists is related to one of the first. -/
theorem forall₂_right {α β : Type*} {R : α → β → Prop} {first : List α} {second : List β}
    (related : List.Forall₂ R first second) : ∀ b ∈ second, ∃ a ∈ first, R a b := by
  induction related with
  | nil => exact fun b member => by cases member
  | cons here _ ih =>
    intro b member
    rcases List.mem_cons.mp member with rfl | member
    · exact ⟨_, List.mem_cons_self, here⟩
    · obtain ⟨a, inside, related⟩ := ih b member
      exact ⟨a, List.mem_cons_of_mem _ inside, related⟩

namespace Driver

variable {driver : Driver}

/-- The volumes made for a machine are recorded for it. -/
theorem makeVolumes_vmId {i j : Nat} {vmId : String} {volumes made : List ServiceVolume}
    (run : driver.makeVolumes i vmId j volumes = .ok made) : ∀ volume ∈ made, volume.vmId = some vmId := by
  induction volumes generalizing j made with
  | nil =>
    cases run
    exact fun volume member => by cases member
  | cons vol rest ih =>
    simp only [makeVolumes] at run
    obtain ⟨volName, _, run⟩ := bind_ok.mp run
    obtain ⟨volId, _, run⟩ := bind_ok.mp run
    obtain ⟨later, finished, run⟩ := bind_ok.mp run
    cases run
    intro volume member
    rcases List.mem_cons.mp member with rfl | member
    · rfl
    · exact ih finished volume member

theorem makeVolumes_length {i j : Nat} {vmId : String} {volumes made : List ServiceVolume}
    (run : driver.makeVolumes i vmId j volumes = .ok made) : made.length = volumes.length := by
  induction volumes generalizing j made with
  | nil =>
    cases run
    rfl
  | cons vol rest ih =>
    simp only [makeVolumes] at run
    obtain ⟨volName, _, run⟩ := bind_ok.mp run
    obtain ⟨volId, _, run⟩ := bind_ok.mp run
    obtain ⟨later, finished, run⟩ := bind_ok.mp run
    cases run
    simp only [List.length_cons, ih finished]

/-- What is made for an entry of the request. -/
structure MadeFor (driver : Driver) (entry : InstanceInfo × Nat) (made : Instance × MadeInfo) : Prop where
  machine : driver.createNode entry.2 = .ok made.1
  id : made.2.id = made.1.id
  role : made.2.role = entry.1.role
  absent : entry.1.volumes = none → made.2.volumes = none
  present : ∀ volumes, entry.1.volumes = some volumes →
    ∃ recorded, made.2.volumes = some recorded ∧ driver.makeVolumes entry.2 made.1.id 0 volumes = .ok recorded

theorem makeInfo_madeFor {i : Nat} {machine : Instance} {info : InstanceInfo} {made : MadeInfo}
    (created : driver.createNode i = .ok machine) (run : driver.makeInfo i machine info = .ok made) :
    driver.MadeFor (info, i) (machine, made) := by
  unfold makeInfo at run
  split at run
  · rename_i absent
    cases run
    exact ⟨created, rfl, rfl, fun _ => rfl, fun volumes present => by cases absent.symm.trans present⟩
  · rename_i volumes present
    obtain ⟨recorded, finished, rfl⟩ := map_ok.mp run
    refine ⟨created, rfl, rfl, fun absent => (by cases present.symm.trans absent), fun volumes' present' => ?_⟩
    obtain rfl := Option.some.inj (present.symm.trans present')
    exact ⟨recorded, rfl, finished⟩

theorem makeInstances_madeFor {size : Nat → InstanceInfo → Except String Size} {i : Nat} {infos : List InstanceInfo}
    {made : List (Instance × MadeInfo)} (run : (driver.makeInstances size i infos).2 = .ok made) :
    List.Forall₂ driver.MadeFor (infos.zipIdx i) made := by
  induction infos generalizing i made with
  | nil =>
    cases run
    exact .nil
  | cons info rest ih =>
    simp only [makeInstances] at run
    split at run
    · cases run
    · rename_i machine created
      obtain ⟨_, _, created⟩ := after_ok.mp created
      split at run
      · cases run
      · rename_i made' named
        obtain ⟨later, finished, rfl⟩ := map_ok.mp run
        rw [List.zipIdx_cons]
        exact .cons (makeInfo_madeFor created named) (ih finished)

/-- Machines made for entries in different places differ. -/
theorem Apart.nodup (apart : driver.Apart) {infos : List InstanceInfo} {i : Nat} {made : List (Instance × MadeInfo)}
    (pairs : List.Forall₂ driver.MadeFor (infos.zipIdx i) made) :
    (made.map fun pair => pair.1.id).Nodup := by
  induction infos generalizing i made with
  | nil =>
    cases pairs
    exact List.nodup_nil
  | cons info rest ih =>
    obtain ⟨first, others, here, later, rfl⟩ := List.forall₂_cons_left_iff.mp (List.zipIdx_cons ▸ pairs)
    refine List.nodup_cons.mpr ⟨fun member => ?_, ih later⟩
    obtain ⟨other, member, same⟩ := List.mem_map.mp member
    obtain ⟨entry, place, made⟩ := forall₂_right later other member
    have next := List.le_snd_of_mem_zipIdx place
    have := apart _ _ _ _ here.machine made.machine same.symm
    omega

/-- The nodes of the machines when each entry is found by its id. -/
def nodesOf (cloudName : String) : List ServiceVolume → List (Instance × MadeInfo) → List ServiceNode
  | _, [] => []
  | volumes, (machine, info) :: rest =>
    let volumes := info.volumes.getD volumes
    createOneServiceNode cloudName machine volumes (info.role.getD "node") :: nodesOf cloudName volumes rest

end Driver

/-- The entry of a machine is found by the id of the machine. -/
theorem find?_madeInfo {made : List (Instance × MadeInfo)} (ids : ∀ pair ∈ made, pair.2.id = pair.1.id)
    (nodup : (made.map fun pair => pair.1.id).Nodup) {machine : Instance} {info : MadeInfo}
    (member : (machine, info) ∈ made) :
    (made.map Prod.snd).find? (fun info => info.id = machine.id) = some info := by
  induction made with
  | nil => cases member
  | cons first rest ih =>
    obtain ⟨absent, nodup⟩ := List.nodup_cons.mp nodup
    have own := ids first List.mem_cons_self
    rw [List.map_cons, List.find?_cons]
    rcases List.mem_cons.mp member with rfl | member
    · simp only at own
      simp only [own, decide_true]
    · have differs : first.2.id ≠ machine.id := fun same =>
        absent (List.mem_map.mpr ⟨(machine, info), member, same.symm.trans own⟩)
      simp only [differs, decide_false]
      exact ih (fun pair member => ids pair (List.mem_cons_of_mem _ member)) nodup member

theorem createServiceNodes_eq {cloudName : String} {made pairs : List (Instance × MadeInfo)}
    (ids : ∀ pair ∈ made, pair.2.id = pair.1.id) (nodup : (made.map fun pair => pair.1.id).Nodup)
    (part : pairs ⊆ made) (volumes : List ServiceVolume) :
    createServiceNodes cloudName (made.map Prod.snd) (pairs.map Prod.fst) volumes =
      .ok (Driver.nodesOf cloudName volumes pairs) := by
  induction pairs generalizing volumes with
  | nil => rfl
  | cons pair rest ih =>
    obtain ⟨machine, info⟩ := pair
    have found := find?_madeInfo ids nodup (part List.mem_cons_self)
    simp only [List.map_cons, createServiceNodes, found]
    rw [ih (fun pair member => part (List.mem_cons_of_mem _ member))]
    rfl

namespace Driver

variable {driver : Driver} {cloudName : String}

theorem nodesOf_vmid (volumes : List ServiceVolume) (made : List (Instance × MadeInfo)) :
    (nodesOf cloudName volumes made).map ServiceNode.vmid = made.map fun pair => pair.1.id := by
  induction made generalizing volumes with
  | nil => rfl
  | cons pair rest ih =>
    simp only [nodesOf, List.map_cons, ih]
    rfl

/-- Where nothing is inherited, each node has what was made for its entry. -/
theorem nodesOf_carries (cloudName : String) {infos : List InstanceInfo} {i : Nat} {made : List (Instance × MadeInfo)}
    {volumes requested : List ServiceVolume} (pairs : List.Forall₂ driver.MadeFor (infos.zipIdx i) made)
    (empty : requested = [] → volumes = []) (nothing : NoneInherited requested infos) :
    List.Forall₂ (Carries driver) (infos.zipIdx i) (nodesOf cloudName volumes made) := by
  induction infos generalizing i made volumes requested with
  | nil =>
    cases pairs
    exact .nil
  | cons info rest ih =>
    obtain ⟨⟨machine, entry⟩, others, here, later, rfl⟩ := List.forall₂_cons_left_iff.mp (List.zipIdx_cons ▸ pairs)
    obtain ⟨alone, nothing⟩ := noneInherited_cons.mp nothing
    rw [List.zipIdx_cons]
    cases present : info.volumes with
    | none =>
      have kept : entry.volumes = none := here.absent present
      have bare := empty (alone present)
      rw [present] at nothing
      refine .cons ⟨congrArg (Option.getD · "node") here.role, ?_⟩ (ih later ?_ nothing)
      · simp only [createOneServiceNode, present, kept, Option.getD_none, bare, makeVolumes]
      · simp only [kept, Option.getD_none]
        exact empty
    | some asked =>
      obtain ⟨recorded, kept, finished⟩ := here.present asked present
      simp only at kept finished
      rw [present] at nothing
      refine .cons ⟨congrArg (Option.getD · "node") here.role, ?_⟩ (ih later ?_ nothing)
      · simp only [createOneServiceNode, present, kept, Option.getD_some, finished]
      · simp only [kept, Option.getD_some]
        intro bare
        exact List.eq_nil_of_length_eq_zero (by rw [makeVolumes_length finished, bare]; rfl)

/-- Where each node has only volumes of its machine, nothing is inherited: the
volumes that are carried along belong to a machine before. -/
theorem nodesOf_noneInherited {infos : List InstanceInfo} {i : Nat} {made : List (Instance × MadeInfo)}
    {volumes requested : List ServiceVolume} (pairs : List.Forall₂ driver.MadeFor (infos.zipIdx i) made)
    (nodup : (made.map fun pair => pair.1.id).Nodup) (empty : volumes = [] → requested = [])
    (before : ∀ volume ∈ volumes, ∀ pair ∈ made, volume.vmId ≠ some pair.1.id)
    (own : ∀ node ∈ nodesOf cloudName volumes made, ∀ volume ∈ node.volumes, volume.vmId = some node.vmid) :
    NoneInherited requested infos := by
  induction infos generalizing i made volumes requested with
  | nil => exact noneInherited_nil requested
  | cons info rest ih =>
    obtain ⟨⟨machine, entry⟩, others, here, later, rfl⟩ := List.forall₂_cons_left_iff.mp (List.zipIdx_cons ▸ pairs)
    obtain ⟨absent, nodup⟩ := List.nodup_cons.mp nodup
    have mine := own _ List.mem_cons_self
    have rest_own := fun node member => own node (List.mem_cons_of_mem _ member)
    refine noneInherited_cons.mpr ?_
    cases present : info.volumes with
    | none =>
      have kept : entry.volumes = none := here.absent present
      simp only [createOneServiceNode, kept, Option.getD_none] at mine rest_own
      have bare : volumes = [] := List.eq_nil_iff_forall_not_mem.mpr fun volume member =>
        before volume member _ List.mem_cons_self (mine volume member)
      refine ⟨fun _ => empty bare, ih later nodup empty (fun volume member pair inside => ?_) rest_own⟩
      exact before volume member pair (List.mem_cons_of_mem _ inside)
    | some asked =>
      obtain ⟨recorded, kept, finished⟩ := here.present asked present
      simp only at kept finished
      simp only [kept, Option.getD_some] at rest_own
      refine ⟨fun bare => (by cases bare), ih later nodup (fun bare => ?_) (fun volume member pair inside same => ?_) rest_own⟩
      · exact List.eq_nil_of_length_eq_zero (by rw [Option.getD_some, ← makeVolumes_length finished, bare]; rfl)
      · rw [makeVolumes_vmId finished volume member] at same
        exact absent (List.mem_map.mpr ⟨pair, inside, (Option.some.inj same).symm⟩)

end Driver

namespace Cloud

variable {cloud : Cloud} {driver : Driver} {infos : List InstanceInfo} {nodes : List ServiceNode}

/-- The nodes of a cloud that does not raise are those of the machines made for
the entries. -/
theorem makeNodes_nodesOf {size : Nat → InstanceInfo → Except String Size} {finish : List Instance → Except String Unit}
    (apart : driver.Apart) (run : (cloud.makeNodes driver size finish infos).2 = .ok nodes) :
    ∃ made, List.Forall₂ driver.MadeFor infos.zipIdx made ∧ nodes = Driver.nodesOf cloud.name [] made := by
  simp only [makeNodes] at run
  obtain ⟨made, complete, run⟩ := after_ok.mp run
  obtain ⟨_, _, run⟩ := after_ok.mp run
  have pairs := Driver.makeInstances_madeFor complete
  rw [createServiceNodes_eq (Driver.makeInstances_ok complete).2 (apart.nodup pairs) (fun _ member => member)] at run
  exact ⟨made, pairs, (Except.ok.inj run).symm⟩

theorem newInstances_nodesOf (apart : driver.Apart) (run : (cloud.newInstances driver infos).2 = .ok nodes) :
    ∃ made, List.Forall₂ driver.MadeFor infos.zipIdx made ∧ nodes = Driver.nodesOf cloud.name [] made := by
  unfold newInstances at run
  cases connected : driver.connect with
  | error error =>
    simp only [connected] at run
    cases run
  | ok _ =>
    simp only [connected] at run
    cases kind : cloud.type with
    | openstack size autoAssignFloating =>
      simp only [kind] at run
      exact makeNodes_nodesOf apart run
    | ec2 sizeId =>
      simp only [kind] at run
      exact makeNodes_nodesOf apart run
    | opennebula instType =>
      simp only [kind] at run
      obtain ⟨sizes, _, run⟩ := after_ok.mp run
      split at run <;> cases run
    | dummy =>
      simp only [kind] at run
      cases run

/-- What is asked for the machines survives their creation exactly when no
entry inherits the volumes of an entry before it. -/
theorem survives_iff (cloud : Cloud) (driver : Driver) (infos : List InstanceInfo) (nodes : List ServiceNode)
    (apart : driver.Apart) (run : (cloud.newInstances driver infos).2 = .ok nodes) :
    Survives driver infos nodes ↔ NoneInherited [] infos := by
  obtain ⟨made, pairs, rfl⟩ := newInstances_nodesOf apart run
  constructor
  · intro survives
    exact Driver.nodesOf_noneInherited pairs (apart.nodup pairs) (fun _ => rfl) (fun volume member => by cases member)
      survives.volumes
  · intro nothing
    have carries := Driver.nodesOf_carries cloud.name pairs (fun _ => rfl) nothing
    refine ⟨⟨_, List.Perm.refl _, carries⟩, ?_, fun node member => ?_⟩
    · rw [Driver.nodesOf_vmid]
      exact apart.nodup pairs
    · obtain ⟨entry, _, _, kept⟩ := forall₂_right carries node member
      exact Driver.makeVolumes_vmId kept

/-- A driver that makes two machines, each of its volumes with an id. -/
def twoMachines : Driver where
  connect := .ok ()
  listSizes _ := .ok [⟨"t1.micro", "Micro Instance"⟩]
  createNode
    | 0 => .ok ⟨"i-0", ["54.0.0.1"], ["10.0.0.1"]⟩
    | 1 => .ok ⟨"i-1", ["54.0.0.2"], ["10.0.0.2"]⟩
    | _ => .error "InstanceLimitExceeded"
  volumeName _ _ := .ok "data"
  createVolume
    | 0, _ => .ok "vol-0"
    | _, _ => .ok "vol-1"
  attachAddress _ := .attached

theorem twoMachines_apart : twoMachines.Apart := by
  intro i j machine other created created' same
  match i, j, created, created' with
  | 0, 0, _, _ => rfl
  | 1, 1, _, _ => rfl
  | 0, 1, .refl _, .refl _ => exact absurd same (by decide)
  | 1, 0, .refl _, .refl _ => exact absurd same (by decide)

def dataVolume : ServiceVolume := ⟨"data", 1024, none, none, some "sdb", some "iaas"⟩

/-- A node with a volume, then one for which an empty list of volumes is given. -/
def bothNamed : List InstanceInfo := [⟨"iaas", none, some "mysql", some [dataVolume]⟩, ⟨"iaas", none, some "glb", some []⟩]

/-- A node with a volume, then one without volumes. -/
def secondUnnamed : List InstanceInfo := [⟨"iaas", none, some "mysql", some [dataVolume]⟩, ⟨"iaas", none, some "glb", none⟩]

def withData : ServiceNode :=
  ⟨"i-0", "54.0.0.1", "10.0.0.1", "iaas", 100, "mysql", [⟨"data", 1024, some "vol-0", some "i-0", some "sdb", some "iaas"⟩]⟩

theorem bothNamed_survives :
    Survives twoMachines bothNamed [withData, ⟨"i-1", "54.0.0.2", "10.0.0.2", "iaas", 100, "glb", []⟩] :=
  (survives_iff ⟨"iaas", .ec2 "t1.micro"⟩ twoMachines bothNamed _ twoMachines_apart rfl).mpr
    (noneInherited_cons.mpr ⟨nofun, noneInherited_cons.mpr ⟨nofun, noneInherited_nil _⟩⟩)

/-- The second node gets the volume of the first, which is that of another machine. -/
theorem secondUnnamed_inherits :
    ¬ ∀ (cloud : Cloud) (driver : Driver) (infos : List InstanceInfo) (nodes : List ServiceNode), driver.Apart →
      (cloud.newInstances driver infos).2 = .ok nodes → Survives driver infos nodes := by
  intro claim
  have survives := claim ⟨"iaas", .ec2 "t1.micro"⟩ twoMachines secondUnnamed
    [withData, ⟨"i-1", "54.0.0.2", "10.0.0.2", "iaas", 100, "glb", withData.volumes⟩] twoMachines_apart rfl
  have own := survives.volumes _ (List.mem_cons_of_mem _ List.mem_cons_self) _ List.mem_cons_self
  exact absurd own (by decide)

end Cloud

end ConPaaS.Iaas
