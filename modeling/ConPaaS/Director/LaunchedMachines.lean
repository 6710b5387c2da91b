import ConPaaS.Core.NodeIdentity
import ConPaaS.Director.Controller
import ConPaaS.Director.Launching
import ConPaaS.Lib.Fallible

namespace ConPaaS

open Fallible

theorem ServiceNode.same_vm {node other : ServiceNode} (same : node.same other = true) : node.vm = other.vm := by
  obtain ⟨cloudName, vmid⟩ := ServiceNode.same_iff.mp same
  simp only [ServiceNode.vm, cloudName, vmid]

namespace Iaas

/-- Every machine launched during a call is in the list it returns or has been
handed to `kill_instance`. -/
def Creation.Kept (creation : Creation) : Prop :=
  ∀ vm ∈ creation.launched, (∃ nodes, creation.result = .ok nodes ∧ vm ∈ nodes.map ServiceNode.vm) ∨ vm ∈ creation.killed

/-- The clouds answer one after the other, with nodes each of them. -/
def Outcomes.Answered (outcomes : Outcomes) (infos : List InstanceInfo) : Nat → List String → List ServiceNode → Prop
  | _, [], nodes => nodes = []
  | i, cloudName :: rest, nodes => ∃ answer later, (outcomes.requestCloud infos i cloudName).2 = .ok answer ∧
      Answered outcomes infos (i + 1) rest later ∧ nodes = answer ++ later

/-- No cloud raises an exception, and polling the nodes raises none. -/
def Outcomes.Unbroken (outcomes : Outcomes) (infos : List InstanceInfo) (clouds : List String) : Prop :=
  ∃ nodes polled, outcomes.Answered infos 0 clouds nodes ∧
    outcomes.waitForNodes Outcomes.pollRounds [] nodes = .ok polled

/-- No cloud that is asked launches a machine. -/
def Outcomes.Barren (outcomes : Outcomes) (infos : List InstanceInfo) (clouds : List String) : Prop :=
  ∀ before cloudName after, clouds = before ++ cloudName :: after → (∃ nodes, outcomes.Answered infos 0 before nodes) →
    (outcomes.requestCloud infos before.length cloudName).1 = []

namespace Driver

variable {driver : Driver} {size : Nat → InstanceInfo → Except String Size}

theorem makeInfo_id {i : Nat} {machine : Instance} {info : InstanceInfo} {made : MadeInfo}
    (run : driver.makeInfo i machine info = .ok made) : made.id = machine.id := by
  unfold makeInfo at run
  split at run
  · cases run
    rfl
  · obtain ⟨volumes, _, rfl⟩ := map_ok.mp run
    rfl

/-- A loop that gets through returns every machine it has made. -/
theorem makeInstances_ok {i : Nat} {infos : List InstanceInfo} {made : List (Instance × MadeInfo)}
    (run : (driver.makeInstances size i infos).2 = .ok made) :
    (driver.makeInstances size i infos).1 = made.map Prod.fst ∧ ∀ pair ∈ made, pair.2.id = pair.1.id := by
  induction infos generalizing i made with
  | nil =>
    cases run
    exact ⟨rfl, fun pair member => by cases member⟩
  | cons info rest ih =>
    simp only [makeInstances] at run ⊢
    split at run
    · cases run
    · split at run
      · cases run
      · rename_i info' named
        obtain ⟨later, finished, rfl⟩ := map_ok.mp run
        obtain ⟨launched, ids⟩ := ih finished
        refine ⟨by simp only [launched, List.map_cons], fun pair member => ?_⟩
        rcases List.mem_cons.mp member with rfl | member
        · exact makeInfo_id named
        · exact ids pair member

end Driver

theorem createServiceNodes_ok {cloudName : String} {infos : List MadeInfo} {instances : List Instance}
    {volumes : List ServiceVolume} {nodes : List ServiceNode}
    (run : createServiceNodes cloudName infos instances volumes = .ok nodes) :
    nodes.map ServiceNode.vm = instances.map (fun machine => ⟨machine.id, cloudName⟩) ∧
      ∀ node ∈ nodes, node.cloudName = cloudName := by
  induction instances generalizing volumes nodes with
  | nil =>
    cases run
    exact ⟨rfl, fun node member => by cases member⟩
  | cons machine rest ih =>
    simp only [createServiceNodes] at run
    split at run
    · cases run
    · obtain ⟨later, finished, rfl⟩ := map_ok.mp run
      obtain ⟨vms, clouds⟩ := ih finished
      refine ⟨by simp only [List.map_cons, vms]; rfl, fun node member => ?_⟩
      rcases List.mem_cons.mp member with rfl | member
      · rfl
      · exact clouds node member

namespace Cloud

variable {cloud : Cloud} {driver : Driver} {infos : List InstanceInfo} {nodes : List ServiceNode}

theorem makeNodes_ok {size : Nat → InstanceInfo → Except String Size} {finish : List Instance → Except String Unit}
    (run : (cloud.makeNodes driver size finish infos).2 = .ok nodes) :
    (cloud.makeNodes driver size finish infos).1 = nodes.map ServiceNode.vm ∧
      ∀ node ∈ nodes, node.cloudName = cloud.name := by
  simp only [makeNodes] at run ⊢
  obtain ⟨made, complete, run⟩ := after_ok.mp run
  obtain ⟨_, _, run⟩ := after_ok.mp run
  obtain ⟨vms, clouds⟩ := createServiceNodes_ok run
  refine ⟨?_, clouds⟩
  rw [(Driver.makeInstances_ok complete).1, vms]
  rfl

/-- A cloud that does not raise returns all it has launched. -/
theorem newInstances_ok (run : (cloud.newInstances driver infos).2 = .ok nodes) :
    (cloud.newInstances driver infos).1 = nodes.map ServiceNode.vm ∧ ∀ node ∈ nodes, node.cloudName = cloud.name := by
  unfold newInstances at run ⊢
  cases connected : driver.connect with
  | error error =>
    simp only [connected] at run
    cases run
  | ok _ =>
    simp only [connected] at run ⊢
    cases kind : cloud.type with
    | openstack size autoAssignFloating =>
      simp only [kind] at run ⊢
      exact makeNodes_ok run
    | ec2 sizeId =>
      simp only [kind] at run ⊢
      exact makeNodes_ok run
    | opennebula instType =>
      simp only [kind] at run
      obtain ⟨sizes, _, run⟩ := after_ok.mp run
      split at run <;> cases run
    | dummy =>
      simp only [kind] at run
      cases run

end Cloud

namespace Outcomes

variable {outcomes : Outcomes} {infos : List InstanceInfo}

/-- A node of a cloud the controller knows under the name in the node. -/
def Placed (outcomes : Outcomes) (node : ServiceNode) : Prop :=
  ∃ cloud, outcomes.getCloudByName node.cloudName = .ok cloud ∧ cloud.name = node.cloudName

theorem cloudKey_again (cloudName : String) : cloudKey (cloudKey cloudName) = cloudKey cloudName := by
  unfold cloudKey
  by_cases default : cloudName = "default" ∨ cloudName = "None"
  · rw [if_pos default]
    decide
  · rw [if_neg default, if_neg default]

/-- A cloud that is found is found again under its own name. -/
theorem getCloudByName_again {cloudName : String} {cloud : Cloud} (found : outcomes.getCloudByName cloudName = .ok cloud) :
    outcomes.getCloudByName cloud.name = .ok cloud := by
  unfold getCloudByName at found
  split at found
  · rename_i stored
    cases found
    have named : cloud.name = cloudKey cloudName := by simpa using List.find?_some stored
    simp only [getCloudByName, named, cloudKey_again, stored]
  · cases found

theorem requestCloud_ok {i : Nat} {cloudName : String} {nodes : List ServiceNode}
    (run : (outcomes.requestCloud infos i cloudName).2 = .ok nodes) :
    (outcomes.requestCloud infos i cloudName).1 = nodes.map ServiceNode.vm ∧ ∀ node ∈ nodes, outcomes.Placed node := by
  unfold requestCloud at run ⊢
  cases found : outcomes.getCloudByName cloudName with
  | error error =>
    simp only [found] at run
    cases run
  | ok cloud =>
    simp only [found] at run ⊢
    obtain ⟨launched, clouds⟩ := Cloud.newInstances_ok run
    refine ⟨launched, fun node member => ?_⟩
    rw [Placed, clouds node member]
    exact ⟨cloud, getCloudByName_again found, rfl⟩

theorem requestClouds_ok_iff {i : Nat} {clouds : List String} {nodes : List ServiceNode} :
    (outcomes.requestClouds infos i clouds).2 = .ok nodes ↔ outcomes.Answered infos i clouds nodes := by
  induction clouds generalizing i nodes with
  | nil =>
    simp only [requestClouds, Answered, Except.ok.injEq]
    exact eq_comm
  | cons cloudName rest ih =>
    simp only [requestClouds, Answered]
    cases answer : (outcomes.requestCloud infos i cloudName).2 with
    | error error => simp
    | ok here =>
      simp only [map_ok, ih, Except.ok.injEq]
      constructor
      · rintro ⟨later, answered, rfl⟩
        exact ⟨here, later, rfl, answered, rfl⟩
      · rintro ⟨_, later, rfl, answered, rfl⟩
        exact ⟨later, answered, rfl⟩

theorem requestClouds_ok {i : Nat} {clouds : List String} {nodes : List ServiceNode}
    (answered : outcomes.Answered infos i clouds nodes) :
    (outcomes.requestClouds infos i clouds).1 = nodes.map ServiceNode.vm ∧ ∀ node ∈ nodes, outcomes.Placed node := by
  induction clouds generalizing i nodes with
  | nil =>
    obtain rfl : nodes = [] := answered
    exact ⟨rfl, fun node member => by cases member⟩
  | cons cloudName rest ih =>
    obtain ⟨here, later, answer, answered, rfl⟩ := answered
    obtain ⟨launched, placed⟩ := requestCloud_ok answer
    obtain ⟨launched', placed'⟩ := ih answered
    simp only [requestClouds, answer, launched, launched', List.map_append, true_and]
    intro node member
    exact (List.mem_append.mp member).elim (placed node) (placed' node)

/-- What is launched is launched by a cloud that is reached, for every cloud
before it has answered. -/
theorem mem_launched {i : Nat} {clouds : List String} {vm : Vm} :
    vm ∈ (outcomes.requestClouds infos i clouds).1 ↔ ∃ before cloudName after, clouds = before ++ cloudName :: after ∧
      (∃ nodes, outcomes.Answered infos i before nodes) ∧ vm ∈ (outcomes.requestCloud infos (i + before.length) cloudName).1 := by
  induction clouds generalizing i with
  | nil => simp [requestClouds]
  | cons cloudName rest ih =>
    have first (member : vm ∈ (outcomes.requestCloud infos i cloudName).1) : ∃ before cloud after,
        cloudName :: rest = before ++ cloud :: after ∧ (∃ nodes, outcomes.Answered infos i before nodes) ∧
          vm ∈ (outcomes.requestCloud infos (i + before.length) cloud).1 :=
      ⟨[], cloudName, rest, rfl, ⟨[], rfl⟩, member⟩
    simp only [requestClouds]
    cases answer : (outcomes.requestCloud infos i cloudName).2 with
    | error error =>
      refine ⟨first, ?_⟩
      rintro ⟨before, cloud, after, split, ⟨nodes, answered⟩, member⟩
      cases before with
      | nil =>
        obtain ⟨rfl, -⟩ := List.cons.inj split
        exact member
      | cons earlier before =>
        obtain ⟨rfl, -⟩ := List.cons.inj split
        obtain ⟨_, _, answer', -⟩ := answered
        rw [answer] at answer'
        cases answer'
    | ok here =>
      simp only [List.mem_append, ih]
      constructor
      · rintro (member | ⟨before, cloud, after, rfl, ⟨nodes, answered⟩, member⟩)
        · exact first member
        · refine ⟨cloudName :: before, cloud, after, rfl, ⟨_, here, nodes, answer, answered, rfl⟩, ?_⟩
          rwa [List.length_cons, Nat.add_comm before.length, ← Nat.add_assoc]
      · rintro ⟨before, cloud, after, split, ⟨nodes, answered⟩, member⟩
        cases before with
        | nil =>
          obtain ⟨rfl, -⟩ := List.cons.inj split
          exact Or.inl member
        | cons earlier before =>
          obtain ⟨rfl, rest⟩ := List.cons.inj split
          obtain ⟨_, later, _, answered, -⟩ := answered
          refine Or.inr ⟨before, cloud, after, rest, ⟨later, answered⟩, ?_⟩
          rwa [List.length_cons, Nat.add_comm before.length, ← Nat.add_assoc] at member

theorem barren_iff {clouds : List String} :
    outcomes.Barren infos clouds ↔ (outcomes.requestClouds infos 0 clouds).1 = [] := by
  rw [List.eq_nil_iff_forall_not_mem]
  constructor
  · intro barren vm member
    obtain ⟨before, cloudName, after, split, answered, launched⟩ := mem_launched.mp member
    rw [Nat.zero_add, barren before cloudName after split answered] at launched
    cases launched
  · intro none before cloudName after split answered
    refine List.eq_nil_iff_forall_not_mem.mpr fun vm launched => none vm ?_
    exact mem_launched.mpr ⟨before, cloudName, after, split, answered, by rwa [Nat.zero_add]⟩

/-- Polling a node changes its addresses only. -/
theorem refreshed_vm (node : ServiceNode) (listed : List ServiceNode) : (refreshed node listed).vm = node.vm := by
  unfold refreshed
  split <;> rfl

theorem refreshNode_vm {round : Nat} {node fresh : ServiceNode} (run : outcomes.refreshNode round node = .ok fresh) :
    fresh.vm = node.vm := by
  unfold refreshNode at run
  split at run
  · obtain ⟨_, _, run⟩ := after_ok.mp run
    obtain ⟨listed, _, rfl⟩ := map_ok.mp run
    exact refreshed_vm node listed
  · cases run
    rfl

theorem refreshNodes_ok {round : Nat} {nodes fresh : List ServiceNode}
    (run : outcomes.refreshNodes round nodes = .ok fresh) : fresh.map ServiceNode.vm = nodes.map ServiceNode.vm := by
  induction nodes generalizing fresh with
  | nil =>
    cases run
    rfl
  | cons node rest ih =>
    obtain ⟨new, one, run⟩ := bind_ok.mp run
    obtain ⟨later, others, run⟩ := bind_ok.mp run
    cases run
    rw [List.map_cons, List.map_cons, ih others, refreshNode_vm one]

/-- A round of polling keeps the machines that have started and the others. -/
theorem keeps {done nodes : List ServiceNode} (started : List ServiceNode) {vm : Vm}
    (member : vm ∈ done.map ServiceNode.vm ∨ vm ∈ nodes.map ServiceNode.vm) :
    vm ∈ (done ++ started).map ServiceNode.vm ∨
      vm ∈ (waiting (done ++ started) nodes).map ServiceNode.vm := by
  rcases member with before | waiting
  · refine Or.inl ?_
    rw [List.map_append]
    exact List.mem_append_left _ before
  · obtain ⟨node, inside, rfl⟩ := List.mem_map.mp waiting
    cases ready : (done ++ started).any node.same with
    | true =>
      obtain ⟨other, there, same⟩ := List.any_eq_true.mp ready
      exact Or.inl (List.mem_map.mpr ⟨other, there, (ServiceNode.same_vm same).symm⟩)
    | false => exact Or.inr (List.mem_map_of_mem (List.mem_filter.mpr ⟨inside, by rw [ready]; rfl⟩))

theorem waiting_mem {started nodes : List ServiceNode} {vm : Vm}
    (member : vm ∈ (waiting started nodes).map ServiceNode.vm) : vm ∈ nodes.map ServiceNode.vm := by
  obtain ⟨node, inside, rfl⟩ := List.mem_map.mp member
  exact List.mem_map_of_mem (List.mem_filter.mp inside).1

/-- Polling loses no machine: each is ready or has failed at the end. -/
theorem waitForNodes_ok {left : Nat} {done nodes : List ServiceNode} {polled : List ServiceNode × List ServiceNode}
    (run : outcomes.waitForNodes left done nodes = .ok polled) :
    (∀ vm, vm ∈ done.map ServiceNode.vm ∨ vm ∈ nodes.map ServiceNode.vm →
      vm ∈ polled.1.map ServiceNode.vm ∨ vm ∈ polled.2.map ServiceNode.vm) ∧
      ∀ vm ∈ polled.2.map ServiceNode.vm, vm ∈ nodes.map ServiceNode.vm := by
  induction left generalizing done nodes polled with
  | zero =>
    cases nodes with
    | nil =>
      cases run
      exact ⟨fun vm member => member, fun vm member => member⟩
    | cons node rest =>
      obtain ⟨started, _, run⟩ := bind_ok.mp run
      cases run
      exact ⟨fun vm member => keeps started member, fun vm member => waiting_mem member⟩
  | succ left ih =>
    cases nodes with
    | nil =>
      cases run
      exact ⟨fun vm member => member, fun vm member => member⟩
    | cons node rest =>
      obtain ⟨started, _, run⟩ := bind_ok.mp run
      obtain ⟨fresh, refreshed, run⟩ := bind_ok.mp run
      obtain ⟨all, failed⟩ := ih run
      rw [refreshNodes_ok refreshed] at all failed
      exact ⟨fun vm member => all vm (keeps started member), fun vm member => waiting_mem (failed vm member)⟩

theorem deleteNodes_ok {nodes : List ServiceNode} (placed : ∀ vm ∈ nodes.map ServiceNode.vm, ∃ cloud,
    outcomes.getCloudByName vm.cloud = .ok cloud ∧ cloud.name = vm.cloud) :
    outcomes.deleteNodes nodes = (nodes.map ServiceNode.vm, .ok ()) := by
  induction nodes with
  | nil => rfl
  | cons node rest ih =>
    obtain ⟨cloud, known, named⟩ := placed node.vm (List.mem_cons_self ..)
    have later := ih fun vm member => placed vm (List.mem_cons_of_mem _ member)
    change outcomes.getCloudByName node.cloudName = _ at known
    change cloud.name = node.cloudName at named
    simp only [deleteNodes, known, later, named, List.map_cons, ServiceNode.vm]

/-- A call no exception breaks keeps every machine. -/
theorem createNodes_unbroken {clouds : List String} (unbroken : outcomes.Unbroken infos clouds) :
    (outcomes.createNodes infos clouds).Kept := by
  obtain ⟨nodes, ⟨ready, failed⟩, answered, polled⟩ := unbroken
  obtain ⟨launched, placed⟩ := requestClouds_ok answered
  obtain ⟨all, old⟩ := waitForNodes_ok polled
  have known : ∀ vm ∈ failed.map ServiceNode.vm, ∃ cloud, outcomes.getCloudByName vm.cloud = .ok cloud ∧
      cloud.name = vm.cloud := by
    intro vm member
    obtain ⟨node, inside, rfl⟩ := List.mem_map.mp (old vm member)
    exact placed node inside
  have result : outcomes.createNodes infos clouds =
      ⟨nodes.map ServiceNode.vm, failed.map ServiceNode.vm, .ok ready⟩ := by
    simp only [createNodes, requestClouds_ok_iff.mpr answered, Except.bind, polled, launched, deleteNodes_ok known,
      Except.map]
  rw [result]
  intro vm member
  exact (all vm (Or.inr member)).imp (fun here => ⟨ready, rfl, here⟩) id

/-- An exception forgets every machine launched before it. -/
theorem createNodes_broken {clouds : List String} (broken : ¬ outcomes.Unbroken infos clouds) :
    ∃ error, outcomes.createNodes infos clouds = ⟨(outcomes.requestClouds infos 0 clouds).1, [], .error error⟩ := by
  rcases error_or_ok ((outcomes.requestClouds infos 0 clouds).2.bind (outcomes.waitForNodes pollRounds [])) with
    ⟨error, raised⟩ | ⟨polled, run⟩
  · exact ⟨error, by simp only [createNodes, raised]⟩
  · obtain ⟨nodes, answered, polls⟩ := after_ok.mp run
    exact absurd ⟨nodes, polled, requestClouds_ok_iff.mp answered, polls⟩ broken

/-- A call of `create_nodes` keeps hold of every machine launched during it
exactly when no exception breaks it, or none of the clouds it reaches launches
a machine. -/
theorem createNodes_kept_iff (outcomes : Outcomes) (infos : List InstanceInfo) (clouds : List String) :
    (outcomes.createNodes infos clouds).Kept ↔ outcomes.Unbroken infos clouds ∨ outcomes.Barren infos clouds := by
  rw [barren_iff]
  by_cases unbroken : outcomes.Unbroken infos clouds
  · exact iff_of_true (createNodes_unbroken unbroken) (Or.inl unbroken)
  · obtain ⟨error, result⟩ := createNodes_broken unbroken
    rw [result, or_iff_right unbroken]
    constructor
    · intro kept
      refine List.eq_nil_iff_forall_not_mem.mpr fun vm member => ?_
      rcases kept vm member with ⟨nodes, ok, -⟩ | killed
      · cases ok
      · cases killed
    · intro none vm member
      rw [Creation.launched, none] at member
      cases member

end Outcomes

/-- A driver that makes one machine and fails to make the second. -/
def oneMachineDriver : Driver where
  connect := .ok ()
  listSizes _ := .ok []
  createNode i := if i = 0 then .ok ⟨"vm1", ["10.0.0.1"], ["192.168.0.1"]⟩ else .error "Quota exceeded"
  volumeName _ _ := .ok "volume"
  createVolume _ _ := .ok "vol1"
  attachAddress _ := .attached

/-- An OpenStack cloud that gives a user one machine. -/
def smallCloud : Outcomes where
  clouds := [⟨"iaas", .openstack ⟨"1", "m1.tiny"⟩ true⟩]
  driver _ := oneMachineDriver
  checkProcess _ _ := .answered
  listVms _ _ := .ok []

/-- Asked for two machines at once, the controller loses the first. -/
theorem smallCloud_loses : ¬ ∀ (outcomes : Outcomes) (infos : List InstanceInfo) (clouds : List String),
    (outcomes.createNodes infos clouds).Kept := by
  intro law
  have kept := law smallCloud [⟨"iaas", none, none, none⟩, ⟨"iaas", none, none, none⟩] ["iaas"] ⟨"vm1", "iaas"⟩ (by decide)
  rcases kept with ⟨nodes, ok, -⟩ | killed
  · have raised : (smallCloud.createNodes [⟨"iaas", none, none, none⟩, ⟨"iaas", none, none, none⟩] ["iaas"]).result.toOption =
        none := by decide
    rw [ok] at raised
    cases raised
  · exact absurd killed (by decide)

end Iaas

end ConPaaS
