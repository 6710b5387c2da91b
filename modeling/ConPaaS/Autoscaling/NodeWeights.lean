import ConPaaS.Autoscaling.Averages
import ConPaaS.Lib.Table
import ConPaaS.Lib.Transition
import Mathlib.Tactic.Linarith
import Mathlib.Tactic.NormNum

namespace ConPaaS

open Keyed Transition

def MAX_WEIGHT_VALUE : Int := 3000
def STANDARD_WEIGHT_VALUE : Int := 200
def PERCENTAGE_PERFORMANCE_DIFF : Rat := 30
def MAX_CPU_USAGE_WEIGHTS : Rat := 77
def MIN_CPU_USAGE_WEIGHTS : Rat := 10

/-- A backend node with an initial weight. -/
structure BackendNode where
  vmid : String
  ip : String
  weightBackend : Int
  weight_pos : 1 ≤ weightBackend
  weight_le : weightBackend ≤ MAX_WEIGHT_VALUE

/-- An entry of `updated_backend_weights`. -/
structure BackendWeight where
  vmid : String
  weight : Int

/-- An entry of `updated_backend_weights_id`. -/
structure BackendWeightId where
  ip : String
  vmid : String

structure DynamicLoadBalancer where
  updatedBackendWeights : Table BackendWeight.vmid
  updatedBackendWeightsId : Table BackendWeightId.ip

/-- The monitoring data of the backend nodes: `cpu_user` by addresses. -/
abbrev CpuData := String → Option (List Rat)

variable (nodes : Table BackendNode.vmid) (data : CpuData)

/-- The entry of a node in `avg_nodes_usage`. -/
def BackendNode.avgUsage (node : BackendNode) : Option (BackendNode × Rat) :=
  (data node.ip).map fun list => (node, (computeWeightAverage list).1)

/-- `max_node_usage`. -/
def maxNodeUsage (avgNodesUsage : List (BackendNode × Rat)) : Rat :=
  avgNodesUsage.foldl (fun maxUsage item => if item.2 > maxUsage then item.2 else maxUsage) 0

/-- How much faster a node is than the slowest one, in steps of thirty percent. -/
def percentMultiplier (maxUsage usage : Rat) : Int :=
  truncated ((maxUsage / usage * 100 - 100) / PERCENTAGE_PERFORMANCE_DIFF)

/-- `weight_value` by the stored weight or the one of the node. A stored weight
of zero counts as false. -/
def weightValue (stored : Option Int) (weightBackend : Int) (usage : Rat) (multiplier : Int) : Int :=
  if usage > MAX_CPU_USAGE_WEIGHTS ∧ multiplier < 1 then
    match stored with
    | some weight => if weight ≠ 0 then weight - 10 else 0
    | none => weightBackend - 10
  else
    let value := match stored with
      | some weight => if weight ≠ 0 then weight * (100 + 15 * multiplier) / 100 else 0
      | none => weightBackend * (100 + 15 * multiplier) / 100
    if multiplier = 0 then
      match stored with
      | some weight => if weight ≠ 0 ∧ weight < 500 then weight + 10 else value
      | none => if weightBackend < 500 then weightBackend + 10 else value
    else value

namespace DynamicLoadBalancer

variable (b : DynamicLoadBalancer)

def stored (vmid : String) : Option Int := (b.updatedBackendWeights.get? vmid).map BackendWeight.weight

/-- All weights are reset if one is above the maximum. -/
def limited : DynamicLoadBalancer :=
  if b.updatedBackendWeights.rows.any (fun entry => entry.weight > MAX_WEIGHT_VALUE) then
    { b with updatedBackendWeights := b.updatedBackendWeights.map (fun entry => { entry with weight := STANDARD_WEIGHT_VALUE }) fun _ => rfl }
  else b

def store (node : BackendNode) (weight : Int) : DynamicLoadBalancer :=
  { updatedBackendWeights := b.updatedBackendWeights.put ⟨node.vmid, weight⟩
    updatedBackendWeightsId := b.updatedBackendWeightsId.put ⟨node.ip, node.vmid⟩ }

/-- The weight for a node. When a node has just been added, its usage may be
zero. -/
def weightFor (maxUsage : Rat) (node : BackendNode) (usage : Rat) : Int :=
  let usage := if usage = 0 then maxUsage else usage
  weightValue (b.stored node.vmid) node.weightBackend usage (percentMultiplier maxUsage usage)

/-- The body of the loop over the nodes, with `weight_changes`. -/
def adjustNode (maxUsage : Rat) (state : DynamicLoadBalancer × Bool) (item : BackendNode × Rat) : DynamicLoadBalancer × Bool :=
  if maxUsage > MIN_CPU_USAGE_WEIGHTS then
    let weight := state.1.weightFor maxUsage item.1 item.2
    if weight ≠ 0 ∧ state.1.stored item.1.vmid = some weight then state else (state.1.store item.1 weight, true)
  else state

/-- `adjust_node_weights`, with the weights that are sent to the manager. -/
def adjustNodeWeights : DynamicLoadBalancer × Option (Table BackendWeight.vmid) :=
  match nodes.rows.mapM (BackendNode.avgUsage data) with
  | none => (b, none)
  | some avgNodesUsage =>
    let adjusted := avgNodesUsage.foldl (adjustNode (maxNodeUsage avgNodesUsage)) (b.limited, false)
    (adjusted.1, if adjusted.2 then some adjusted.1.updatedBackendWeights else none)

def removeUpdatedBackendWeights (serverId : String) : DynamicLoadBalancer :=
  { b with updatedBackendWeights := b.updatedBackendWeights.erase serverId }

def removeUpdatedBackendWeightsId (vmIp : String) : DynamicLoadBalancer :=
  { b with updatedBackendWeightsId := b.updatedBackendWeightsId.erase vmIp }

end DynamicLoadBalancer

/-- The balancer, with the weights that were sent and the nodes of that time. -/
structure Balancing where
  balancer : DynamicLoadBalancer
  sent : List (Table BackendNode.vmid × Table BackendWeight.vmid)

inductive BalancingEvent
  | adjust (nodes : Table BackendNode.vmid) (data : CpuData)
  | removeWeight (serverId : String)
  | removeWeightId (vmIp : String)

namespace Balancing

def happen (s : Balancing) : BalancingEvent → Balancing
  | .adjust nodes data =>
    let adjusted := s.balancer.adjustNodeWeights nodes data
    ⟨adjusted.1, s.sent ++ (adjusted.2.map fun weights => (nodes, weights)).toList⟩
  | .removeWeight serverId => { s with balancer := s.balancer.removeUpdatedBackendWeights serverId }
  | .removeWeightId vmIp => { s with balancer := s.balancer.removeUpdatedBackendWeightsId vmIp }

/-- The balancer at its construction. -/
def fresh : Balancing := ⟨⟨.empty, .empty⟩, []⟩

end Balancing

/-- Positive weights, each of one of the nodes. -/
def ValidWeights (nodes : Table BackendNode.vmid) (weights : Table BackendWeight.vmid) : Prop :=
  ∀ entry ∈ weights.rows, 0 < entry.weight ∧ ∃ node ∈ nodes.rows, node.vmid = entry.vmid

namespace DynamicLoadBalancer

variable {nodes data} {b : DynamicLoadBalancer} {maxUsage : Rat}

def Positive (b : DynamicLoadBalancer) : Prop := ∀ entry ∈ b.updatedBackendWeights.rows, 0 < entry.weight

/-- Every stored weight is one of a current node. -/
def Current (b : DynamicLoadBalancer) (nodes : Table BackendNode.vmid) : Prop :=
  ∀ entry ∈ b.updatedBackendWeights.rows, ∃ node ∈ nodes.rows, node.vmid = entry.vmid

/-- A node that is to give up the last of its weight: its usage is above the
limit and not far from the maximum, and its weight is not above ten. -/
def Exhausted (b : DynamicLoadBalancer) (maxUsage : Rat) (item : BackendNode × Rat) : Prop :=
  let usage := if item.2 = 0 then maxUsage else item.2
  usage > MAX_CPU_USAGE_WEIGHTS ∧ percentMultiplier maxUsage usage < 1 ∧ (b.stored item.1.vmid).getD item.1.weightBackend ≤ 10

def Spared (b : DynamicLoadBalancer) (nodes : Table BackendNode.vmid) (data : CpuData) : Prop :=
  ∀ avgNodesUsage, nodes.rows.mapM (BackendNode.avgUsage data) = some avgNodesUsage →
    ∀ item ∈ avgNodesUsage, ¬ b.limited.Exhausted (maxNodeUsage avgNodesUsage) item

theorem stored_iff {vmid : String} {weight : Int} :
    b.stored vmid = some weight ↔ (⟨vmid, weight⟩ : BackendWeight) ∈ b.updatedBackendWeights.rows := by
  rw [stored, Option.map_eq_some_iff]
  constructor
  · rintro ⟨entry, found, rfl⟩
    obtain ⟨member, rfl⟩ := Table.get?_iff.mp found
    exact member
  · intro member
    exact ⟨_, Table.get?_of_mem member, rfl⟩

theorem positive_iff : b.Positive ↔ ∀ vmid weight, b.stored vmid = some weight → 0 < weight := by
  simp only [stored_iff, Positive]
  exact ⟨fun positive vmid weight => positive ⟨vmid, weight⟩, fun positive entry => positive entry.vmid entry.weight⟩

theorem stored_store (node : BackendNode) (weight : Int) (vmid : String) :
    (b.store node weight).stored vmid = if vmid = node.vmid then some weight else b.stored vmid := by
  split
  · rename_i here
    rw [here]
    exact congrArg _ (Table.get?_put_self b.updatedBackendWeights ⟨node.vmid, weight⟩)
  · rename_i other
    exact congrArg _ (Table.get?_put_ne b.updatedBackendWeights (a := ⟨node.vmid, weight⟩) other)

/-- The turn of a node sets its weight and no other one. -/
theorem adjustNode_stored (busy : maxUsage > MIN_CPU_USAGE_WEIGHTS) (state : DynamicLoadBalancer × Bool) (item : BackendNode × Rat)
    (vmid : String) : (adjustNode maxUsage state item).1.stored vmid =
      if vmid = item.1.vmid then some (state.1.weightFor maxUsage item.1 item.2) else state.1.stored vmid := by
  rw [adjustNode, if_pos busy]
  dsimp only
  split
  · rename_i same
    split
    · rename_i here
      rw [here]
      exact same.2
    · rfl
  · exact stored_store ..

theorem weightFor_congr {other : DynamicLoadBalancer} {node : BackendNode} (same : b.stored node.vmid = other.stored node.vmid)
    (usage : Rat) : b.weightFor maxUsage node usage = other.weightFor maxUsage node usage := by
  rw [weightFor, weightFor, same]

/-- The loop sets the weight of every node from the one it had before. -/
theorem foldl_stored (busy : maxUsage > MIN_CPU_USAGE_WEIGHTS) {items : List (BackendNode × Rat)}
    (distinct : (items.map fun item => item.1.vmid).Nodup) (state : DynamicLoadBalancer × Bool) :
    (∀ item ∈ items, (items.foldl (adjustNode maxUsage) state).1.stored item.1.vmid =
        some (state.1.weightFor maxUsage item.1 item.2)) ∧
      ∀ vmid, (∀ item ∈ items, item.1.vmid ≠ vmid) → (items.foldl (adjustNode maxUsage) state).1.stored vmid = state.1.stored vmid := by
  induction items generalizing state with
  | nil => exact ⟨nofun, fun vmid _ => rfl⟩
  | cons first items ih =>
    obtain ⟨fresh, distinct⟩ := List.nodup_cons.mp distinct
    have apart : ∀ item ∈ items, item.1.vmid ≠ first.1.vmid := fun item member same => fresh (List.mem_map.mpr ⟨item, member, same⟩)
    obtain ⟨each, others⟩ := ih distinct (adjustNode maxUsage state first)
    rw [List.foldl_cons]
    constructor
    · intro item member
      rcases List.mem_cons.mp member with rfl | later
      · rw [others item.1.vmid apart, adjustNode_stored busy, if_pos rfl]
      · have kept : (adjustNode maxUsage state first).1.stored item.1.vmid = state.1.stored item.1.vmid := by
          rw [adjustNode_stored busy, if_neg (apart item later)]
        rw [each item later, weightFor_congr kept]
    · intro vmid unknown
      obtain ⟨here, later⟩ := List.forall_mem_cons.mp unknown
      rw [others vmid later, adjustNode_stored busy, if_neg here.symm]

/-- The value of a weight that is not zero, with the initial one as default. -/
theorem weightValue_eq {stored : Option Int} {weightBackend : Int} (positive : ∀ weight, stored = some weight → 0 < weight)
    (usage : Rat) (multiplier : Int) :
    weightValue stored weightBackend usage multiplier =
      if usage > MAX_CPU_USAGE_WEIGHTS ∧ multiplier < 1 then stored.getD weightBackend - 10
      else if multiplier = 0 ∧ stored.getD weightBackend < 500 then stored.getD weightBackend + 10
      else stored.getD weightBackend * (100 + 15 * multiplier) / 100 := by
  unfold weightValue
  cases stored with
  | none =>
    simp only [Option.getD_none, ite_and]
  | some weight =>
    have some : weight ≠ 0 := (positive weight rfl).ne'
    simp only [Option.getD_some, if_true, some, ne_eq, not_false_eq_true, true_and, ite_and]

theorem weightValue_pos_iff {stored : Option Int} {weightBackend : Int} (positive : ∀ weight, stored = some weight → 0 < weight)
    (initial : 1 ≤ weightBackend) {multiplier : Int} (nonneg : 0 ≤ multiplier) (usage : Rat) :
    0 < weightValue stored weightBackend usage multiplier ↔
      ¬(usage > MAX_CPU_USAGE_WEIGHTS ∧ multiplier < 1 ∧ stored.getD weightBackend ≤ 10) := by
  have base : 1 ≤ stored.getD weightBackend := by
    cases stored with
    | none => exact initial
    | some weight => exact positive weight rfl
  rw [weightValue_eq positive, ← and_assoc, not_and]
  split
  · rename_i strained
    simp only [strained, and_self, true_implies]
    omega
  · rename_i relaxed
    refine iff_of_true ?_ fun strained => absurd strained relaxed
    split
    · omega
    · have grown : stored.getD weightBackend * 100 ≤ stored.getD weightBackend * (100 + 15 * multiplier) :=
        mul_le_mul_of_nonneg_left (by omega) (by omega)
      have kept := Int.le_ediv_of_mul_le (by omega : (0 : Int) < 100) grown
      omega

theorem le_maxNodeUsage {items : List (BackendNode × Rat)} {item : BackendNode × Rat} (member : item ∈ items) :
    item.2 ≤ maxNodeUsage items := by
  have bounds (items : List (BackendNode × Rat)) (start : Rat) :
      start ≤ items.foldl (fun maxUsage item => if item.2 > maxUsage then item.2 else maxUsage) start ∧
        ∀ item ∈ items, item.2 ≤ items.foldl (fun maxUsage item => if item.2 > maxUsage then item.2 else maxUsage) start := by
    induction items generalizing start with
    | nil => exact ⟨le_rfl, nofun⟩
    | cons first items ih =>
      obtain ⟨least, each⟩ := ih (if first.2 > start then first.2 else start)
      have both : start ≤ (if first.2 > start then first.2 else start) ∧ first.2 ≤ (if first.2 > start then first.2 else start) := by
        split
        · exact ⟨le_of_lt ‹_›, le_rfl⟩
        · exact ⟨le_rfl, not_lt.mp ‹_›⟩
      exact ⟨both.1.trans least, List.forall_mem_cons.mpr ⟨both.2.trans least, each⟩⟩
  exact (bounds items 0).2 item member

theorem percentMultiplier_nonneg {usage : Rat} (positive : 0 < usage) (le : usage ≤ maxUsage) : 0 ≤ percentMultiplier maxUsage usage := by
  have ratio : 1 ≤ maxUsage / usage := (one_le_div positive).mpr le
  refine truncated_nonneg (div_nonneg ?_ ?_)
  · linarith
  · unfold PERCENTAGE_PERFORMANCE_DIFF
    norm_num

/-- A node gets a positive weight exactly if it is not exhausted. -/
theorem weightFor_pos_iff (positive : b.Positive) (busy : maxUsage > MIN_CPU_USAGE_WEIGHTS) {item : BackendNode × Rat}
    (nonneg : 0 ≤ item.2) (le : item.2 ≤ maxUsage) : 0 < b.weightFor maxUsage item.1 item.2 ↔ ¬ b.Exhausted maxUsage item := by
  have some : 0 < maxUsage := lt_trans (by norm_num [MIN_CPU_USAGE_WEIGHTS]) busy
  have usage : 0 < (if item.2 = 0 then maxUsage else item.2) ∧ (if item.2 = 0 then maxUsage else item.2) ≤ maxUsage := by
    split
    · exact ⟨some, le_rfl⟩
    · exact ⟨lt_of_le_of_ne nonneg (Ne.symm ‹_›), le⟩
  exact weightValue_pos_iff (fun weight => positive_iff.mp positive item.1.vmid weight) item.1.weight_pos
    (percentMultiplier_nonneg usage.1 usage.2) _

/-- The averages are those of the nodes, in their order. -/
theorem avgNodesUsage_spec {rows : List BackendNode} {avgNodesUsage : List (BackendNode × Rat)}
    (computed : rows.mapM (BackendNode.avgUsage data) = some avgNodesUsage) :
    avgNodesUsage.map Prod.fst = rows ∧ ∀ item ∈ avgNodesUsage, 0 ≤ item.2 := by
  induction rows generalizing avgNodesUsage with
  | nil =>
    cases computed
    exact ⟨rfl, nofun⟩
  | cons node rows ih =>
    rw [List.mapM_cons] at computed
    obtain ⟨item, found, computed⟩ := Option.bind_eq_some_iff.mp computed
    obtain ⟨later, rest, computed⟩ := Option.bind_eq_some_iff.mp computed
    cases computed
    obtain ⟨list, -, rfl⟩ := Option.map_eq_some_iff.mp found
    obtain ⟨same, each⟩ := ih rest
    exact ⟨congrArg _ same, List.forall_mem_cons.mpr ⟨averageBy_nonneg fun _ => one_pos, each⟩⟩

theorem Positive.limited (positive : b.Positive) : b.limited.Positive := by
  unfold DynamicLoadBalancer.limited
  split
  · intro entry member
    obtain ⟨old, -, rfl⟩ := List.mem_map.mp member
    exact (by decide : (0 : Int) < STANDARD_WEIGHT_VALUE)
  · exact positive

/-- A reset keeps the keys. -/
theorem limited_stored_iff {vmid : String} : (∃ weight, b.limited.stored vmid = some weight) ↔ ∃ weight, b.stored vmid = some weight := by
  unfold DynamicLoadBalancer.limited
  split
  · simp only [stored_iff]
    constructor
    · rintro ⟨weight, member⟩
      obtain ⟨old, inside, same⟩ := List.mem_map.mp member
      cases same
      exact ⟨old.weight, inside⟩
    · rintro ⟨weight, member⟩
      exact ⟨STANDARD_WEIGHT_VALUE, List.mem_map.mpr ⟨_, member, rfl⟩⟩
  · rfl

/-- A call in which the usage of some node is above the minimum. -/
structure Adjusts (b : DynamicLoadBalancer) (nodes : Table BackendNode.vmid) (data : CpuData)
    (avgNodesUsage : List (BackendNode × Rat)) : Prop where
  computed : nodes.rows.mapM (BackendNode.avgUsage data) = some avgNodesUsage
  busy : maxNodeUsage avgNodesUsage > MIN_CPU_USAGE_WEIGHTS

/-- Otherwise nothing is sent, and at most the weights are reset. -/
theorem adjustNodeWeights_idle (idle : ∀ avgNodesUsage, ¬ b.Adjusts nodes data avgNodesUsage) :
    (b.adjustNodeWeights nodes data).2 = none ∧
      ((b.adjustNodeWeights nodes data).1 = b ∨ (b.adjustNodeWeights nodes data).1 = b.limited) := by
  unfold adjustNodeWeights
  cases computed : nodes.rows.mapM (BackendNode.avgUsage data) with
  | none => exact ⟨rfl, .inl rfl⟩
  | some avgNodesUsage =>
    have calm : ¬ maxNodeUsage avgNodesUsage > MIN_CPU_USAGE_WEIGHTS := fun busy => idle avgNodesUsage ⟨computed, busy⟩
    have still : adjustNode (maxNodeUsage avgNodesUsage) = fun state _ => state := by
      funext state item
      exact if_neg calm
    dsimp only
    rw [still, List.foldl_fixed]
    exact ⟨rfl, .inr rfl⟩

theorem Adjusts.distinct {avgNodesUsage : List (BackendNode × Rat)} (adjusts : b.Adjusts nodes data avgNodesUsage) :
    (avgNodesUsage.map fun item => item.1.vmid).Nodup := by
  have keyed := nodes.keyed
  rwa [← (avgNodesUsage_spec adjusts.computed).1, List.map_map] at keyed

theorem Adjusts.mem_iff {avgNodesUsage : List (BackendNode × Rat)} (adjusts : b.Adjusts nodes data avgNodesUsage) {vmid : String} :
    (∃ item ∈ avgNodesUsage, item.1.vmid = vmid) ↔ ∃ node ∈ nodes.rows, node.vmid = vmid := by
  rw [← (avgNodesUsage_spec adjusts.computed).1]
  constructor
  · rintro ⟨item, member, same⟩
    exact ⟨item.1, List.mem_map_of_mem member, same⟩
  · rintro ⟨node, member, same⟩
    obtain ⟨item, inside, rfl⟩ := List.mem_map.mp member
    exact ⟨item, inside, same⟩

/-- After a call the nodes have the weights computed for them, and other
weights are what they were. -/
theorem Adjusts.stored {avgNodesUsage : List (BackendNode × Rat)} (adjusts : b.Adjusts nodes data avgNodesUsage) :
    (∀ item ∈ avgNodesUsage, (b.adjustNodeWeights nodes data).1.stored item.1.vmid =
        some (b.limited.weightFor (maxNodeUsage avgNodesUsage) item.1 item.2)) ∧
      ∀ vmid, (¬ ∃ node ∈ nodes.rows, node.vmid = vmid) →
        (b.adjustNodeWeights nodes data).1.stored vmid = b.limited.stored vmid := by
  have loop := foldl_stored adjusts.busy adjusts.distinct (b.limited, false)
  unfold adjustNodeWeights
  simp only [adjusts.computed]
  refine ⟨loop.1, fun vmid unknown => loop.2 vmid fun item member same => unknown ?_⟩
  exact adjusts.mem_iff.mp ⟨item, member, same⟩

theorem Adjusts.pos_iff {avgNodesUsage : List (BackendNode × Rat)} (adjusts : b.Adjusts nodes data avgNodesUsage)
    (positive : b.Positive) {item : BackendNode × Rat} (member : item ∈ avgNodesUsage) :
    0 < b.limited.weightFor (maxNodeUsage avgNodesUsage) item.1 item.2 ↔ ¬ b.limited.Exhausted (maxNodeUsage avgNodesUsage) item :=
  weightFor_pos_iff positive.limited adjusts.busy ((avgNodesUsage_spec adjusts.computed).2 item member) (le_maxNodeUsage member)

/-- A call that exhausts no node keeps the weights positive. -/
theorem Positive.adjust (positive : b.Positive) (spared : b.Spared nodes data) : (b.adjustNodeWeights nodes data).1.Positive := by
  by_cases idle : ∀ avgNodesUsage, ¬ b.Adjusts nodes data avgNodesUsage
  · rcases (adjustNodeWeights_idle idle).2 with same | same
    · rwa [same]
    · rw [same]
      exact positive.limited
  · obtain ⟨avgNodesUsage, adjusts⟩ := not_forall_not.mp idle
    refine positive_iff.mpr fun vmid weight found => ?_
    by_cases known : ∃ node ∈ nodes.rows, node.vmid = vmid
    · obtain ⟨item, member, rfl⟩ := adjusts.mem_iff.mpr known
      rw [adjusts.stored.1 item member] at found
      obtain rfl := Option.some.inj found
      exact (adjusts.pos_iff positive member).mpr (spared _ adjusts.computed item member)
    · rw [adjusts.stored.2 vmid known] at found
      exact positive_iff.mp positive.limited vmid weight found

/-- What is sent is valid exactly if no node is exhausted and every stored weight
is one of a current node. -/
theorem valid_iff (positive : b.Positive) {weights : Table BackendWeight.vmid}
    (sent : (b.adjustNodeWeights nodes data).2 = some weights) :
    ValidWeights nodes weights ↔ b.Current nodes ∧ b.Spared nodes data := by
  obtain ⟨avgNodesUsage, adjusts⟩ : ∃ avgNodesUsage, b.Adjusts nodes data avgNodesUsage := by
    by_contra idle
    rw [(adjustNodeWeights_idle (not_exists.mp idle)).1] at sent
    cases sent
  have same : (b.adjustNodeWeights nodes data).1.updatedBackendWeights = weights := by
    unfold adjustNodeWeights at sent ⊢
    simp only [adjusts.computed] at sent ⊢
    split at sent
    · exact Option.some.inj sent
    · cases sent
  have valid : ValidWeights nodes weights ↔ ∀ vmid weight, (b.adjustNodeWeights nodes data).1.stored vmid = some weight →
      0 < weight ∧ ∃ node ∈ nodes.rows, node.vmid = vmid := by
    simp only [stored_iff, same]
    exact ⟨fun valid vmid weight => valid ⟨vmid, weight⟩, fun valid entry => valid entry.vmid entry.weight⟩
  rw [valid]
  constructor
  · intro valid
    refine ⟨fun entry member => ?_, fun items computed item member => ?_⟩
    · by_contra unknown
      obtain ⟨weight, kept⟩ := limited_stored_iff.mpr ⟨entry.weight, stored_iff.mpr member⟩
      exact unknown (valid entry.vmid weight ((adjusts.stored.2 entry.vmid unknown).trans kept)).2
    · obtain rfl := Option.some.inj (adjusts.computed.symm.trans computed)
      exact (adjusts.pos_iff positive member).mp (valid _ _ (adjusts.stored.1 item member)).1
  · rintro ⟨current, spared⟩ vmid weight found
    refine ⟨positive_iff.mp (positive.adjust spared) vmid weight found, ?_⟩
    by_contra unknown
    rw [adjusts.stored.2 vmid unknown] at found
    obtain ⟨weight, member⟩ := limited_stored_iff.mp ⟨weight, found⟩
    exact unknown (current _ (stored_iff.mp member))

end DynamicLoadBalancer

namespace Balancing

open DynamicLoadBalancer

/-- A call that sends weights for its nodes only and exhausts none of them. -/
def Careful (s : Balancing) : BalancingEvent → Prop
  | .adjust nodes data => s.balancer.Current nodes ∧ s.balancer.Spared nodes data
  | .removeWeight _ => True
  | .removeWeightId _ => True

structure Sound (s : Balancing) : Prop where
  positive : s.balancer.Positive
  valid : ∀ call ∈ s.sent, ValidWeights call.1 call.2

theorem Sound.happen {s : Balancing} {event : BalancingEvent} (sound : s.Sound) (careful : s.Careful event) :
    (s.happen event).Sound := by
  cases event with
  | adjust nodes data =>
    refine ⟨sound.positive.adjust careful.2, fun call member => ?_⟩
    rcases List.mem_append.mp member with earlier | now
    · exact sound.valid call earlier
    · obtain ⟨weights, sent, rfl⟩ := Option.map_eq_some_iff.mp (Option.mem_toList.mp now)
      exact (valid_iff sound.positive sent).mpr careful
  | removeWeight serverId =>
    exact ⟨fun entry member => sound.positive entry (Table.mem_erase.mp member).1, sound.valid⟩
  | removeWeightId vmIp => exact ⟨sound.positive, sound.valid⟩

theorem fresh_sound : fresh.Sound := ⟨nofun, nofun⟩

end Balancing

/-- While every call finds only weights of its nodes and exhausts no node, all
weights sent are positive and of nodes of their time. Of a balancer with
positive weights no other call sends such weights. -/
theorem adjustNodeWeights_iff (nodes : Table BackendNode.vmid) (data : CpuData) :
    (∀ events s, Run (Guarded Balancing.Careful fun before event after => after = before.happen event) Balancing.fresh events s →
      ∀ call ∈ s.sent, ValidWeights call.1 call.2) ∧
    ∀ (b : DynamicLoadBalancer) weights, b.Positive → (b.adjustNodeWeights nodes data).2 = some weights →
      (ValidWeights nodes weights ↔ b.Current nodes ∧ b.Spared nodes data) := by
  refine ⟨fun events s run => ?_, fun b weights positive => DynamicLoadBalancer.valid_iff positive⟩
  have sound : s.Sound := run.guarded_invariant Balancing.fresh_sound fun before careful taken => taken ▸ before.happen careful
  exact sound.valid

/-- A node with an initial weight of ten, and two nodes of them. -/
def tenNode (vmid ip : String) : BackendNode := ⟨vmid, ip, 10, by decide, by decide⟩

def loneNode : Table BackendNode.vmid := ⟨[tenNode "iaasi-1" "10.0.0.5"], by decide⟩

def tenNodes : Table BackendNode.vmid := ⟨[tenNode "iaasi-1" "10.0.0.5", tenNode "iaasi-2" "10.0.0.6"], by decide⟩

/-- The same usage on every node. -/
def usageOf (value : Rat) : CpuData := fun _ => some [value, value]

theorem loneNode_spared : Balancing.fresh.balancer.Spared loneNode (usageOf 50) := by
  intro avgNodesUsage computed item member strained
  cases computed
  obtain rfl := List.mem_singleton.mp member
  exact absurd strained.1 (by decide +kernel)

/-- At half usage a node gets a greater weight. -/
theorem loneNode_valid : ∃ weights, (Balancing.fresh.balancer.adjustNodeWeights loneNode (usageOf 50)).2 = some weights ∧
    ValidWeights loneNode weights := by
  have some : (Balancing.fresh.balancer.adjustNodeWeights loneNode (usageOf 50)).2.isSome := by decide +kernel
  obtain ⟨weights, sent⟩ := Option.isSome_iff_exists.mp some
  exact ⟨weights, sent, ((adjustNodeWeights_iff loneNode (usageOf 50)).2 _ weights Balancing.fresh_sound.positive sent).mpr ⟨nofun, loneNode_spared⟩⟩

/-- A node at high usage is sent a weight of zero, and a node that is gone is
sent with the others. -/
theorem weights_invalid :
    (¬ ∀ events s, Run (fun before event after => after = before.happen event) Balancing.fresh events s →
      ∀ call ∈ s.sent, ∀ entry ∈ call.2.rows, 0 < entry.weight) ∧
    ¬ ∀ events s, Run (fun before event after => after = before.happen event) Balancing.fresh events s →
      ∀ call ∈ s.sent, ∀ entry ∈ call.2.rows, ∃ node ∈ call.1.rows, node.vmid = entry.vmid := by
  constructor
  · intro law
    have sent : (Balancing.fresh.happen (.adjust loneNode (usageOf 80))).sent.map
        (fun call => call.2.rows.map BackendWeight.weight) = [[0]] := by decide +kernel
    have positive := law [.adjust loneNode (usageOf 80)] _ (.single rfl)
    have each : ∀ weights ∈ [[(0 : Int)]], ∀ weight ∈ weights, 0 < weight :=
      sent ▸ List.forall_mem_map.mpr fun call member => List.forall_mem_map.mpr (positive call member)
    exact absurd (each [0] List.mem_cons_self 0 List.mem_cons_self) (by decide)
  · intro law
    have sent : ((Balancing.fresh.happen (.adjust tenNodes (usageOf 50))).happen (.adjust loneNode (usageOf 50))).sent.map
        (fun call => decide (∀ entry ∈ call.2.rows, ∃ node ∈ call.1.rows, node.vmid = entry.vmid)) = [true, false] := by
      decide +kernel
    have current := law [.adjust tenNodes (usageOf 50), .adjust loneNode (usageOf 50)] _ (.cons rfl (.single rfl))
    have each : ∀ current ∈ [true, false], current = true :=
      sent ▸ List.forall_mem_map.mpr fun call member => decide_eq_true (current call member)
    exact absurd (each false (by decide)) (by decide)

end ConPaaS
