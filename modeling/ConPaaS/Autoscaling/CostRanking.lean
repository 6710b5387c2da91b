import ConPaaS.Autoscaling.Strategies
import Mathlib.Algebra.BigOperators.Ring.Finset
import Mathlib.Algebra.Order.BigOperators.Group.List
import Mathlib.Algebra.Order.Group.Multiset
import Mathlib.Algebra.Order.Field.Rat
import Mathlib.Tactic.Linarith
import Mathlib.Tactic.Ring

namespace ConPaaS

/-- `Counter` of a combination, with its items in some order. -/
def counted (combination : Combination) : List (String × Int) :=
  combination.dedup.map fun vmType => (vmType, (combination.count vmType : Int))

/-- A division, which raises an error for a divisor that is zero. -/
def divided (a b : Rat) : Option Rat := if b = 0 then none else some (a / b)

def networkCost : Rat := 2

def osActivitiesCost : Rat := 5

def storageCost : Rat := 1

def penaltyConfigRemove : Rat := 2

/-- What the ranking reads: `getCostVm` has no price for a type it does not know.
`calculate_adaptive_scaling` aborts for a throughput below 10. -/
structure CostRanking where
  getCostVm : String → Option Rat
  maxPerformanceThroughput : Rat
  notLow : 10 ≤ maxPerformanceThroughput
  sloViolationPenalty : Rat

namespace CostRanking

variable (r : CostRanking)

/-- The loop over the machines of the new strategy: the costs of the
infrastructure and of the configuration. -/
def newCosts (costs : Rat × Rat) (item : String × Int) : Option (Rat × Rat) :=
  if item.2 > 0 then
    (r.getCostVm item.1).map fun price =>
      (costs.1 + price * item.2, costs.2 + item.2 * (networkCost + osActivitiesCost + storageCost))
  else some costs

/-- The loop over the differences: the machines to remove, the cost of the
configuration, and whether there are no changes. -/
def diffCosts (costs : Rat × Rat × Bool) (item : String × Int) : Rat × Rat × Bool :=
  if item.2 < 0 then
    (costs.1 + item.2.natAbs,
      costs.2.1 + item.2.natAbs * penaltyConfigRemove - item.2.natAbs * (networkCost + osActivitiesCost + storageCost), false)
  else if item.2 > 0 then (costs.1, costs.2.1, false)
  else costs

def calculateCostStrategy (cpuCapacity : Rat) (numberMachines : Nat) (diffStrategy newStrategy : List (String × Int)) :
    Option Rat := do
  let (infraCost, configurationCost) ← newStrategy.foldlM r.newCosts (0, 0)
  let (numVmesToRemove, configurationCost, noChanges) := diffStrategy.foldl diffCosts (0, configurationCost, true)
  if numVmesToRemove = numberMachines ∨ noChanges then return -1
  let _ ← divided 1 configurationCost
  let performance ← divided cpuCapacity r.maxPerformanceThroughput
  divided (performance * 100 * r.sloViolationPenalty) infraCost

/-- One decision of the loop in `calculate_adaptive_scaling`: it is filtered out,
it is left out for its `-1`, or it is a strategy. -/
def rankStrategy (f : StrategyFinder) (current : Combination) (strategies : List (Rat × List (String × Int)))
    (decided : Combination × Rat) : Option (List (Rat × List (String × Int))) :=
  let diff := diffCombo decided.1 current
  if f.filterScalingStrategy current decided.1 then some strategies
  else (r.calculateCostStrategy decided.2 current.length diff (counted decided.1)).map fun cost =>
    if cost ≠ -1 then strategies ++ [(cost, diff)] else strategies

/-- The loop of `calculate_adaptive_scaling` that ranks the decisions. Without
a result the error branch is taken. -/
def rankStrategies (f : StrategyFinder) (current : Combination) (scalingDecision : List (Combination × Rat)) :
    Option (List (Rat × List (String × Int))) :=
  scalingDecision.foldlM (r.rankStrategy f current) []

end CostRanking

/-- The machines a combination no longer has. -/
def removedMachines (current proposed : Combination) : Nat := (current.diff proposed).length

/-- All machines have a price, which is positive. -/
def Priced (r : CostRanking) (combination : Combination) : Prop :=
  ∀ vmType ∈ combination, ∃ price, r.getCostVm vmType = some price ∧ 0 < price

/-- The divisor of the cost of the configuration is not zero, or not reached. -/
def Ratable (current proposed : Combination) : Prop :=
  removedMachines current proposed = current.length ∨ 4 * proposed.length ≠ 3 * removedMachines current proposed

section Sums

variable {current proposed : Combination}

theorem sum_dedup_count {machines : Combination} (combination : Combination) (inside : machines ⊆ combination) :
    (combination.dedup.map fun vmType => machines.count vmType).sum = machines.length := by
  rw [← List.sum_toFinset _ combination.nodup_dedup]
  have all : ∀ vmType ∈ (machines : Multiset String), vmType ∈ combination.dedup.toFinset := by
    intro vmType member
    rw [List.mem_toFinset, List.mem_dedup]
    exact inside member
  simpa only [Multiset.coe_count, Multiset.coe_card] using Multiset.sum_count_eq_card all

theorem sum_counted (combination : Combination) : ((counted combination).map Prod.snd).sum = combination.length := by
  have whole := sum_dedup_count combination (List.Subset.refl combination)
  rw [counted, List.map_map, ← whole, Nat.cast_list_sum, List.map_map]
  rfl

/-- What has to be removed of a type. -/
theorem count_diff (vmType : String) : (current.diff proposed).count vmType = current.count vmType - proposed.count vmType := by
  have counts := Multiset.count_sub vmType (current : Multiset String) proposed
  rwa [Multiset.coe_sub, Multiset.coe_count, Multiset.coe_count, Multiset.coe_count] at counts

theorem sum_removed (current proposed : Combination) :
    ((diffCombo proposed current).map fun item => if item.2 < 0 then item.2.natAbs else 0).sum =
      removedMachines current proposed := by
  have inside : current.diff proposed ⊆ proposed ++ current := fun vmType member =>
    List.mem_append_right _ ((List.diff_sublist current proposed).subset member)
  rw [removedMachines, ← sum_dedup_count _ inside, diffCombo, List.map_map]
  congr 1
  refine List.map_congr_left fun vmType _ => ?_
  simp only [Function.comp_apply, count_diff]
  split <;> omega

/-- The loop over the new machines, all with a price. -/
theorem newCosts_foldlM (r : CostRanking) {items : List (String × Int)}
    (priced : ∀ item ∈ items, 0 < item.2 ∧ ∃ price, r.getCostVm item.1 = some price ∧ 0 < price) (infra config : Rat) :
    ∃ more, 0 ≤ more ∧ (items ≠ [] → 0 < more) ∧
      items.foldlM r.newCosts (infra, config) = some (infra + more, config + 8 * (items.map Prod.snd).sum) := by
  induction items generalizing infra config with
  | nil => exact ⟨0, le_rfl, fun some => absurd rfl some, by simp⟩
  | cons item rest ih =>
    obtain ⟨count, price, known, positive⟩ := priced item (List.mem_cons_self ..)
    have weight : networkCost + osActivitiesCost + storageCost = 8 := by
      norm_num [networkCost, osActivitiesCost, storageCost]
    obtain ⟨more, nonneg, -, run⟩ := ih (fun other member => priced other (List.mem_cons_of_mem _ member))
      (infra + price * item.2) (config + item.2 * 8)
    have paid : 0 < price * item.2 := mul_pos positive (Int.cast_pos.mpr count)
    refine ⟨price * item.2 + more, by linarith, fun _ => by linarith, ?_⟩
    have now : r.newCosts (infra, config) item = some (infra + price * item.2, config + item.2 * 8) := by
      simp only [CostRanking.newCosts, if_pos count, known, Option.map_some, weight]
    rw [List.foldlM_cons, now]
    refine run.trans (congrArg some (Prod.ext ?_ ?_))
    · simp only
      ring
    · simp only [List.map_cons, List.sum_cons, Int.cast_add]
      ring

/-- The loop over the differences. -/
theorem diffCosts_foldl (items : List (String × Int)) (removed config : Rat) (same : Bool) :
    items.foldl CostRanking.diffCosts (removed, config, same) =
      (removed + ((items.map fun item => if item.2 < 0 then item.2.natAbs else 0).sum : Nat),
        config - 6 * ((items.map fun item => if item.2 < 0 then item.2.natAbs else 0).sum : Nat),
        same && items.all fun item => item.2 = 0) := by
  induction items generalizing removed config same with
  | nil => simp
  | cons item rest ih =>
    have weight : networkCost + osActivitiesCost + storageCost = 8 := by
      norm_num [networkCost, osActivitiesCost, storageCost]
    rw [List.foldl_cons, CostRanking.diffCosts]
    rcases lt_trichotomy item.2 0 with less | none | more
    · have away : item.2 ≠ 0 := by omega
      simp only [if_pos less, ih, List.map_cons, List.sum_cons, List.all_cons, Nat.cast_add, weight, penaltyConfigRemove, away,
        decide_false, Bool.false_and, Bool.and_false, Prod.mk.injEq, and_true]
      constructor <;> ring
    · simp [none, ih]
    · have away : item.2 ≠ 0 := by omega
      simp only [if_neg (show ¬ item.2 < 0 by omega), if_pos more, ih, List.map_cons, List.sum_cons, List.all_cons, zero_add, away,
        decide_false, Bool.false_and, Bool.and_false]

end Sums

variable {r : CostRanking} {f : StrategyFinder} {current proposed : Combination} {cpuCapacity : Rat}

theorem divided_isSome_iff (a b : Rat) : (divided a b).isSome = true ↔ b ≠ 0 := by
  unfold divided
  split <;> simp_all

/-- Where nothing changes, nothing is removed. -/
theorem removed_of_noChanges (same : (diffCombo proposed current).all fun item => item.2 = 0) :
    removedMachines current proposed = 0 := by
  rw [← sum_removed, List.sum_eq_zero]
  intro count member
  obtain ⟨item, among, rfl⟩ := List.mem_map.mp member
  have none : item.2 = 0 := of_decide_eq_true (List.all_eq_true.mp same item among)
  simp [none]

theorem removedMachines_le (current proposed : Combination) : removedMachines current proposed ≤ current.length :=
  (List.diff_sublist current proposed).length_le

/-- All machines go when none is proposed. -/
theorem removedMachines_nil (current : Combination) : removedMachines current [] = current.length := by
  rw [removedMachines, List.diff_nil]

theorem divisor_ne_zero_iff (machines removed : Nat) :
    8 * ((machines : Int) : Rat) - 6 * (removed : Rat) ≠ 0 ↔ 4 * machines ≠ 3 * removed := by
  rw [not_iff_not, sub_eq_zero, Int.cast_natCast]
  constructor
  · intro equal
    have whole : 8 * machines = 6 * removed := by exact_mod_cast equal
    omega
  · intro equal
    have whole : 8 * machines = 6 * removed := by omega
    exact_mod_cast whole

/-- A candidate gets a number unless the divisor for its configuration is
reached and is zero. -/
theorem calculateCostStrategy_isSome_iff
    (prices : Priced r proposed) :
    (r.calculateCostStrategy cpuCapacity current.length (diffCombo proposed current) (counted proposed)).isSome = true ↔
      Ratable current proposed := by
  have limit : r.maxPerformanceThroughput ≠ 0 := by
    have notLow := r.notLow
    intro low
    norm_num [low] at notLow
  have priced : ∀ item ∈ counted proposed, 0 < item.2 ∧ ∃ price, r.getCostVm item.1 = some price ∧ 0 < price := by
    intro item member
    obtain ⟨vmType, among, rfl⟩ := List.mem_map.mp member
    have here := List.mem_dedup.mp among
    exact ⟨Int.natCast_pos.mpr (List.count_pos_iff.mpr here), prices vmType here⟩
  obtain ⟨infra, -, positive, run⟩ := newCosts_foldlM r priced 0 0
  rw [sum_counted] at run
  have loop := diffCosts_foldl (diffCombo proposed current) 0 (0 + 8 * ((proposed.length : Int) : Rat)) true
  rw [sum_removed] at loop
  rw [CostRanking.calculateCostStrategy, run, Option.bind_eq_bind, Option.bind_some]
  dsimp only
  rw [loop]
  dsimp only
  rw [zero_add, zero_add, zero_add, Bool.true_and]
  by_cases stops : removedMachines current proposed = current.length
  · rw [if_pos (Or.inl (congrArg Nat.cast stops))]
    exact ⟨fun _ => Or.inl stops, fun _ => rfl⟩
  · by_cases same : (diffCombo proposed current).all fun item => item.2 = 0
    · rw [if_pos (Or.inr same)]
      refine ⟨fun _ => Or.inr ?_, fun _ => rfl⟩
      have none := removed_of_noChanges same
      have proposes : proposed ≠ [] := fun empty => stops (empty ▸ removedMachines_nil current)
      have length := List.length_pos_iff.mpr proposes
      omega
    · have goesOn : ¬((removedMachines current proposed : Rat) = current.length ∨
          ((diffCombo proposed current).all fun item => item.2 = 0) = true) :=
        not_or.mpr ⟨fun all => stops (Nat.cast_injective all), same⟩
      obtain ⟨vmType, among⟩ := List.exists_mem_of_ne_nil proposed fun empty => stops (empty ▸ removedMachines_nil current)
      have paid : infra ≠ 0 := by
        refine (positive (List.ne_nil_of_mem (a := (vmType, (proposed.count vmType : Int))) ?_)).ne'
        exact List.mem_map.mpr ⟨vmType, List.mem_dedup.mpr among, rfl⟩
      rw [if_neg goesOn, Ratable, or_iff_right stops, ← divisor_ne_zero_iff]
      rw [Int.cast_natCast]
      by_cases divisor : 8 * (proposed.length : Rat) - 6 * (removedMachines current proposed : Rat) = 0
      · simp [divided, divisor]
      · simp [divided, divisor, limit, paid]

theorem rankStrategy_isSome_iff {decided : Combination × Rat}
    (prices : Priced r decided.1)
    (strategies : List (Rat × List (String × Int))) :
    (r.rankStrategy f current strategies decided).isSome = true ↔
      f.filterScalingStrategy current decided.1 = true ∨ Ratable current decided.1 := by
  have rated : (r.calculateCostStrategy decided.2 current.length (diffCombo decided.1 current) (counted decided.1)).isSome = true ↔
      Ratable current decided.1 := calculateCostStrategy_isSome_iff prices
  rw [CostRanking.rankStrategy]
  by_cases filtered : f.filterScalingStrategy current decided.1 = true
  · simp only [filtered, if_true, Option.isSome_some, true_or]
  · rw [or_iff_right filtered, ← rated]
    simp only [filtered, Bool.false_eq_true, if_false, Option.isSome_map]

/-- The loop comes to its end exactly when each decision that passes the filter
gets a number. -/
theorem rankStrategies_isSome_iff {scalingDecision : List (Combination × Rat)}
    (prices : ∀ decided ∈ scalingDecision, Priced r decided.1)
    (strategies : List (Rat × List (String × Int))) :
    (scalingDecision.foldlM (r.rankStrategy f current) strategies).isSome = true ↔
      ∀ decided ∈ scalingDecision, f.filterScalingStrategy current decided.1 = true ∨ Ratable current decided.1 := by
  induction scalingDecision generalizing strategies with
  | nil => simp
  | cons decided rest ih =>
    have first : (r.rankStrategy f current strategies decided).isSome = true ↔
        f.filterScalingStrategy current decided.1 = true ∨ Ratable current decided.1 :=
      rankStrategy_isSome_iff (prices decided (List.mem_cons_self ..)) strategies
    have later := ih fun other member => prices other (List.mem_cons_of_mem _ member)
    rw [List.foldlM_cons, List.forall_mem_cons, ← first]
    cases r.rankStrategy f current strategies decided with
    | none => simp
    | some more => simpa using later more

/-- When the ranking of the candidates fails, and when a single one does. -/
theorem costRanking_isSome_iff :
    (Priced r proposed →
      ((r.calculateCostStrategy cpuCapacity current.length (diffCombo proposed current) (counted proposed)).isSome = true ↔
        Ratable current proposed)) ∧
    ∀ scalingDecision, (∀ decided ∈ scalingDecision, Priced r decided.1) →
      ((r.rankStrategies f current scalingDecision).isSome = true ↔
        ∀ decided ∈ scalingDecision, f.filterScalingStrategy current decided.1 = true ∨ Ratable current decided.1) :=
  ⟨calculateCostStrategy_isSome_iff, fun _ prices => rankStrategies_isSome_iff prices []⟩

/-- A ranking with one price for everything, and a finder that filters nothing. -/
def flatRanking : CostRanking where
  getCostVm _ := some 1
  maxPerformanceThroughput := 10
  notLow := le_rfl
  sloViolationPenalty := 1

def laxFinder : StrategyFinder where
  vmInstTypes := ["small", "large"]
  capacityInstType _ := 1
  forecastReqRatePredicted := 1
  reqComplexityRate := 1
  minPerformanceThroughput := 0
  costPolicy := false
  shutdown _ _ := true

theorem flatRanking_priced (combination : Combination) : Priced flatRanking combination :=
  fun _ _ => ⟨1, rfl, one_pos⟩

theorem oneMore_ranked : (flatRanking.rankStrategies laxFinder ["small"] [(["small", "large"], 1)]).isSome = true := by
  refine ((@costRanking_isSome_iff flatRanking laxFinder ["small"] ["small", "large"] 1).2 _
    fun decided _ => flatRanking_priced decided.1).mpr fun decided member => Or.inr (Or.inr ?_)
  obtain rfl := List.mem_singleton.mp member
  decide

/-- Four of five machines go and two come: the divisor is zero, and the ranking
of all candidates fails. -/
theorem fourForTwo_divides_by_zero : ¬ ∀ (r : CostRanking) (f : StrategyFinder) (current proposed : Combination) (cpuCapacity : Rat),
    Priced r proposed →
      (r.calculateCostStrategy cpuCapacity current.length (diffCombo proposed current) (counted proposed)).isSome = true ∧
      (r.rankStrategies f current [(proposed, cpuCapacity)]).isSome = true := by
  intro ranks
  have ranked := (ranks flatRanking laxFinder ["small", "small", "small", "small", "small"] ["small", "large", "large"] 1
    (flatRanking_priced _)).1
  rw [calculateCostStrategy_isSome_iff (flatRanking_priced _)] at ranked
  revert ranked
  unfold Ratable
  decide

end ConPaaS
