import ConPaaS.TaskFarm.Knapsack
import Mathlib.Algebra.BigOperators.Ring.Finset

namespace ConPaaS

open Keyed Knapsack

/-- What a plan reads of a cluster. `Ti` is 0 as long as there are no figures
for it. -/
structure Offer where
  clusterAlias : String
  costUnit : ℚ
  maxNodes : Nat
  Ti : ℚ
  price : 0 < costUnit
  time : 0 ≤ Ti

/-- The items with the fields of the bag that `updateClusterStats` sets. -/
structure Market where
  items : List Item
  minCostATU : Nat
  maxCostATU : Nat
  deriving DecidableEq, Repr

namespace Offer

def item (cluster : Offer) : Item := ⟨1 / cluster.Ti, ⌊cluster.costUnit⌋₊, cluster.clusterAlias⟩

/-- The cost of all machines of the cluster for a time unit. -/
def total (cluster : Offer) : ℚ := cluster.maxNodes * cluster.costUnit

/-- The body of the loop of `updateClusterStats`; the assignments to the
integer fields cut off what is behind the point. -/
def addTo (market : Market) (cluster : Offer) : Market :=
  if cluster.Ti ≠ 0 then
    { items := market.items ++ List.replicate cluster.maxNodes cluster.item
      minCostATU := ⌊min (market.minCostATU : ℚ) cluster.costUnit⌋₊
      maxCostATU := ⌊market.maxCostATU + cluster.total⌋₊ }
  else market

end Offer

/-- A set of clusters under their names. -/
abbrev Offers : Type := Table Offer.clusterAlias

namespace Offers

def updateClusterStats (clusters : Offers) : Market := clusters.rows.foldl Offer.addTo ⟨[⟨0, 0, ""⟩], 2147483647, 0⟩

/-- The money spent, for the time units paid on each cluster. -/
def consumedBudget (clusters : Offers) (paid : String → Nat) : ℚ :=
  (clusters.rows.map fun cluster => (paid cluster.clusterAlias : ℚ) * cluster.costUnit).sum

/-- The knapsack of `decideWithMovingAverage`, which gets whole numbers. -/
def moo (clusters : Offers) (budget : Int) (paid : String → Nat) (jobsLeft timeUnit : Int) : Knapsack :=
  let market := clusters.updateClusterStats
  { items := market.items
    wmin := market.minCostATU
    W := market.maxCostATU
    size := jobsLeft
    budget := budget - ⌊clusters.consumedBudget paid⌋
    atu := timeUnit }

/-- The plan that is made, where there are figures for some machine. -/
def plan (clusters : Offers) (budget : Int) (paid : String → Nat) (jobsLeft timeUnit : Int) : Option Solution :=
  if 1 < clusters.updateClusterStats.items.length then (clusters.moo budget paid jobsLeft timeUnit).findSol else none

/-- The cost of a plan at the prices of the clusters. -/
def realCost (clusters : Offers) (found : Solution) : ℚ :=
  (clusters.rows.map fun cluster =>
    (machinesOf found.finalSol cluster.clusterAlias : ℚ) * cluster.costUnit * found.noATUPlan).sum

/-- The clusters with figures. -/
def used (clusters : Offers) : List Offer := clusters.rows.filter fun cluster => cluster.Ti ≠ 0

variable {clusters : Offers} {cluster : Offer} {market : Market} {list : List Offer} {S : List Item}

/-- What the loop over some clusters adds to the fields. -/
structure Sums (market after : Market) (used : List Offer) : Prop where
  items : after.items = market.items ++ used.flatMap fun cluster => List.replicate cluster.maxNodes cluster.item
  maxCostATU : after.maxCostATU = market.maxCostATU + (used.map fun cluster => ⌊cluster.total⌋₊).sum
  least : after.minCostATU ≤ market.minCostATU
  minCostATU : ∀ cluster ∈ used, after.minCostATU ≤ ⌊cluster.costUnit⌋₊

theorem total_nonneg : 0 ≤ cluster.total := mul_nonneg (Nat.cast_nonneg _) cluster.price.le

theorem foldl_addTo : Sums market (list.foldl Offer.addTo market) (list.filter fun cluster => cluster.Ti ≠ 0) := by
  induction list generalizing market with
  | nil => exact ⟨(List.append_nil _).symm, rfl, le_rfl, nofun⟩
  | cons cluster list ih =>
    obtain ⟨items, most, least, each⟩ := @ih (Offer.addTo market cluster)
    rw [List.foldl_cons]
    by_cases figures : cluster.Ti ≠ 0
    · rw [List.filter_cons_of_pos (by simpa using figures)]
      simp only [Offer.addTo, if_pos figures] at items most least each ⊢
      have floor := Nat.floor_mono (min_le_right (market.minCostATU : ℚ) cluster.costUnit)
      have floor' := Nat.floor_mono (min_le_left (market.minCostATU : ℚ) cluster.costUnit)
      rw [Nat.floor_natCast] at floor'
      refine ⟨?_, ?_, least.trans floor', ?_⟩
      · rw [items, List.append_assoc, List.flatMap_cons]
      · rw [most, add_comm (market.maxCostATU : ℚ), Nat.floor_add_natCast total_nonneg, add_comm _ market.maxCostATU, List.map_cons, List.sum_cons, add_assoc]
      · intro other member
        rcases List.mem_cons.mp member with rfl | member
        · exact least.trans floor
        · exact each other member
    · rw [List.filter_cons_of_neg (by simpa using figures)]
      simp only [Offer.addTo, if_neg figures] at items most least each ⊢
      exact ⟨items, most, least, each⟩

theorem updateClusterStats_sums : Sums ⟨[⟨0, 0, ""⟩], 2147483647, 0⟩ clusters.updateClusterStats clusters.used := foldl_addTo

/-- The machines a plan can choose from. -/
def machines (clusters : Offers) : List Item :=
  clusters.used.flatMap fun cluster => List.replicate cluster.maxNodes cluster.item

theorem items_eq : clusters.updateClusterStats.items = ⟨0, 0, ""⟩ :: clusters.machines := updateClusterStats_sums.items

theorem maxCostATU_eq : clusters.updateClusterStats.maxCostATU = (clusters.used.map fun cluster => ⌊cluster.total⌋₊).sum :=
  updateClusterStats_sums.maxCostATU.trans (Nat.zero_add _)

theorem mem_used : cluster ∈ clusters.used ↔ cluster ∈ clusters.rows ∧ cluster.Ti ≠ 0 := by
  simp [used]

theorem mem_machines {item : Item} :
    item ∈ clusters.machines ↔ ∃ cluster ∈ clusters.used, 0 < cluster.maxNodes ∧ item = cluster.item := by
  simp only [machines, List.mem_flatMap, List.mem_replicate, Nat.pos_iff_ne_zero]

theorem floor_total_le_maxCostATU (used : cluster ∈ clusters.used) : ⌊cluster.total⌋₊ ≤ clusters.updateClusterStats.maxCostATU := by
  rw [maxCostATU_eq]
  exact List.single_le_sum (fun _ _ => Nat.zero_le _) _ (List.mem_map.mpr ⟨cluster, used, rfl⟩)

theorem floor_costUnit_le (some : 0 < cluster.maxNodes) : ⌊cluster.costUnit⌋₊ ≤ ⌊cluster.total⌋₊ := by
  have one : (1 : ℚ) ≤ cluster.maxNodes := by exact_mod_cast some
  exact Nat.floor_mono (le_mul_of_one_le_left cluster.price.le one)

theorem moo_proper {budget jobsLeft timeUnit : Int} {paid : String → Nat} (jobs : 0 < jobsLeft) (unit : 0 < timeUnit)
    (some : clusters.machines ≠ []) : (clusters.moo budget paid jobsLeft timeUnit).Proper := by
  have tail : (clusters.moo budget paid jobsLeft timeUnit).items.tail = clusters.machines := congrArg List.tail items_eq
  refine ⟨jobs, unit, ?_, fun item member => ?_, fun item member => ?_⟩
  · obtain ⟨item, member⟩ := List.exists_mem_of_ne_nil _ some
    obtain ⟨cluster, used, nodes, -⟩ := mem_machines.mp member
    have least := updateClusterStats_sums.minCostATU cluster used
    exact least.trans ((floor_costUnit_le nodes).trans (floor_total_le_maxCostATU used))
  · rw [tail] at member
    obtain ⟨cluster, used, -, rfl⟩ := mem_machines.mp member
    exact one_div_pos.mpr (lt_of_le_of_ne cluster.time (mem_used.mp used).2.symm)
  · rw [tail] at member
    obtain ⟨cluster, used, -, rfl⟩ := mem_machines.mp member
    exact updateClusterStats_sums.minCostATU cluster used

/-- The cost of some machines for a time unit, at the prices of the clusters. -/
def unitCost (clusters : Offers) (S : List Item) : ℚ :=
  (clusters.rows.map fun cluster => ((S.map Item.cluster).count cluster.clusterAlias : ℚ) * cluster.costUnit).sum

theorem unitCost_cons {item : Item} (member : cluster ∈ clusters.rows) (same : item.cluster = cluster.clusterAlias) :
    clusters.unitCost (item :: S) = cluster.costUnit + clusters.unitCost S := by
  have perm := Table.rows_perm (Table.get?_of_mem member)
  simp only [unitCost, (perm.map _).sum_eq, List.map_cons, List.sum_cons, same, List.count_cons_self]
  have others : ∀ other ∈ (clusters.erase cluster.clusterAlias).rows,
      (List.count other.clusterAlias (cluster.clusterAlias :: S.map Item.cluster) : ℚ) * other.costUnit =
        (List.count other.clusterAlias (S.map Item.cluster) : ℚ) * other.costUnit := by
    intro other inside
    rw [List.count_cons_of_ne (Ne.symm (Table.mem_erase.mp inside).2)]
  rw [List.map_congr_left others]
  push_cast
  ring

theorem unitCost_nil : clusters.unitCost [] = 0 := by
  simp [unitCost]

theorem unitCost_mono {L : List Item} (sub : S.Sublist L) : clusters.unitCost S ≤ clusters.unitCost L := by
  refine List.sum_le_sum fun cluster _ => mul_le_mul_of_nonneg_right ?_ cluster.price.le
  exact_mod_cast (sub.map Item.cluster).count_le cluster.clusterAlias

theorem unitCost_reverse : clusters.unitCost S.reverse = clusters.unitCost S := by
  simp only [unitCost, List.map_reverse, List.count_reverse]

theorem unitCost_replicate (member : cluster ∈ clusters.rows) (nodes : Nat) :
    clusters.unitCost (List.replicate nodes cluster.item ++ S) = nodes * cluster.costUnit + clusters.unitCost S := by
  induction nodes with
  | zero => simp
  | succ nodes ih =>
    rw [List.replicate_succ, List.cons_append, unitCost_cons member rfl, ih]
    push_cast
    ring

/-- The cost of all machines for a time unit. -/
def total (clusters : Offers) : ℚ := (clusters.used.map Offer.total).sum

theorem unitCost_machines : clusters.unitCost clusters.machines = clusters.total := by
  have general : ∀ list : List Offer, (∀ cluster ∈ list, cluster ∈ clusters.rows) →
      clusters.unitCost (list.flatMap fun cluster => List.replicate cluster.maxNodes cluster.item) =
        (list.map Offer.total).sum := by
    intro list
    induction list with
    | nil => exact fun _ => unitCost_nil
    | cons cluster list ih =>
      intro members
      rw [List.flatMap_cons, unitCost_replicate (members cluster List.mem_cons_self),
        ih fun other inside => members other (List.mem_cons_of_mem _ inside)]
      rfl
  exact general _ fun cluster member => (mem_used.mp member).1

/-- A price without a fraction. -/
def Whole (q : ℚ) : Prop := (⌊q⌋ : ℚ) = q

instance (q : ℚ) : Decidable (Whole q) := inferInstanceAs (Decidable ((⌊q⌋ : ℚ) = q))

theorem whole_iff_natFloor : Whole cluster.costUnit ↔ (⌊cluster.costUnit⌋₊ : ℚ) = cluster.costUnit := by
  rw [Whole, natCast_floor_eq_intCast_floor cluster.price.le]

theorem weightOf_cons {item : Item} : weightOf (item :: S) = item.weight + weightOf S := by
  rw [weightOf, List.map_cons, List.sum_cons, weightOf]

/-- What the integers of the plan miss of the cost of some machines. -/
theorem weightOf_le_unitCost (members : ∀ item ∈ S, item ∈ clusters.machines) : weightOf S ≤ clusters.unitCost S := by
  induction S with
  | nil => simp [weightOf, unitCost_nil]
  | cons item S ih =>
    obtain ⟨cluster, used, -, rfl⟩ := mem_machines.mp (members item List.mem_cons_self)
    have rest := ih fun other inside => members other (List.mem_cons_of_mem _ inside)
    have price := Nat.floor_le cluster.price.le
    rw [weightOf_cons, unitCost_cons (mem_used.mp used).1 rfl]
    push_cast [Offer.item]
    linarith

theorem unitCost_eq_weightOf (members : ∀ item ∈ S, item ∈ clusters.machines)
    (whole : ∀ cluster ∈ clusters.used, 0 < cluster.maxNodes → Whole cluster.costUnit) :
    clusters.unitCost S = weightOf S := by
  induction S with
  | nil => simp [weightOf, unitCost_nil]
  | cons item S ih =>
    obtain ⟨cluster, used, nodes, rfl⟩ := mem_machines.mp (members item List.mem_cons_self)
    have rest := ih fun other inside => members other (List.mem_cons_of_mem _ inside)
    have price := whole_iff_natFloor.mp (whole cluster used nodes)
    rw [weightOf_cons, unitCost_cons (mem_used.mp used).1 rfl, rest]
    push_cast [Offer.item]
    rw [price]

theorem whole_of_unitCost_le (members : ∀ item ∈ S, item ∈ clusters.machines) (exact : clusters.unitCost S ≤ weightOf S)
    (member : cluster.item ∈ S) (used : cluster ∈ clusters.used) : Whole cluster.costUnit := by
  have perm := List.perm_cons_erase member
  have rest : weightOf (S.erase cluster.item) ≤ clusters.unitCost (S.erase cluster.item) :=
    weightOf_le_unitCost fun other inside => members other (List.mem_of_mem_erase inside)
  have weights : weightOf S = ⌊cluster.costUnit⌋₊ + weightOf (S.erase cluster.item) := by
    rw [weightOf, (perm.map _).sum_eq, List.map_cons, List.sum_cons]
    rfl
  have costs : clusters.unitCost S = cluster.costUnit + clusters.unitCost (S.erase cluster.item) := by
    rw [← @unitCost_cons _ _ _ cluster.item (mem_used.mp used).1 rfl]
    simp only [unitCost, (perm.map Item.cluster).count_eq]
  rw [weights, costs] at exact
  push_cast at exact
  rw [whole_iff_natFloor]
  exact le_antisymm (Nat.floor_le cluster.price.le) (by linarith)

theorem weightOf_machines : weightOf clusters.machines ≤ clusters.updateClusterStats.maxCostATU := by
  have general : ∀ list : List Offer,
      weightOf (list.flatMap fun cluster => List.replicate cluster.maxNodes cluster.item) ≤
        (list.map fun cluster => ⌊cluster.total⌋₊).sum := by
    intro list
    induction list with
    | nil => exact le_rfl
    | cons cluster list ih =>
      have each : cluster.maxNodes * ⌊cluster.costUnit⌋₊ ≤ ⌊cluster.total⌋₊ := by
        refine Nat.le_floor ?_
        push_cast
        exact mul_le_mul_of_nonneg_left (Nat.floor_le cluster.price.le) (Nat.cast_nonneg _)
      rw [weightOf, List.flatMap_cons, List.map_append, List.sum_append, List.map_replicate, List.sum_replicate,
        List.map_cons, List.sum_cons]
      exact add_le_add each ih
  rw [maxCostATU_eq]
  exact general _

theorem maxCostATU_le_total : clusters.updateClusterStats.maxCostATU ≤ clusters.total := by
  rw [maxCostATU_eq, total, Nat.cast_list_sum, List.map_map]
  exact List.sum_le_sum fun cluster _ => Nat.floor_le total_nonneg

theorem realCost_eq {found : Solution}
    (counted : ∀ c, machinesOf found.finalSol c = (found.taken.map Item.cluster).count c) :
    clusters.realCost found = clusters.unitCost found.taken * found.noATUPlan := by
  simp only [realCost, unitCost, counted, List.sum_map_mul_right]

/-- When the plans for some clusters and money spent keep to what they cost:
no plan is ever found, or no fraction is cut off from the money spent and from
the price of a machine, or the one plan is all machines at a cost of 1. -/
def Exact (clusters : Offers) (paid : String → Nat) : Prop :=
  (∀ cluster ∈ clusters.rows, cluster.Ti ≠ 0 → cluster.total < 1) ∨
    Whole (clusters.consumedBudget paid) ∧
      ((∀ cluster ∈ clusters.rows, cluster.Ti ≠ 0 → 0 < cluster.maxNodes → Whole cluster.costUnit) ∨ clusters.total = 1)

variable {budget jobsLeft timeUnit : Int} {paid : String → Nat} {found : Solution}

theorem moo_tail : (clusters.moo budget paid jobsLeft timeUnit).items.tail = clusters.machines :=
  congrArg List.tail items_eq

theorem plan_some (plan : clusters.plan budget paid jobsLeft timeUnit = some found) :
    clusters.machines ≠ [] ∧ (clusters.moo budget paid jobsLeft timeUnit).findSol = some found := by
  unfold Offers.plan at plan
  split at plan
  · next items =>
    refine ⟨fun none => ?_, plan⟩
    rw [items_eq, none] at items
    exact absurd items (lt_irrefl 1)
  · cases plan

/-- A plan costs no more than the budget where its machines cost no more than
the capacity it was found at. -/
theorem realCost_le (whole : Whole (clusters.consumedBudget paid)) {w : Nat} {n : Int} (nonneg : 0 ≤ n)
    (cost : clusters.realCost found = clusters.unitCost found.taken * n) (within : clusters.unitCost found.taken ≤ w)
    (payable : w * n ≤ budget - ⌊clusters.consumedBudget paid⌋) :
    clusters.realCost found ≤ budget - clusters.consumedBudget paid := by
  have left : (w : ℚ) * n ≤ budget - ⌊clusters.consumedBudget paid⌋ := by exact_mod_cast payable
  rw [Whole] at whole
  rw [whole] at left
  rw [cost]
  exact (mul_le_mul_of_nonneg_right within (by exact_mod_cast nonneg)).trans left

theorem realCost_le_of_exact (jobs : 0 < jobsLeft) (unit : 0 < timeUnit) (exact : clusters.Exact paid)
    (plan : clusters.plan budget paid jobsLeft timeUnit = some found) (success : found.success = true) :
    clusters.realCost found ≤ budget - clusters.consumedBudget paid := by
  obtain ⟨some, run⟩ := plan_some plan
  have proper : (clusters.moo budget paid jobsLeft timeUnit).Proper := moo_proper jobs unit some
  obtain ⟨other, again, counted, ⟨-, failed⟩ | ⟨i, w, search, -, taken, noATUs, -⟩⟩ := findSol_cases proper
  · obtain rfl := Option.some.inj (run.symm.trans again)
    rw [success] at failed
    cases failed
  obtain rfl := Option.some.inj (run.symm.trans again)
  obtain ⟨sub, fits, -, -, positive, payable⟩ := traceback_spec proper search
  obtain ⟨least, within, -⟩ := search_some search
  rw [← taken, moo_tail] at sub
  rw [← taken] at fits
  have cost : clusters.realCost found = clusters.unitCost found.taken * found.noATUPlan := realCost_eq counted
  rw [noATUs] at cost
  have members : ∀ item ∈ found.taken, item ∈ clusters.machines := fun item member =>
    sub.subset (List.mem_reverse.mpr member)
  rcases exact with cheap | ⟨whole, whole' | one⟩
  · have none : clusters.updateClusterStats.maxCostATU = 0 := by
      rw [maxCostATU_eq, List.sum_eq_zero_iff]
      intro n member
      obtain ⟨cluster, used, rfl⟩ := List.mem_map.mp member
      exact Nat.floor_eq_zero.mpr (cheap cluster (mem_used.mp used).1 (mem_used.mp used).2)
    have capacity : w ≤ clusters.updateClusterStats.maxCostATU := within
    omega
  · refine realCost_le whole (noATUs_nonneg proper positive) cost ?_ payable
    rw [unitCost_eq_weightOf members fun cluster used => whole' cluster (mem_used.mp used).1 (mem_used.mp used).2]
    exact_mod_cast fits
  · refine realCost_le whole (noATUs_nonneg proper positive) cost ?_ payable
    rw [← unitCost_reverse]
    refine (unitCost_mono sub).trans ?_
    rw [unitCost_machines, one]
    exact_mod_cast least

/-- With a budget that just allows it, the plan is all machines. -/
theorem plan_all (jobs : 0 < jobsLeft) (unit : 0 < timeUnit) (any : clusters.machines ≠ []) {w : Nat} (positive : 0 < w)
    (fits : weightOf clusters.machines ≤ w) (within : w ≤ clusters.updateClusterStats.maxCostATU) :
    ∃ n : Int, 0 < n ∧ ∃ found,
      clusters.plan (w * n + ⌊clusters.consumedBudget paid⌋) paid jobsLeft timeUnit = some found ∧
        found.success = true ∧ clusters.realCost found = clusters.total * n := by
  let n := (clusters.moo 0 paid jobsLeft timeUnit).noATUs (profitOf clusters.machines)
  let k := clusters.moo (w * n + ⌊clusters.consumedBudget paid⌋) paid jobsLeft timeUnit
  have proper : k.Proper := moo_proper jobs unit any
  have tail : k.items.tail = clusters.machines := moo_tail
  have gain : 0 < profitOf k.items.tail := profitOf_pos proper (List.Sublist.refl _) (by rwa [tail])
  have same : k.noATUs (profitOf k.items.tail) = n := by
    rw [tail]
    rfl
  have budget : k.budget = w * k.noATUs (profitOf k.items.tail) := by
    rw [same]
    exact add_sub_cancel_right _ _
  obtain ⟨i, search⟩ := search_all proper (by rwa [tail]) positive (by rwa [tail]) within budget
  obtain ⟨found, run, counted, ⟨none, -⟩ | ⟨j, v, again, success, taken, noATUs, -⟩⟩ := findSol_cases proper
  · rw [search] at none
    cases none
  rw [search] at again
  obtain ⟨rfl, rfl⟩ := Prod.mk.inj (Option.some.inj again)
  have all := traceback_all proper search (by rwa [tail])
  rw [bestUpTo_all proper (by rwa [tail]), same] at noATUs
  refine ⟨n, ?_, found, ?_, success, ?_⟩
  · rw [← same]
    exact noATUs_pos proper gain
  · have some : 1 < clusters.updateClusterStats.items.length := by
      rw [items_eq, List.length_cons]
      exact Nat.succ_lt_succ (List.length_pos_iff.mpr any)
    rw [Offers.plan, if_pos some]
    exact run
  · rw [realCost_eq counted, noATUs, taken, ← unitCost_reverse, all, tail, unitCost_machines]

theorem realCost_le_iff (jobs : 0 < jobsLeft) (unit : 0 < timeUnit) :
    (∀ budget found, clusters.plan budget paid jobsLeft timeUnit = some found → found.success = true →
        clusters.realCost found ≤ budget - clusters.consumedBudget paid) ↔ clusters.Exact paid := by
  refine ⟨fun covered => or_iff_not_imp_left.mpr fun dear => ?_, fun exact budget found => realCost_le_of_exact jobs unit exact⟩
  simp only [not_forall, not_lt] at dear
  obtain ⟨cluster, member, figures, dear⟩ := dear
  have used := mem_used.mpr ⟨member, figures⟩
  have nodes : 0 < cluster.maxNodes := by
    refine Nat.pos_of_ne_zero fun none => ?_
    rw [Offer.total, none, Nat.cast_zero, zero_mul] at dear
    exact absurd dear (by norm_num)
  have any : clusters.machines ≠ [] := List.ne_nil_of_mem (mem_machines.mpr ⟨cluster, used, nodes, rfl⟩)
  have capacity : 1 ≤ clusters.updateClusterStats.maxCostATU :=
    (Nat.one_le_floor_iff _ |>.mpr dear).trans (floor_total_le_maxCostATU used)
  have weight : (weightOf clusters.machines : ℚ) ≤ clusters.total :=
    (weightOf_le_unitCost fun _ member => member).trans_eq unitCost_machines
  have least : (1 : ℚ) ≤ clusters.total := le_trans (by exact_mod_cast capacity) maxCostATU_le_total
  -- all machines, at the capacity of their weight
  have room : 0 < max (weightOf clusters.machines) 1 := Nat.lt_of_lt_of_le Nat.one_pos (le_max_right _ _)
  have all := @plan_all clusters jobsLeft timeUnit paid jobs unit any _ room (le_max_left _ _) (max_le weightOf_machines capacity)
  obtain ⟨n, positive, found, plan, success, cost⟩ := all
  have real := covered _ found plan success
  have times : (0 : ℚ) < n := by exact_mod_cast positive
  have below := Int.floor_le (clusters.consumedBudget paid)
  have above : ((max (weightOf clusters.machines) 1 : Nat) : ℚ) ≤ clusters.total := by
    push_cast
    exact max_le weight least
  have product := mul_le_mul_of_nonneg_right above times.le
  rw [cost] at real
  push_cast at real product
  have whole : Whole (clusters.consumedBudget paid) := le_antisymm below (by linarith)
  have exact : clusters.total ≤ max (weightOf clusters.machines : ℚ) 1 := le_of_mul_le_mul_right (by linarith) times
  refine ⟨whole, ?_⟩
  rcases le_max_iff.mp exact with heavy | light
  · left
    intro other member figures nodes
    have used := mem_used.mpr ⟨member, figures⟩
    rw [← unitCost_machines] at heavy
    exact whole_of_unitCost_le (fun _ member => member) heavy (mem_machines.mpr ⟨other, used, nodes, rfl⟩) used
  · exact .inr (le_antisymm light least)

/-- Two machines at 3/2 a time unit, and ten tasks. -/
def dearCluster : Offers := ⟨[⟨"dear", 3 / 2, 2, 1, by norm_num, by norm_num⟩], by simp⟩

def cheapCluster : Offers := ⟨[⟨"cheap", 2, 2, 1, by norm_num, by norm_num⟩], by simp⟩

/-- Two time units are paid at 3/2 and a budget of 5 leaves 2, but the plan
that is made for 2 costs 3. -/
theorem dearCluster_overspent :
    ∃ found, dearCluster.plan 5 (fun _ => 2) 10 60 = some found ∧ found.success = true ∧ found.costPlan = 2 ∧
      5 - dearCluster.consumedBudget (fun _ => 2) = 2 ∧ dearCluster.realCost found = 3 :=
  ⟨(dearCluster.plan 5 (fun _ => 2) 10 60).get (by decide +kernel), by decide +kernel⟩

theorem cheapCluster_covered :
    (∀ budget found, cheapCluster.plan budget (fun _ => 2) 10 60 = some found → found.success = true →
        cheapCluster.realCost found ≤ budget - cheapCluster.consumedBudget (fun _ => 2)) ↔
      cheapCluster.Exact fun _ => 2 :=
  realCost_le_iff (by decide) (by decide)

end Offers

end ConPaaS
