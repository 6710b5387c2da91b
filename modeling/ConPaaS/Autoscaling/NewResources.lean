import ConPaaS.Lib.Fallible
import ConPaaS.Autoscaling.Candidates
import Mathlib.Algebra.Order.Archimedean.Basic
import Mathlib.Algebra.Order.Field.Rat
import Mathlib.Tactic.Linarith

namespace ConPaaS.StrategyFinder

variable (f : StrategyFinder)

/-- The largest of the capacities, none of which is negative. -/
def largestCapacity (types : List String) : Rat := (types.map f.capacityInstType).foldr max 0

/-- The load of all machines of the predicted requests on one of the capacity,
in units of the largest load that is allowed. -/
def machinesNeeded (maxPerformance capacity : Rat) : Rat :=
  f.forecastReqRatePredicted * f.reqComplexityRate * capacity / maxPerformance

/-- A combination the search from a combination may insert, with the load it is
recorded with. -/
structure Enlarged (maxPerformance capacity : Rat) (start : Combination) (offer : Rat × Combination) : Prop where
  extended : start <+: offer.2
  estimated : ∃ possible x, offer = (f.calculateCpuCapacity possible x, possible ++ [x])
  busy : f.minPerformanceThroughput < offer.1
  free : offer.1 < maxPerformance
  length_le : (offer.2.length : Rat) ≤ max ((start.length : Rat) + 1) (f.machinesNeeded maxPerformance capacity + 1)

variable {f} {maxPerformance capacity share : Rat} {types combination start : Combination} {x : String}

theorem le_largestCapacity (member : x ∈ types) : f.capacityInstType x ≤ f.largestCapacity types := by
  induction types with
  | nil => cases member
  | cons y rest ih =>
    rw [largestCapacity, List.map_cons, List.foldr_cons]
    rcases List.mem_cons.mp member with rfl | later
    · exact le_max_left _ _
    · exact (ih later).trans (le_max_right _ _)

theorem foldl_share_le (nonneg : 0 ≤ share) (bounded : ∀ y ∈ combination, f.capacityInstType y ≤ capacity) (first : Rat) :
    combination.foldl (fun sum y => sum + share * f.capacityInstType y) first ≤
      first + combination.length * (share * capacity) := by
  induction combination generalizing first with
  | nil => simp
  | cons y rest ih =>
    have later := ih (fun z member => bounded z (List.mem_cons_of_mem _ member)) (first + share * f.capacityInstType y)
    have mine : share * f.capacityInstType y ≤ share * capacity :=
      mul_le_mul_of_nonneg_left (bounded y (List.mem_cons_self ..)) nonneg
    rw [List.foldl_cons, List.length_cons]
    push_cast
    linarith

/-- The estimated load is a sum of as many capacities as there are machines,
divided twice by their number. -/
theorem calculateCpuCapacity_le (loaded : 0 ≤ f.forecastReqRatePredicted * f.reqComplexityRate)
    (bounded : ∀ y ∈ combination, f.capacityInstType y ≤ capacity) (new : f.capacityInstType x ≤ capacity) :
    f.calculateCpuCapacity combination x ≤
      f.forecastReqRatePredicted * f.reqComplexityRate * capacity / (combination.length + 1 : Nat) := by
  have machines : (0 : Rat) < (combination.length + 1 : Nat) := Nat.cast_pos.mpr (Nat.succ_pos _)
  unfold calculateCpuCapacity
  generalize f.forecastReqRatePredicted * f.reqComplexityRate = load at loaded ⊢
  have nonneg : 0 ≤ load / (combination.length + 1 : Nat) := div_nonneg loaded machines.le
  have all : load / (combination.length + 1 : Nat) * (combination.length + 1 : Nat) = load :=
    div_mul_cancel₀ _ machines.ne'
  rw [div_le_iff₀ machines, div_mul_cancel₀ _ machines.ne']
  generalize load / (combination.length + 1 : Nat) = share at nonneg all ⊢
  calc _ ≤ share * f.capacityInstType x + combination.length * (share * capacity) :=
        foldl_share_le nonneg bounded _
    _ ≤ share * capacity + combination.length * (share * capacity) := by
        linarith only [mul_le_mul_of_nonneg_left new nonneg]
    _ = load * capacity := by
        rw [← all]
        push_cast
        ring

/-- Where the search goes on, fewer machines than needed have been taken. -/
theorem length_lt_machinesNeeded (loaded : 0 ≤ f.forecastReqRatePredicted * f.reqComplexityRate)
    (positive : 0 < maxPerformance) (bounded : ∀ y ∈ combination, f.capacityInstType y ≤ capacity)
    (new : f.capacityInstType x ≤ capacity) (more : f.calculateCpuCapacity combination x > maxPerformance) :
    (combination.length : Rat) + 1 < f.machinesNeeded maxPerformance capacity := by
  have machines : (0 : Rat) < (combination.length + 1 : Nat) := Nat.cast_pos.mpr (Nat.succ_pos _)
  have estimate := more.lt.trans_le (calculateCpuCapacity_le loaded bounded new)
  rw [lt_div_iff₀ machines] at estimate
  rw [machinesNeeded, lt_div_iff₀ positive]
  push_cast at estimate
  linarith only [estimate]

/-- What the longer combination may be enlarged to is within the bound of the
shorter one. -/
theorem Enlarged.of_append {offer : Rat × Combination}
    (needed : (start.length : Rat) + 1 < f.machinesNeeded maxPerformance capacity)
    (enlarged : Enlarged f maxPerformance capacity (start ++ [x]) offer) :
    Enlarged f maxPerformance capacity start offer := by
  refine ⟨(List.prefix_append _ _).trans enlarged.extended, enlarged.estimated, enlarged.busy, enlarged.free,
    enlarged.length_le.trans (max_le ?_ (le_max_right _ _))⟩
  refine le_max_of_le_right ?_
  rw [List.length_append, List.length_singleton]
  push_cast
  linarith only [needed]

/-- A call ends when the calls it makes do, from some depth on. -/
theorem addNewResources_step {least : Nat}
    (further : ∀ x ∈ f.vmInstTypes, f.calculateCpuCapacity start x > maxPerformance →
      ∃ offers, (∀ depth ≥ least, f.addNewResources maxPerformance depth (start ++ [x]) = some offers) ∧
        ∀ offer ∈ offers, Enlarged f maxPerformance capacity start offer) :
    ∃ offers, (∀ depth ≥ least + 1, f.addNewResources maxPerformance depth start = some offers) ∧
      ∀ offer ∈ offers, Enlarged f maxPerformance capacity start offer := by
  have each : ∀ x ∈ f.vmInstTypes, ∃ offers, (∀ depth ≥ least,
      (if 0 < f.capacityInstType x then
        let cpuCapacity := f.calculateCpuCapacity start x
        if cpuCapacity > maxPerformance then f.addNewResources maxPerformance depth (start ++ [x])
        else if cpuCapacity < maxPerformance ∧ cpuCapacity > f.minPerformanceThroughput then
          some [(cpuCapacity, start ++ [x])]
        else some []
      else some []) = some offers) ∧ ∀ offer ∈ offers, Enlarged f maxPerformance capacity start offer := by
    intro x member
    by_cases usable : 0 < f.capacityInstType x
    · simp only [if_pos usable]
      by_cases more : f.calculateCpuCapacity start x > maxPerformance
      · simp only [if_pos more]
        exact further x member more
      · simp only [if_neg more]
        by_cases inserted : f.calculateCpuCapacity start x < maxPerformance ∧
            f.calculateCpuCapacity start x > f.minPerformanceThroughput
        · refine ⟨_, fun _ _ => if_pos inserted, fun offer member => ?_⟩
          obtain rfl := List.mem_singleton.mp member
          refine ⟨List.prefix_append _ _, ⟨start, x, rfl⟩, inserted.2, inserted.1, le_max_of_le_left ?_⟩
          rw [List.length_append, List.length_singleton]
          push_cast
          rfl
        · exact ⟨_, fun _ _ => if_neg inserted, nofun⟩
    · exact ⟨_, fun _ _ => if_neg usable, nofun⟩
  choose! found same enlarged using each
  refine ⟨(f.vmInstTypes.map found).flatten, fun deeper deep => ?_, fun offer member => ?_⟩
  · obtain ⟨depth, rfl⟩ := Nat.exists_eq_add_of_le' (Nat.one_le_of_lt deep)
    rw [addNewResources, Fallible.mapM_some fun x member => same x member depth (Nat.le_of_succ_le_succ deep)]
    rfl
  · obtain ⟨part, ofType, mine⟩ := List.mem_flatten.mp member
    obtain ⟨x, known, rfl⟩ := List.mem_map.mp ofType
    exact enlarged x known offer mine

/-- The search of a depth that makes up for the machines that are missing ends,
and ends the same way with any greater one. -/
theorem addNewResources_ends (loaded : 0 ≤ f.forecastReqRatePredicted * f.reqComplexityRate) (positive : 0 < maxPerformance)
    (types : ∀ x ∈ f.vmInstTypes, f.capacityInstType x ≤ capacity) {missing : Nat}
    (bounded : ∀ y ∈ start, f.capacityInstType y ≤ capacity)
    (enough : f.machinesNeeded maxPerformance capacity ≤ start.length + missing) :
    ∃ offers, (∀ depth ≥ missing + 1, f.addNewResources maxPerformance depth start = some offers) ∧
      ∀ offer ∈ offers, Enlarged f maxPerformance capacity start offer := by
  induction missing generalizing start with
  | zero =>
    refine addNewResources_step fun x member more => ?_
    have needed := length_lt_machinesNeeded loaded positive bounded (types x member) more
    push_cast at enough
    linarith only [enough, needed]
  | succ missing ih =>
    refine addNewResources_step fun x member more => ?_
    have needed := length_lt_machinesNeeded loaded positive bounded (types x member) more
    have longer : ∀ y ∈ start ++ [x], f.capacityInstType y ≤ capacity := by
      intro y inside
      rcases List.mem_append.mp inside with old | new
      · exact bounded y old
      · exact List.mem_singleton.mp new ▸ types x member
    obtain ⟨offers, same, enlarged⟩ := ih longer (by
      rw [List.length_append, List.length_singleton]
      push_cast at enough ⊢
      linarith only [enough])
    exact ⟨offers, same, fun offer member => (enlarged offer member).of_append needed⟩

theorem mem_foldl_insertCombination {offers : List (Rat × Combination)} {decided : List (Combination × Rat)}
    {entry : Combination × Rat} (member : entry ∈ offers.foldl insertCombination decided) :
    entry ∈ decided ∨ (entry.2, entry.1) ∈ offers := by
  induction offers generalizing decided with
  | nil => exact Or.inl member
  | cons offer rest ih =>
    rcases ih member with before | later
    · rcases mem_insertCombination.mp before with old | ⟨-, rfl⟩
      · exact Or.inl old
      · exact Or.inr (List.mem_cons_self ..)
    · exact Or.inr (List.mem_cons_of_mem _ later)

variable (f) in
/-- The search ends, at every depth of calls from some on, and records only
combinations within the bounds. -/
theorem addNewResources_terminates (load : 0 ≤ f.forecastReqRatePredicted) (rate : 0 ≤ f.reqComplexityRate)
    (positive : 0 < maxPerformance) (start : Combination) :
    ∃ offers least, (∀ depth ≥ least, f.addNewResources maxPerformance depth start = some offers) ∧
      ∀ decided, ∀ entry ∈ offers.foldl insertCombination decided, entry ∈ decided ∨
        Enlarged f maxPerformance (f.largestCapacity (f.vmInstTypes ++ start)) start (entry.2, entry.1) := by
  obtain ⟨missing, enough⟩ := exists_nat_ge (f.machinesNeeded maxPerformance (f.largestCapacity (f.vmInstTypes ++ start)))
  have deep : f.machinesNeeded maxPerformance (f.largestCapacity (f.vmInstTypes ++ start)) ≤ start.length + missing :=
    enough.trans (le_add_of_nonneg_left (Nat.cast_nonneg _))
  obtain ⟨offers, same, enlarged⟩ := addNewResources_ends (mul_nonneg load rate) positive
    (fun x member => le_largestCapacity (List.mem_append_left _ member))
    (fun y member => le_largestCapacity (List.mem_append_right _ member)) deep
  refine ⟨offers, missing + 1, same, fun decided entry member => ?_⟩
  rcases mem_foldl_insertCombination member with old | offered
  · exact Or.inl old
  · exact Or.inr (enlarged _ offered)

/-- Two types of machines, one of them with half the capacity of the other. -/
def twoTypes : StrategyFinder where
  vmInstTypes := ["m1.small", "m1.medium"]
  capacityInstType x := if x = "m1.small" then 8 else 4
  forecastReqRatePredicted := 10
  reqComplexityRate := 2
  minPerformanceThroughput := 30
  costPolicy := false
  shutdown _ _ := true

theorem twoTypes_terminates : ∃ offers least,
    (∀ depth ≥ least, twoTypes.addNewResources 70 depth ["m1.small"] = some offers) ∧
    ∀ decided, ∀ entry ∈ offers.foldl insertCombination decided, entry ∈ decided ∨
      Enlarged twoTypes 70 (twoTypes.largestCapacity (twoTypes.vmInstTypes ++ ["m1.small"])) ["m1.small"] (entry.2, entry.1) :=
  addNewResources_terminates twoTypes (by decide) (by decide) (by decide) ["m1.small"]

end ConPaaS.StrategyFinder
