import Mathlib.Data.List.Perm.Subperm
import Mathlib.Data.Rat.Defs
import Mathlib.Algebra.Order.Ring.Rat

namespace ConPaaS

/-- Machines by their types, as the search for a scaling decision lists them. -/
abbrev Combination := List String

/-- The machines of a combination the loop over a decision counts: it stops at
the first one whose type is not in the decision. -/
def timesIn (decision combination : Combination) : Nat := (combination.takeWhile (· ∈ decision)).length

/-- A combination is taken for one that is there already. -/
def isDecided (scalingDecision : List (Combination × Rat)) (combination : Combination) : Bool :=
  scalingDecision.any fun decided =>
    decided.1.length = combination.length && timesIn decided.1 combination = combination.length

def insertCombination (scalingDecision : List (Combination × Rat)) (offer : Rat × Combination) : List (Combination × Rat) :=
  if isDecided scalingDecision offer.2 then scalingDecision else scalingDecision ++ [(offer.2, offer.1)]

/-- What the offers of one search leave as scaling decisions. -/
def decisionsOf (offers : List (Rat × Combination)) : List (Combination × Rat) := offers.foldl insertCombination []

/-- `filter_scaling_strategy` and the ranking count the machines a combination
has more of, or less, than another one, by type. -/
def diffCombo (proposed current : Combination) : List (String × Int) :=
  (proposed ++ current).dedup.map fun vmType => (vmType, proposed.count vmType - current.count vmType)

/-- The finder with what the search reads: `shutdown` is the answer of
`check_shutdown_constraint` for the nodes of the service. -/
structure StrategyFinder where
  vmInstTypes : List String
  capacityInstType : String → Rat
  forecastReqRatePredicted : Rat
  reqComplexityRate : Rat
  minPerformanceThroughput : Rat
  costPolicy : Bool
  shutdown : String → Nat → Bool

namespace StrategyFinder

variable (f : StrategyFinder)

def calculateCpuCapacity (combination : Combination) (instName : String) : Rat :=
  let share := f.forecastReqRatePredicted * f.reqComplexityRate / (combination.length + 1 : Nat)
  combination.foldl (fun capacity x => capacity + share * f.capacityInstType x) (share * f.capacityInstType instName) /
    (combination.length + 1 : Nat)

def filterScalingStrategy (current proposed : Combination) : Bool :=
  f.costPolicy && (diffCombo proposed current).any fun (vmType, count) =>
    count < 0 && !f.shutdown vmType count.natAbs

/-- A combination the search has found, with its capacity, or one that it hands
on to `add_new_resources`. -/
inductive Candidate
  | decision (cpuCapacity : Rat) (combination : Combination)
  | enlarge (combination : Combination)

def Candidate.combination : Candidate → Combination
  | .decision _ combination => combination
  | .enlarge combination => combination

/-- The offers of `add_new_resources`, which calls itself until the capacity is
low enough or the interpreter gives up. -/
def addNewResources (maxPerformance : Rat) : Nat → Combination → Option (List (Rat × Combination))
  | 0, _ => none
  | depth + 1, possible =>
    (f.vmInstTypes.mapM fun x =>
      if 0 < f.capacityInstType x then
        let cpuCapacity := f.calculateCpuCapacity possible x
        if cpuCapacity > maxPerformance then addNewResources maxPerformance depth (possible ++ [x])
        else if cpuCapacity < maxPerformance ∧ cpuCapacity > f.minPerformanceThroughput then
          some [(cpuCapacity, possible ++ [x])]
        else some []
      else some []).map List.flatten

end StrategyFinder

/-- The machines the search goes over are six at most. -/
def searchingRange (combination : Combination) : Nat := if combination.length > 6 then 6 else combination.length

/-- The machines of the searched part but one, which a machine of another type
takes the place of at the end. -/
def replaced (combination : Combination) (cb : Nat) (x : String) : Combination :=
  (combination.take (searchingRange combination)).eraseIdx cb ++ [x]

namespace StrategyFinder

variable (f : StrategyFinder)

/-- The loops of `replace_scaling_strategy` and its recursive part over the
positions that are left. The recursive call at a position goes over the later
ones. -/
def replaceFrom (original : Combination) (maxPerformance : Rat) : List Nat → Combination → List Candidate
  | [], _ => []
  | cb :: later, current =>
    (f.vmInstTypes.flatMap fun x =>
      if 0 < f.capacityInstType x then
        let cpuCapacity := f.calculateCpuCapacity ((current.take (searchingRange current)).eraseIdx cb) x
        let combination := replaced current cb x
        if f.filterScalingStrategy original combination then []
        else
          (if cpuCapacity < maxPerformance ∧ cpuCapacity > f.minPerformanceThroughput then
            [.decision cpuCapacity combination] else []) ++
          (if cb < searchingRange current - 1 then replaceFrom original maxPerformance later combination
          else if cpuCapacity > maxPerformance then [.enlarge combination] else [])
      else []) ++ replaceFrom original maxPerformance later current

def replaceScalingStrategyRecursive (original current : Combination) (maxPerformance : Rat) (iterator : Nat) : List Candidate :=
  f.replaceFrom original maxPerformance (List.range' (iterator + 1) (searchingRange current - (iterator + 1))) current

def replaceScalingStrategy (current : Combination) (maxPerformance : Rat) : List Candidate :=
  f.replaceFrom current maxPerformance (List.range' 0 (searchingRange current)) current

end StrategyFinder

theorem searchingRange_eq (combination : Combination) : searchingRange combination = min 6 combination.length := by
  unfold searchingRange
  split <;> omega

/-- A replacement makes the combination as long as the part that is searched. -/
theorem length_replaced {combination : Combination} {cb : Nat} (bound : cb < searchingRange combination) (x : String) :
    (replaced combination cb x).length = searchingRange combination := by
  have range := searchingRange_eq combination
  rw [replaced, List.length_append, List.length_eraseIdx_of_lt (by rw [List.length_take]; omega), List.length_take]
  simp only [List.length_singleton]
  omega

theorem searchingRange_replaced {combination : Combination} {cb : Nat} (bound : cb < searchingRange combination) (x : String) :
    searchingRange (replaced combination cb x) = searchingRange combination := by
  have range := searchingRange_eq combination
  rw [searchingRange_eq, length_replaced bound]
  omega

/-- The body of both loops, with the recursive call as the source has it. -/
theorem StrategyFinder.replaceFrom_succ (f : StrategyFinder) (original current : Combination) (maxPerformance : Rat)
    {cb more : Nat} (bound : cb + (more + 1) = searchingRange current) :
    f.replaceFrom original maxPerformance (List.range' cb (more + 1)) current =
      (f.vmInstTypes.flatMap fun x =>
        if 0 < f.capacityInstType x then
          let cpuCapacity := f.calculateCpuCapacity ((current.take (searchingRange current)).eraseIdx cb) x
          let combination := replaced current cb x
          if f.filterScalingStrategy original combination then []
          else
            (if cpuCapacity < maxPerformance ∧ cpuCapacity > f.minPerformanceThroughput then
              [.decision cpuCapacity combination] else []) ++
            (if cb < searchingRange current - 1 then f.replaceScalingStrategyRecursive original combination maxPerformance cb
            else if cpuCapacity > maxPerformance then [.enlarge combination] else [])
        else []) ++ f.replaceFrom original maxPerformance (List.range' (cb + 1) more) current := by
  have later (x : String) : f.replaceFrom original maxPerformance (List.range' (cb + 1) more) (replaced current cb x) =
      f.replaceScalingStrategyRecursive original (replaced current cb x) maxPerformance cb := by
    have rest : searchingRange current - (cb + 1) = more := by omega
    rw [replaceScalingStrategyRecursive, searchingRange_replaced (by omega), rest]
  simp only [List.range'_succ, replaceFrom, later]

end ConPaaS
