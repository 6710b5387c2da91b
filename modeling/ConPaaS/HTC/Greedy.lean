import ConPaaS.HTC.Configuration
import ConPaaS.Lib.Fallible
import Mathlib.Tactic.NormNum

namespace ConPaaS.HTC.MachineTypes

variable (types : MachineTypes)

def ratio (k : Nat) : Rat := roundAway (types.cost k / (types.throughput k : Int) * 10 ^ 5) / 10 ^ 5

/-- The search takes types of a lesser ratio first, and the first of equal ones. -/
def Sooner (a b : Nat) : Prop := types.ratio a < types.ratio b ∨ types.ratio a = types.ratio b ∧ a ≤ b

instance : DecidableRel types.Sooner := fun _ _ => inferInstanceAs (Decidable (_ ∨ _))

def byRatio : List Nat := (List.range types.count).insertionSort types.Sooner

/-- The types in the order `cheap_check` tries them. -/
def cheapOrder : List Nat :=
  ((types.costsOrder.map types.cost).insertionSort (· ≤ ·)).map fun p => (types.costsOrder.map types.cost).idxOf p

/-- A point of the walk through the pool: the types that are full, the one that
is filled with its machines, and the ones that follow. -/
structure Station where
  done : List Nat
  current : Nat
  rest : List Nat
  taken : Nat

/-- The machines up to a point. -/
def stationConf (station : Station) (k : Nat) : Int :=
  if k ∈ station.done then types.limit k else if k = station.current then station.taken else 0

def start (station : Station) : Int := types.throughputOf (types.stationConf station)

/-- The cheapest type still open that would bring the total above the target. -/
def cheapest (target : Int) (station : Station) : Option Nat :=
  types.cheapOrder.find? fun kp => target < types.start station + types.throughput kp ∧ kp ∈ station.current :: station.rest

/-- The search ends at this point, if it comes to it. -/
def stops (target : Int) (station : Station) : Bool :=
  target ≤ types.start station || (types.cheapest target station).isSome

/-- The points at one type, from some machines on. -/
def stationsAt (done : List Nat) (current : Nat) (rest : List Nat) (taken left : Nat) : List Station :=
  (List.range' taken left).map fun taken => ⟨done, current, rest, taken⟩

def stationsFrom (done : List Nat) : List Nat → List Station
  | [] => []
  | current :: rest =>
    stationsAt done current rest 0 (types.limit current + 1) ++ stationsFrom (done ++ [current]) rest

def stations : List Station := types.stationsFrom [] types.byRatio

/-- What is within the limits and enough. -/
def Feasible (target : Int) (conf : Nat → Int) : Prop :=
  (∀ k < types.count, 0 ≤ conf k ∧ conf k ≤ types.limit k) ∧ target ≤ types.throughputOf conf

/-- At the first point where the search ends, and does so with a cheap machine,
there is one left of that type. -/
def CheapLeft (target : Int) : Prop :=
  ∀ station kp, types.stations.find? (types.stops target) = some station → types.start station < target →
    types.cheapest target station = some kp → types.stationConf station kp < types.limit kp

/-- What the search returns at the point where it ends. -/
def stopConf (target : Int) (station : Station) : Nat → Int :=
  if types.start station < target then
    match types.cheapest target station with
    | some kp => Configuration.oneMore (types.stationConf station) kp
    | none => types.stationConf station
  else types.stationConf station

section Order

instance : Std.Total types.Sooner where
  total a b := by
    unfold Sooner
    rcases lt_trichotomy (types.ratio a) (types.ratio b) with less | same | more
    · exact .inl (.inl less)
    · rcases Nat.le_total a b with before | after
      · exact .inl (.inr ⟨same, before⟩)
      · exact .inr (.inr ⟨same.symm, after⟩)
    · exact .inr (.inl more)

instance : IsTrans Nat types.Sooner where
  trans a b c := by
    unfold Sooner
    rintro (less | ⟨same, before⟩) (less' | ⟨same', before'⟩)
    · exact .inl (less.trans less')
    · exact .inl (same' ▸ less)
    · exact .inl (same ▸ less')
    · exact .inr ⟨same.trans same', before.trans before'⟩

theorem byRatio_perm : types.byRatio.Perm (List.range types.count) := List.perm_insertionSort _ _

theorem byRatio_sorted : types.byRatio.Pairwise types.Sooner := List.pairwise_insertionSort _ _

theorem byRatio_nodup : types.byRatio.Nodup := types.byRatio_perm.nodup_iff.mpr List.nodup_range

variable {types} {done rest : List Nat} {current : Nat}

theorem mem_byRatio {k : Nat} : k ∈ types.byRatio ↔ k < types.count := by
  rw [types.byRatio_perm.mem_iff, List.mem_range]

theorem current_not_mem (split : done ++ current :: rest = types.byRatio) : current ∉ done := by
  have nodup := types.byRatio_nodup
  rw [← split, List.nodup_append] at nodup
  exact fun member => nodup.2.2 current member current (List.mem_cons_self ..) rfl

/-- The types that are not full yet. -/
theorem mem_open_iff (split : done ++ current :: rest = types.byRatio) {k : Nat} :
    k ∈ current :: rest ↔ k < types.count ∧ k ∉ done := by
  have nodup := types.byRatio_nodup
  rw [← mem_byRatio, ← split, List.mem_append]
  rw [← split, List.nodup_append] at nodup
  constructor
  · exact fun member => ⟨.inr member, fun full => nodup.2.2 k full k member rfl⟩
  · rintro ⟨full | member, waits⟩
    · exact absurd full waits
    · exact member

end Order

section Steps

variable {types} {done rest : List Nat} {current taken : Nat} {target : Int}

/-- The ratios of the types that are not full yet. -/
def ratiosOf (types : MachineTypes) (done : List Nat) : List (Nat × Rat) :=
  ((List.range types.count).filter (· ∉ done)).map fun k => (k, types.ratio k)

theorem mem_ratiosOf_iff {k : Nat} : k ∈ (types.ratiosOf done).map Prod.fst ↔ k < types.count ∧ k ∉ done := by
  simp [ratiosOf, Function.comp_def]

theorem ratiosOf_filter : (types.ratiosOf done).filter (fun item => item.1 ≠ current) = types.ratiosOf (done ++ [current]) := by
  rw [ratiosOf, List.filter_map, List.filter_filter, ratiosOf]
  congr 2
  funext k
  simp [Bool.and_comm, not_or]

theorem computeRatios_eq : types.configuration.computeRatios = some (types.ratiosOf []) := by
  have each : ∀ key ∈ types.configuration.keys, ((types.configuration.throughput key.2).bind fun throughput =>
      if throughput = 0 then none
      else some (key.2, (roundAway (types.configuration.costs key.2 / throughput * 10 ^ 5) / 10 ^ 5 : Rat))) =
      some (key.2, types.ratio key.2) := by
    intro key member
    have number := List.mem_map_of_mem (f := Prod.snd) member
    rw [types.numbers, List.mem_range] at number
    have positive := types.throughput_pos key.2
    rw [types.throughput_of_lt number, Option.bind_some, if_neg (by omega)]
    rfl
  have all : (types.ratiosOf []) = types.configuration.keys.map fun key => (key.2, types.ratio key.2) := by
    simp only [ratiosOf, List.not_mem_nil, not_false_eq_true, decide_true, List.filter_true, ← types.numbers, List.map_map,
      Function.comp_def]
  rw [Configuration.computeRatios, Fallible.mapM_some each, all]

theorem cheapFrom_eq (ratios : List (Nat × Rat)) (start target : Int) {prices : List Rat}
    (known : prices ⊆ types.costsOrder.map types.cost) :
    types.configuration.cheapFrom ratios start target prices =
      some ((prices.map fun p => (types.costsOrder.map types.cost).idxOf p).find? fun kp =>
        target < start + types.throughput kp ∧ kp ∈ ratios.map Prod.fst) := by
  induction prices with
  | nil => rfl
  | cons p rest ih =>
    obtain ⟨here, later⟩ := List.cons_subset.mp known
    have place : (types.costsOrder.map types.cost).idxOf p < types.count := by
      have bound := List.idxOf_lt_length_of_mem here
      rwa [List.length_map, types.ordered.length_eq, List.length_range] at bound
    have throughput := types.throughput_of_lt place
    rw [Configuration.cheapFrom]
    change ((types.configuration.throughput ((types.costsOrder.map types.cost).idxOf p)).bind fun _ => _) = _
    rw [throughput, Option.bind_some, List.map_cons, List.find?_cons]
    by_cases reached : target < start + types.throughput ((types.costsOrder.map types.cost).idxOf p) ∧
        (types.costsOrder.map types.cost).idxOf p ∈ ratios.map Prod.fst
    · rw [decide_eq_true reached]
      exact if_pos reached
    · rw [decide_eq_false reached]
      exact (if_neg reached).trans (ih later)

theorem cheapCheck_eq (target : Int) (split : done ++ current :: rest = types.byRatio) (taken : Nat) :
    types.configuration.cheapCheck (types.ratiosOf done) (types.start ⟨done, current, rest, taken⟩) target =
      some (types.cheapest target ⟨done, current, rest, taken⟩) := by
  have known : (types.costsOrder.map types.cost).insertionSort (· ≤ ·) ⊆ types.costsOrder.map types.cost :=
    (List.perm_insertionSort _ _).subset
  refine (cheapFrom_eq _ _ target known).trans ?_
  simp only [cheapest, cheapOrder, mem_ratiosOf_iff, mem_open_iff split]

theorem find?_of_pairwise {α : Type} {rel : α → α → Prop} {p : α → Bool} {list : List α} {a b : α} (sorted : list.Pairwise rel)
    (found : list.find? p = some a) (member : b ∈ list) (holds : p b = true) : a = b ∨ rel a b := by
  induction sorted with
  | nil => cases member
  | @cons first rest before _ ih =>
    rw [List.find?_cons] at found
    split at found
    · cases found
      exact (List.mem_cons.mp member).imp Eq.symm (before b)
    · next other =>
      rcases List.mem_cons.mp member with rfl | later
      · rw [holds] at other
        cases other
      · exact ih found later

/-- The type that comes next has the first of the least ratios. -/
theorem bestRatio_eq (split : done ++ current :: rest = types.byRatio) :
    Configuration.bestRatio (types.ratiosOf done) = some current := by
  have sooner (k : Nat) (waits : k ∈ current :: rest) : k = current ∨ types.Sooner current k := by
    have sorted := types.byRatio_sorted
    rw [← split, List.pairwise_append] at sorted
    exact (List.mem_cons.mp waits).imp id ((List.pairwise_cons.mp sorted.2.1).1 k)
  have here : (current, types.ratio current) ∈ types.ratiosOf done := by
    have waits := (mem_open_iff split).mp (List.mem_cons_self ..)
    exact List.mem_map.mpr ⟨current, List.mem_filter.mpr ⟨List.mem_range.mpr waits.1, decide_eq_true waits.2⟩, rfl⟩
  have waiting (item : Nat × Rat) (member : item ∈ types.ratiosOf done) : item.1 ∈ current :: rest ∧ item.2 = types.ratio item.1 := by
    refine ⟨(mem_open_iff split).mpr (mem_ratiosOf_iff.mp (List.mem_map_of_mem member)), ?_⟩
    obtain ⟨k, -, rfl⟩ := List.mem_map.mp member
    rfl
  have least : ((types.ratiosOf done).map Prod.snd).min? = some (types.ratio current) := by
    refine List.min?_eq_some_iff.mpr ⟨List.mem_map_of_mem here, fun r member => ?_⟩
    obtain ⟨item, among, rfl⟩ := List.mem_map.mp member
    obtain ⟨waits, value⟩ := waiting item among
    rw [value]
    rcases sooner item.1 waits with same | less | ⟨equal, -⟩
    · rw [same]
    · exact less.le
    · exact equal.le
  have found : ((types.ratiosOf done).find? fun item => item.2 = types.ratio current).isSome :=
    List.find?_isSome.mpr ⟨_, here, decide_eq_true rfl⟩
  obtain ⟨item, found⟩ := Option.isSome_iff_exists.mp found
  obtain ⟨waits, value⟩ := waiting item (List.mem_of_find?_eq_some found)
  have ascending : (types.ratiosOf done).Pairwise fun a b => a.1 < b.1 :=
    List.pairwise_map.mpr (List.pairwise_lt_range.filter _)
  have first : item.1 = current := by
    have equal : item.2 = types.ratio current := by simpa using List.find?_some found
    rcases find?_of_pairwise ascending found here (decide_eq_true rfl) with same | less
    · rw [same]
    · rcases sooner item.1 waits with same | less' | ⟨-, before⟩
      · exact same
      · rw [value] at equal
        exact absurd equal less'.ne'
      · omega
  rw [Configuration.bestRatio, least, Option.bind_eq_bind, Option.bind_some, found, Option.bind_eq_bind, Option.bind_some, first]
  rfl

theorem stationConf_next (split : done ++ current :: rest = types.byRatio) (taken : Nat) :
    Configuration.oneMore (types.stationConf ⟨done, current, rest, taken⟩) current =
      types.stationConf ⟨done, current, rest, taken + 1⟩ := by
  have waits := current_not_mem split
  funext k
  by_cases same : k = current
  · subst same
    simp [Configuration.oneMore, stationConf, waits]
  · simp [Configuration.oneMore, stationConf, same]

theorem start_next (split : done ++ current :: rest = types.byRatio) (taken : Nat) :
    types.start ⟨done, current, rest, taken + 1⟩ = types.start ⟨done, current, rest, taken⟩ + types.throughput current := by
  have bound := ((mem_open_iff split).mp (List.mem_cons_self ..)).1
  rw [start, ← stationConf_next split, types.throughputOf_oneMore bound, start]

/-- The inner loop stops at the first point that ends the search, or goes on
with a type that is full. -/
theorem fillType_eq (target : Int) (split : done ++ current :: rest = types.byRatio) (taken left : Nat) :
    types.configuration.fillType (types.ratiosOf done) target current left (types.start ⟨done, current, rest, taken⟩)
        (types.stationConf ⟨done, current, rest, taken⟩) =
      some (match (stationsAt done current rest (taken + 1) left).find? (types.stops target) with
        | some station => .returned (types.stopConf target station)
        | none => .goesOn (types.start ⟨done, current, rest, taken + left⟩)
            (types.stationConf ⟨done, current, rest, taken + left⟩)) := by
  induction left generalizing taken with
  | zero => rfl
  | succ left ih =>
    have bound := ((mem_open_iff split).mp (List.mem_cons_self ..)).1
    have stations : stationsAt done current rest (taken + 1) (left + 1) =
        ⟨done, current, rest, taken + 1⟩ :: stationsAt done current rest (taken + 1 + 1) left := by
      rw [stationsAt, List.range'_succ, List.map_cons, stationsAt]
    rw [Configuration.fillType, types.throughput_of_lt bound, Option.bind_eq_bind, Option.bind_some, stationConf_next split,
      ← start_next split, stations, List.find?_cons]
    dsimp only
    rw [cheapCheck_eq target split, Option.bind_eq_bind, Option.bind_some]
    by_cases enough : target ≤ types.start ⟨done, current, rest, taken + 1⟩
    · simp only [stops, decide_eq_true enough, Bool.true_or, if_pos enough, stopConf, if_neg enough.not_gt]
    · cases cheap : types.cheapest target ⟨done, current, rest, taken + 1⟩ with
      | some kp =>
        simp only [stops, cheap, Option.isSome_some, Bool.or_true, if_neg enough, stopConf, if_pos (not_le.mp enough)]
      | none =>
        simp only [stops, cheap, Option.isSome_none, Bool.or_false, if_neg enough, decide_eq_false enough]
        rw [ih]
        have more : taken + 1 + left = taken + (left + 1) := by omega
        simp only [more]

end Steps

section Search

variable {types} {target : Int}

/-- The types that are full and no others. -/
def fullConf (types : MachineTypes) (done : List Nat) (k : Nat) : Int := if k ∈ done then types.limit k else 0

theorem stationConf_first (types : MachineTypes) (done rest : List Nat) (current : Nat) :
    types.stationConf ⟨done, current, rest, 0⟩ = types.fullConf done := by
  funext k
  simp [stationConf, fullConf]

theorem stationConf_full (done rest : List Nat) (current : Nat) :
    types.stationConf ⟨done, current, rest, types.limit current⟩ = types.fullConf (done ++ [current]) := by
  funext k
  by_cases same : k = current
  · simp [stationConf, fullConf, same]
  · simp [stationConf, fullConf, same]

/-- The search returns what it has at the first point that ends it. -/
theorem fillTypes_eq (types : MachineTypes) (target : Int) {done queue : List Nat} (split : done ++ queue = types.byRatio) :
    types.configuration.fillTypes target queue.length (types.ratiosOf done) (types.throughputOf (types.fullConf done))
        (types.fullConf done) =
      some (match (types.stationsFrom done queue).find? (types.stops target) with
        | some station => types.stopConf target station
        | none => types.fullConf types.byRatio) := by
  induction queue generalizing done with
  | nil =>
    rw [List.append_nil] at split
    rw [split]
    rfl
  | cons current rest ih =>
    have stations : types.stationsFrom done (current :: rest) = ⟨done, current, rest, 0⟩ ::
        (stationsAt done current rest (0 + 1) (types.limit current) ++ types.stationsFrom (done ++ [current]) rest) := by
      rw [stationsFrom, stationsAt, List.range'_succ, List.map_cons, stationsAt, List.cons_append]
    have conf := stationConf_first types done rest current
    have cheap := cheapCheck_eq target split 0
    have fill := fillType_eq target split 0 (types.limit current)
    have waits : types.fullConf done current = 0 := if_neg (current_not_mem split)
    rw [start, conf] at cheap fill
    rw [List.length_cons, Configuration.fillTypes, stations, List.find?_cons, cheap, bestRatio_eq split]
    simp only [Option.bind_eq_bind, Option.bind_some]
    rw [waits, Int.sub_zero, show (types.configuration.limits current : Int).toNat = types.limit current from Int.toNat_natCast _, fill,
      Option.bind_some, List.find?_append]
    by_cases enough : target ≤ types.throughputOf (types.fullConf done)
    · have first : types.stops target ⟨done, current, rest, 0⟩ = true := by
        rw [stops, start, conf, decide_eq_true enough, Bool.true_or]
      rw [if_neg enough.not_gt, first]
      dsimp only
      rw [stopConf, start, conf, if_neg enough.not_gt]
    · rw [if_pos (not_le.mp enough)]
      cases found : types.cheapest target ⟨done, current, rest, 0⟩ with
      | some kp =>
        have first : types.stops target ⟨done, current, rest, 0⟩ = true := by
          rw [stops, found, Option.isSome_some, Bool.or_true]
        rw [first]
        dsimp only
        rw [stopConf, start, conf, if_pos (not_le.mp enough), found]
      | none =>
        have first : types.stops target ⟨done, current, rest, 0⟩ = false := by
          rw [stops, start, conf, found, decide_eq_false enough, Option.isSome_none, Bool.or_false]
        rw [first]
        dsimp only
        cases (stationsAt done current rest (0 + 1) (types.limit current)).find? (types.stops target) with
        | some station => rfl
        | none =>
          rw [Option.none_or, Nat.zero_add, start, stationConf_full, ratiosOf_filter]
          exact ih (by rw [List.append_assoc, List.singleton_append, split])

theorem computeConfiguration_eq (types : MachineTypes) (target : Int) : types.configuration.computeConfiguration target =
    some (match types.stations.find? (types.stops target) with
      | some station => types.stopConf target station
      | none => types.fullConf types.byRatio) := by
  have empty : types.fullConf [] = fun _ => 0 := rfl
  have none : types.throughputOf (fun _ => 0) = 0 := by simp [throughputOf]
  have length : (types.ratiosOf []).length = types.byRatio.length := by
    rw [types.byRatio_perm.length_eq, ratiosOf, List.length_map, List.filter_eq_self.mpr fun _ _ => decide_eq_true List.not_mem_nil]
  have run := fillTypes_eq types target (List.nil_append types.byRatio)
  rw [empty, none] at run
  rw [Configuration.computeConfiguration, computeRatios_eq, Option.bind_eq_bind, Option.bind_some, length, run, stations]

theorem mem_stationsFrom {done queue : List Nat} (split : done ++ queue = types.byRatio) {station : Station}
    (member : station ∈ types.stationsFrom done queue) :
    station.done ++ station.current :: station.rest = types.byRatio ∧ station.taken ≤ types.limit station.current := by
  induction queue generalizing done with
  | nil => cases member
  | cons current rest ih =>
    rcases List.mem_append.mp member with here | later
    · obtain ⟨taken, bound, rfl⟩ := List.mem_map.mp here
      have within := (List.mem_range'_1.mp bound).2
      exact ⟨split, by simp only; omega⟩
    · exact ih (by rw [List.append_assoc, List.singleton_append, split]) later

theorem stationConf_le (types : MachineTypes) {station : Station} (within : station.taken ≤ types.limit station.current) (k : Nat) :
    0 ≤ types.stationConf station k ∧ types.stationConf station k ≤ types.limit k := by
  rw [stationConf]
  split
  · omega
  · split
    · next same =>
      rw [same]
      omega
    · omega

theorem throughputOf_full : types.throughputOf (types.fullConf types.byRatio) = types.throughputOf fun k => types.limit k := by
  rw [throughputOf, throughputOf]
  congr 1
  refine List.map_congr_left fun k member => ?_
  rw [fullConf, if_pos (mem_byRatio.mpr (List.mem_range.mp member))]

theorem cheapest_some {station : Station} {kp : Nat} (cheap : types.cheapest target station = some kp) :
    target < types.start station + types.throughput kp ∧ kp ∈ station.current :: station.rest := by
  rw [cheapest] at cheap
  have holds := List.find?_some cheap
  exact of_decide_eq_true holds

/-- The greedy configuration is enough, and it is within the limits unless the
search ends with a machine of a type that has none left. -/
theorem computeConfiguration_feasible_iff (enough : target ≤ types.configuration.computeTmax) :
    (∃ conf, types.configuration.computeConfiguration target = some conf ∧ types.Feasible target conf) ↔
      types.CheapLeft target := by
  rw [computeConfiguration_eq]
  simp only [Option.some.injEq, exists_eq_left']
  cases found : types.stations.find? (types.stops target) with
  | none =>
    refine iff_of_true ⟨fun k bound => ?_, ?_⟩ fun station kp other => by rw [found] at other; cases other
    · dsimp only
      rw [fullConf, if_pos (mem_byRatio.mpr bound)]
      omega
    · rwa [throughputOf_full, ← computeTmax_eq]
  | some station =>
    have reaches := List.find?_some found
    obtain ⟨split, within⟩ := mem_stationsFrom (List.nil_append _) (List.mem_of_find?_eq_some found)
    have bounds := stationConf_le types within
    dsimp only
    by_cases reached : target ≤ types.start station
    · refine iff_of_true ?_ fun other kp same less => ?_
      · rw [stopConf, if_neg reached.not_gt]
        exact ⟨fun k _ => bounds k, reached⟩
      · rw [found] at same
        cases same
        exact absurd less reached.not_gt
    · have less := not_le.mp reached
      rw [stops, decide_eq_false reached, Bool.false_or] at reaches
      obtain ⟨kp, cheap⟩ := Option.isSome_iff_exists.mp reaches
      have added := cheapest_some cheap
      have bound := ((mem_open_iff split).mp added.2).1
      have total := types.throughputOf_oneMore bound (types.stationConf station)
      rw [stopConf, if_pos less, cheap]
      constructor
      · rintro ⟨limits, -⟩ other kp' same - cheap'
        rw [found] at same
        cases same
        rw [cheap] at cheap'
        cases cheap'
        have limit := (limits kp bound).2
        simp only [Configuration.oneMore, Function.update_self] at limit
        omega
      · intro left
        have room := left station kp found less cheap
        refine ⟨fun k _ => ?_, ?_⟩
        · by_cases same : k = kp
          · have here := bounds kp
            simp only [Configuration.oneMore, same, Function.update_self]
            omega
          · simp only [Configuration.oneMore, Function.update_of_ne same]
            exact bounds k
        · dsimp only
          rw [total]
          exact added.1.le

end Search

instance (types : MachineTypes) (target : Int) (conf : Nat → Int) : Decidable (types.Feasible target conf) :=
  inferInstanceAs (Decidable (_ ∧ _))

/-- One machine of each of two types, of which one costs more. -/
def twoMachines : MachineTypes where
  names := ["small", "medium"]
  distinct := by decide
  throughput _ := 5
  cost k := if k = 0 then 1 else 10
  limit _ := 1
  costsOrder := [0, 1]
  ordered := .refl _
  throughput_pos _ := by decide
  cost_pos _ := by split <;> norm_num

theorem oneMachine_feasible : twoMachines.CheapLeft 5 := by
  refine (computeConfiguration_feasible_iff (by decide +kernel)).mp ?_
  have feasible : (twoMachines.configuration.computeConfiguration 5).any (fun conf => twoMachines.Feasible 5 conf) = true := by
    decide +kernel
  obtain ⟨conf, computed, within⟩ := (Option.any_eq_true _ _).mp feasible
  exact ⟨conf, computed, of_decide_eq_true within⟩

/-- The cheap machine is used a second time, though there is only one. -/
theorem cheapMachine_taken_twice : ¬ ∀ (types : MachineTypes) (target : Int), 1 ≤ target → target ≤ types.configuration.computeTmax →
    ∃ conf, types.configuration.computeConfiguration target = some conf ∧ types.Feasible target conf := by
  intro claim
  obtain ⟨conf, computed, within⟩ := claim twoMachines 7 (by decide) (by decide +kernel)
  have fails : (twoMachines.configuration.computeConfiguration 7).any (fun conf => twoMachines.Feasible 7 conf) = false := by
    decide +kernel
  rw [computed, Option.any_some, decide_eq_false_iff_not] at fails
  exact fails within

end ConPaaS.HTC.MachineTypes
