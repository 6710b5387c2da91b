import ConPaaS.Lib.Effect
import Mathlib.Algebra.Order.Floor.Ring
import Mathlib.Data.List.Sort
import Mathlib.Data.Rat.Floor
import Mathlib.Logic.Function.Basic
import Mathlib.Algebra.BigOperators.Group.List.Basic
import Mathlib.Algebra.Order.Field.Rat
import Mathlib.Tactic.Ring

namespace ConPaaS.HTC

open Effect

/-- `round`, for which halves go away from zero. -/
def roundAway (x : Rat) : Int := if 0 ≤ x then ⌊x + 1 / 2⌋ else -⌊-x + 1 / 2⌋

/-- The tables of `dynamic_configuration`: how many machines of each type, and
what they cost. -/
structure Tables where
  confDict : Int → Option (Nat → Int)
  m : Int → Option Rat

/-- Machine types have numbers, which `keys` lists in increasing order. The dict
of the costs iterates in an order of its own. -/
structure Configuration where
  keys : List (String × Nat)
  costsOrder : List Nat
  costs : Nat → Rat
  limits : Nat → Nat
  notasks : Nat → Nat := fun _ => 0
  averages : Nat → Rat := fun _ => 0
  rav : Nat → Rat := fun _ => 0
  throughput : Nat → Option Int := fun _ => none
  tables : Tables := ⟨fun _ => none, fun _ => none⟩

/-- The class ad attributes `update_configuration` reads, which may be missing. -/
structure TaskResult where
  machineType : Option String
  wallClockTime : Option Rat

namespace Configuration

variable (c : Configuration)

def unit : Rat := 60

/-- What `set_average` makes of an average, by the name of the type. -/
def ravOf (mType : String) (value old : Rat) : Rat :=
  match mType with
  | "small" => value
  | "medium" => value / 4
  | "large" => value / 8
  | _ => old

def setAverage (mType : String) (value : Rat) (count : Nat) : EStateM Unit Configuration Unit := do
  match (← get).keys.lookup mType with
  | none => throw ()
  | some k =>
    modify fun c =>
      { c with
        averages := Function.update c.averages k value
        notasks := Function.update c.notasks k (c.notasks k + count)
        rav := Function.update c.rav k (ravOf mType value (c.rav k)) }

/-- The body of the loop in `compute_throughput`. -/
def rateType (key : String × Nat) : EStateM Unit Configuration Unit := do
  let c ← get
  if 0 < c.notasks key.2 then
    if c.rav key.2 = 0 then throw ()
    else modify fun c => { c with throughput := Function.update c.throughput key.2 (some (roundAway (unit / c.rav key.2))) }

def computeThroughput : EStateM Unit Configuration Unit := do
  forEach rateType (← get).keys

def relevantTimeUnit : EStateM Unit Configuration Unit := do
  modify fun c => { c with costs := fun k => c.costs k * (unit / 3600) }
  computeThroughput

/-- The machine types that have a throughput, with it. -/
def rated : List (Nat × Int) :=
  c.keys.filterMap fun key => (c.throughput key.2).map fun throughput => (key.2, throughput)

def computeTmax : Int := (c.rated.map fun item => (c.limits item.1 : Int) * item.2).sum

def costConf (conf : Nat → Int) : Rat := (c.keys.map fun key => (conf key.2 : Rat) * c.costs key.2).sum

/-- The body of the loop over the types for one throughput `t`: the tables so
far, and the type whose machine is left out. -/
def tryType (tmax t : Int) (state : Tables × Option Nat) (item : Nat × Int) : Except Tables (Tables × Option Nat) :=
  if t ≤ tmax - item.2 then
    match state.1.m t, state.1.m (t + item.2) with
    | some best, some cost =>
      if best > cost - c.costs item.1 then
        match state.1.confDict (t + item.2) with
        | none => .error state.1
        | some conf =>
          if conf item.1 > 0 then
            .ok ({ state.1 with m := Function.update state.1.m t (some (cost - c.costs item.1)) }, some item.1)
          else .ok state
      else .ok state
    | _, _ => .error state.1
  else .ok state

/-- One turn of the loop of `dynamic_configuration`. A missing key ends it. -/
def fillAt (tmax t : Int) (tables : Tables) : Except Tables Tables := do
  match tables.m (t + 1) with
  | none => .error tables
  | some cost =>
    let (tables, km) ← c.rated.foldlM (c.tryType tmax t) ({ tables with m := Function.update tables.m t (some cost) }, none)
    match km with
    | none =>
      match tables.confDict (t + 1) with
      | none => .error tables
      | some conf => .ok { tables with confDict := Function.update tables.confDict t (some conf) }
    | some km =>
      match (c.throughput km).bind fun throughput => tables.confDict (t + throughput) with
      | none => .error tables
      | some conf =>
        .ok { tables with confDict := Function.update tables.confDict t (some (Function.update conf km (conf km - 1))) }

/-- The loop, from below `n` down to 0. -/
def fillDown (tmax : Int) : Nat → Tables → Except Tables Tables
  | 0, tables => .ok tables
  | n + 1, tables => do fillDown tmax n (← c.fillAt tmax n tables)

/-- The tables with the whole pool alone. -/
def poolTables : Tables where
  confDict := Function.update (fun _ => none) c.computeTmax (some fun k => c.limits k)
  m := Function.update (fun _ => none) c.computeTmax (some (c.costConf fun k => c.limits k))

def dynamicTables : Except Tables Tables := do
  let tables ← c.fillDown c.computeTmax c.computeTmax.toNat c.poolTables
  return { tables with m := Function.update tables.m 0 (some 0) }

def dynamicConfiguration : EStateM Unit Configuration Unit := do
  match (← get).dynamicTables with
  | .error tables => do
    modify fun c => { c with tables }
    throw ()
  | .ok tables => modify fun c => { c with tables }

/-- `tot` and `num` after one task. -/
def addTask (totals : List (String × Rat × Nat)) (task : TaskResult) : Option (List (String × Rat × Nat)) := do
  let machineType ← task.machineType
  let time ← task.wallClockTime
  if totals.any (·.1 = machineType) then
    return totals.map fun total => if total.1 = machineType then (total.1, total.2.1 + time, total.2.2 + 1) else total
  else return totals ++ [(machineType, time, 1)]

/-- The body of the loop over `tot`. -/
def averageType (total : String × Rat × Nat) : EStateM Unit Configuration Unit := do
  let c ← get
  match c.keys.lookup total.1 with
  | none => throw ()
  | some k =>
    let av := c.averages k
    let no := c.notasks k
    let newtot := total.2.1 + no * av
    let newno := total.2.2 + no
    let newav := if av = 0 then newtot / newno else 0.6 * av + 0.4 * total.2.1 / total.2.2
    setAverage total.1 newav newno

/-- `update_configuration` of the manager. The dict of the totals iterates in the
order that `order` brings them into. -/
def updateConfiguration (order : List (String × Rat × Nat) → List (String × Rat × Nat)) (tasks : List TaskResult) :
    EStateM Unit Configuration Unit := do
  match tasks.foldlM addTask [] with
  | none => throw ()
  | some totals =>
    forEach averageType (order totals)
    relevantTimeUnit
    relevantTimeUnit
    dynamicConfiguration

/-- `compute_ratios`, with the ratios rounded to five places. -/
def computeRatios : Option (List (Nat × Rat)) :=
  c.keys.mapM fun key => (c.throughput key.2).bind fun throughput =>
    if throughput = 0 then none else some (key.2, roundAway (c.costs key.2 / throughput * 10 ^ 5) / 10 ^ 5)

/-- The loop of `cheap_check` over the sorted costs: the type whose machine it
adds. `index` gives a place in the order of the dict, which is taken for a type. -/
def cheapFrom (ratios : List (Nat × Rat)) (start target : Int) : List Rat → Option (Option Nat)
  | [] => some none
  | p :: rest => do
    let kp := (c.costsOrder.map c.costs).idxOf p
    let throughput ← c.throughput kp
    if start + throughput > target ∧ kp ∈ ratios.map Prod.fst then some (some kp)
    else cheapFrom ratios start target rest

def cheapCheck (ratios : List (Nat × Rat)) (start target : Int) : Option (Option Nat) :=
  c.cheapFrom ratios start target ((c.costsOrder.map c.costs).insertionSort (· ≤ ·))

def oneMore (conf : Nat → Int) (k : Nat) : Nat → Int := Function.update conf k (conf k + 1)

/-- How the inner loop ends. -/
inductive Filled
  | returned (conf : Nat → Int)
  | goesOn (start : Int) (conf : Nat → Int)

/-- The inner loop, with the number of machines below the limit. -/
def fillType (ratios : List (Nat × Rat)) (target : Int) (km : Nat) : Nat → Int → (Nat → Int) → Option Filled
  | 0, start, conf => some (.goesOn start conf)
  | left + 1, start, conf => do
    let start := start + (← c.throughput km)
    let conf := oneMore conf km
    if start ≥ target then some (.returned conf)
    else match ← c.cheapCheck ratios start target with
      | some kp => some (.returned (oneMore conf kp))
      | none => fillType ratios target km left start conf

/-- The first type that has the least ratio. -/
def bestRatio (ratios : List (Nat × Rat)) : Option Nat := do
  let m ← (ratios.map Prod.snd).min?
  let item ← ratios.find? fun item => item.2 = m
  return item.1

/-- The outer loop, which leaves out a type in each turn. -/
def fillTypes (target : Int) : Nat → List (Nat × Rat) → Int → (Nat → Int) → Option (Nat → Int)
  | 0, _, _, conf => some conf
  | more + 1, ratios, start, conf =>
    if start < target then do
      match ← c.cheapCheck ratios start target with
      | some kp => some (oneMore conf kp)
      | none =>
        let km ← bestRatio ratios
        match ← c.fillType ratios target km (c.limits km - conf km).toNat start conf with
        | .returned conf => some conf
        | .goesOn start conf => fillTypes target more (ratios.filter fun item => item.1 ≠ km) start conf
    else some conf

def computeConfiguration (target : Int) : Option (Nat → Int) := do
  let ratios ← c.computeRatios
  c.fillTypes target ratios.length ratios 0 fun _ => 0

end Configuration

/-- A set of machine types, each with a throughput already, in the order they
are configured. -/
structure MachineTypes where
  names : List String
  distinct : names.Nodup
  throughput : Nat → Nat
  cost : Nat → Rat
  limit : Nat → Nat
  costsOrder : List Nat
  ordered : costsOrder.Perm (List.range names.length)
  throughput_pos : ∀ k, 0 < throughput k
  cost_pos : ∀ k, 0 < cost k

namespace MachineTypes

variable (types : MachineTypes)

def count : Nat := types.names.length

/-- `Configuration` with these types. -/
def configuration : Configuration where
  keys := types.names.zipIdx
  costsOrder := types.costsOrder
  costs := types.cost
  limits := types.limit
  throughput k := if k < types.count then some (types.throughput k : Int) else none

/-- What some machines do in a time unit. -/
def throughputOf (conf : Nat → Int) : Int := ((List.range types.count).map fun k => conf k * types.throughput k).sum

/-- What some machines cost. -/
def costOf (conf : Nat → Int) : Rat := ((List.range types.count).map fun k => (conf k : Rat) * types.cost k).sum

theorem numbers : types.configuration.keys.map Prod.snd = List.range types.count := by
  rw [configuration, List.zipIdx_map_snd, count, List.range_eq_range']

theorem throughput_of_lt {k : Nat} (bound : k < types.count) :
    types.configuration.throughput k = some (types.throughput k : Int) := if_pos bound

theorem rated_eq : types.configuration.rated = (List.range types.count).map fun k => (k, (types.throughput k : Int)) := by
  rw [Configuration.rated, ← types.numbers, List.map_map, ← List.filterMap_eq_map]
  refine List.filterMap_congr fun key member => ?_
  have number := List.mem_map_of_mem (f := Prod.snd) member
  rw [types.numbers, List.mem_range] at number
  rw [types.throughput_of_lt number]
  rfl

theorem computeTmax_eq : types.configuration.computeTmax = types.throughputOf fun k => types.limit k := by
  rw [Configuration.computeTmax, rated_eq, List.map_map]
  rfl

theorem costConf_eq (conf : Nat → Int) : types.configuration.costConf conf = types.costOf conf := by
  rw [Configuration.costConf, costOf, ← types.numbers, List.map_map]
  rfl

/-- A sum over the types, when the machines of one type change. -/
theorem sum_update {R : Type} [CommRing R] (weight : Nat → R) (conf : Nat → Int) {k : Nat} (bound : k < types.count) (v : Int) :
    ((List.range types.count).map fun j => ((Function.update conf k v j : Int) : R) * weight j).sum =
      ((List.range types.count).map fun j => ((conf j : Int) : R) * weight j).sum + ((v - conf k : Int) : R) * weight k := by
  have perm := List.perm_cons_erase (List.mem_range.mpr bound)
  have others : ((List.range types.count).erase k).map (fun j => ((Function.update conf k v j : Int) : R) * weight j) =
      ((List.range types.count).erase k).map fun j => ((conf j : Int) : R) * weight j := by
    refine List.map_congr_left fun j member => ?_
    rw [Function.update_of_ne (List.nodup_range.mem_erase_iff.mp member).1]
  rw [(perm.map _).sum_eq, (perm.map _).sum_eq, List.map_cons, List.map_cons, List.sum_cons, List.sum_cons, others,
    Function.update_self, Int.cast_sub]
  ring

theorem throughputOf_update (conf : Nat → Int) {k : Nat} (bound : k < types.count) (v : Int) :
    types.throughputOf (Function.update conf k v) = types.throughputOf conf + (v - conf k) * types.throughput k := by
  simpa only [throughputOf, Int.cast_id] using types.sum_update (fun j => (types.throughput j : Int)) conf bound v

theorem throughputOf_oneMore {k : Nat} (bound : k < types.count) (conf : Nat → Int) :
    types.throughputOf (Configuration.oneMore conf k) = types.throughputOf conf + types.throughput k := by
  rw [Configuration.oneMore, types.throughputOf_update conf bound, add_sub_cancel_left, one_mul]

theorem costOf_update (conf : Nat → Int) {k : Nat} (bound : k < types.count) (v : Int) :
    types.costOf (Function.update conf k v) = types.costOf conf + ((v - conf k : Int) : Rat) * types.cost k :=
  types.sum_update types.cost conf bound v

end MachineTypes

end ConPaaS.HTC
