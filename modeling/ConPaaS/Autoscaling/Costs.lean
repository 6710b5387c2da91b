import ConPaaS.Autoscaling.Averages
import ConPaaS.Lib.Fallible
import ConPaaS.Lib.Table
import ConPaaS.Lib.Transition
import Mathlib.Algebra.Order.BigOperators.Group.List
import Mathlib.Algebra.Order.Floor.Ring
import Mathlib.Data.NNRat.Defs
import Mathlib.Data.Rat.Floor
import Mathlib.Tactic.Linarith
import Mathlib.Tactic.NormNum

namespace ConPaaS

open Keyed Transition

/-- The lengths of the months of a year. -/
def monthLengths (year : Nat) : List Nat :=
  let leap := year % 4 = 0 ∧ (year % 100 ≠ 0 ∨ year % 400 = 0)
  [31, if leap then 29 else 28, 31, 30, 31, 30, 31, 31, 30, 31, 30, 31]

/-- The months of the years a date can have. -/
def calendar : List Nat := (List.range 9999).flatMap fun year => monthLengths (year + 1)

/-- The day of the month after some days from the first day on. -/
def dayOfMonth : List Nat → Nat → Option Nat
  | [], _ => none
  | month :: later, days => if days < month then some (days + 1) else dayOfMonth later (days - month)

/-- The fields of a date that the cost is computed from. -/
structure Date where
  day : Nat
  hour : Nat
  minute : Nat

/-- `datetime(1, 1, 1) + timedelta(seconds=int(time_secs))`, if there is such a date. -/
def dateAfter (timeSecs : Rat) : Option Date :=
  let sec := truncated timeSecs
  if sec < 0 then none
  else
    (dayOfMonth calendar (sec.toNat / 86400)).map fun day => ⟨day, sec.toNat % 86400 / 3600, sec.toNat % 3600 / 60⟩

/-- The formula of `print_vm_cost` and `calculate_cost`. -/
def usageCost (instCost timeSecs : Rat) : Option Rat :=
  (dateAfter timeSecs).map fun d =>
    let cost := (((d.day - 1) * 24 + d.hour : Nat) : Rat) * instCost
    if d.minute > 0 then cost + instCost else cost

/-- An entry of `vmes_usage`. -/
structure VmUsage where
  ip : String
  boottime : Rat
  instType : String

/-- The prices of the types of machines. -/
structure PriceList where
  instancesTypePrice : String → Rat
  positive : ∀ instType, 0 < instancesTypePrice instType

structure CostController where
  vmesUsage : Table VmUsage.ip
  costVmesRemoval : Rat

namespace CostController

variable (prices : PriceList) (now : Rat) (c : CostController)

def updateVmUsage (ip : String) (boottime : Rat) (instType : String) : CostController :=
  if boottime ≠ -1 then { c with vmesUsage := c.vmesUsage.put ⟨ip, boottime, instType⟩ } else c

/-- What `print_vm_cost` adds for a machine. -/
def vmCost (usage : VmUsage) : Option Rat := usageCost (prices.instancesTypePrice usage.instType) (now - usage.boottime)

def calculateCost (ip : String) : Option Rat :=
  match c.vmesUsage.get? ip with
  | some usage => vmCost prices now usage
  | none => some 0

/-- `remove_vm_usage`. What fails is logged. -/
def removeVmUsage (ip : String) : CostController :=
  match c.calculateCost prices now ip with
  | some cost => { vmesUsage := c.vmesUsage.erase ip, costVmesRemoval := c.costVmesRemoval + cost }
  | none => c

/-- `total_cost` after `print_vm_cost`. -/
def printVmCost : Option Rat := (c.vmesUsage.rows.mapM (vmCost prices now)).map fun costs => costs.sum + c.costVmesRemoval

end CostController

/-- The hours that are charged for some seconds in the first month of the calendar. -/
def chargedHours (seconds : Nat) : Nat := seconds / 3600 + if seconds % 3600 / 60 > 0 then 1 else 0

def firstMonth : Nat := 31 * 86400

theorem chargedHours_mono {earlier later : Nat} (le : earlier ≤ later) : chargedHours earlier ≤ chargedHours later := by
  unfold chargedHours
  split <;> split <;> omega

theorem calendar_first : ∃ later, calendar = 31 :: 28 :: later := by
  rw [calendar, show 9999 = 9998 + 1 from rfl, List.range_succ_eq_map, List.flatMap_cons, monthLengths]
  exact ⟨_, List.cons_append⟩

theorem dayOfMonth_first {days : Nat} (bound : days < 31) : dayOfMonth calendar days = some (days + 1) := by
  obtain ⟨later, first⟩ := calendar_first
  rw [first]
  exact if_pos bound

theorem dayOfMonth_le {months : List Nat} (short : ∀ month ∈ months, month ≤ 31) {days day : Nat}
    (found : dayOfMonth months days = some day) : day ≤ 31 := by
  induction months generalizing days with
  | nil => cases found
  | cons month later ih =>
    obtain ⟨here, short⟩ := List.forall_mem_cons.mp short
    rw [dayOfMonth] at found
    split at found
    · cases found
      omega
    · exact ih short found

theorem calendar_short : ∀ month ∈ calendar, month ≤ 31 := by
  intro month member
  obtain ⟨year, -, inside⟩ := List.mem_flatMap.mp member
  unfold monthLengths at inside
  simp only [List.mem_cons, List.not_mem_nil, or_false] at inside
  split at inside <;> omega

variable {instCost timeSecs : Rat}

theorem truncated_floor (begun : -1 < timeSecs) : truncated timeSecs = (⌊timeSecs⌋₊ : Int) := by
  unfold truncated
  split
  · rw [Int.natCast_floor_eq_floor ‹_›]
  · rename_i early
    have none : ⌊timeSecs⌋₊ = 0 := Nat.floor_of_nonpos (not_le.mp early).le
    rw [none, Nat.cast_zero, Int.ceil_eq_zero_iff]
    exact ⟨begun, (not_le.mp early).le⟩

theorem truncated_early (early : timeSecs ≤ -1) : truncated timeSecs < 0 := by
  rw [truncated, if_neg (by linarith), Int.ceil_lt_iff, Int.cast_zero]
  linarith

/-- In the first month the formula charges for hours. -/
theorem usageCost_first (begun : -1 < timeSecs) (bound : timeSecs < firstMonth) :
    usageCost instCost timeSecs = some (chargedHours ⌊timeSecs⌋₊ * instCost) := by
  have below : ⌊timeSecs⌋₊ < firstMonth := (Nat.floor_lt' (by decide)).mpr bound
  have days : ⌊timeSecs⌋₊ / 86400 < 31 := by
    unfold firstMonth at below
    omega
  rw [usageCost, dateAfter, truncated_floor begun]
  simp only [Int.toNat_natCast, dayOfMonth_first days, Int.not_lt.mpr (Int.natCast_nonneg _), if_false, Option.map_some]
  have hours : (⌊timeSecs⌋₊ / 86400 + 1 - 1) * 24 + ⌊timeSecs⌋₊ % 86400 / 3600 = ⌊timeSecs⌋₊ / 3600 := by omega
  rw [hours, chargedHours]
  split
  · rw [Nat.cast_add, Nat.cast_one, add_mul, one_mul]
  · rw [Nat.add_zero]

/-- Later the formula charges for fewer hours than there were. -/
theorem usageCost_later {cost : Rat} (late : firstMonth ≤ timeSecs) (charged : usageCost instCost timeSecs = some cost) :
    ∃ hours : Nat, cost = hours * instCost ∧ hours < ⌈timeSecs / 3600⌉ := by
  have begun : -1 < timeSecs := by linarith [(Nat.cast_nonneg firstMonth : (0 : Rat) ≤ firstMonth)]
  have begun' : 0 ≤ timeSecs := by linarith [(Nat.cast_nonneg firstMonth : (0 : Rat) ≤ firstMonth)]
  have above : firstMonth ≤ ⌊timeSecs⌋₊ := Nat.le_floor late
  obtain ⟨date, found, rfl⟩ := Option.map_eq_some_iff.mp charged
  rw [dateAfter, truncated_floor begun, if_neg (Int.not_lt.mpr (Int.natCast_nonneg _)), Int.toNat_natCast] at found
  obtain ⟨day, day_found, rfl⟩ := Option.map_eq_some_iff.mp found
  have short := dayOfMonth_le calendar_short day_found
  have floor : ((⌊timeSecs⌋₊ : Nat) : Rat) / 3600 ≤ ⌈timeSecs / 3600⌉ :=
    (div_le_div_of_nonneg_right (Nat.floor_le begun') (by norm_num)).trans (Int.le_ceil _)
  refine ⟨(day - 1) * 24 + ⌊timeSecs⌋₊ % 86400 / 3600 + if ⌊timeSecs⌋₊ % 3600 / 60 > 0 then 1 else 0, ?_, ?_⟩
  · split
    · rw [Nat.cast_add _ 1, Nat.cast_one, add_mul, one_mul]
    · rw [Nat.add_zero]
  · rw [div_le_iff₀ (by norm_num)] at floor
    have whole : (⌊timeSecs⌋₊ : Int) ≤ ⌈timeSecs / 3600⌉ * 3600 := by exact_mod_cast floor
    unfold firstMonth at above
    split <;> omega

theorem usageCost_early (early : timeSecs ≤ -1) : usageCost instCost timeSecs = none := by
  rw [usageCost, dateAfter, if_pos (truncated_early early), Option.map_none]

/-- The seconds of a usage after its last full hour. -/
def lastHour (timeSecs : Rat) : Rat := timeSecs - 3600 * ⌊timeSecs / 3600⌋

theorem lastHour_nonneg (timeSecs : Rat) : 0 ≤ lastHour timeSecs := by
  have below := Int.floor_le (timeSecs / 3600)
  rw [le_div_iff₀ (by norm_num)] at below
  unfold lastHour
  linarith

theorem lastHour_lt (timeSecs : Rat) : lastHour timeSecs < 3600 := by
  have above := Int.lt_floor_add_one (timeSecs / 3600)
  rw [div_lt_iff₀ (by norm_num)] at above
  unfold lastHour
  linarith

theorem ceil_hours (timeSecs : Rat) : ⌈timeSecs / 3600⌉ = ⌊timeSecs / 3600⌋ + if lastHour timeSecs = 0 then 0 else 1 := by
  have nonneg := lastHour_nonneg timeSecs
  have below := lastHour_lt timeSecs
  rw [Int.ceil_eq_iff, lt_div_iff₀ (by norm_num), div_le_iff₀ (by norm_num)]
  split
  · rename_i full
    unfold lastHour at full
    push_cast
    constructor <;> linarith
  · rename_i begun
    have positive := lt_of_le_of_ne nonneg (Ne.symm begun)
    unfold lastHour at below positive
    push_cast
    constructor <;> linarith

theorem chargedHours_floor (nonneg : 0 ≤ timeSecs) :
    (chargedHours ⌊timeSecs⌋₊ : Int) = ⌊timeSecs / 3600⌋ + if 60 ≤ lastHour timeSecs then 1 else 0 := by
  have whole : ⌊timeSecs⌋ = ⌊timeSecs⌋₊ := (Int.natCast_floor_eq_floor nonneg).symm
  have hours : ⌊timeSecs / 3600⌋ = (⌊timeSecs⌋₊ / 3600 : Int) := whole ▸ Int.floor_div_natCast timeSecs 3600
  have minute : 60 ≤ lastHour timeSecs ↔ ⌊timeSecs⌋₊ % 3600 / 60 > 0 := by
    have late : 60 ≤ lastHour timeSecs ↔ 3600 * ⌊timeSecs / 3600⌋ + 60 ≤ ⌊timeSecs⌋ := by
      rw [Int.le_floor, lastHour]
      push_cast
      constructor <;> intro <;> linarith
    rw [late, hours, whole]
    omega
  simp only [chargedHours, hours, minute]
  split <;> omega

/-- A usage for which the formula charges for every hour that was begun: before
the end of the first month, and not less than a minute into an hour. -/
def Chargeable (timeSecs : Rat) : Prop :=
  -1 < timeSecs ∧ timeSecs < firstMonth ∧ (lastHour timeSecs = 0 ∨ 60 ≤ lastHour timeSecs)

theorem usageCost_iff (positive : 0 < instCost) :
    usageCost instCost timeSecs = some (instCost * ⌈timeSecs / 3600⌉) ↔ Chargeable timeSecs := by
  by_cases begun : -1 < timeSecs
  swap
  · rw [usageCost_early (not_lt.mp begun)]
    exact iff_of_false nofun fun fair => begun fair.1
  by_cases bound : timeSecs < firstMonth
  swap
  · refine iff_of_false (fun charged => ?_) fun fair => bound fair.2.1
    obtain ⟨hours, same, less⟩ := usageCost_later (not_lt.mp bound) charged
    rw [mul_comm, mul_left_inj' positive.ne'] at same
    rw [← Int.cast_natCast, Int.cast_inj] at same
    exact less.ne same.symm
  rw [usageCost_first begun bound, Option.some.injEq, mul_comm, mul_right_inj' positive.ne', ← Int.cast_natCast, Int.cast_inj,
    Chargeable, and_iff_right begun, and_iff_right bound, ceil_hours]
  have nonneg := lastHour_nonneg timeSecs
  by_cases early : 0 ≤ timeSecs
  · rw [chargedHours_floor early]
    constructor
    · intro same
      by_contra neither
      obtain ⟨begun, short⟩ := not_or.mp neither
      rw [if_neg begun, if_neg short] at same
      omega
    · rintro (full | late)
      · rw [if_pos full, if_neg (by linarith)]
      · rw [if_pos late, if_neg (by linarith)]
  · have last : ⌊timeSecs / 3600⌋ = -1 := by
      rw [Int.floor_eq_iff, le_div_iff₀ (by norm_num), div_lt_iff₀ (by norm_num)]
      push_cast
      constructor <;> linarith
    have late : lastHour timeSecs = timeSecs + 3600 := by
      rw [lastHour, last]
      push_cast
      ring
    have some : ⌊timeSecs⌋₊ = 0 := Nat.floor_of_nonpos (not_le.mp early).le
    refine iff_of_true ?_ (.inr (by linarith))
    rw [some, last, if_neg (by linarith)]
    rfl

/-- The controller at a time. -/
structure Accounts where
  controller : CostController
  now : Rat

inductive CostEvent
  | update (ip : String) (boottime : Rat) (instType : String)
  | remove (ip : String)
  | pass (seconds : NNRat)

/-- A usage in which no month of the calendar ends. -/
def InFirstMonth (now boottime : Rat) : Prop := -1 < now - boottime ∧ now - boottime < firstMonth

namespace CostController

variable {prices : PriceList} {now : Rat} {c : CostController}

/-- What a machine in its first month costs. -/
def charge (prices : PriceList) (now : Rat) (usage : VmUsage) : Rat :=
  chargedHours ⌊now - usage.boottime⌋₊ * prices.instancesTypePrice usage.instType

/-- What the machines there are and those that were removed cost. -/
def spent (prices : PriceList) (now : Rat) (c : CostController) : Rat :=
  (c.vmesUsage.rows.map (charge prices now)).sum + c.costVmesRemoval

def Young (now : Rat) (c : CostController) : Prop := ∀ usage ∈ c.vmesUsage.rows, InFirstMonth now usage.boottime

theorem printVmCost_young (young : c.Young now) : c.printVmCost prices now = some (c.spent prices now) := by
  have each : ∀ usage ∈ c.vmesUsage.rows, vmCost prices now usage = some (charge prices now usage) :=
    fun usage member => usageCost_first (young usage member).1 (young usage member).2
  rw [printVmCost, Fallible.mapM_some each]
  rfl

theorem calculateCost_young (young : c.Young now) {ip : String} {usage : VmUsage} (found : c.vmesUsage.get? ip = some usage) :
    c.calculateCost prices now ip = some (charge prices now usage) := by
  have recent := young usage (Table.get?_mem found)
  rw [calculateCost, found]
  exact usageCost_first recent.1 recent.2

theorem charge_nonneg (usage : VmUsage) : 0 ≤ charge prices now usage :=
  mul_nonneg (Nat.cast_nonneg _) (prices.positive _).le

theorem charge_mono {later : Rat} {old new : VmUsage} (longer : now - old.boottime ≤ later - new.boottime)
    (dearer : prices.instancesTypePrice old.instType ≤ prices.instancesTypePrice new.instType) :
    charge prices now old ≤ charge prices later new :=
  mul_le_mul (Nat.cast_le.mpr (chargedHours_mono (Nat.floor_mono longer))) dearer (prices.positive _).le (Nat.cast_nonneg _)

/-- What is charged for a machine stands apart from the other charges. -/
theorem spent_split {ip : String} {usage : VmUsage} (found : c.vmesUsage.get? ip = some usage) :
    c.spent prices now =
      charge prices now usage + ((c.vmesUsage.erase ip).rows.map (charge prices now)).sum + c.costVmesRemoval := by
  rw [spent, ((Table.rows_perm found).map (charge prices now)).sum_eq, List.map_cons, List.sum_cons]

/-- A machine stored anew costs no less if it runs for as long at no lower price. -/
theorem spent_put {usage : VmUsage} (dearer : ∀ old, c.vmesUsage.get? usage.ip = some old →
      usage.boottime ≤ old.boottime ∧ prices.instancesTypePrice old.instType ≤ prices.instancesTypePrice usage.instType) :
    c.spent prices now ≤ spent prices now { c with vmesUsage := c.vmesUsage.put usage } := by
  have stored : spent prices now { c with vmesUsage := c.vmesUsage.put usage } =
      charge prices now usage + ((c.vmesUsage.erase usage.ip).rows.map (charge prices now)).sum + c.costVmesRemoval := by
    rw [spent, Table.put_rows, List.map_cons, List.sum_cons]
  rw [stored]
  cases found : c.vmesUsage.get? usage.ip with
  | none =>
    rw [Table.erase_absent found, spent, add_assoc]
    exact le_add_of_nonneg_left (charge_nonneg usage)
  | some old =>
    obtain ⟨longer, higher⟩ := dearer old found
    have more : charge prices now old ≤ charge prices now usage := charge_mono (sub_le_sub_left longer now) higher
    rw [spent_split found]
    linarith

theorem spent_remove (young : c.Young now) (ip : String) : (c.removeVmUsage prices now ip).spent prices now = c.spent prices now := by
  cases found : c.vmesUsage.get? ip with
  | none =>
    have unknown : c.calculateCost prices now ip = some 0 := by rw [calculateCost, found]
    rw [removeVmUsage, unknown, Table.erase_absent found]
    simp only [add_zero]
  | some usage =>
    rw [removeVmUsage, calculateCost_young young found, spent_split found, spent]
    ring

theorem spent_pass (seconds : NNRat) : c.spent prices now ≤ c.spent prices (now + seconds) := by
  have longer : ∀ usage ∈ c.vmesUsage.rows, charge prices now usage ≤ charge prices (now + seconds) usage :=
    fun usage _ => charge_mono (by linarith [seconds.coe_nonneg]) le_rfl
  exact add_le_add_left (List.sum_le_sum longer) _

end CostController

namespace Accounts

open CostController

variable (prices : PriceList) (before : Accounts)

def happen : CostEvent → Accounts
  | .update ip boottime instType => { before with controller := before.controller.updateVmUsage ip boottime instType }
  | .remove ip => { before with controller := before.controller.removeVmUsage prices before.now ip }
  | .pass seconds => { before with now := before.now + seconds }

/-- An event that leaves every machine in its first month, and does not store a
machine again with a shorter usage or a lower price. -/
def Careful : CostEvent → Prop
  | .update ip boottime instType => boottime ≠ -1 →
    InFirstMonth before.now boottime ∧ ∀ old, before.controller.vmesUsage.get? ip = some old →
      boottime ≤ old.boottime ∧ prices.instancesTypePrice old.instType ≤ prices.instancesTypePrice instType
  | .remove _ => True
  | .pass seconds => ∀ usage ∈ before.controller.vmesUsage.rows, before.now + seconds - usage.boottime < firstMonth

def Young : Prop := before.controller.Young before.now

/-- What `print_vm_cost` prints. -/
def totalCost : Option Rat := before.controller.printVmCost prices before.now

variable {prices before} {event : CostEvent}

theorem Young.happen (young : before.Young) (careful : before.Careful prices event) : (before.happen prices event).Young := by
  cases event with
  | update ip boottime instType =>
    unfold Accounts.happen updateVmUsage
    intro usage member
    by_cases known : boottime ≠ -1
    · simp only [if_pos known] at member ⊢
      rcases Table.mem_put.mp member with rfl | ⟨inside, -⟩
      · exact (careful known).1
      · exact young usage inside
    · simp only [if_neg known] at member
      exact young usage member
  | remove ip =>
    unfold Accounts.happen removeVmUsage
    intro usage member
    cases removed : before.controller.calculateCost prices before.now ip with
    | none =>
      simp only [removed] at member
      exact young usage member
    | some cost =>
      simp only [removed] at member
      exact young usage (Table.mem_erase.mp member).1
  | pass seconds =>
    intro usage member
    have begun := (young usage member).1
    refine ⟨?_, careful usage member⟩
    show -1 < before.now + seconds - usage.boottime
    linarith [seconds.coe_nonneg]

theorem spent_happen (young : before.Young) (careful : before.Careful prices event) :
    before.controller.spent prices before.now ≤
      (before.happen prices event).controller.spent prices (before.happen prices event).now := by
  cases event with
  | update ip boottime instType =>
    by_cases known : boottime ≠ -1
    · have stored : before.controller.updateVmUsage ip boottime instType =
          { before.controller with vmesUsage := before.controller.vmesUsage.put ⟨ip, boottime, instType⟩ } := if_pos known
      rw [happen, stored]
      exact spent_put (careful known).2
    · have kept : before.controller.updateVmUsage ip boottime instType = before.controller := if_neg known
      rw [happen, kept]
  | remove ip => exact (spent_remove young ip).ge
  | pass seconds => exact spent_pass seconds

/-- A total that is computed at both times and not less at the later one. -/
def Grows (prices : PriceList) (earlier later : Accounts) : Prop :=
  ∃ cost cost', earlier.totalCost prices = some cost ∧ later.totalCost prices = some cost' ∧ cost ≤ cost'

theorem grows_of_careful {start current : Accounts} {events : List CostEvent} (young : start.Young)
    (run : Run (Guarded (fun before event => before.Careful prices event) fun before event after => after = before.happen prices event)
      start events current) : Grows prices start current := by
  have kept : ∀ {before event after}, Young before → Guarded (fun before event => before.Careful prices event)
      (fun before event after => after = before.happen prices event) before event after → Young after := by
    rintro before event after young ⟨careful, rfl⟩
    exact young.happen careful
  have reached : current.Young := run.invariant young kept
  refine ⟨_, _, printVmCost_young young, printVmCost_young reached, ?_⟩
  have more : ∀ {before event after}, Young before → Guarded (fun before event => before.Careful prices event)
      (fun before event after => after = before.happen prices event) before event after →
      before.controller.spent prices before.now ≤ after.controller.spent prices after.now := by
    rintro before event after young ⟨careful, rfl⟩
    exact spent_happen young careful
  exact run.monotone young kept more

end Accounts

open Accounts

/-- A machine costs its price for every hour that was begun exactly if its usage
is in the first month of the calendar and not less than a minute into an hour.
Both functions take one cost for a machine. While the machines are in their
first month, the total never falls. -/
theorem costs_iff (prices : PriceList) :
    (∀ now usage, CostController.vmCost prices now usage =
        some (prices.instancesTypePrice usage.instType * ⌈(now - usage.boottime) / 3600⌉) ↔ Chargeable (now - usage.boottime)) ∧
    (∀ now (c : CostController), ∀ usage ∈ c.vmesUsage.rows,
      c.calculateCost prices now usage.ip = CostController.vmCost prices now usage) ∧
    ∀ start current events, Young start → Run (Guarded (fun before event => before.Careful prices event)
      fun before event after => after = before.happen prices event) start events current → Grows prices start current := by
  refine ⟨fun now usage => usageCost_iff (prices.positive _), fun now c usage member => ?_, fun start current events => grows_of_careful⟩
  rw [CostController.calculateCost, Table.get?_of_mem member]

/-- A price of five cents for every machine. -/
def fiveCents : PriceList where
  instancesTypePrice _ := 1 / 20
  positive _ := by norm_num

/-- A small machine at a usage of ninety minutes. -/
def ninetyMinutes : Accounts := ⟨⟨⟨[⟨"10.0.0.5", 0, "small"⟩], by decide⟩, 0⟩, 5400⟩

theorem ninetyMinutes_young : ninetyMinutes.Young := by
  intro usage member
  obtain rfl := List.mem_singleton.mp member
  unfold InFirstMonth ninetyMinutes firstMonth
  norm_num

theorem ninetyMinutes_grows : Grows fiveCents ninetyMinutes (ninetyMinutes.happen fiveCents (.pass 7200)) := by
  refine (costs_iff fiveCents).2.2 ninetyMinutes _ [.pass 7200] ninetyMinutes_young (.single ⟨?_, rfl⟩)
  intro usage member
  obtain rfl := List.mem_singleton.mp member
  unfold ninetyMinutes firstMonth
  norm_num

theorem usageCost_secondMonth : usageCost instCost 2678430 = some 0 := by
  have seconds : truncated 2678430 = 2678430 := by
    rw [truncated_floor (by norm_num), Nat.floor_ofNat]
    rfl
  have again : dayOfMonth calendar 31 = some 1 := by
    obtain ⟨later, first⟩ := calendar_first
    rw [first]
    rfl
  rw [usageCost, dateAfter, seconds]
  simp [again]

/-- Thirty seconds after an hour the next hour is not charged, and after
thirty-one days nothing is. -/
theorem monthEnd_forgotten : ¬ (∀ now usage, CostController.vmCost fiveCents now usage =
      some (fiveCents.instancesTypePrice usage.instType * ⌈(now - usage.boottime) / 3600⌉)) ∧
    ¬ ∀ events current, Run (fun before event after => after = before.happen fiveCents event) ninetyMinutes events current →
      Grows fiveCents ninetyMinutes current := by
  constructor
  · intro hourly
    have fair := (usageCost_iff (by norm_num : (0 : Rat) < 1 / 20)).mp (hourly 3630 ⟨"10.0.0.5", 0, "small"⟩)
    have seconds : lastHour 3630 = 30 := by norm_num [lastHour]
    have minute := fair.2.2
    norm_num [seconds] at minute
  · intro monotone
    obtain ⟨cost, cost', early, late, le⟩ := monotone [.pass 2673030] _ (.single rfl)
    have two : cost = 1 / 10 := by
      refine Option.some.inj (early.symm.trans ((CostController.printVmCost_young ninetyMinutes_young).trans ?_))
      norm_num [CostController.spent, CostController.charge, ninetyMinutes, fiveCents, chargedHours]
    have none : (ninetyMinutes.happen fiveCents (.pass 2673030)).totalCost fiveCents = some 0 := by
      have usage : ninetyMinutes.now + ((2673030 : NNRat) : Rat) - 0 = 2678430 := by norm_num [ninetyMinutes]
      have machine : ∀ usage ∈ ninetyMinutes.controller.vmesUsage.rows,
          CostController.vmCost fiveCents (ninetyMinutes.now + ((2673030 : NNRat) : Rat)) usage = some 0 := by
        intro _ member
        rw [List.mem_singleton.mp member, CostController.vmCost, usage, usageCost_secondMonth]
      rw [totalCost, happen, CostController.printVmCost, Fallible.mapM_some machine]
      simp [ninetyMinutes]
    rw [two, Option.some.inj (late.symm.trans none)] at le
    norm_num at le

end ConPaaS
