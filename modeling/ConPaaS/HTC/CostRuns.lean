import ConPaaS.HTC.Configuration
import Mathlib.Algebra.Order.Field.Rat
import Mathlib.Tactic.FieldSimp
import Mathlib.Tactic.Linarith
import Mathlib.Tactic.NormNum
import Mathlib.Tactic.Ring

namespace ConPaaS.HTC

open Effect

/-- The factor by which a cost per hour becomes a cost per unit. -/
def perUnit : Rat := Configuration.unit / 3600

/-- The costs have been converted a number of times. -/
def Converted (times : Nat) (before after : Configuration) : Prop :=
  after.keys = before.keys ∧ ∀ k, after.costs k = before.costs k * perUnit ^ times

namespace Converted

variable {before middle after : Configuration} {first second times : Nat}

theorem refl (c : Configuration) : Converted 0 c c :=
  ⟨rfl, fun k => by rw [pow_zero, mul_one]⟩

theorem trans (done : Converted first before middle) (more : Converted second middle after) :
    Converted (first + second) before after :=
  ⟨more.1.trans done.1, fun k => by rw [more.2, done.2, mul_assoc, pow_add]⟩

end Converted

namespace Configuration

/-- A part of an update that leaves the costs alone, also where it raises. -/
def Unconverted (x : EStateM Unit Configuration Unit) : Prop := Keeps (Converted 0) x

theorem Unconverted.bind {α : Type} {x : EStateM Unit Configuration α} {f : α → EStateM Unit Configuration Unit}
    (first : Keeps (Converted 0) x) (later : ∀ a, Unconverted (f a)) : Unconverted (x >>= f) :=
  Keeps.bind Converted.trans first later

theorem unconverted_pure : Unconverted (pure ()) := Keeps.pure Converted.refl ()

theorem unconverted_throw : Unconverted (throw ()) := Keeps.throw Converted.refl ()

theorem unconverted_if {condition : Prop} [Decidable condition] {x y : EStateM Unit Configuration Unit}
    (first : Unconverted x) (second : Unconverted y) : Unconverted (if condition then x else y) := by
  split
  · exact first
  · exact second

theorem unconverted_setAverage (mType : String) (value : Rat) (count : Nat) : Unconverted (setAverage mType value count) := by
  refine .bind Converted.refl fun c => ?_
  split
  · exact unconverted_throw
  · exact Converted.refl

theorem unconverted_averageType (total : String × Rat × Nat) : Unconverted (averageType total) := by
  refine .bind Converted.refl fun c => ?_
  split
  · exact unconverted_throw
  · exact unconverted_setAverage _ _ _

theorem unconverted_rateType (key : String × Nat) : Unconverted (rateType key) :=
  .bind Converted.refl fun _ => unconverted_if (unconverted_if unconverted_throw Converted.refl) unconverted_pure

theorem unconverted_computeThroughput : Unconverted computeThroughput :=
  .bind Converted.refl fun c => Keeps.forEach Converted.refl Converted.trans unconverted_rateType c.keys

theorem unconverted_dynamicConfiguration : Unconverted dynamicConfiguration := by
  refine .bind Converted.refl fun c => ?_
  split
  · exact .bind Converted.refl fun _ => unconverted_throw
  · exact Converted.refl

/-- Each call converts the costs, whether the throughputs can be computed or not. -/
theorem converted_relevantTimeUnit : Keeps (Converted 1) relevantTimeUnit := by
  intro c
  have multiplied : Converted 1 c { c with costs := fun k => c.costs k * (unit / 3600) } :=
    ⟨rfl, fun k => by rw [pow_one, perUnit]⟩
  exact multiplied.trans (unconverted_computeThroughput _)

theorem converted_updateConfiguration (order : List (String × Rat × Nat) → List (String × Rat × Nat)) (tasks : List TaskResult) :
    Keeps (fun before after => ∃ times, Converted times before after) (updateConfiguration order tasks) := by
  have trans {s t u : Configuration} : (∃ times, Converted times s t) → (∃ times, Converted times t u) → ∃ times, Converted times s u := by
    rintro ⟨first, done⟩ ⟨second, more⟩
    exact ⟨_, done.trans more⟩
  have averages (totals : List (String × Rat × Nat)) : Unconverted (forEach averageType (order totals)) :=
    Keeps.forEach Converted.refl Converted.trans unconverted_averageType _
  rw [updateConfiguration]
  split
  · exact fun c => ⟨0, .refl c⟩
  · exact Keeps.bind trans (fun c => ⟨0, averages _ c⟩) fun _ => Keeps.bind trans (fun c => ⟨1, converted_relevantTimeUnit c⟩) fun _ =>
      Keeps.bind trans (fun c => ⟨1, converted_relevantTimeUnit c⟩) fun _ c => ⟨0, unconverted_dynamicConfiguration c⟩

/-- The table of a configuration is the one for its costs. -/
def TableOfCosts (c : Configuration) : Prop :=
  ∃ used : Configuration, used.costs = c.costs ∧ used.dynamicTables = .ok c.tables

theorem tableOfCosts_of_ok {before after : Configuration} (run : dynamicConfiguration before = .ok () after) :
    TableOfCosts after := by
  obtain ⟨used, _, got, run⟩ := bind_ok.mp run
  cases got
  cases computed : before.dynamicTables with
  | error tables =>
    rw [computed] at run
    cases run
  | ok tables =>
    rw [computed] at run
    cases run
    exact ⟨before, rfl, computed⟩

/-- An update that computes a table has converted the costs twice. -/
theorem converted_of_ok {order : List (String × Rat × Nat) → List (String × Rat × Nat)} {tasks : List TaskResult}
    {before after : Configuration} (run : updateConfiguration order tasks before = .ok () after) :
    Converted 2 before after ∧ TableOfCosts after := by
  rw [updateConfiguration] at run
  cases folded : tasks.foldlM addTask [] with
  | none =>
    rw [folded] at run
    cases run
  | some totals =>
    rw [folded] at run
    have averages : Unconverted (forEach averageType (order totals)) :=
      Keeps.forEach Converted.refl Converted.trans unconverted_averageType _
    obtain ⟨_, averaged, first, run⟩ := bind_ok.mp run
    obtain ⟨_, once, second, run⟩ := bind_ok.mp run
    obtain ⟨_, twice, third, table⟩ := bind_ok.mp run
    exact ⟨(((averages.of_ok first).trans (converted_relevantTimeUnit.of_ok second)).trans
      (converted_relevantTimeUnit.of_ok third)).trans (unconverted_dynamicConfiguration.of_ok table), tableOfCosts_of_ok table⟩

end Configuration

/-- An update: the results of tasks, and the order in which their totals are. -/
abbrev Update := (List (String × Rat × Nat) → List (String × Rat × Nat)) × List TaskResult

/-- What a sequence of updates leaves, some of which may have failed. -/
def afterUpdates (c : Configuration) (updates : List Update) : Configuration :=
  updates.foldl (fun c update => left (Configuration.updateConfiguration update.1 update.2) c) c

theorem converted_afterUpdates (c : Configuration) (updates : List Update) :
    ∃ times, Converted times c (afterUpdates c updates) := by
  induction updates generalizing c with
  | nil => exact ⟨0, .refl c⟩
  | cons update rest ih =>
    obtain ⟨first, done⟩ := Configuration.converted_updateConfiguration update.1 update.2 c
    obtain ⟨second, more⟩ := ih (left (Configuration.updateConfiguration update.1 update.2) c)
    exact ⟨first + second, done.trans more⟩

/-- The costs are the ones that were configured, per time unit. -/
def CostsPerUnit (configured c : Configuration) : Prop :=
  ∀ key ∈ c.keys, c.costs key.2 = configured.costs key.2 * Configuration.unit / 3600

theorem costsPerUnit_iff {configured after : Configuration} {times : Nat} (converted : Converted times configured after)
    (more : 2 ≤ times) : CostsPerUnit configured after ↔ ∀ key ∈ configured.keys, configured.costs key.2 = 0 := by
  have less : perUnit ^ times < perUnit := by
    have small : perUnit = 1 / 60 := by norm_num [perUnit, Configuration.unit]
    rw [small]
    exact pow_lt_self_of_lt_one₀ (by norm_num) (by norm_num) more
  rw [CostsPerUnit, converted.1]
  refine forall₂_congr fun key _ => ?_
  rw [converted.2, mul_div_assoc, ← perUnit]
  constructor
  · intro same
    rcases mul_eq_zero.mp (show configured.costs key.2 * (perUnit - perUnit ^ times) = 0 by linarith) with zero | equal
    · exact zero
    · linarith
  · intro zero
    rw [zero, zero_mul, zero_mul]

/-- When an update has computed a table, the costs it used are wrong for each
type that costs something, whatever updates were made before. -/
theorem costsPerUnit_of_table_iff {configured after : Configuration} {updates : List Update} {last : Update}
    (run : Configuration.updateConfiguration last.1 last.2 (afterUpdates configured updates) = .ok () after) :
    after.TableOfCosts ∧ (CostsPerUnit configured after ↔ ∀ key ∈ configured.keys, configured.costs key.2 = 0) := by
  obtain ⟨times, converted⟩ := converted_afterUpdates configured updates
  obtain ⟨twice, table⟩ := Configuration.converted_of_ok run
  exact ⟨table, costsPerUnit_iff (converted.trans twice) (by omega)⟩

/-- One type of machine, and a job whose task took a minute on it. -/
def smallMachines : Configuration where
  keys := [("small", 0)]
  costsOrder := [0]
  costs _ := 1
  limits _ := 1

def minuteTask : Update := (id, [⟨some "small", some 60⟩])

theorem minuteTask_computes : ∃ after, Configuration.updateConfiguration minuteTask.1 minuteTask.2 smallMachines = .ok () after := by
  have computes : (match Configuration.updateConfiguration minuteTask.1 minuteTask.2 smallMachines with
      | .ok .. => true
      | .error .. => false) = true := by decide +kernel
  split at computes
  · next after run => exact ⟨after, run⟩
  · cases computes

theorem minuteTask_converted : ∃ after, ¬ CostsPerUnit smallMachines after := by
  obtain ⟨after, run⟩ := minuteTask_computes
  have first : Configuration.updateConfiguration minuteTask.1 minuteTask.2 (afterUpdates smallMachines []) = .ok () after := run
  exact ⟨after, fun right => one_ne_zero ((costsPerUnit_of_table_iff first).2.mp right ("small", 0) (List.mem_singleton_self _))⟩

/-- One update is enough. -/
theorem oneUpdate_wrong : ¬ ∀ (configured after : Configuration) (updates : List Update) (last : Update),
    Configuration.updateConfiguration last.1 last.2 (afterUpdates configured updates) = .ok () after → CostsPerUnit configured after := by
  intro claim
  obtain ⟨after, run⟩ := minuteTask_computes
  have right := (costsPerUnit_iff (Configuration.converted_of_ok run).1 le_rfl).mp (claim smallMachines after [] minuteTask run)
  exact one_ne_zero (right ("small", 0) (List.mem_singleton_self _))

end ConPaaS.HTC
