import ConPaaS.HTC.Configuration
import Mathlib.Algebra.Order.BigOperators.Group.List
import Mathlib.Data.List.Induction
import Mathlib.Tactic.Linarith
import Mathlib.Tactic.LinearCombination
import Mathlib.Tactic.NormNum

namespace ConPaaS.HTC.MachineTypes

variable (types : MachineTypes)

/-- All machines there are. -/
def pool (k : Nat) : Int := types.limit k

def tmax : Int := types.throughputOf types.pool

/-- A type whose machine can be left out, where these configurations are
stored for the throughputs above `t`. -/
def Open (C : Int → Nat → Int) (t : Int) (k : Nat) : Prop := t + types.throughput k ≤ types.tmax ∧ 0 < C (t + types.throughput k) k

/-- One turn of the loop over the types, on costs and configurations. -/
def pick (M : Int → Rat) (C : Int → Nat → Int) (t : Int) (best : Rat × Option Nat) (k : Nat) : Rat × Option Nat :=
  if t + types.throughput k ≤ types.tmax ∧ best.1 > M (t + types.throughput k) - types.cost k ∧ 0 < C (t + types.throughput k) k then
    (M (t + types.throughput k) - types.cost k, some k)
  else best

/-- What is stored for `t`: the cheapest of the next configuration and of those
that a machine of an open type is left out of, the first type if there are
several. -/
structure Chosen (M : Int → Rat) (C : Int → Nat → Int) (t : Int) (best : Rat) (conf : Nat → Int) : Prop where
  next : best ≤ M (t + 1)
  each : ∀ k < types.count, types.Open C t k → best ≤ M (t + types.throughput k) - types.cost k
  source : best = M (t + 1) ∧ conf = C (t + 1) ∨
    ∃ k < types.count, types.Open C t k ∧ best = M (t + types.throughput k) - types.cost k ∧ best < M (t + 1) ∧
      conf = Function.update (C (t + types.throughput k)) k (C (t + types.throughput k) k - 1) ∧
      ∀ j < k, types.Open C t j → best < M (t + types.throughput j) - types.cost j

/-- The tables hold these costs and configurations from some throughput on. -/
def Reads (tables : Tables) (low : Int) (M : Int → Rat) (C : Int → Nat → Int) : Prop :=
  ∀ t, low ≤ t → t ≤ types.tmax → tables.m t = some (M t) ∧ tables.confDict t = some (C t)

section Turns

variable {types} {tables : Tables} {M : Int → Rat} {C : Int → Nat → Int} {t : Int}

/-- Where the loop over the types has come to. -/
structure Picked (types : MachineTypes) (M : Int → Rat) (C : Int → Nat → Int) (t : Int) (before : List Nat) (best : Rat × Option Nat) :
    Prop where
  next : best.1 ≤ M (t + 1)
  each : ∀ k ∈ before, types.Open C t k → best.1 ≤ M (t + types.throughput k) - types.cost k
  none : best.2 = none → best.1 = M (t + 1)
  some : ∀ k, best.2 = some k → k ∈ before ∧ types.Open C t k ∧ best.1 = M (t + types.throughput k) - types.cost k ∧
    best.1 < M (t + 1) ∧ ∀ j ∈ before, j < k → types.Open C t j → best.1 < M (t + types.throughput j) - types.cost j

theorem picked_foldl (before : List Nat) (sorted : before.Pairwise (· < ·)) :
    Picked types M C t before (before.foldl (types.pick M C t) (M (t + 1), none)) := by
  induction before using List.reverseRecOn with
  | nil => exact ⟨le_rfl, nofun, fun _ => rfl, nofun⟩
  | append_singleton before k ih =>
    rw [List.pairwise_append] at sorted
    have picked := ih sorted.1
    have smaller (j : Nat) (member : j ∈ before) : j < k := sorted.2.2 j member k (List.mem_singleton_self k)
    rw [List.foldl_append, List.foldl_cons, List.foldl_nil]
    generalize before.foldl (types.pick M C t) (M (t + 1), none) = best at picked
    rw [pick]
    split
    · next better =>
      obtain ⟨below, less, used⟩ := better
      refine ⟨less.le.trans picked.next, ?_, nofun, ?_⟩
      · intro j member out
        rcases List.mem_append.mp member with old | new
        · exact less.le.trans (picked.each j old out)
        · rw [List.mem_singleton.mp new]
      · rintro _ ⟨⟩
        refine ⟨List.mem_append_right _ (List.mem_singleton_self k), ⟨below, used⟩, rfl, less.trans_le picked.next, ?_⟩
        intro j member before out
        rcases List.mem_append.mp member with old | new
        · exact less.trans_le (picked.each j old out)
        · have same := List.mem_singleton.mp new
          omega
    · next worse =>
      refine ⟨picked.next, ?_, picked.none, ?_⟩
      · intro j member out
        rcases List.mem_append.mp member with old | new
        · exact picked.each j old out
        · obtain rfl := List.mem_singleton.mp new
          by_contra less
          exact worse ⟨out.1, not_le.mp less, out.2⟩
      · intro j found
        obtain ⟨member, out, equal, less, first⟩ := picked.some j found
        refine ⟨List.mem_append_left _ member, out, equal, less, fun i among earlier => ?_⟩
        rcases List.mem_append.mp among with old | new
        · exact first i old earlier
        · have same := List.mem_singleton.mp new
          have bound := smaller j member
          omega

/-- The loop over the types raises no error, and it only changes the cost. -/
theorem tryType_foldlM (reads : types.Reads tables (t + 1) M C) (ks : List Nat) (best : Rat × Option Nat) :
    (ks.map fun k => (k, (types.throughput k : Int))).foldlM (types.configuration.tryType types.tmax t)
        ({ tables with m := Function.update tables.m t (some best.1) }, best.2) =
      .ok ({ tables with m := Function.update tables.m t (some (ks.foldl (types.pick M C t) best).1) },
        (ks.foldl (types.pick M C t) best).2) := by
  induction ks generalizing best with
  | nil => rfl
  | cons k rest ih =>
    have turn : types.configuration.tryType types.tmax t ({ tables with m := Function.update tables.m t (some best.1) }, best.2)
        (k, (types.throughput k : Int)) =
        .ok ({ tables with m := Function.update tables.m t (some (types.pick M C t best k).1) }, (types.pick M C t best k).2) := by
      have positive := types.throughput_pos k
      rw [Configuration.tryType, pick]
      by_cases below : t + types.throughput k ≤ types.tmax
      · obtain ⟨cost, conf⟩ := reads (t + types.throughput k) (by omega) below
        have away : t + (types.throughput k : Int) ≠ t := by omega
        have other : Function.update tables.m t (some best.1) (t + types.throughput k) = some (M (t + types.throughput k)) :=
          (Function.update_of_ne away _ _).trans cost
        simp only [le_sub_iff_add_le, Function.update_self, other, conf, true_and, below, Function.update_idem]
        by_cases less : best.1 > M (t + types.throughput k) - types.cost k
        · by_cases used : 0 < C (t + types.throughput k) k
          · simp [configuration, less, used]
          · simp [configuration, less, used]
        · simp [configuration, less]
      · simp [le_sub_iff_add_le, below]
    rw [List.map_cons, List.foldlM_cons, turn]
    exact ih _

/-- One turn of the outer loop stores a best choice. -/
theorem fillAt_chosen (reads : types.Reads tables (t + 1) M C) (below : t < types.tmax) :
    ∃ best conf, types.configuration.fillAt types.tmax t tables =
        .ok ⟨Function.update tables.confDict t (some conf), Function.update tables.m t (some best)⟩ ∧
      types.Chosen M C t best conf := by
  have picked : Picked types M C t (List.range types.count) ((List.range types.count).foldl (types.pick M C t) (M (t + 1), none)) :=
    picked_foldl _ List.pairwise_lt_range
  have loop := tryType_foldlM reads (List.range types.count) (M (t + 1), none)
  have next := reads (t + 1) le_rfl (by omega)
  rw [← types.rated_eq] at loop
  generalize (List.range types.count).foldl (types.pick M C t) (M (t + 1), none) = best at picked loop
  have each (k : Nat) (bound : k < types.count) := picked.each k (List.mem_range.mpr bound)
  rw [Configuration.fillAt, next.1]
  dsimp only
  rw [loop]
  cases chosen : best.2 with
  | none =>
    refine ⟨best.1, C (t + 1), ?_, picked.next, each, .inl ⟨picked.none chosen, rfl⟩⟩
    simp only [bind, Except.bind, next.2]
  | some k =>
    obtain ⟨member, out, equal, less, first⟩ := picked.some k chosen
    have bound := List.mem_range.mp member
    have stored := (reads (t + types.throughput k) (by have := types.throughput_pos k; omega) out.1).2
    refine ⟨best.1, _, ?_, picked.next, each,
      .inr ⟨k, bound, out, equal, less, rfl, fun j earlier => first j (List.mem_range.mpr (by omega)) earlier⟩⟩
    simp only [bind, Except.bind, types.throughput_of_lt bound, Option.bind_some, stored]

theorem Chosen.congr {M' : Int → Rat} {C' : Int → Nat → Int} {best : Rat} {conf : Nat → Int} (chosen : types.Chosen M C t best conf)
    (agree : ∀ t' > t, M' t' = M t' ∧ C' t' = C t') : types.Chosen M' C' t best conf := by
  have next := agree (t + 1) (by omega)
  have away (k : Nat) : M' (t + types.throughput k) = M (t + types.throughput k) ∧ C' (t + types.throughput k) = C (t + types.throughput k) :=
    agree _ (by have := types.throughput_pos k; omega)
  have opens (k : Nat) : types.Open C' t k ↔ types.Open C t k := by rw [Open, Open, (away k).2]
  constructor
  · rw [next.1]
    exact chosen.next
  · intro k bound out
    rw [(away k).1]
    exact chosen.each k bound ((opens k).mp out)
  · rw [next.1, next.2]
    refine chosen.source.imp_right ?_
    rintro ⟨k, bound, out, equal, less, conf, first⟩
    refine ⟨k, bound, (opens k).mpr out, by rw [(away k).1, equal], less, by rw [(away k).2, conf], fun j earlier out' => ?_⟩
    rw [(away j).1]
    exact first j earlier ((opens j).mp out')

/-- The loop stores a best choice for each throughput below. -/
theorem fillDown_chosen {n : Nat} (reads : types.Reads tables n M C) (below : (n : Int) ≤ types.tmax) :
    ∃ tables' M' C', types.configuration.fillDown types.tmax n tables = .ok tables' ∧ types.Reads tables' 0 M' C' ∧
      (∀ t, (n : Int) ≤ t → M' t = M t ∧ C' t = C t) ∧ ∀ t : Int, 0 ≤ t → t < n → types.Chosen M' C' t (M' t) (C' t) := by
  induction n generalizing tables M C with
  | zero => exact ⟨tables, M, C, rfl, reads, fun _ _ => ⟨rfl, rfl⟩, fun t low high => by omega⟩
  | succ n ih =>
    obtain ⟨best, conf, turn, chosen⟩ := fillAt_chosen (t := n) (by simpa using reads) (by omega)
    have filled : types.Reads ⟨Function.update tables.confDict n (some conf), Function.update tables.m n (some best)⟩ n
        (Function.update M n best) (Function.update C n conf) := by
      intro t low high
      by_cases here : t = n
      · rw [here]
        simp only [Function.update_self, and_self]
      · simp only [Function.update_of_ne here]
        exact reads t (by omega) high
    obtain ⟨tables', M', C', run, reads', agree, all⟩ := ih filled (by omega)
    refine ⟨tables', M', C', ?_, reads', fun t low => ?_, fun t low high => ?_⟩
    · rw [Configuration.fillDown, turn]
      exact run
    · have away : t ≠ n := by omega
      have same := agree t (by omega)
      rwa [Function.update_of_ne away, Function.update_of_ne away] at same
    · by_cases here : t = n
      · have now := agree t (by omega)
        rw [here] at now ⊢
        rw [Function.update_self, Function.update_self] at now
        rw [now.1, now.2]
        refine chosen.congr fun t' after => ?_
        have away : t' ≠ n := by omega
        have same := agree t' (by omega)
        rwa [Function.update_of_ne away, Function.update_of_ne away] at same
      · exact all t low (by omega)

end Turns

/-- What is within the limits. -/
def Within (conf : Nat → Int) : Prop := ∀ k < types.count, 0 ≤ conf k ∧ conf k ≤ types.limit k

instance (conf : Nat → Int) : Decidable (types.Within conf) := inferInstanceAs (Decidable (∀ k < _, _))

/-- Costs and configurations of a finished table. -/
structure Filled (M : Int → Rat) (C : Int → Nat → Int) : Prop where
  top : M types.tmax = types.costOf types.pool ∧ C types.tmax = types.pool
  chosen : ∀ t, 0 ≤ t → t < types.tmax → types.Chosen M C t (M t) (C t)

section Tables

variable {types} {M : Int → Rat} {C : Int → Nat → Int} {t : Int} {conf : Nat → Int}

theorem within_pool : types.Within types.pool := fun _ _ => ⟨Int.natCast_nonneg _, le_rfl⟩

theorem throughputOf_le (within : types.Within conf) : types.throughputOf conf ≤ types.tmax := by
  refine List.sum_le_sum fun k member => ?_
  exact mul_le_mul_of_nonneg_right (within k (List.mem_range.mp member)).2 (Int.natCast_nonneg _)

theorem tmax_nonneg : 0 ≤ types.tmax := by
  refine List.sum_nonneg fun share member => ?_
  obtain ⟨k, -, rfl⟩ := List.mem_map.mp member
  exact Int.mul_nonneg (Int.natCast_nonneg _) (Int.natCast_nonneg _)

/-- `dynamic_configuration` raises no error, and it fills the tables. -/
theorem dynamicTables_filled (types : MachineTypes) : ∃ tables M C, types.configuration.dynamicTables = .ok tables ∧ types.Filled M C ∧
    ∀ t, 1 ≤ t → t ≤ types.tmax → tables.m t = some (M t) ∧ tables.confDict t = some (C t) := by
  have top : types.configuration.computeTmax = types.tmax := types.computeTmax_eq
  have natural : (types.tmax.toNat : Int) = types.tmax := Int.toNat_of_nonneg tmax_nonneg
  have pool : types.Reads types.configuration.poolTables types.tmax.toNat (fun _ => types.costOf types.pool)
      (fun _ => types.pool) := by
    intro t low high
    have here : t = types.tmax := by omega
    rw [here, Configuration.poolTables, top, types.costConf_eq]
    constructor
    · exact Function.update_self types.tmax (some (types.costOf types.pool)) fun _ => none
    · exact Function.update_self types.tmax (some types.pool) fun _ => none
  obtain ⟨tables, M, C, run, reads, agree, chosen⟩ := fillDown_chosen pool natural.le
  refine ⟨{ tables with m := Function.update tables.m 0 (some 0) }, M, C, ?_, ⟨agree _ natural.le, ?_⟩, ?_⟩
  · rw [Configuration.dynamicTables, top, run]
    rfl
  · intro t low high
    exact chosen t low (by omega)
  · intro t low high
    obtain ⟨cost, conf⟩ := reads t (by omega) high
    exact ⟨(Function.update_of_ne (by omega) _ _).trans cost, conf⟩

/-- An induction from the whole pool downwards. -/
theorem downward {P : Int → Prop} {top : Int} (step : ∀ t, 0 ≤ t → t ≤ top → (∀ t' > t, t' ≤ top → P t') → P t) {t : Int}
    (low : 0 ≤ t) (high : t ≤ top) : P t := by
  induction distance : (top - t).toNat using Nat.strong_induction_on generalizing t with
  | _ n ih => exact step t low high fun t' after high' => ih (top - t').toNat (by omega) (by omega) high' rfl

/-- A stored configuration is within the limits, is enough, and has its cost. -/
structure Stored (types : MachineTypes) (M : Int → Rat) (C : Int → Nat → Int) (t : Int) : Prop where
  within : types.Within (C t)
  enough : t ≤ types.throughputOf (C t)
  cost : M t = types.costOf (C t)

theorem Filled.stored (filled : types.Filled M C) (low : 0 ≤ t) (high : t ≤ types.tmax) : Stored types M C t := by
  refine downward (fun t low high later => ?_) low high
  rcases high.lt_or_eq with below | rfl
  · rcases (filled.chosen t low below).source with ⟨cost, conf⟩ | ⟨k, bound, out, cost, -, conf, -⟩
    · have next := later (t + 1) (by omega) (by omega)
      have enough := next.enough
      exact ⟨conf ▸ next.within, by rw [conf]; omega, by rw [cost, conf, next.cost]⟩
    · have positive := types.throughput_pos k
      have above := later (t + types.throughput k) (by omega) out.1
      have enough := above.enough
      refine ⟨fun j small => ?_, ?_, ?_⟩
      · have here := above.within j small
        have used := out.2
        rw [conf]
        by_cases same : j = k
        · rw [same] at here ⊢
          rw [Function.update_self]
          omega
        · rwa [Function.update_of_ne same]
      · rw [conf, types.throughputOf_update _ bound, sub_sub_cancel_left, neg_one_mul]
        omega
      · rw [cost, conf, types.costOf_update _ bound, above.cost, sub_sub_cancel_left]
        push_cast
        ring
  · refine ⟨?_, ?_, ?_⟩
    · rw [filled.top.2]
      exact within_pool
    · rw [filled.top.2, tmax]
    · rw [filled.top.1, filled.top.2]

theorem Filled.mono (filled : types.Filled M C) {t' : Int} (low : 0 ≤ t) (after : t ≤ t') (high : t' ≤ types.tmax) : M t ≤ M t' := by
  induction t', after using Int.leInduction with
  | base => exact le_rfl
  | succ t' after ih => exact (ih (by omega)).trans (filled.chosen t' (by omega) (by omega)).next

end Tables

/-- No configuration that is enough is cheaper. -/
def Optimal (M : Int → Rat) (t : Int) : Prop :=
  ∀ conf, types.Within conf → t ≤ types.throughputOf conf → M t ≤ types.costOf conf

section OneMore

variable {types} {M : Int → Rat} {C : Int → Nat → Int} {t : Int} {conf : Nat → Int} {k : Nat}

theorem within_oneMore (within : types.Within conf) (room : conf k < types.limit k) : types.Within (Configuration.oneMore conf k) := by
  intro j small
  have here := within j small
  by_cases same : j = k
  · subst same
    simp only [Configuration.oneMore, Function.update_self]
    omega
  · simpa only [Configuration.oneMore, Function.update_of_ne same] using here

theorem costOf_oneMore (bound : k < types.count) (conf : Nat → Int) :
    types.costOf (Configuration.oneMore conf k) = types.costOf conf + types.cost k := by
  rw [Configuration.oneMore, types.costOf_update conf bound, add_sub_cancel_left, Int.cast_one, one_mul]

/-- Where a cheaper configuration is missed, the one stored for a machine more
of some type has none of that type. -/
theorem none_of_missed (filled : types.Filled M C) (low : 0 ≤ t) (within : types.Within conf) (exactly : types.throughputOf conf = t)
    (bound : k < types.count) (room : conf k < types.limit k) (optimal : types.Optimal M (t + types.throughput k))
    (missed : types.costOf conf < M t) : t + types.throughput k ≤ types.tmax ∧ C (t + types.throughput k) k = 0 ∧
      M (t + types.throughput k) ≤ types.costOf conf + types.cost k := by
  have more := within_oneMore within room
  have throughput := types.throughputOf_oneMore bound conf
  have positive := types.throughput_pos k
  have high := throughputOf_le more
  have cost := optimal _ more (by omega)
  rw [costOf_oneMore bound] at cost
  refine ⟨by omega, ?_, cost⟩
  have stored := (filled.stored (t := t + types.throughput k) (by omega) (by omega)).within k bound
  by_contra some
  have out : types.Open C t k := ⟨by omega, by omega⟩
  have least := (filled.chosen t low (by omega)).each k bound out
  linarith

end OneMore

section TwoTypes

variable {types} {M : Int → Rat} {C : Int → Nat → Int} {t : Int} {conf : Nat → Int}

theorem throughputOf_two (two : types.count = 2) (conf : Nat → Int) :
    types.throughputOf conf = conf 0 * types.throughput 0 + conf 1 * types.throughput 1 := by
  simp [throughputOf, two, List.range_succ]

theorem costOf_two (two : types.count = 2) (conf : Nat → Int) :
    types.costOf conf = conf 0 * types.cost 0 + conf 1 * types.cost 1 := by
  simp [costOf, two, List.range_succ]

/-- Some machines of one kind that do what others do, at a lower cost, are of
the better kind. -/
theorem better_of_exchange {machines others a b α β : Rat} (positive : 0 < machines) (speed : 0 < a) (price : 0 < α)
    (enough : others * a ≤ machines * b) (cheaper : machines * β ≤ others * α) : β * a ≤ α * b := by
  have first : machines * β * a ≤ others * α * a := mul_le_mul_of_nonneg_right cheaper speed.le
  have second : others * a * α ≤ machines * b * α := mul_le_mul_of_nonneg_right enough price.le
  have both : machines * (β * a) ≤ machines * (α * b) := by linarith
  exact le_of_mul_le_mul_left both positive

/-- If both types cost the same for what they do, the stored configuration has
the fewest machines of the first type among the exact ones. -/
def Fewest (types : MachineTypes) (C : Int → Nat → Int) (t : Int) : Prop :=
  types.cost 0 * types.throughput 1 = types.cost 1 * types.throughput 0 →
    ∀ conf, types.Within conf → types.throughputOf conf = t → C t 0 ≤ conf 0

/-- The other type takes the place of the one that is missing. -/
theorem replaced_of_missed (two : types.count = 2) (filled : types.Filled M C) {i j : Nat} (pair : i = 0 ∧ j = 1 ∨ i = 1 ∧ j = 0)
    (low : 0 ≤ t) (within : types.Within conf) (exactly : types.throughputOf conf = t) (room : conf i < types.limit i)
    (optimal : types.Optimal M (t + types.throughput i)) (missed : types.costOf conf < M t) :
    conf j < C (t + types.throughput i) j ∧ types.cost j * types.throughput i ≤ types.cost i * types.throughput j := by
  have bound : i < types.count := by omega
  obtain ⟨high, none, cost⟩ := none_of_missed filled low within exactly bound room optimal missed
  have stored := filled.stored (t := t + types.throughput i) (by omega) high
  have enough := stored.enough
  have positive := types.throughput_pos i
  have here := within i bound
  have total (conf : Nat → Int) : types.throughputOf conf = conf i * types.throughput i + conf j * types.throughput j := by
    rw [throughputOf_two two]
    rcases pair with ⟨rfl, rfl⟩ | ⟨rfl, rfl⟩
    · rfl
    · ring
  have price (conf : Nat → Int) : types.costOf conf = conf i * types.cost i + conf j * types.cost j := by
    rw [costOf_two two]
    rcases pair with ⟨rfl, rfl⟩ | ⟨rfl, rfl⟩
    · rfl
    · ring
  rw [stored.cost, price, price, none] at cost
  rw [total, none] at enough
  rw [total] at exactly
  have exchange : (conf i + 1) * types.throughput i ≤ (C (t + types.throughput i) j - conf j) * types.throughput j := by linarith
  have fewer : conf j < C (t + types.throughput i) j := by
    by_contra more
    have none' : (C (t + types.throughput i) j - conf j) * types.throughput j ≤ 0 :=
      mul_nonpos_of_nonpos_of_nonneg (by omega) (Int.natCast_nonneg _)
    have some : 0 < (conf i + 1) * (types.throughput i : Int) := Int.mul_pos (by omega) (by omega)
    omega
  refine ⟨fewer, ?_⟩
  have machines : (0 : Rat) < (C (t + types.throughput i) j - conf j : Int) := by exact_mod_cast (by omega : 0 < C (t + types.throughput i) j - conf j)
  have enough' : ((conf i + 1 : Int) : Rat) * types.throughput i ≤ (C (t + types.throughput i) j - conf j : Int) * types.throughput j := by
    exact_mod_cast exchange
  refine better_of_exchange machines (by exact_mod_cast positive) (types.cost_pos i) enough' ?_
  push_cast at cost ⊢
  linarith

/-- A configuration below the whole pool leaves a machine of some type. -/
theorem room_of_below (two : types.count = 2) (below : types.throughputOf conf < types.tmax) :
    conf 0 < types.limit 0 ∨ conf 1 < types.limit 1 := by
  by_contra full
  rw [not_or, not_lt, not_lt] at full
  have first : (types.limit 0 : Int) * types.throughput 0 ≤ conf 0 * types.throughput 0 :=
    mul_le_mul_of_nonneg_right full.1 (Int.natCast_nonneg _)
  have second : (types.limit 1 : Int) * types.throughput 1 ≤ conf 1 * types.throughput 1 :=
    mul_le_mul_of_nonneg_right full.2 (Int.natCast_nonneg _)
  rw [tmax, throughputOf_two two, throughputOf_two two, pool, pool] at below
  omega

/-- Only the whole pool does as much as the whole pool. -/
theorem full_of_tmax (two : types.count = 2) (within : types.Within conf) (all : types.tmax ≤ types.throughputOf conf) :
    conf 0 = types.limit 0 ∧ conf 1 = types.limit 1 := by
  have first := (within 0 (by omega)).2
  have second := (within 1 (by omega)).2
  have positive := types.throughput_pos 0
  have positive' := types.throughput_pos 1
  rw [tmax, throughputOf_two two, throughputOf_two two, pool, pool] at all
  have left : ((types.limit 0 : Int) - conf 0) * types.throughput 0 ≤ 0 := by
    have right : 0 ≤ ((types.limit 1 : Int) - conf 1) * types.throughput 1 := Int.mul_nonneg (by omega) (by omega)
    linarith
  have same : conf 0 = types.limit 0 := by
    by_contra other
    have some : 0 < ((types.limit 0 : Int) - conf 0) * types.throughput 0 := Int.mul_pos (by omega) (by omega)
    omega
  have same' : conf 1 = types.limit 1 := by
    by_contra other
    rw [same] at all
    have some : 0 < ((types.limit 1 : Int) - conf 1) * types.throughput 1 := Int.mul_pos (by omega) (by omega)
    linarith
  exact ⟨same, same'⟩

theorem optimal_step (two : types.count = 2) (filled : types.Filled M C) (low : 0 ≤ t) (high : t ≤ types.tmax)
    (later : ∀ t' > t, t' ≤ types.tmax → types.Optimal M t' ∧ types.Fewest C t') : types.Optimal M t := by
  intro conf within enough
  by_contra missed
  rw [not_le] at missed
  rcases high.lt_or_eq with below | rfl
  · rcases enough.lt_or_eq with more | exactly
    · have next := (later (t + 1) (by omega) (by omega)).1 conf within (by omega)
      exact absurd ((filled.chosen t low below).next.trans next) missed.not_ge
    · have optimal (k : Nat) (bound : k < types.count) (room : conf k < types.limit k) : types.Optimal M (t + types.throughput k) ∧
          types.Fewest C (t + types.throughput k) := by
        have positive := types.throughput_pos k
        have above := throughputOf_le (within_oneMore within room)
        rw [types.throughputOf_oneMore bound] at above
        exact later _ (by omega) (by omega)
      have first (room : conf 0 < types.limit 0) := replaced_of_missed two filled (.inl ⟨rfl, rfl⟩) low within exactly.symm room
        (optimal 0 (by omega) room).1 missed
      have second (room : conf 1 < types.limit 1) := replaced_of_missed two filled (.inr ⟨rfl, rfl⟩) low within exactly.symm room
        (optimal 1 (by omega) room).1 missed
      have reads (k j : Nat) (bound : k < types.count) (bound' : j < types.count) (room : conf k < types.limit k) :
          C (t + types.throughput k) j ≤ types.limit j := by
        have above := throughputOf_le (within_oneMore within room)
        rw [types.throughputOf_oneMore bound] at above
        exact ((filled.stored (by omega) (by omega)).within j bound').2
      -- each type has a machine left when the other one has
      have rooms : conf 0 < types.limit 0 ∧ conf 1 < types.limit 1 := by
        rcases room_of_below two (exactly ▸ below) with room | room
        · exact ⟨room, (first room).1.trans_le (reads 0 1 (by omega) (by omega) room)⟩
        · exact ⟨(second room).1.trans_le (reads 1 0 (by omega) (by omega) room), room⟩
      have equal := le_antisymm (second rooms.2).2 (first rooms.1).2
      have exactly' : types.throughputOf (Configuration.oneMore conf 1) = t + types.throughput 1 := by
        rw [types.throughputOf_oneMore (by omega), exactly]
      have fewest := (optimal 1 (by omega) rooms.2).2 equal _ (within_oneMore within rooms.2) exactly'
      have more := (second rooms.2).1
      rw [Configuration.oneMore, Function.update_of_ne (by decide)] at fewest
      omega
  · obtain ⟨first, second⟩ := full_of_tmax two within enough
    rw [filled.top.1, costOf_two two, costOf_two two, first, second] at missed
    exact lt_irrefl _ missed

/-- With types of one price for what they do, the costs are the throughputs. -/
theorem cost_of_equal (two : types.count = 2)
    (equal : types.cost 0 * types.throughput 1 = types.cost 1 * types.throughput 0) (conf : Nat → Int) :
    types.costOf conf * types.throughput 0 = types.cost 0 * types.throughputOf conf := by
  rw [costOf_two two, throughputOf_two two]
  push_cast
  linear_combination -(conf 1 : Rat) * equal

theorem fewest_step (two : types.count = 2) (filled : types.Filled M C) (low : 0 ≤ t) (high : t ≤ types.tmax)
    (optimal : types.Optimal M t) (later : ∀ t' > t, t' ≤ types.tmax → types.Optimal M t' ∧ types.Fewest C t') :
    types.Fewest C t := by
  intro equal conf within exactly
  rcases high.lt_or_eq with below | rfl
  · have speed : (0 : Rat) < types.throughput 0 := Nat.cast_pos.mpr (types.throughput_pos 0)
    have price := types.cost_pos 0
    have paid (t' : Int) (low' : 0 ≤ t') (high' : t' ≤ types.tmax) : types.cost 0 * t' ≤ M t' * types.throughput 0 := by
      have stored := filled.stored low' high'
      rw [stored.cost, cost_of_equal two equal]
      exact mul_le_mul_of_nonneg_left (Int.cast_le.mpr stored.enough) price.le
    have whole := cost_of_equal two equal conf
    have least := mul_le_mul_of_nonneg_right (optimal conf within exactly.ge) speed.le
    rw [whole, exactly] at least
    have next := paid (t + 1) (by omega) (by omega)
    rw [Int.cast_add, Int.cast_one] at next
    have limits := (filled.stored low high).within 0 (by omega)
    rcases (filled.chosen t low below).source with ⟨same, -⟩ | ⟨k, bound, out, -, -, stored, first⟩
    · rw [← same] at next
      linarith
    · obtain rfl | rfl : k = 0 ∨ k = 1 := by omega
      · have fewer : C t 0 = C (t + types.throughput 0) 0 - 1 := by rw [stored, Function.update_self]
        by_cases room : conf 0 < types.limit 0
        · have positive := types.throughput_pos 0
          have above := (later _ (by omega) out.1).2 equal _ (within_oneMore within room)
            (by rw [types.throughputOf_oneMore bound, exactly])
          rw [Configuration.oneMore, Function.update_self] at above
          omega
        · omega
      · have same : C t 0 = C (t + types.throughput 1) 0 := by rw [stored, Function.update_of_ne (by decide)]
        by_cases room : conf 1 < types.limit 1
        · have positive := types.throughput_pos 1
          have above := (later _ (by omega) out.1).2 equal _ (within_oneMore within room)
            (by rw [types.throughputOf_oneMore bound, exactly])
          rw [Configuration.oneMore, Function.update_of_ne (by decide)] at above
          omega
        · -- then the first type is open for a machine more, and it comes first
          have room' := (room_of_below two (exactly ▸ below)).resolve_right room
          have positive := types.throughput_pos 0
          have more := within_oneMore within room'
          have throughput := types.throughputOf_oneMore (k := 0) (by omega) conf
          have high' := throughputOf_le more
          have above := filled.stored (t := t + types.throughput 0) (by omega) (by omega)
          have cost := (later (t + types.throughput 0) (by omega) (by omega)).1 _ more (by omega)
          rw [costOf_oneMore (by omega)] at cost
          have cheaper : M (t + types.throughput 0) - types.cost 0 ≤ M t := by
            have now := paid t low high
            have scaled := mul_le_mul_of_nonneg_right cost speed.le
            rw [add_mul, whole, exactly] at scaled
            refine le_of_mul_le_mul_right ?_ speed
            linarith
          have closed : ¬ 0 < C (t + types.throughput 0) 0 := fun used =>
            absurd (first 0 (by decide) ⟨by omega, used⟩) cheaper.not_gt
          have none := (above.within 0 (by omega)).1
          have some := above.enough
          have most := (above.within 1 bound).2
          rw [throughputOf_two two, show C (t + types.throughput 0) 0 = 0 by omega, zero_mul, zero_add] at some
          rw [throughputOf_two two] at exactly
          have left : 0 ≤ conf 0 * types.throughput 0 := Int.mul_nonneg (within 0 (by omega)).1 (by omega)
          have right : C (t + types.throughput 0) 1 * types.throughput 1 ≤ conf 1 * types.throughput 1 :=
            mul_le_mul_of_nonneg_right (by omega) (Int.natCast_nonneg _)
          omega
  · have top := (full_of_tmax two within exactly.ge).1
    rw [filled.top.2, pool, top]

theorem optimal_of_two (two : types.count = 2) (filled : types.Filled M C) (low : 0 ≤ t) (high : t ≤ types.tmax) :
    types.Optimal M t := by
  refine (downward (P := fun t => types.Optimal M t ∧ types.Fewest C t) (fun t low high later => ?_) low high).1
  have optimal := optimal_step two filled low high later
  exact ⟨optimal, fewest_step two filled low high optimal later⟩

end TwoTypes

section FewTypes

variable {types} {M : Int → Rat} {C : Int → Nat → Int} {t : Int}

theorem optimal_of_one (one : types.count = 1) (filled : types.Filled M C) (low : 0 ≤ t) (high : t ≤ types.tmax) :
    types.Optimal M t := by
  refine downward (fun t low high later conf within enough => ?_) low high
  by_contra missed
  rw [not_le] at missed
  have throughput (conf : Nat → Int) : types.throughputOf conf = conf 0 * types.throughput 0 := by simp [throughputOf, one]
  have cost (conf : Nat → Int) : types.costOf conf = conf 0 * types.cost 0 := by simp [costOf, one]
  have positive := types.throughput_pos 0
  by_cases room : conf 0 < types.limit 0
  · have more := throughputOf_le (within_oneMore within room)
    rw [types.throughputOf_oneMore (by omega)] at more
    rcases enough.lt_or_eq with above | exactly
    · have next := later (t + 1) (by omega) (by omega) conf within (by omega)
      exact absurd ((filled.chosen t low (by omega)).next.trans next) missed.not_ge
    · obtain ⟨high', none, -⟩ := none_of_missed filled low within exactly.symm (by omega) room
        (later _ (by omega) (by omega)) missed
      have some := (filled.stored (t := t + types.throughput 0) (by omega) high').enough
      rw [throughput, none] at some
      omega
  · have full : conf 0 = types.limit 0 := le_antisymm (within 0 (by omega)).2 (not_lt.mp room)
    have all := filled.mono low high le_rfl
    rw [filled.top.1, cost, pool, ← full, ← cost conf] at all
    exact absurd all missed.not_ge

/-- What `dynamic_configuration` stores for a throughput. -/
structure Right (types : MachineTypes) (tables : Tables) (t : Int) (conf : Nat → Int) : Prop where
  limits : types.Within conf
  enough : t ≤ types.throughputOf conf
  cost : tables.m t = some (types.costOf conf)
  mono : ∀ t' conf', t ≤ t' → t' ≤ types.tmax → tables.confDict t' = some conf' → types.costOf conf ≤ types.costOf conf'
  least : ∀ k < types.count, ∀ conf', t + types.throughput k ≤ types.tmax →
    tables.confDict (t + types.throughput k) = some conf' → 0 < conf' k → types.costOf conf ≤ types.costOf conf' - types.cost k
  optimal : types.count ≤ 2 → ∀ other, types.Within other → t ≤ types.throughputOf other → types.costOf conf ≤ types.costOf other

/-- The tables are filled for all throughputs. With one or two types no
configuration is cheaper than the stored one; in general none is that another
stored one gives by leaving out a machine. -/
theorem dynamicTables_right (types : MachineTypes) : ∃ tables, types.configuration.dynamicTables = .ok tables ∧
    ∀ t, 1 ≤ t → t ≤ types.configuration.computeTmax → ∃ conf, tables.confDict t = some conf ∧ Right types tables t conf := by
  obtain ⟨tables, M, C, run, filled, reads⟩ := dynamicTables_filled types
  have tmax : types.configuration.computeTmax = types.tmax := types.computeTmax_eq
  refine ⟨tables, run, fun t low high => ?_⟩
  rw [tmax] at high
  have stored := filled.stored (by omega) high
  refine ⟨C t, (reads t low high).2, stored.within, stored.enough, ?_, ?_, ?_, ?_⟩
  · rw [(reads t low high).1, stored.cost]
  · intro t' conf' after high' found
    have stored' := filled.stored (t := t') (by omega) high'
    rw [(reads t' (by omega) high').2, Option.some.injEq] at found
    rw [← found, ← stored.cost, ← stored'.cost]
    exact filled.mono (by omega) after high'
  · intro k bound conf' high' found used
    have positive := types.throughput_pos k
    have stored' := filled.stored (t := t + types.throughput k) (by omega) high'
    rw [(reads _ (by omega) high').2, Option.some.injEq] at found
    rw [← found, ← stored.cost, ← stored'.cost]
    exact (filled.chosen t (by omega) (by omega)).each k bound ⟨high', by rwa [found]⟩
  · intro few other within enough
    have optimal : types.Optimal M t := by
      obtain none | one | two : types.count = 0 ∨ types.count = 1 ∨ types.count = 2 := by omega
      · have nothing : types.tmax = 0 := by simp [MachineTypes.tmax, throughputOf, none]
        omega
      · exact optimal_of_one one filled (by omega) high
      · exact optimal_of_two two filled (by omega) high
    rw [← stored.cost]
    exact optimal other within enough

/-- Three types, of which the last one alone does one unit for one. -/
def threeTypes : MachineTypes where
  names := ["small", "medium", "large"]
  distinct := by decide
  throughput k := if k = 0 then 3 else if k = 1 then 4 else 1
  cost k := if k = 0 then 2 else if k = 1 then 3 else 1
  limit k := if k = 0 then 2 else if k = 1 then 3 else 1
  costsOrder := [0, 1, 2]
  ordered := .refl _
  throughput_pos k := by split <;> [decide; (split <;> decide)]
  cost_pos k := by split <;> [norm_num; (split <;> norm_num)]

/-- One machine of the last type would be enough, at a lower cost. -/
theorem cheapest_missed : ¬ ∀ (types : MachineTypes) (tables : Tables), types.configuration.dynamicTables = .ok tables →
    ∀ t, 1 ≤ t → t ≤ types.configuration.computeTmax → ∀ cost, tables.m t = some cost →
      ∀ other, types.Within other → t ≤ types.throughputOf other → cost ≤ types.costOf other := by
  intro claim
  obtain ⟨tables, -, -, run, -⟩ := dynamicTables_filled threeTypes
  have two : (match threeTypes.configuration.dynamicTables with
      | .ok tables => tables.m 1 = some 2
      | .error _ => false) = true := by decide +kernel
  rw [run] at two
  let large (k : Nat) : Int := if k = 2 then 1 else 0
  have cheaper := claim threeTypes tables run 1 le_rfl (by decide +kernel) 2 (of_decide_eq_true two) large (by decide) (by decide)
  revert cheaper
  decide +kernel

end FewTypes

end ConPaaS.HTC.MachineTypes
