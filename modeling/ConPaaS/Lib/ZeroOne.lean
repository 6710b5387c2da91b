import Mathlib.Algebra.GroupWithZero.Nat
import Mathlib.Algebra.Order.BigOperators.Group.List
import Mathlib.Algebra.Order.Monoid.Defs
import Mathlib.Algebra.Order.Monoid.Unbundled.MinMax
import Mathlib.Order.Bounds.Basic

namespace ZeroOne

variable {ι M : Type} [AddCommMonoid M] [LinearOrder M]
variable {weight : ι → Nat} {profit : ι → M} {items S : List ι} {item : ι} {w v : Nat}

/-- The best profit of some of the items, each at most once, within a capacity:
the first item is left out or taken. -/
def best (weight : ι → Nat) (profit : ι → M) : List ι → Nat → M
  | [], _ => 0
  | item :: items, w =>
    if weight item ≤ w then max (best weight profit items w) (profit item + best weight profit items (w - weight item))
    else best weight profit items w

/-- The first item is worth its place: taking it gains something. -/
def Gains (weight : ι → Nat) (profit : ι → M) (item : ι) (items : List ι) (w : Nat) : Prop :=
  weight item ≤ w ∧ best weight profit items w < profit item + best weight profit items (w - weight item)

instance : Decidable (Gains weight profit item items w) := inferInstanceAs (Decidable (_ ∧ _))

/-- The items taken, read back from the recursion. -/
def chosen (weight : ι → Nat) (profit : ι → M) : List ι → Nat → List ι
  | [], _ => []
  | item :: items, w =>
    if Gains weight profit item items w then item :: chosen weight profit items (w - weight item)
    else chosen weight profit items w

@[simp] theorem best_nil : best weight profit [] w = 0 := rfl

theorem best_gains (gains : Gains weight profit item items w) :
    best weight profit (item :: items) w = profit item + best weight profit items (w - weight item) := by
  rw [best, if_pos gains.1, max_eq_right gains.2.le]

theorem best_not_gains (not : ¬ Gains weight profit item items w) :
    best weight profit (item :: items) w = best weight profit items w := by
  rw [best]
  split
  · next fits => exact max_eq_left (not_lt.mp fun gains => not ⟨fits, gains⟩)
  · rfl

theorem best_le_cons : best weight profit items w ≤ best weight profit (item :: items) w := by
  by_cases gains : Gains weight profit item items w
  · rw [best_gains gains]
    exact gains.2.le
  · rw [best_not_gains gains]

theorem best_lt_cons_iff :
    best weight profit items w < best weight profit (item :: items) w ↔ Gains weight profit item items w := by
  by_cases gains : Gains weight profit item items w
  · rw [best_gains gains]
    exact iff_of_true gains.2 gains
  · rw [best_not_gains gains]
    exact iff_of_false (lt_irrefl _) gains

theorem best_nonneg : 0 ≤ best weight profit items w := by
  induction items with
  | nil => exact le_rfl
  | cons item items ih => exact ih.trans best_le_cons

/-- A capacity below every weight holds nothing. -/
theorem best_below (below : ∀ item ∈ items, w < weight item) : best weight profit items w = 0 := by
  induction items with
  | nil => rfl
  | cons item items ih =>
    have heavy := below item List.mem_cons_self
    rw [best, if_neg (by omega), ih fun other member => below other (List.mem_cons_of_mem _ member)]

theorem chosen_sublist : (chosen weight profit items w).Sublist items := by
  induction items generalizing w with
  | nil => exact .slnil
  | cons item items ih =>
    rw [chosen]
    split
    · exact ih.cons_cons item
    · exact ih.cons item

theorem chosen_weight : ((chosen weight profit items w).map weight).sum ≤ w := by
  induction items generalizing w with
  | nil => exact Nat.zero_le w
  | cons item items ih =>
    rw [chosen]
    split
    · next gains =>
      have rest := @ih (w - weight item)
      have fits := gains.1
      rw [List.map_cons, List.sum_cons]
      omega
    · exact ih

theorem chosen_profit : ((chosen weight profit items w).map profit).sum = best weight profit items w := by
  induction items generalizing w with
  | nil => rfl
  | cons item items ih =>
    rw [chosen]
    split
    · next gains => rw [List.map_cons, List.sum_cons, ih, best_gains gains]
    · next not => rw [ih, best_not_gains not]

variable [IsOrderedAddMonoid M]

/-- No choice within the capacity has more profit. -/
theorem le_best (sub : S.Sublist items) (fits : (S.map weight).sum ≤ w) :
    (S.map profit).sum ≤ best weight profit items w := by
  induction sub generalizing w with
  | slnil => exact le_rfl
  | cons item _ ih => exact (ih fits).trans best_le_cons
  | @cons_cons S items item _ ih =>
    rw [List.map_cons, List.sum_cons] at fits ⊢
    rw [best, if_pos (by omega)]
    have rest : (S.map weight).sum ≤ w - weight item := by omega
    exact le_max_of_le_right (add_le_add_right (ih rest) _)

/-- The recursion finds the best profit of a choice within the capacity. -/
theorem best_isGreatest :
    IsGreatest {p | ∃ S : List ι, S.Sublist items ∧ (S.map weight).sum ≤ w ∧ (S.map profit).sum = p}
      (best weight profit items w) := by
  refine ⟨⟨chosen weight profit items w, chosen_sublist, chosen_weight, chosen_profit⟩, ?_⟩
  rintro _ ⟨S, sub, fits, rfl⟩
  exact le_best sub fits

theorem best_mono (more : w ≤ v) : best weight profit items w ≤ best weight profit items v := by
  rw [← chosen_profit]
  exact le_best chosen_sublist (chosen_weight.trans more)

theorem best_all (positive : ∀ item ∈ items, 0 < profit item) (fits : (items.map weight).sum ≤ w) :
    best weight profit items w = (items.map profit).sum := by
  refine le_antisymm ?_ (le_best (List.Sublist.refl items) fits)
  rw [← chosen_profit]
  refine (chosen_sublist.map profit).sum_le_sum fun p member => ?_
  obtain ⟨item, inside, rfl⟩ := List.mem_map.mp member
  exact (positive item inside).le

omit [IsOrderedAddMonoid M] in
/-- A choice with the whole profit leaves out nothing that has profit. -/
theorem eq_of_profit [IsOrderedCancelAddMonoid M] (positive : ∀ item ∈ items, 0 < profit item) (sub : S.Sublist items)
    (whole : (items.map profit).sum ≤ (S.map profit).sum) : S = items := by
  refine sub.eq_of_length_le (not_lt.mp fun shorter => ?_)
  obtain ⟨others, split⟩ := sub.exists_perm_append
  have rest : others ≠ [] := by
    rintro rfl
    rw [split.length_eq, List.append_nil] at shorter
    exact lt_irrefl _ shorter
  have gain : 0 < (others.map profit).sum := by
    refine List.sum_pos _ (fun p member => ?_) (by simpa using rest)
    obtain ⟨item, inside, rfl⟩ := List.mem_map.mp member
    exact positive item (split.mem_iff.mpr (List.mem_append_right _ inside))
  rw [(split.map profit).sum_eq, List.map_append, List.sum_append] at whole
  exact not_lt.mpr whole (lt_add_of_pos_right _ gain)

end ZeroOne
