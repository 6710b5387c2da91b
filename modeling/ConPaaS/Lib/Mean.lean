import Mathlib.Algebra.BigOperators.Ring.List
import Mathlib.Algebra.Order.BigOperators.Group.List
import Mathlib.Algebra.Order.Field.Basic

namespace Weighing

variable {α K : Type} [Field K] {weight weight' value : α → K} {list : List α}

/-- The sum of the weights of a list. -/
def total (weight : α → K) (list : List α) : K := (list.map weight).sum

/-- The mean of the values of a list, each with its weight. -/
def mean (weight value : α → K) (list : List α) : K := total (fun a => value a * weight a) list / total weight list

theorem total_map {β : Type} (change : α → β) (weight : β → K) (list : List α) :
    total weight (list.map change) = total (fun a => weight (change a)) list :=
  congrArg List.sum List.map_map

theorem total_indicator (keep : α → Bool) (list : List α) :
    total (fun a => if keep a then (1 : K) else 0) list = list.countP keep := by
  induction list with
  | nil => exact Nat.cast_zero.symm
  | cons a rest ih =>
    rw [List.countP_cons, Nat.cast_add, ← ih, add_comm]
    refine List.sum_cons.trans (congrArg (· + _) ?_)
    by_cases kept : keep a = true <;> simp [kept]

theorem total_sub (weight weight' : α → K) (list : List α) :
    total (fun a => weight' a - weight a) list = total weight' list - total weight list := by
  induction list with
  | nil => exact (sub_zero 0).symm
  | cons a rest ih =>
    have split (w : α → K) : total w (a :: rest) = w a + total w rest := List.sum_cons
    rw [split, split, split, ih]
    exact (add_sub_add_comm ..).symm

theorem total_mul_right (weight : α → K) (c : K) (list : List α) : total (fun a => weight a * c) list = total weight list * c :=
  List.sum_map_mul_right ..

variable [LinearOrder K] [IsStrictOrderedRing K]

theorem total_nonneg (nonneg : ∀ a ∈ list, 0 ≤ weight a) : 0 ≤ total weight list :=
  List.sum_nonneg (List.forall_mem_map.mpr nonneg)

theorem total_eq_zero_iff (nonneg : ∀ a ∈ list, 0 ≤ weight a) : total weight list = 0 ↔ ∀ a ∈ list, weight a = 0 := by
  constructor
  · intro zero a member
    exact List.all_zero_of_le_zero_le_of_sum_eq_zero (List.forall_mem_map.mpr nonneg) zero (List.mem_map_of_mem member)
  · intro all
    exact List.sum_eq_zero (List.forall_mem_map.mpr all)

/-- Weights that are not smaller have the same total only when they are equal. -/
theorem total_eq_iff (below : ∀ a ∈ list, weight a ≤ weight' a) :
    total weight' list = total weight list ↔ ∀ a ∈ list, weight' a = weight a := by
  rw [← sub_eq_zero, ← total_sub, total_eq_zero_iff fun a member => sub_nonneg.mpr (below a member)]
  simp only [sub_eq_zero]

/-- Some value that has a weight is not above the mean. -/
theorem exists_le_mean (value : α → K) (nonneg : ∀ a ∈ list, 0 ≤ weight a) (weighed : total weight list ≠ 0) :
    ∃ a ∈ list, weight a ≠ 0 ∧ value a ≤ mean weight value list := by
  by_contra none
  have above : ∀ a ∈ list, weight a ≠ 0 → mean weight value list < value a := fun a member some =>
    lt_of_not_ge fun le => none ⟨a, member, some, le⟩
  have excess : ∀ a ∈ list, 0 ≤ (value a - mean weight value list) * weight a := by
    intro a member
    by_cases zero : weight a = 0
    · rw [zero, mul_zero]
    · exact mul_nonneg (sub_nonneg.mpr (above a member zero).le) (nonneg a member)
  have balance : total (fun a => (value a - mean weight value list) * weight a) list = 0 := by
    simp only [sub_mul]
    rw [total_sub, mean]
    simp only [mul_comm (_ / _)]
    rw [total_mul_right, mul_div_cancel₀ _ weighed, sub_self]
  refine weighed ((total_eq_zero_iff nonneg).mpr fun a member => ?_)
  by_contra some
  rcases mul_eq_zero.mp ((total_eq_zero_iff excess).mp balance a member) with same | zero
  · exact (above a member some).ne' (sub_eq_zero.mp same)
  · exact some zero

/-- Some value that has a weight is not below the mean. -/
theorem exists_mean_le (value : α → K) (nonneg : ∀ a ∈ list, 0 ≤ weight a) (weighed : total weight list ≠ 0) :
    ∃ a ∈ list, weight a ≠ 0 ∧ mean weight value list ≤ value a := by
  obtain ⟨a, member, some, le⟩ := exists_le_mean (fun a => -value a) nonneg weighed
  have opposite : mean weight (fun a => -value a) list = -mean weight value list := by
    simp only [mean, ← neg_div, neg_mul, ← mul_neg_one (_ * _)]
    rw [total_mul_right, mul_neg_one, neg_div]
  exact ⟨a, member, some, neg_le_neg_iff.mp (opposite ▸ le)⟩

end Weighing
