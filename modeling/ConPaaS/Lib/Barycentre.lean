import Mathlib.Algebra.BigOperators.Fin
import Mathlib.Algebra.Order.BigOperators.Group.List
import Mathlib.Algebra.Order.BigOperators.Ring.Finset
import Mathlib.Algebra.Order.Field.Basic
import Mathlib.Tactic.FieldSimp
import Mathlib.Tactic.Linarith
import Mathlib.Tactic.Ring

namespace Barycentre

variable {n : Nat} {K : Type} [Field K] {a b : Fin n → K} {list : List (Fin n → K)}

/-- The square of the distance of two points. -/
def distSq (a b : Fin n → K) : K := ∑ i, (a i - b i) ^ 2

/-- The mean of some points. -/
def mean (list : List (Fin n → K)) : Fin n → K := fun i => (list.map fun p => p i).sum / list.length

theorem distSq_self (a : Fin n → K) : distSq a a = 0 := Finset.sum_eq_zero fun i _ => by rw [sub_self, zero_pow two_ne_zero]

theorem mean_singleton (p : Fin n → K) : mean [p] = p := by
  funext i
  simp [mean]

/-- The difference of the distances to two points is affine. -/
theorem distSq_sub (p a b : Fin n → K) :
    distSq p a - distSq p b = (distSq 0 a - distSq 0 b) + ∑ i, 2 * (b i - a i) * p i := by
  simp only [distSq]
  rw [← Finset.sum_sub_distrib, ← Finset.sum_sub_distrib, ← Finset.sum_add_distrib]
  refine Finset.sum_congr rfl fun i _ => ?_
  simp only [Pi.zero_apply]
  ring

theorem sum_affine (c : K) (w : Fin n → K) (list : List (Fin n → K)) :
    (list.map fun p => c + ∑ i, w i * p i).sum = list.length * c + ∑ i, w i * (list.map fun p => p i).sum := by
  induction list with
  | nil => simp
  | cons p list ih =>
    simp only [List.map_cons, List.sum_cons, ih, mul_add, Finset.sum_add_distrib, List.length_cons, Nat.cast_add, Nat.cast_one]
    ring

variable [LinearOrder K] [IsStrictOrderedRing K]

theorem distSq_nonneg (a b : Fin n → K) : 0 ≤ distSq a b := Finset.sum_nonneg fun _ _ => sq_nonneg _

theorem distSq_eq_zero_iff : distSq a b = 0 ↔ a = b := by
  rw [distSq, Finset.sum_eq_zero_iff_of_nonneg fun _ _ => sq_nonneg _, funext_iff]
  simp only [Finset.mem_univ, true_implies, pow_eq_zero_iff two_ne_zero, sub_eq_zero]

theorem distSq_pos (other : a ≠ b) : 0 < distSq a b :=
  lt_of_le_of_ne (distSq_nonneg a b) fun zero => other (distSq_eq_zero_iff.mp zero.symm)

/-- The mean of the differences of the distances to two points is that
difference at the mean. -/
theorem sum_distSq_sub (some : list ≠ []) (a b : Fin n → K) :
    (list.map fun p => distSq p a - distSq p b).sum = list.length * (distSq (mean list) a - distSq (mean list) b) := by
  have length : (list.length : K) ≠ 0 := Nat.cast_ne_zero.mpr (List.length_pos_iff.mpr some).ne'
  rw [funext fun p => distSq_sub p a b, sum_affine, distSq_sub (mean list) a b, mul_add, Finset.mul_sum]
  congr 1
  refine Finset.sum_congr rfl fun i _ => ?_
  rw [mean]
  field_simp

/-- The mean of points that are not nearer to one of two points is not either. -/
theorem mean_le (some : list ≠ []) (nearer : ∀ p ∈ list, distSq p a ≤ distSq p b) :
    distSq (mean list) a ≤ distSq (mean list) b := by
  have length : (0 : K) < list.length := Nat.cast_pos.mpr (List.length_pos_iff.mpr some)
  have sum : (list.map fun p => distSq p a - distSq p b).sum ≤ 0 := by
    refine (List.sum_le_card_nsmul _ 0 fun x member => ?_).trans_eq (nsmul_zero _)
    obtain ⟨p, inside, rfl⟩ := List.mem_map.mp member
    exact sub_nonpos.mpr (nearer p inside)
  rw [sum_distSq_sub some] at sum
  exact sub_nonpos.mp (nonpos_of_mul_nonpos_right sum length)

/-- Some of the points is nearer to their mean than to another point. -/
theorem exists_nearer_mean (some : list ≠ []) (other : mean list ≠ b) : ∃ p ∈ list, distSq p (mean list) < distSq p b := by
  by_contra none
  have below := mean_le some fun p member => not_lt.mp fun lt => none ⟨p, member, lt⟩
  rw [distSq_self] at below
  exact (distSq_pos other).not_ge below

/-- The mean of points that are nearer to one of two points is, too. -/
theorem mean_lt (some : list ≠ []) (nearer : ∀ p ∈ list, distSq p a < distSq p b) :
    distSq (mean list) a < distSq (mean list) b := by
  have length : (0 : K) < list.length := Nat.cast_pos.mpr (List.length_pos_iff.mpr some)
  have sum : (list.map fun p => distSq p a - distSq p b).sum < (list.map fun _ => (0 : K)).sum :=
    List.sum_lt_sum_of_ne_nil some _ _ fun p member => sub_neg.mpr (nearer p member)
  rw [sum_distSq_sub some, List.map_const', List.sum_replicate, nsmul_zero] at sum
  exact sub_neg.mp (neg_of_mul_neg_right sum length.le)

end Barycentre
