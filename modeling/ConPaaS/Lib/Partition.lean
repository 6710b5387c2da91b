import Mathlib.Algebra.BigOperators.Group.Finset.Basic
import Mathlib.Algebra.Order.Group.Multiset
import Mathlib.Algebra.BigOperators.Group.Finset.Piecewise

namespace Partition

open scoped BigOperators

variable {α ι : Type*} {whole loose more less : Multiset α} {parts : Finset ι}
  {part part' : ι → Multiset α} {i : ι}

/-- A collection that is made up of the contents of some parts and of what is
loose between them, with nothing in two places. -/
def Splits (whole loose : Multiset α) (parts : Finset ι) (part : ι → Multiset α) : Prop :=
  whole = loose + ∑ i ∈ parts, part i

theorem Splits.congr (splits : Splits whole loose parts part) (same : ∀ j ∈ parts, part' j = part j) :
    Splits whole loose parts part' := by
  unfold Splits
  rw [Finset.sum_congr rfl same]
  exact splits

/-- What is loose goes. -/
theorem Splits.discard (splits : Splits (whole + loose) loose parts part) : Splits whole 0 parts part := by
  unfold Splits at splits ⊢
  rw [add_comm] at splits
  rw [zero_add]
  exact add_left_cancel splits

variable [DecidableEq ι]

/-- Parts that differ in one place have the same rest. -/
theorem Splits.rest (splits : Splits whole loose parts part) (member : i ∈ parts)
    (others : ∀ j ∈ parts, j ≠ i → part' j = part j) :
    ∃ rest, whole = loose + (part i + rest) ∧ ∑ j ∈ parts, part' j = part' i + rest := by
  refine ⟨∑ j ∈ parts.erase i, part j, ?_, ?_⟩
  · rw [Finset.add_sum_erase parts part member]
    exact splits
  · rw [← Finset.add_sum_erase parts part' member]
    congr 1
    exact Finset.sum_congr rfl fun j inside => others j (Finset.mem_of_mem_erase inside) (Finset.ne_of_mem_erase inside)

/-- What is in a part is in the whole. -/
theorem Splits.part_le (splits : Splits whole loose parts part) (member : i ∈ parts) : part i ≤ whole := by
  obtain ⟨rest, whole_eq, -⟩ := splits.rest member fun j _ _ => (rfl : part j = part j)
  rw [whole_eq, add_left_comm]
  exact Multiset.le_add_right _ _

/-- The whole and one part grow by the same. -/
theorem Splits.grow (splits : Splits whole loose parts part) (member : i ∈ parts)
    (others : ∀ j ∈ parts, j ≠ i → part' j = part j) (grown : part' i = part i + more) :
    Splits (whole + more) loose parts part' := by
  obtain ⟨rest, rfl, sum⟩ := splits.rest member others
  rw [Splits, sum, grown, add_assoc, add_assoc, add_assoc, add_comm rest more]

/-- A part gives up all it has, and that is loose now. -/
theorem Splits.release (splits : Splits whole loose parts part) (member : i ∈ parts)
    (others : ∀ j ∈ parts, j ≠ i → part' j = part j) (emptied : part' i = 0) :
    Splits whole (loose + part i) parts part' := by
  obtain ⟨rest, rfl, sum⟩ := splits.rest member others
  rw [Splits, sum, emptied, zero_add, add_assoc]

/-- The whole and one part lose the same. -/
theorem Splits.shrink (splits : Splits (whole + less) loose parts part) (member : i ∈ parts)
    (others : ∀ j ∈ parts, j ≠ i → part' j = part j) (shrunk : part i = part' i + less) :
    Splits whole loose parts part' := by
  obtain ⟨rest, sum, sum'⟩ := splits.rest member others
  rw [shrunk, add_right_comm, ← add_assoc] at sum
  rw [Splits, sum']
  exact add_right_cancel sum

/-- A new part is empty. -/
theorem Splits.insert (splits : Splits whole loose parts part) (fresh : i ∉ parts)
    (others : ∀ j ∈ parts, part' j = part j) (empty : part' i = 0) : Splits whole loose (insert i parts) part' := by
  rw [Splits, Finset.sum_insert fresh, empty, zero_add, Finset.sum_congr rfl others]
  exact splits

/-- A part that is empty can go. -/
theorem Splits.erase (splits : Splits whole loose parts part) (empty : part i = 0) :
    Splits whole loose (parts.erase i) part := by
  rw [Splits, Finset.sum_erase parts empty]
  exact splits

end Partition
