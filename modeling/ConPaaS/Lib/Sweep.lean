import Mathlib.Data.List.Basic
import Mathlib.Data.List.Chain

namespace Sweeping

variable {α β : Type} {p : α → Bool} {list : List α} {index : Nat}

/-- What is left of a list from which the elements with a property are deleted
while it is being iterated: the element after a deleted one takes its place
and is passed over. -/
def sweep (p : α → Bool) : List α → List α
  | [] => []
  | [a] => if p a then [] else [a]
  | a :: b :: later => if p a then b :: sweep p later else a :: sweep p (b :: later)

/-- The same from a position on. -/
def sweepFrom (p : α → Bool) (index : Nat) (list : List α) : List α := list.take index ++ sweep p (list.drop index)

theorem sweep_keep {a : α} (keep : p a = false) (later : List α) : sweep p (a :: later) = a :: sweep p later := by
  cases later <;> simp [sweep, keep]

theorem sweepFrom_zero : sweepFrom p 0 list = sweep p list := by
  rw [sweepFrom, List.take_zero, List.drop_zero, List.nil_append]

theorem sweepFrom_end (passed : list.length ≤ index) : sweepFrom p index list = list := by
  rw [sweepFrom, List.take_of_length_le passed, List.drop_of_length_le passed, sweep, List.append_nil]

/-- An element without the property stays, and the next one is looked at. -/
theorem sweepFrom_keep {a : α} (found : list[index]? = some a) (keep : p a = false) :
    sweepFrom p (index + 1) list = sweepFrom p index list := by
  obtain ⟨bound, rfl⟩ := List.getElem?_eq_some_iff.mp found
  rw [sweepFrom, sweepFrom, List.drop_eq_getElem_cons bound, sweep_keep keep, List.take_add_one, found, List.append_assoc]
  rfl

/-- An element with the property is deleted, and the one after the next is
looked at. -/
theorem sweepFrom_delete {a : α} (found : list[index]? = some a) (delete : p a = true) :
    sweepFrom p (index + 1) (list.eraseIdx index) = sweepFrom p index list := by
  obtain ⟨bound, rfl⟩ := List.getElem?_eq_some_iff.mp found
  have before : (list.take index).length = index := List.length_take_of_le bound.le
  rw [sweepFrom, sweepFrom, List.drop_eq_getElem_cons bound, List.eraseIdx_eq_take_drop_succ]
  cases rest : list.drop (index + 1) with
  | nil =>
    rw [List.append_nil, List.take_of_length_le (by omega), List.drop_of_length_le (by omega), sweep, sweep, if_pos delete]
  | cons b later =>
    rw [sweep, if_pos delete, List.take_append, List.drop_append, before, Nat.add_sub_cancel_left,
      List.take_of_length_le (by omega), List.drop_of_length_le (by omega), List.append_assoc]
    rfl

theorem sweep_map (f : β → α) (list : List β) : (sweep (p ∘ f) list).map f = sweep p (list.map f) := by
  fun_induction sweep (p ∘ f) list with
  | case1 => rfl
  | case2 a delete => simp_all [sweep]
  | case3 a keep => simp_all [sweep]
  | case4 a b later delete ih => simp_all [sweep]
  | case5 a b later keep ih => simp_all [sweep]

/-- Every element with the property is deleted exactly if no two of them stand
together. -/
theorem sweep_eq_filter_iff :
    sweep p list = list.filter (fun a => !p a) ↔ list.IsChain fun a b => ¬(p a = true ∧ p b = true) := by
  fun_induction sweep p list with
  | case1 => exact iff_of_true rfl .nil
  | case2 a delete => exact iff_of_true (by simp [delete]) (.singleton a)
  | case3 a keep => exact iff_of_true (by simp [keep]) (.singleton a)
  | case4 a b later delete ih =>
    rw [List.isChain_cons_cons, List.filter_cons_of_neg (by simp [delete])]
    by_cases next : p b = true
    · refine iff_of_false (fun same => ?_) fun apart => apart.1 ⟨delete, next⟩
      have kept := List.of_mem_filter (same ▸ List.mem_cons_self)
      simp [next] at kept
    · rw [List.filter_cons_of_pos (by simp [next]), List.cons_inj_right, ih]
      constructor
      · intro apart
        refine ⟨fun both => next both.2, ?_⟩
        cases later with
        | nil => exact .singleton b
        | cons c rest => exact List.isChain_cons_cons.mpr ⟨fun both => next both.1, apart⟩
      · exact fun apart => apart.2.tail
  | case5 a b later keep ih =>
    rw [List.isChain_cons_cons, List.filter_cons_of_pos (by simp [keep]), List.cons_inj_right, ih]
    exact ⟨fun apart => ⟨fun both => keep both.1, apart⟩, fun apart => apart.2⟩

end Sweeping
