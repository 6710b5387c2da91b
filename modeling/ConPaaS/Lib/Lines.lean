import Mathlib.Data.List.DropRight
import Mathlib.Data.List.Induction
import Mathlib.Tactic.Tauto

/-! Texts in pieces between separators, and in lines. -/

namespace Lines

variable {α : Type*} {text more line : List Char} {lines : List (List Char)}

/-- What the pieces hold is what the text holds but for the separators. -/
theorem forall_mem_splitOnP {text : List α} {separates : α → Bool} {kept : α → Prop} :
    (∀ piece ∈ text.splitOnP separates, ∀ c ∈ piece, kept c) ↔ ∀ c ∈ text, separates c = true ∨ kept c := by
  induction text with
  | nil => simp
  | cons c rest ih =>
    obtain ⟨first, pieces, split⟩ := List.exists_cons_of_ne_nil (List.splitOnP_ne_nil separates rest)
    rw [List.splitOnP_cons_eq_if_modifyHead, List.forall_mem_cons, ← ih, split]
    by_cases apart : separates c
    · simp [apart]
    · simp [apart]
      tauto

/-- What is dropped at the end of a text is dropped from its last part that is
not dropped whole. -/
theorem rdropWhile_append (p : α → Bool) (before after : List α) :
    (before ++ after).rdropWhile p =
      if after.rdropWhile p = [] then before.rdropWhile p else before ++ after.rdropWhile p := by
  induction after using List.reverseRecOn with
  | nil => simp
  | append_singleton after c ih =>
    rw [← List.append_assoc, List.rdropWhile_concat, List.rdropWhile_concat]
    split
    · exact ih
    · simp

/-- What stands after the last line break. -/
def lastLine (text : List Char) : List Char := text.rtakeWhile (· ≠ '\n')

/-- Lines, each of them with a line break. -/
def toLines (lines : List (List Char)) : List Char := lines.flatMap (· ++ ['\n'])

theorem newline_notMem_of_mem_splitOn (piece : line ∈ text.splitOn '\n') : '\n' ∉ line := by
  have apart : ∀ piece ∈ text.splitOnP (· == '\n'), ∀ c ∈ piece, c ≠ '\n' :=
    forall_mem_splitOnP.mpr fun c _ => by
      rw [beq_iff_eq]
      exact em _
  exact fun inside => apart line piece _ inside rfl

theorem newline_notMem_lastLine (text : List Char) : '\n' ∉ lastLine text := by
  intro inside
  simpa using List.mem_rtakeWhile_imp inside

theorem lastLine_eq_self (whole : '\n' ∉ text) : lastLine text = text :=
  List.rtakeWhile_eq_self_iff.mpr fun c inside => decide_eq_true (by rintro rfl; exact whole inside)

/-- The last line is not longer than what follows a line break. -/
theorem length_lastLine_le (before after : List Char) : (lastLine (before ++ '\n' :: after)).length ≤ after.length := by
  by_contra longer
  have inside : '\n' :: after <:+ lastLine (before ++ '\n' :: after) :=
    List.suffix_of_suffix_length_le (List.suffix_append _ _) (List.rtakeWhile_suffix _ _) (Nat.not_le.mp longer)
  exact newline_notMem_lastLine _ (inside.mem (List.mem_cons_self ..))

theorem length_lastLine_lt (before : List Char) (broken : '\n' ∈ text) (after : List Char) :
    (lastLine (before ++ (text ++ after))).length < text.length + after.length := by
  obtain ⟨first, rest, rfl⟩ := List.append_of_mem broken
  have short := length_lastLine_le (before ++ first) (rest ++ after)
  rw [List.append_assoc, ← List.cons_append, ← List.append_assoc first] at short
  rw [List.length_append] at short
  simp only [List.length_append, List.length_cons]
  omega

/-- The lines before the last one do not depend on what follows. -/
theorem exists_splitOn_append (text : List Char) :
    ∃ lines, ∀ more, (text ++ more).splitOn '\n' = lines ++ (lastLine text ++ more).splitOn '\n' := by
  induction text using List.reverseRecOn with
  | nil => exact ⟨[], fun _ => rfl⟩
  | append_singleton text c ih =>
    by_cases ends : c = '\n'
    · subst ends
      refine ⟨text.splitOn '\n', fun more => ?_⟩
      rw [lastLine, List.rtakeWhile_concat_neg _ _ _ (by decide), List.append_assoc, List.singleton_append,
        List.splitOn_append_cons_self]
      rfl
    · obtain ⟨lines, same⟩ := ih
      refine ⟨lines, fun more => ?_⟩
      rw [lastLine, List.rtakeWhile_concat_pos _ _ _ (by simpa using ends), List.append_assoc, List.append_assoc,
        same, lastLine]

theorem splitOn_toLines (whole : ∀ line ∈ lines, '\n' ∉ line) : (toLines lines).splitOn '\n' = lines ++ [[]] := by
  induction lines with
  | nil => rfl
  | cons line rest ih =>
    rw [toLines, List.flatMap_cons, List.append_assoc, List.singleton_append,
      List.splitOn_append_cons_self_of_not_mem (whole line (List.mem_cons_self ..)), ← toLines,
      ih fun other member => whole other (List.mem_cons_of_mem _ member), List.cons_append]

end Lines
