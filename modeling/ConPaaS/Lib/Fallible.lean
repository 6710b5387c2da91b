import Mathlib.Tactic.TypeStar

namespace Fallible

variable {ε α β : Type*}

/-- A computation in two parts succeeds when both parts do. -/
theorem bind_ok {ε α β : Type} {x : Except ε α} {f : α → Except ε β} {b : β} :
    (x >>= f) = .ok b ↔ ∃ a, x = .ok a ∧ f a = .ok b := by
  cases x with
  | error error => simp [bind, Except.bind]
  | ok a => simp [bind, Except.bind]

theorem after_ok {x : Except ε α} {f : α → Except ε β} {b : β} :
    x.bind f = .ok b ↔ ∃ a, x = .ok a ∧ f a = .ok b := by
  cases x with
  | error error => simp [Except.bind]
  | ok a => simp [Except.bind]

theorem map_ok {x : Except ε α} {f : α → β} {b : β} : x.map f = .ok b ↔ ∃ a, x = .ok a ∧ f a = b := by
  cases x with
  | error error => simp [Except.map]
  | ok a => simp [Except.map]

/-- A computation fails or succeeds. -/
theorem error_or_ok (x : Except ε α) : (∃ error, x = .error error) ∨ ∃ a, x = .ok a := by
  cases x with
  | error error => exact Or.inl ⟨error, rfl⟩
  | ok a => exact Or.inr ⟨a, rfl⟩

/-- What succeeds for every element succeeds for the list. -/
theorem mapM_some {α β : Type} {f : α → Option β} {g : α → β} {list : List α} (each : ∀ a ∈ list, f a = some (g a)) :
    list.mapM f = some (list.map g) := by
  induction list with
  | nil => rfl
  | cons a rest ih =>
    rw [List.mapM_cons, each a (List.mem_cons_self ..), ih fun b member => each b (List.mem_cons_of_mem _ member)]
    rfl

end Fallible
