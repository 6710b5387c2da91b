import Mathlib.Data.Nat.Basic
import Mathlib.Order.Lattice

namespace Spread

variable {counts after : List Nat} {low high bound : Nat}

/-- The difference between the largest and the smallest of some numbers. -/
def spread (counts : List Nat) : Nat := counts.max?.getD 0 - counts.min?.getD 0

theorem spread_le_iff : spread counts ≤ bound ↔ ∀ a ∈ counts, ∀ b ∈ counts, a ≤ b + bound := by
  cases most : counts.max? with
  | none =>
    obtain rfl := List.max?_eq_none_iff.mp most
    simp [spread]
  | some high =>
    cases least : counts.min? with
    | none =>
      obtain rfl := List.min?_eq_none_iff.mp least
      cases most
    | some low =>
      obtain ⟨highest, above⟩ := List.max?_eq_some_iff.mp most
      obtain ⟨lowest, below⟩ := List.min?_eq_some_iff.mp least
      rw [spread, most, least, Option.getD_some, Option.getD_some]
      constructor
      · intro narrow a left b right
        have := above a left
        have := below b right
        omega
      · intro within
        have := within high highest low lowest
        omega

theorem le_spread {a b : Nat} (left : a ∈ counts) (right : b ∈ counts) : a ≤ b + spread counts :=
  spread_le_iff.mp le_rfl a left b right

/-- One more on top of a smallest number widens nothing but equality. -/
theorem spread_raised (least : ∀ b ∈ counts, low ≤ b) (smallest : low ∈ counts)
    (raised : ∀ b ∈ after, b ∈ counts ∨ b = low + 1) : spread after ≤ max 1 (spread counts) := by
  refine spread_le_iff.mpr fun a left b right => ?_
  rcases raised a left with old | rfl <;> rcases raised b right with old' | rfl
  · have := le_spread old old'
    omega
  · have := le_spread old smallest
    omega
  · have := least b old'
    omega
  · omega

/-- The same for one less from a largest number. -/
theorem spread_lowered (most : ∀ b ∈ counts, b ≤ high) (largest : high ∈ counts)
    (lowered : ∀ b ∈ after, b ∈ counts ∨ b + 1 = high) : spread after ≤ max 1 (spread counts) := by
  refine spread_le_iff.mpr fun a left b right => ?_
  rcases lowered a left with old | down <;> rcases lowered b right with old' | down'
  · have := le_spread old old'
    omega
  · have := most a old
    omega
  · have := le_spread largest old'
    omega
  · omega

end Spread
