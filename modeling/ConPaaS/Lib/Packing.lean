import Mathlib.Data.Finset.Card
import Mathlib.Tactic.ByContra

namespace Packing

variable {α : Type*} [DecidableEq α] {hosts more workers new gone : Finset α} {count : Int}

/-- A duty that either is packed on one of the hosts, and then counted as
zero, or has `count` workers of its own, none of them a host. -/
structure Shared (hosts workers : Finset α) (count : Int) : Prop where
  nonempty : workers.Nonempty
  counted : count = if ∃ a ∈ hosts, workers = {a} then 0 else (workers.card : Int)
  apart : 0 < count → Disjoint hosts workers

/-- The two ways in which a duty can be shared. -/
theorem Shared.cases (shared : Shared hosts workers count) :
    (count = 0 ∧ ∃ a ∈ hosts, workers = {a}) ∨ (0 < count ∧ count = workers.card ∧ Disjoint hosts workers) := by
  have counted := shared.counted
  split at counted
  · rename_i packed
    exact Or.inl ⟨counted, packed⟩
  · have some := Finset.card_pos.mpr shared.nonempty
    have positive : 0 < count := by omega
    exact Or.inr ⟨positive, counted, shared.apart positive⟩

theorem Shared.packed {a : α} (host : a ∈ hosts) : Shared hosts {a} 0 where
  nonempty := Finset.singleton_nonempty a
  counted := (if_pos ⟨a, host, rfl⟩).symm
  apart := fun positive => absurd positive (lt_irrefl 0)

/-- Workers of its own relieve the host a duty was packed on. -/
theorem Shared.own (some : workers.Nonempty) (apart : Disjoint hosts workers) :
    Shared hosts workers workers.card where
  nonempty := some
  counted := by
    rw [if_neg]
    rintro ⟨a, host, rfl⟩
    exact Finset.disjoint_left.mp apart host (Finset.mem_singleton_self a)
  apart := fun _ => apart

theorem Shared.nonneg (shared : Shared hosts workers count) : 0 ≤ count := by
  rcases shared.cases with ⟨zero, _⟩ | ⟨positive, _⟩ <;> omega

/-- New hosts that do not work change nothing. -/
theorem Shared.moreHosts (shared : Shared hosts workers count) (idle : Disjoint more workers) :
    Shared (hosts ∪ more) workers count := by
  rcases shared.cases with ⟨rfl, a, host, rfl⟩ | ⟨_, rfl, apart⟩
  · exact Shared.packed (Finset.mem_union_left more host)
  · exact Shared.own shared.nonempty (Finset.disjoint_union_left.mpr ⟨apart, idle⟩)

/-- Losing hosts changes nothing for a duty that is not packed. -/
theorem Shared.fewerHosts (shared : Shared hosts workers count) (fewer : more ⊆ hosts) (kept : count = 0 → more = hosts) :
    Shared more workers count := by
  rcases shared.cases with ⟨rfl, _⟩ | ⟨_, rfl, apart⟩
  · rwa [kept rfl]
  · exact Shared.own shared.nonempty (Finset.disjoint_of_subset_left fewer apart)

theorem Shared.add (shared : Shared hosts workers count) (positive : 0 < count) (fresh : Disjoint workers new)
    (idle : Disjoint hosts new) : Shared hosts (workers ∪ new) (count + new.card) := by
  rcases shared.cases with ⟨zero, _⟩ | ⟨_, rfl, apart⟩
  · omega
  · have grown := Shared.own (shared.nonempty.mono Finset.subset_union_left)
      (Finset.disjoint_union_right.mpr ⟨apart, idle⟩)
    rw [Finset.card_union_of_disjoint fresh] at grown
    exact_mod_cast grown

theorem Shared.drop (shared : Shared hosts workers count) (inside : gone ⊆ workers) (left : (gone.card : Int) < count) :
    Shared hosts (workers \ gone) (count - gone.card) := by
  rcases shared.cases with ⟨rfl, _⟩ | ⟨_, rfl, apart⟩
  · omega
  · have size := Finset.card_sdiff_add_card_eq_card inside
    have some : (workers \ gone).Nonempty := Finset.card_pos.mp (by omega)
    have fewer := Shared.own some (Finset.disjoint_of_subset_right Finset.sdiff_subset apart)
    rwa [show ((workers \ gone).card : Int) = workers.card - gone.card by omega] at fewer

/-- Some workers stop and some hosts go. If no worker of its own is left, a
host that stays takes the duty over. -/
theorem Shared.remove (shared : Shared hosts workers count) (inside : gone ⊆ workers) (enough : (gone.card : Int) ≤ count)
    (fewer : more ⊆ hosts) {a : α} (host : a ∈ more) (kept : count = 0 → more = hosts) :
    Shared more (if 0 < gone.card ∧ count = gone.card then insert a (workers \ gone) else workers \ gone)
      (count - gone.card) := by
  rcases Nat.eq_zero_or_pos gone.card with none | some
  · rw [if_neg (by omega), none, Finset.card_eq_zero.mp none, Finset.sdiff_empty]
    simpa using shared.fewerHosts fewer kept
  · by_cases all : count = gone.card
    · obtain ⟨zero, _⟩ | ⟨_, own, _⟩ := shared.cases
      · omega
      · have same : gone = workers := Finset.eq_of_subset_of_card_le inside (by omega)
        rw [if_pos ⟨some, all⟩, same, Finset.sdiff_self, show count - (workers.card : Int) = 0 by omega]
        exact Shared.packed host
    · rw [if_neg (by omega)]
      exact (shared.drop inside (by omega)).fewerHosts fewer fun zero => by omega

/-- New workers and new hosts come. The first workers of its own relieve the
host a duty was packed on. -/
theorem Shared.join (shared : Shared hosts workers count) (fresh : Disjoint workers new) (idle : Disjoint (hosts ∪ more) new)
    (apart : Disjoint more workers) (relieved : 0 < new.card → count = 0 → gone = workers)
    (others : (new.card = 0 ∨ count ≠ 0) → gone = ∅) :
    Shared (hosts ∪ more) (workers \ gone ∪ new) (count + new.card) := by
  rcases Nat.eq_zero_or_pos new.card with none | some
  · rw [others (Or.inl none), none, Finset.card_eq_zero.mp none, Finset.sdiff_empty, Finset.union_empty]
    simpa using shared.moreHosts apart
  · by_cases packed : count = 0
    · rw [relieved some packed, Finset.sdiff_self, Finset.empty_union, packed, Int.zero_add]
      exact Shared.own (Finset.card_pos.mp some) idle
    · rw [others (Or.inr packed), Finset.sdiff_empty]
      have positive := shared.nonneg
      exact (shared.moreHosts apart).add (by omega) fresh idle

end Packing
