import ConPaaS.Scalaris.Layout
import ConPaaS.Lib.Spread
import ConPaaS.Lib.Transition

namespace ConPaaS

open Keyed Transition Spread

variable {ν κ : Type}

namespace CloudGroup

variable {g : CloudGroup ν κ}

theorem nodeCounter_register (regKey : κ) : (g.register regKey).nodeCounter = g.nodeCounter + 1 := by
  simp only [nodeCounter, register, List.length_append, List.length_singleton, Nat.add_assoc]

theorem nodeCounter_complete [DecidableEq κ] {regKey : κ} (node : ν) (outstanding : regKey ∈ g.regKeys) :
    (g.complete node regKey).nodeCounter = g.nodeCounter := by
  have some := List.length_pos_of_mem outstanding
  simp only [nodeCounter, complete, List.length_append, List.length_singleton, List.length_erase_of_mem outstanding]
  omega

theorem draw_mem [DecidableEq ν] {draws : List Nat} {node : ν} (drawn : g.draw draws = some node) :
    node ∈ g.nodes ∧ some node ≠ g.firstnode := by
  induction draws with
  | nil => cases drawn
  | cons position rest ih =>
    unfold draw at drawn
    split at drawn
    · cases drawn
    · rename_i found
      split at drawn
      · exact ih drawn
      · rename_i other
        obtain rfl := Option.some.inj drawn
        exact ⟨List.mem_of_getElem? found, other⟩

/-- The node that is removed is the only one of the group, or another one than
the first. -/
theorem pick_cases [DecidableEq ν] {draws : List Nat} {node : ν} (picked : g.pick draws = some node) :
    g.nodes = [node] ∨ g.nodes.length ≠ 1 ∧ node ∈ g.nodes ∧ some node ≠ g.firstnode := by
  unfold pick at picked
  split at picked
  · rename_i single
    obtain rfl := Option.some.inj picked
    exact Or.inl single
  · rename_i several
    refine Or.inr ⟨fun one => ?_, draw_mem picked⟩
    obtain ⟨only, single⟩ := List.length_eq_one_iff.mp one
    exact several only single

theorem pick_mem [DecidableEq ν] {draws : List Nat} {node : ν} (picked : g.pick draws = some node) :
    node ∈ g.nodes := by
  rcases pick_cases picked with single | ⟨-, member, -⟩
  · rw [single]
    exact List.mem_singleton_self node
  · exact member

theorem nodeCounter_remove [DecidableEq ν] {node : ν} (member : node ∈ g.nodes) :
    (g.remove node).nodeCounter + 1 = g.nodeCounter := by
  have some := List.length_pos_of_mem member
  simp only [nodeCounter, remove, List.length_erase_of_mem member]
  omega

/-- The order `remove_node` sorts by: more nodes first, then the older time. -/
theorem maxCountMinTime_le {h : CloudGroup ν κ} : g.maxCountMinTime h ≤ 0 ↔
    h.nodeCounter < g.nodeCounter ∨ g.nodeCounter = h.nodeCounter ∧ g.timestamp ≤ h.timestamp := by
  unfold maxCountMinTime
  split <;> omega

end CloudGroup

namespace CloudGroups

variable {s start current : CloudGroups ν κ} {g : CloudGroup ν κ}

/-- The `node_counter` of every group. -/
def counters (s : CloudGroups ν κ) : List Nat := s.groups.rows.map CloudGroup.nodeCounter

theorem smallest_least (least : s.smallest = some g) : g ∈ s.groups.rows ∧ ∀ b ∈ s.counters, g.nodeCounter ≤ b := by
  refine ⟨List.argmin_mem least, fun b counted => ?_⟩
  obtain ⟨h, member, rfl⟩ := List.mem_map.mp counted
  rcases Prod.Lex.toLex_le_toLex.mp (List.le_of_mem_argmin member least) with less | ⟨equal, -⟩
  · exact le_of_lt less
  · exact le_of_eq equal

theorem largest_first (most : s.largest = some g) :
    g ∈ s.groups.rows ∧ ∀ h ∈ s.groups.rows, g.maxCountMinTime h ≤ 0 := by
  have total : Std.Total fun g h : CloudGroup ν κ => g.maxCountMinTime h ≤ 0 := ⟨fun g h => by
    simp only [CloudGroup.maxCountMinTime_le]
    omega⟩
  have transitive : IsTrans (CloudGroup ν κ) fun g h => g.maxCountMinTime h ≤ 0 := ⟨fun g h k => by
    simp only [CloudGroup.maxCountMinTime_le]
    omega⟩
  have sorted := List.pairwise_insertionSort (fun g h : CloudGroup ν κ => g.maxCountMinTime h ≤ 0) s.groups.rows
  obtain ⟨rest, split⟩ := List.head?_eq_some_iff.mp most
  rw [split] at sorted
  have inside : ∀ h, h ∈ s.groups.rows ↔ h ∈ g :: rest := fun h => by
    rw [← split, List.mem_insertionSort]
  refine ⟨(inside g).mpr List.mem_cons_self, fun h member => ?_⟩
  rcases List.mem_cons.mp ((inside h).mp member) with rfl | later
  · exact CloudGroup.maxCountMinTime_le.mpr (Or.inr ⟨rfl, le_rfl⟩)
  · exact (List.pairwise_cons.mp sorted).1 h later

theorem largest_most (most : s.largest = some g) : g ∈ s.groups.rows ∧ ∀ b ∈ s.counters, b ≤ g.nodeCounter := by
  obtain ⟨stored, first⟩ := largest_first most
  refine ⟨stored, fun b counted => ?_⟩
  obtain ⟨h, member, rfl⟩ := List.mem_map.mp counted
  rcases CloudGroup.maxCountMinTime_le.mp (first h member) with less | ⟨equal, -⟩
  · exact le_of_lt less
  · exact equal.ge

theorem counters_modify {number clock b : Nat} {change : CloudGroup ν κ → CloudGroup ν κ}
    (same : ∀ g, (change g).number = g.number)
    (counted : b ∈ counters ⟨s.groups.modify number change same, s.cloud2group, clock⟩) :
    b ∈ s.counters ∨ ∃ g ∈ s.groups.rows, g.number = number ∧ b = (change g).nodeCounter := by
  obtain ⟨h, member, rfl⟩ := List.mem_map.mp counted
  obtain ⟨g, stored, rfl⟩ := List.mem_map.mp member
  split
  · rename_i here
    exact Or.inr ⟨g, stored, here, rfl⟩
  · exact Or.inl (List.mem_map_of_mem stored)

variable [DecidableEq ν] [DecidableEq κ] {groups : Nat} {clouds : List String} {defaultCloud : String}
  {c : GroupCall ν κ} {result : CloudGroups ν κ × GroupAnswer ν κ}

/-- One step of a run. -/
def Step (before : CloudGroups ν κ) (c : GroupCall ν κ) (after : CloudGroups ν κ) : Prop :=
  ∃ answer, before.call c = some (after, answer)

/-- The state after a call. -/
def after (s : CloudGroups ν κ) (c : GroupCall ν κ) : Option (CloudGroups ν κ) := (s.call c).map Prod.fst

theorem run_of_play {calls : List (GroupCall ν κ)} (played : play after start calls = some current) :
    Run Step start calls current := by
  refine (Run.play played).mono fun {before c later} taken => ?_
  obtain ⟨⟨_, answer⟩, called, rfl⟩ := Option.map_eq_some_iff.mp taken
  exact ⟨answer, called⟩

/-- Only a call of `register_node` can make the groups less even. -/
theorem call_spread (laid : Laid groups clouds defaultCloud s)
    (aliased : ∀ number, Slot groups clouds "default" number → Slot groups clouds defaultCloud number)
    (called : s.call c = some result) (placed : ∀ cloud regKey, c ≠ .registerNode cloud regKey) :
    spread result.1.counters ≤ max 1 (spread s.counters) := by
  have even : ∀ {t : CloudGroups ν κ}, (∀ b ∈ t.counters, b ∈ s.counters) → spread t.counters ≤ max 1 (spread s.counters) := by
    intro t kept
    exact le_max_of_le_right (spread_le_iff.mpr fun a left b right => le_spread (kept a left) (kept b right))
  cases call_called called with
  | raised => exact even fun b counted => counted
  | @registered _ cloud regKey number found source =>
    rcases source with explicit | ⟨choice, g, -, least, inside⟩
    · exact absurd explicit (placed cloud regKey)
    · obtain ⟨stored, below⟩ := smallest_least least
      obtain rfl : g.number = number := Option.some.inj ((laid.own aliased stored inside).symm.trans found)
      refine spread_raised below (List.mem_map_of_mem stored) fun b counted => ?_
      rcases counters_modify _ counted with old | ⟨h, member, same, rfl⟩
      · exact Or.inl old
      · obtain rfl := s.groups.unique member stored same
        exact Or.inr (CloudGroup.nodeCounter_register regKey)
  | @completed node regKey cloud g found stored outstanding =>
    refine even fun b counted => ?_
    rcases counters_modify _ counted with old | ⟨h, member, same, rfl⟩
    · exact old
    · obtain rfl := s.groups.unique member stored same
      rw [CloudGroup.nodeCounter_complete node outstanding]
      exact List.mem_map_of_mem stored
  | barren =>
    refine even fun b counted => ?_
    rcases counters_modify _ counted with old | ⟨h, member, -, rfl⟩
    · exact old
    · exact List.mem_map.mpr ⟨h, member, rfl⟩
  | @removed draws g node most some picked =>
    obtain ⟨stored, above⟩ := largest_most most
    refine spread_lowered above (List.mem_map_of_mem stored) fun b counted => ?_
    rcases counters_modify _ counted with old | ⟨h, member, same, rfl⟩
    · exact Or.inl old
    · obtain rfl := s.groups.unique member stored same
      have inside : node ∈ h.nodes := CloudGroup.pick_mem picked
      exact Or.inr (CloudGroup.nodeCounter_remove (show node ∈ (h.touch (s.clock + 1)).nodes from inside))

/-- The groups of distinct clouds stay even: `next` and `remove_node` leave the
difference of the counters at most one, or what it was, and without explicit
placement it never exceeds one. -/
theorem counters_even (distinct : clouds.Nodup) (made : create ν κ clouds defaultCloud = some start)
    (unambiguous : start.Unambiguous defaultCloud) {calls : List (GroupCall ν κ)} (run : Run Step start calls current) :
    (∀ choice regKey after, current.call (.next choice regKey) = some after →
        spread after.1.counters ≤ max 1 (spread current.counters)) ∧
      (∀ draws node after, current.call (.removeNode draws) = some (after, .removed node) →
        spread after.counters ≤ max 1 (spread current.counters)) ∧
      ((∀ cloud regKey, GroupCall.registerNode cloud regKey ∉ calls) → spread current.counters ≤ 1) := by
  obtain ⟨groups, positive, -, laid, unused⟩ := create_laid distinct made
  have aliased := laid.aliased positive unambiguous
  have kept : ∀ {before : CloudGroups ν κ} {c after}, Laid groups clouds defaultCloud before → Step before c after →
      Laid groups clouds defaultCloud after := fun laid ⟨_, called⟩ => laid.call called
  have now := run.invariant laid kept
  refine ⟨fun choice regKey after called => call_spread now aliased called nofun,
    fun draws node after called => call_spread now aliased called nofun, fun automatic => ?_⟩
  induction run with
  | start =>
    refine spread_le_iff.mpr fun a left b _ => ?_
    obtain ⟨g, stored, rfl⟩ := List.mem_map.mp left
    obtain ⟨none, keyless, -⟩ := unused g stored
    simp [CloudGroup.nodeCounter, none, keyless]
  | @next calls before c after earlier taken ih =>
    have even := ih (earlier.invariant laid kept) fun cloud regKey member =>
      automatic cloud regKey (List.mem_append_left [c] member)
    obtain ⟨answer, called⟩ := taken
    have step := call_spread (earlier.invariant laid kept) aliased called fun cloud regKey same =>
      automatic cloud regKey (List.mem_append_right calls (List.mem_singleton.mpr same.symm))
    exact step.trans (max_le le_rfl even)

/-- Four calls on the groups of three clouds. -/
def threeClouds : List (GroupCall Nat Nat) :=
  [.next 0 0, .next 0 1, .completeRegistration 7 0 "iaas", .removeNode [0]]

theorem threeClouds_even : ∃ start current, create Nat Nat ["iaas", "cloud1", "cloud2"] "iaas" = some start ∧
    Run Step start threeClouds current ∧
    (∀ choice regKey after, current.call (.next choice regKey) = some after →
        spread after.1.counters ≤ max 1 (spread current.counters)) ∧
      (∀ draws node after, current.call (.removeNode draws) = some (after, .removed node) →
        spread after.counters ≤ max 1 (spread current.counters)) ∧
      ((∀ cloud regKey, GroupCall.registerNode cloud regKey ∉ threeClouds) → spread current.counters ≤ 1) := by
  obtain ⟨start, made⟩ : ∃ start, create Nat Nat ["iaas", "cloud1", "cloud2"] "iaas" = some start := ⟨_, rfl⟩
  have clear : start.Unambiguous "iaas" := by
    cases made
    unfold Unambiguous
    decide +kernel
  obtain ⟨current, played⟩ : ∃ current, play after start threeClouds = some current := by
    cases made
    exact Option.isSome_iff_exists.mp (by decide +kernel)
  have run := run_of_play played
  exact ⟨start, current, made, run, counters_even (by decide) made clear run⟩

/-- A cloud named `default` never gets the nodes it is chosen for. -/
theorem defaultCloud_uneven : ¬∀ (clouds : List String) (defaultCloud : String) (start current : CloudGroups Nat Nat)
    (calls : List (GroupCall Nat Nat)), clouds.Nodup → create Nat Nat clouds defaultCloud = some start →
      Run Step start calls current →
        (∀ choice regKey after, current.call (.next choice regKey) = some after →
            spread after.1.counters ≤ max 1 (spread current.counters)) ∧
          (∀ draws node after, current.call (.removeNode draws) = some (after, .removed node) →
            spread after.counters ≤ max 1 (spread current.counters)) ∧
          ((∀ cloud regKey, GroupCall.registerNode cloud regKey ∉ calls) → spread current.counters ≤ 1) := by
  intro even
  obtain ⟨start, made⟩ : ∃ start, create Nat Nat ["iaas", "default"] "iaas" = some start := ⟨_, rfl⟩
  obtain ⟨current, played⟩ : ∃ current, play after start [.next 0 0, .next 0 1] = some current := by
    cases made
    exact Option.isSome_iff_exists.mp (by decide +kernel)
  have uneven : (play after start [.next 0 0, .next 0 1]).map (fun s => spread s.counters) = some 2 := by
    cases made
    decide +kernel
  rw [played, Option.map_some, Option.some.injEq] at uneven
  have narrow := (even _ _ start current _ (by decide) made (run_of_play played)).2.2 (by simp)
  omega

end CloudGroups

end ConPaaS
