import ConPaaS.Scalaris.CloudGroups

namespace ConPaaS

open Keyed

/-- A cloud of the list belongs to the group with a number. -/
def Slot (groups : Nat) (clouds : List String) (cloud : String) (number : Nat) : Prop :=
  ∃ index, clouds[index]? = some cloud ∧ index % groups = number

variable {groups number : Nat} {clouds : List String} {cloud defaultCloud : String}

theorem slot_append {last : String} : Slot groups (clouds ++ [last]) cloud number ↔
    Slot groups clouds cloud number ∨ cloud = last ∧ clouds.length % groups = number := by
  constructor
  · rintro ⟨index, atIndex, rfl⟩
    rcases Nat.lt_trichotomy index clouds.length with before | rfl | after
    · rw [List.getElem?_append_left before] at atIndex
      exact Or.inl ⟨index, atIndex, rfl⟩
    · simp only [List.getElem?_concat_length, Option.some.injEq] at atIndex
      exact Or.inr ⟨atIndex.symm, rfl⟩
    · rw [List.getElem?_eq_none (by rw [List.length_append, List.length_singleton]; omega)] at atIndex
      cases atIndex
  · rintro (⟨index, atIndex, rfl⟩ | ⟨rfl, rfl⟩)
    · have before : index < clouds.length := (List.getElem?_eq_some_iff.mp atIndex).1
      exact ⟨index, by rw [List.getElem?_append_left before, atIndex], rfl⟩
    · exact ⟨clouds.length, List.getElem?_concat_length, rfl⟩

theorem Slot.mem (slot : Slot groups clouds cloud number) : cloud ∈ clouds := by
  obtain ⟨index, atIndex, -⟩ := slot
  exact List.mem_of_getElem? atIndex

/-- A cloud that is listed once belongs to one group. -/
theorem Slot.unique {other : Nat} (distinct : clouds.Nodup) (slot : Slot groups clouds cloud number)
    (again : Slot groups clouds cloud other) : number = other := by
  obtain ⟨first, atFirst, rfl⟩ := slot
  obtain ⟨second, atSecond, rfl⟩ := again
  have bound := (List.getElem?_eq_some_iff.mp atFirst).1
  rw [(List.getElem?_inj bound distinct).mp (atFirst.trans atSecond.symm)]

theorem Slot.lt (slot : Slot groups clouds cloud number) (some : 0 < groups) : number < groups := by
  obtain ⟨index, -, rfl⟩ := slot
  exact Nat.mod_lt index some

theorem exists_slot (member : cloud ∈ clouds) : ∃ number, Slot groups clouds cloud number := by
  obtain ⟨index, atIndex⟩ := List.mem_iff_getElem?.mp member
  exact ⟨index % groups, index, atIndex, rfl⟩

namespace CloudGroups

variable {ν κ : Type} {s start : CloudGroups ν κ} {g : CloudGroup ν κ}

/-- The clouds are dealt out to the groups in turn, and the index leads from a
cloud to its group. -/
structure Dealt (groups : Nat) (clouds : List String) (s : CloudGroups ν κ) : Prop where
  numbers : s.groups.rows.map CloudGroup.number = List.range groups
  dealt : ∀ g ∈ s.groups.rows, ∀ cloud, cloud ∈ g.clouds ↔ Slot groups clouds cloud g.number
  index : ∀ cloud number, s.cloud2group.lookup cloud = some number ↔ Slot groups clouds cloud number
  unused : ∀ g ∈ s.groups.rows, g.nodes = [] ∧ g.regKeys = [] ∧ g.firstnode = none

theorem distribute_concat (groups : Nat) (clouds : List String) (last : String) :
    distribute ν κ groups (clouds ++ [last]) = (distribute ν κ groups clouds).addCloud groups (last, clouds.length) := by
  simp only [distribute, List.zipIdx_append, List.foldl_append, Nat.zero_add, List.zipIdx_singleton, List.foldl_cons,
    List.foldl_nil]

theorem distribute_dealt (distinct : clouds.Nodup) : Dealt groups clouds (distribute ν κ groups clouds) := by
  induction clouds using List.reverseRecOn with
  | nil =>
    have made : ∀ g ∈ (distribute ν κ groups []).groups.rows, ∃ number, g = CloudGroup.new number := by
      intro g member
      obtain ⟨number, -, rfl⟩ := List.mem_map.mp member
      exact ⟨number, rfl⟩
    have slotless : ∀ cloud number, ¬Slot groups [] cloud number := fun cloud number slot => nomatch slot.mem
    refine ⟨?_, ?_, fun cloud number => iff_of_false nofun (slotless cloud number), ?_⟩
    · exact List.map_map.trans (List.map_id _)
    · intro g member cloud
      obtain ⟨number, rfl⟩ := made g member
      exact iff_of_false nofun (slotless cloud number)
    · intro g member
      obtain ⟨number, rfl⟩ := made g member
      exact ⟨rfl, rfl, rfl⟩
  | append_singleton clouds last ih =>
    obtain ⟨distinct, -, apart⟩ := List.nodup_append.mp distinct
    have new : last ∉ clouds := fun member => apart last member last (List.mem_singleton_self last) rfl
    have before := ih distinct
    rw [distribute_concat]
    refine ⟨(Table.keys_modify _ _ _).trans before.numbers, Table.forall_modify ?_ ?_ ?_, ?_, Table.forall_modify ?_ ?_ ?_⟩
    · exact fun _ => rfl
    · intro g member here cloud
      rw [List.mem_append, List.mem_singleton, before.dealt g member cloud, slot_append, here]
      simp
    · intro g member elsewhere cloud
      rw [before.dealt g member cloud, slot_append]
      exact (or_iff_left fun added => elsewhere added.2.symm).symm
    · intro cloud number
      rw [slot_append, ← before.index]
      by_cases same : cloud = last
      · subst same
        have absent : ¬(distribute ν κ groups clouds).cloud2group.lookup cloud = some number := fun found =>
          new ((before.index cloud number).mp found).mem
        simp [addCloud, absent]
      · simp [addCloud, List.lookup_cons, beq_false_of_ne same, same]
    · exact fun _ => rfl
    · exact fun g member _ => before.unused g member
    · exact fun g member _ => before.unused g member

/-- The groups under the names of their clouds. The name `default` leads to the
group of the default cloud. -/
structure Laid (groups : Nat) (clouds : List String) (defaultCloud : String) (s : CloudGroups ν κ) : Prop where
  numbers : s.groups.rows.map CloudGroup.number = List.range groups
  dealt : ∀ g ∈ s.groups.rows, ∀ cloud, cloud ∈ g.clouds ↔ Slot groups clouds cloud g.number
  index : ∀ cloud number, s.cloud2group.lookup cloud = some number ↔
    Slot groups clouds (if cloud = "default" then defaultCloud else cloud) number

theorem noOfGroups_some {size : Nat} (given : noOfGroups size = some groups) : 0 < groups ∧ groups ≤ size := by
  unfold noOfGroups at given
  split at given <;> cases given <;> omega

/-- What is made of a list of distinct clouds. -/
theorem create_laid (distinct : clouds.Nodup) (made : create ν κ clouds defaultCloud = some start) :
    ∃ groups, 0 < groups ∧ groups ≤ clouds.length ∧ Laid groups clouds defaultCloud start ∧
      ∀ g ∈ start.groups.rows, g.nodes = [] ∧ g.regKeys = [] ∧ g.firstnode = none := by
  obtain ⟨groups, given, made⟩ := Option.bind_eq_some_iff.mp made
  obtain ⟨number, found, rfl⟩ := Option.map_eq_some_iff.mp made
  obtain ⟨positive, enough⟩ := noOfGroups_some given
  have before : Dealt groups clouds (distribute ν κ groups clouds) := distribute_dealt distinct
  refine ⟨groups, positive, enough, ⟨before.numbers, before.dealt, fun cloud other => ?_⟩, before.unused⟩
  by_cases named : cloud = "default"
  · subst named
    have slot := (before.index defaultCloud number).mp found
    simp only [List.lookup_cons, beq_self_eq_true, if_true, Option.some.injEq]
    constructor
    · rintro rfl
      exact slot
    · exact slot.unique distinct
  · simp only [List.lookup_cons, beq_false_of_ne named, named, if_false]
    exact before.index cloud other

variable [DecidableEq ν] [DecidableEq κ] {c : GroupCall ν κ} {result : CloudGroups ν κ × GroupAnswer ν κ}

/-- What a call does: it raises an error and leaves the groups alone, hands out
a key, exchanges a key for a node, finds no node to remove, or removes one. -/
inductive Called (s : CloudGroups ν κ) : GroupCall ν κ → CloudGroups ν κ × GroupAnswer ν κ → Prop
  | raised {c error} : Called s c (s, .raised error)
  | registered {c cloud regKey number} : s.cloud2group.lookup cloud = some number →
      (c = .registerNode cloud regKey ∨
        ∃ choice g, c = .next choice regKey ∧ s.smallest = some g ∧ cloud ∈ g.clouds) →
      Called s c
        ({ s with
            groups := s.groups.modify number fun g => (g.touch (s.clock + 1)).register regKey
            clock := s.clock + 1 },
          .registered cloud regKey)
  | completed {node regKey cloud g} : s.cloud2group.lookup cloud = some g.number → g ∈ s.groups.rows →
      regKey ∈ g.regKeys →
      Called s (.completeRegistration node regKey cloud)
        ({ s with groups := s.groups.modify g.number fun g => g.complete node regKey },
          .completed (some node = (g.complete node regKey).firstnode))
  | barren {draws g} : s.largest = some g → g.nodes = [] →
      Called s (.removeNode draws)
        ({ s with
            groups := s.groups.modify g.number fun g => g.touch (s.clock + 1)
            clock := s.clock + 1 },
          .raised "IndexError")
  | removed {draws g node} : s.largest = some g → g.nodes ≠ [] → g.pick draws = some node →
      Called s (.removeNode draws)
        ({ s with
            groups := s.groups.modify g.number fun g => (g.touch (s.clock + 1)).remove node
            clock := s.clock + 1 },
          .removed node)

theorem registerNode_called {cloud : String} {regKey : κ}
    (source : c = .registerNode cloud regKey ∨
      ∃ choice g, c = .next choice regKey ∧ s.smallest = some g ∧ cloud ∈ g.clouds) :
    Called s c (s.registerNode cloud regKey) := by
  unfold registerNode
  cases found : s.cloud2group.lookup cloud with
  | none => exact .raised
  | some number => exact .registered found source

theorem call_called (called : s.call c = some result) : Called s c result := by
  cases c with
  | next choice regKey =>
    obtain ⟨cloud, chosen, rfl⟩ := Option.map_eq_some_iff.mp called
    obtain ⟨g, least, atChoice⟩ := Option.bind_eq_some_iff.mp chosen
    exact registerNode_called (Or.inr ⟨choice, g, rfl, least, List.mem_of_getElem? atChoice⟩)
  | registerNode cloud regKey =>
    obtain rfl := Option.some.inj called
    exact registerNode_called (Or.inl rfl)
  | completeRegistration node regKey cloud =>
    obtain rfl := Option.some.inj called
    unfold completeRegistration
    cases found : (s.cloud2group.lookup cloud).bind s.groups.get? with
    | none => exact .raised
    | some g =>
      dsimp only
      split
      · exact .raised
      · rename_i outstanding
        obtain ⟨number, named, stored⟩ := Option.bind_eq_some_iff.mp found
        obtain ⟨member, rfl⟩ := Table.get?_iff.mp stored
        exact .completed named member (not_not.mp outstanding)
  | removeNode draws =>
    obtain ⟨g, most, removed⟩ := Option.bind_eq_some_iff.mp called
    split at removed
    · rename_i none
      obtain rfl := Option.some.inj removed
      exact .barren most none
    · rename_i some
      obtain ⟨node, picked, rfl⟩ := Option.map_eq_some_iff.mp removed
      exact .removed most some picked

/-- No call moves a cloud. -/
theorem Laid.call (laid : Laid groups clouds defaultCloud s) (called : s.call c = some result) :
    Laid groups clouds defaultCloud result.1 := by
  have kept : ∀ {number : Nat} {change : CloudGroup ν κ → CloudGroup ν κ} (same : ∀ g, (change g).number = g.number)
      (clock : Nat), (∀ g, (change g).clouds = g.clouds) →
      Laid groups clouds defaultCloud ⟨s.groups.modify number change same, s.cloud2group, clock⟩ := by
    intro number change same clock fixed
    refine ⟨(Table.keys_modify _ _ _ same).trans laid.numbers, Table.forall_modify same ?_ ?_, laid.index⟩
    · intro g member _ cloud
      rw [fixed, same]
      exact laid.dealt g member cloud
    · exact fun g member _ => laid.dealt g member
  cases call_called called with
  | raised => exact laid
  | registered => exact kept _ _ fun _ => rfl
  | completed => exact kept _ _ fun _ => rfl
  | barren => exact kept _ _ fun _ => rfl
  | removed => exact kept _ _ fun _ => rfl

end CloudGroups

/-- A group is the one of a cloud. `default` stands for the default cloud,
unless a cloud has that name itself. -/
def CloudGroup.Serves {ν κ : Type} (g : CloudGroup ν κ) (clouds : List String) (defaultCloud cloud : String) : Prop :=
  cloud ∈ g.clouds ∨ cloud = "default" ∧ "default" ∉ clouds ∧ defaultCloud ∈ g.clouds

namespace CloudGroups

variable {ν κ : Type} {s start : CloudGroups ν κ} {g : CloudGroup ν κ}

/-- A cloud named `default` shares the group of the default cloud. -/
def Unambiguous (s : CloudGroups ν κ) (defaultCloud : String) : Prop :=
  ∀ g ∈ s.groups.rows, "default" ∈ g.clouds → defaultCloud ∈ g.clouds

theorem Laid.group (laid : Laid groups clouds defaultCloud s) (positive : 0 < groups)
    (slot : Slot groups clouds cloud number) : ∃ g ∈ s.groups.rows, g.number = number ∧ cloud ∈ g.clouds := by
  have numbered : number ∈ s.groups.rows.map CloudGroup.number := by
    rw [laid.numbers]
    exact List.mem_range.mpr (slot.lt positive)
  obtain ⟨g, member, rfl⟩ := List.mem_map.mp numbered
  exact ⟨g, member, rfl, (laid.dealt g member cloud).mpr slot⟩

/-- Every cloud is in one group. -/
theorem Laid.cloud_once (laid : Laid groups clouds defaultCloud s) (positive : 0 < groups) (distinct : clouds.Nodup)
    (member : cloud ∈ clouds) :
    ∃ g ∈ s.groups.rows, cloud ∈ g.clouds ∧ ∀ other ∈ s.groups.rows, cloud ∈ other.clouds → other = g := by
  obtain ⟨number, slot⟩ := exists_slot member
  obtain ⟨g, stored, rfl, inside⟩ := laid.group positive slot
  refine ⟨g, stored, inside, fun other present shared => ?_⟩
  exact s.groups.unique present stored (((laid.dealt other present cloud).mp shared).unique distinct slot)

theorem Laid.inhabited (laid : Laid groups clouds defaultCloud s) (enough : groups ≤ clouds.length)
    (stored : g ∈ s.groups.rows) : g.clouds ≠ [] := by
  have bound : g.number < groups := by
    rw [← List.mem_range, ← laid.numbers]
    exact List.mem_map_of_mem stored
  obtain ⟨cloud, atNumber⟩ : ∃ cloud, clouds[g.number]? = some cloud :=
    ⟨_, List.getElem?_eq_getElem (bound.trans_le enough)⟩
  exact List.ne_nil_of_mem ((laid.dealt g stored cloud).mpr ⟨g.number, atNumber, Nat.mod_eq_of_lt bound⟩)

/-- The index leads to the group of the cloud. -/
theorem Laid.served (laid : Laid groups clouds defaultCloud s) (positive : 0 < groups)
    (aliased : ∀ number, Slot groups clouds "default" number → Slot groups clouds defaultCloud number)
    (distinct : clouds.Nodup) (found : s.cloud2group.lookup cloud = some number) :
    ∃ g ∈ s.groups.rows, g.number = number ∧ g.Serves clouds defaultCloud cloud := by
  have slot := (laid.index cloud number).mp found
  split at slot
  · rename_i named
    subst named
    obtain ⟨g, stored, rfl, inside⟩ := laid.group positive slot
    refine ⟨g, stored, rfl, ?_⟩
    by_cases listed : "default" ∈ clouds
    · obtain ⟨other, own⟩ := exists_slot listed
      have same := (aliased other own).unique distinct slot
      exact Or.inl ((laid.dealt g stored _).mpr (same ▸ own))
    · exact Or.inr ⟨rfl, listed, inside⟩
  · obtain ⟨g, stored, rfl, inside⟩ := laid.group positive slot
    exact ⟨g, stored, rfl, Or.inl inside⟩

/-- The index leads from the clouds of a group back to it. -/
theorem Laid.own (laid : Laid groups clouds defaultCloud s)
    (aliased : ∀ number, Slot groups clouds "default" number → Slot groups clouds defaultCloud number)
    (stored : g ∈ s.groups.rows) (inside : cloud ∈ g.clouds) : s.cloud2group.lookup cloud = some g.number := by
  have slot := (laid.dealt g stored cloud).mp inside
  refine (laid.index cloud g.number).mpr ?_
  split
  · rename_i named
    exact aliased g.number (named ▸ slot)
  · exact slot

theorem Laid.aliased (laid : Laid groups clouds defaultCloud s) (positive : 0 < groups)
    (unambiguous : s.Unambiguous defaultCloud) :
    ∀ number, Slot groups clouds "default" number → Slot groups clouds defaultCloud number := by
  intro number slot
  obtain ⟨g, stored, rfl, inside⟩ := laid.group positive slot
  exact (laid.dealt g stored defaultCloud).mp (unambiguous g stored inside)

end CloudGroups

end ConPaaS
