import ConPaaS.Scalaris.Registrations

namespace ConPaaS

open Keyed Transition

variable {ν κ : Type}

namespace CloudGroup

variable {g h : CloudGroup ν κ}

theorem maxCountMinTime_lt : g.maxCountMinTime h < 0 ↔
    h.nodeCounter < g.nodeCounter ∨ g.nodeCounter = h.nodeCounter ∧ g.timestamp < h.timestamp := by
  unfold maxCountMinTime
  split <;> omega

/-- Draws that have not come to an end are followed by further ones. -/
theorem draw_append [DecidableEq ν] {draws : List Nat} (inside : ∀ position ∈ draws, position < g.nodes.length)
    (more : List Nat) : g.draw (draws ++ more) = (g.draw draws).or (g.draw more) := by
  induction draws with
  | nil => rfl
  | cons position rest ih =>
    obtain ⟨here, later⟩ := List.forall_mem_cons.mp inside
    rw [List.cons_append, draw, draw, List.getElem?_eq_getElem here]
    dsimp only
    split
    · exact ih later
    · rfl

/-- A group of several nodes can lose the second one. -/
theorem pick_ends [DecidableEq ν] (some : g.nodes ≠ []) (distinct : g.nodes.Nodup) (first : g.firstnode = g.nodes.head?)
    {draws : List Nat} (inside : ∀ position ∈ draws, position < g.nodes.length) :
    ∃ more, (∀ position ∈ more, position < g.nodes.length) ∧ (g.pick (draws ++ more)).isSome := by
  obtain ⟨head, rest, nodes⟩ := List.exists_cons_of_ne_nil some
  cases rest with
  | nil =>
    refine ⟨[], fun position member => absurd member List.not_mem_nil, ?_⟩
    rw [pick, nodes]
    rfl
  | cons second others =>
    rw [nodes] at distinct
    have other : second ≠ head := fun same => (List.nodup_cons.mp distinct).1 (same ▸ List.mem_cons_self)
    have drawn : g.draw [1] = .some second := by
      rw [draw, nodes, first, nodes]
      simp [other]
    refine ⟨[1], fun position member => ?_, ?_⟩
    · rw [List.mem_singleton.mp member, nodes, List.length_cons, List.length_cons]
      omega
    · have several : g.pick (draws ++ [1]) = g.draw (draws ++ [1]) := by
        rw [pick, nodes]
      rw [several, draw_append inside, drawn]
      cases g.draw draws <;> rfl

end CloudGroup

namespace CloudGroups

/-- `CloudGroups.nodes`. -/
def nodes (s : CloudGroups ν κ) : List ν := s.groups.rows.flatMap CloudGroup.nodes

/-- The keys that are pending, group by group. -/
def pendingKeys (s : CloudGroups ν κ) : List (Nat × List κ) := s.groups.rows.map fun g => (g.number, g.regKeys)

/-- Some group with a node comes before all groups without one. -/
def NodeFirst (s : CloudGroups ν κ) : Prop :=
  ∃ g ∈ s.groups.rows, g.nodes ≠ [] ∧ ∀ h ∈ s.groups.rows, h.nodes = [] → g.maxCountMinTime h < 0

/-- Times that tell apart the groups that have been used. -/
structure Timed (s : CloudGroups ν κ) : Prop where
  past : ∀ g ∈ s.groups.rows, g.timestamp ≤ s.clock
  unused : ∀ g ∈ s.groups.rows, g.timestamp = 0 → g.nodes = [] ∧ g.regKeys = []
  apart : ∀ g ∈ s.groups.rows, ∀ h ∈ s.groups.rows, g.timestamp = h.timestamp → g.timestamp ≠ 0 → g.number = h.number

variable {s start : CloudGroups ν κ} {g : CloudGroup ν κ}

/-- A group is used at the next time of the clock. -/
theorem Timed.used (timed : s.Timed) {number : Nat} {change : CloudGroup ν κ → CloudGroup ν κ}
    (same : ∀ g, (change g).number = g.number) (now : ∀ g, (change g).timestamp = s.clock + 1) :
    Timed ⟨s.groups.modify number change same, s.cloud2group, s.clock + 1⟩ where
  past := Table.forall_modify same (fun g _ _ => (now g).le) fun g stored _ => (timed.past g stored).trans (Nat.le_succ _)
  unused := by
    refine Table.forall_modify same (fun g _ _ zero => ?_) fun g stored _ => timed.unused g stored
    rw [now] at zero
    cases zero
  apart := by
    refine Table.forall_modify same (fun g _ here => ?_) fun g stored _ => ?_
    · refine Table.forall_modify same (fun h _ there _ _ => ?_) fun h stored _ equal _ => ?_
      · rw [same, same, here, there]
      · have past := timed.past h stored
        rw [now] at equal
        omega
    · refine Table.forall_modify same (fun h _ _ equal _ => ?_) fun h stored' _ => timed.apart g stored h stored'
      have past := timed.past g stored
      rw [now] at equal
      omega

/-- A change of a group that has been used before. -/
theorem Timed.kept (timed : s.Timed) (stored : g ∈ s.groups.rows) (used : g.timestamp ≠ 0)
    {change : CloudGroup ν κ → CloudGroup ν κ} (same : ∀ g, (change g).number = g.number)
    (then_ : ∀ g, (change g).timestamp = g.timestamp) :
    Timed ⟨s.groups.modify g.number change same, s.cloud2group, s.clock⟩ where
  past := Table.forall_modify same (fun h inside _ => (then_ h).trans_le (timed.past h inside)) fun h inside _ => timed.past h inside
  unused := by
    refine Table.forall_modify same (fun h inside here zero => ?_) fun h inside _ => timed.unused h inside
    obtain rfl := s.groups.unique inside stored here
    exact absurd ((then_ h).symm.trans zero) used
  apart := by
    refine Table.forall_modify same (fun h inside _ => ?_) fun h inside _ => ?_
    · rw [same, then_]
      refine Table.forall_modify same (fun k inside' _ => ?_) fun k inside' _ => timed.apart h inside k inside'
      rw [same, then_]
      exact timed.apart h inside k inside'
    · refine Table.forall_modify same (fun k inside' _ => ?_) fun k inside' _ => timed.apart h inside k inside'
      rw [same, then_]
      exact timed.apart h inside k inside'

/-- The groups before they are used. -/
theorem distribute_new (groups : Nat) (clouds : List String) :
    (∀ g ∈ (distribute ν κ groups clouds).groups.rows, ∃ number own, g = { CloudGroup.new number with clouds := own }) ∧
      (distribute ν κ groups clouds).clock = 0 := by
  induction clouds using List.reverseRecOn with
  | nil =>
    refine ⟨fun g member => ?_, rfl⟩
    obtain ⟨number, -, rfl⟩ := List.mem_map.mp member
    exact ⟨number, [], rfl⟩
  | append_singleton clouds last ih =>
    obtain ⟨before, clock⟩ := ih
    rw [distribute_concat]
    refine ⟨Table.forall_modify (by intro _; rfl) (fun g stored _ => ?_) fun g stored _ => before g stored, clock⟩
    obtain ⟨number, own, rfl⟩ := before g stored
    exact ⟨number, own ++ [last], rfl⟩

theorem create_new {clouds : List String} {defaultCloud : String} (made : create ν κ clouds defaultCloud = some start) :
    (∀ g ∈ start.groups.rows, ∃ number own, g = { CloudGroup.new number with clouds := own }) ∧ start.clock = 0 := by
  obtain ⟨groups, -, made⟩ := Option.bind_eq_some_iff.mp made
  obtain ⟨number, -, rfl⟩ := Option.map_eq_some_iff.mp made
  exact distribute_new groups clouds

theorem create_timed {clouds : List String} {defaultCloud : String} (made : create ν κ clouds defaultCloud = some start) :
    start.Timed := by
  obtain ⟨new, clock⟩ := create_new made
  have zero : ∀ g ∈ start.groups.rows, g.timestamp = 0 ∧ g.nodes = [] ∧ g.regKeys = [] := by
    intro g stored
    obtain ⟨number, own, rfl⟩ := new g stored
    exact ⟨rfl, rfl, rfl⟩
  exact ⟨fun g stored => (zero g stored).1.trans_le (Nat.zero_le _), fun g stored _ => (zero g stored).2,
    fun g stored _ _ _ used => absurd (zero g stored).1 used⟩

variable [DecidableEq ν] [DecidableEq κ] {c : GroupCall ν κ} {result : CloudGroups ν κ × GroupAnswer ν κ}

theorem Timed.call (timed : s.Timed) (called : s.call c = some result) : result.1.Timed := by
  cases call_called called with
  | raised => exact timed
  | registered => exact timed.used _ (by intro _; rfl)
  | @completed node regKey cloud g found stored outstanding =>
    refine timed.kept stored (fun zero => ?_) _ (by intro _; rfl)
    rw [(timed.unused g stored zero).2] at outstanding
    cases outstanding
  | barren => exact timed.used _ (by intro _; rfl)
  | removed => exact timed.used _ (by intro _; rfl)

/-- Positions in the nodes of the group that is to lose one. -/
def Drawn (s : CloudGroups ν κ) (draws : List Nat) : Prop :=
  ∀ g, s.largest = some g → ∀ position ∈ draws, position < g.nodes.length

/-- A node can be removed: the drawing can always come to an end, and what it
ends with is that one of the nodes is returned and is gone, and that all keys
are where they were. -/
structure RemovesNode (s : CloudGroups ν κ) : Prop where
  ends : ∀ draws, s.Drawn draws → ∃ more, s.Drawn more ∧ (s.removeNode (draws ++ more)).isSome
  removed : ∀ draws after answer, s.removeNode draws = some (after, answer) →
    ∃ node ∈ s.nodes, answer = .removed node ∧ after.nodes = s.nodes.erase node ∧ after.pendingKeys = s.pendingKeys

omit [DecidableEq ν] [DecidableEq κ] in
theorem exists_largest (filled : s.groups.rows ≠ []) : ∃ g, s.largest = some g := by
  refine Option.isSome_iff_exists.mp (Option.isSome_iff_ne_none.mpr fun none => filled ?_)
  have empty := List.head?_eq_none_iff.mp none
  exact List.eq_nil_of_length_eq_zero ((List.length_insertionSort _ _).symm.trans (congrArg List.length empty))

omit [DecidableEq ν] [DecidableEq κ] in
/-- The group with a node that comes first is the group that is chosen. -/
theorem nodeFirst_iff (timed : s.Timed) (most : s.largest = some g) : s.NodeFirst ↔ g.nodes ≠ [] := by
  obtain ⟨stored, first⟩ := largest_first most
  constructor
  · rintro ⟨h, inside, some, before⟩ none
    have own := before g stored none
    have other := first h inside
    rw [CloudGroup.maxCountMinTime_lt] at own
    rw [CloudGroup.maxCountMinTime_le] at other
    omega
  · intro some
    refine ⟨g, stored, some, fun h inside none => ?_⟩
    rw [CloudGroup.maxCountMinTime_lt]
    rcases CloudGroup.maxCountMinTime_le.mp (first h inside) with less | ⟨equal, earlier⟩
    · exact Or.inl less
    · refine Or.inr ⟨equal, lt_of_le_of_ne earlier fun same => ?_⟩
      have used : g.timestamp ≠ 0 := fun zero => some (timed.unused g stored zero).1
      obtain rfl := s.groups.unique stored inside (timed.apart g stored h inside same used)
      exact some none

end CloudGroups

namespace Observed

variable {o : Observed ν κ} {g : CloudGroup ν κ}

theorem Booked.nodup (booked : Booked o) : o.groups.nodes.Nodup := by
  refine List.nodup_flatMap.mpr ⟨booked.nodes.distinct, ?_⟩
  have numbers : o.groups.groups.rows.Pairwise fun g h => g.number ≠ h.number := List.pairwise_map.mp o.groups.groups.keyed
  refine numbers.imp_of_mem fun {g h} left right apart node inG inH => ?_
  exact apart (congrArg CloudGroup.number (booked.nodes.group_unique left right inG inH))

variable [DecidableEq ν]

/-- The node that is removed from its group is removed from the nodes. -/
theorem Booked.erased (booked : Booked o) (stored : g ∈ o.groups.groups.rows) {node : ν} (inside : node ∈ g.nodes)
    (clock : Nat) :
    CloudGroups.nodes ⟨o.groups.groups.modify g.number (fun g => (g.touch clock).remove node), o.groups.cloud2group, clock⟩ =
      o.groups.nodes.erase node := by
  have each : ∀ h ∈ o.groups.groups.rows,
      (if h.number = g.number then (h.touch clock).remove node else h).nodes = h.nodes.filter (· != node) := by
    intro h present
    split
    · exact (booked.nodes.distinct h present).erase_eq_filter node
    · rename_i elsewhere
      refine (List.filter_eq_self.mpr fun other among => bne_iff_ne.mpr ?_).symm
      rintro rfl
      exact elsewhere (congrArg CloudGroup.number (booked.nodes.group_unique present stored among inside))
  rw [booked.nodup.erase_eq_filter, CloudGroups.nodes, CloudGroups.nodes, List.filter_flatMap]
  exact (List.flatMap_map ..).trans (List.flatMap_congr each)

/-- A group with nodes loses one of them. -/
theorem Booked.removesNode (booked : Booked o) (most : o.groups.largest = some g) (filled : g.nodes ≠ []) :
    o.groups.RemovesNode where
  ends := by
    intro draws drawn
    have stored := (CloudGroups.largest_first most).1
    obtain ⟨more, inside, picked⟩ :=
      CloudGroup.pick_ends filled (booked.nodes.distinct g stored) (booked.first g stored) (drawn g most)
    refine ⟨more, fun h chosen => ?_, ?_⟩
    · obtain rfl := Option.some.inj (most.symm.trans chosen)
      exact inside
    · rw [CloudGroups.removeNode, most, Option.bind_some, if_neg filled, Option.isSome_map]
      exact picked
  removed := by
    intro draws after answer run
    rw [CloudGroups.removeNode, most, Option.bind_some, if_neg filled] at run
    obtain ⟨node, picked, same⟩ := Option.map_eq_some_iff.mp run
    cases same
    have stored := (CloudGroups.largest_first most).1
    have inside := CloudGroup.pick_mem picked
    refine ⟨node, List.mem_flatMap.mpr ⟨g, stored, inside⟩, rfl, booked.erased stored inside _, ?_⟩
    refine List.map_map.trans (List.map_congr_left fun h _ => ?_)
    dsimp only [Function.comp_apply]
    split <;> rfl

end Observed

open Observed

variable [DecidableEq ν] [DecidableEq κ]

/-- In every reachable state with a node, pending registrations or not, a node
can be removed exactly when a group with a node comes before those without. -/
theorem removesNode_iff {clouds : List String} {defaultCloud : String} {start : CloudGroups ν κ}
    (made : CloudGroups.create ν κ clouds defaultCloud = some start) {calls : List (GroupCall ν κ)} {o : Observed ν κ}
    (run : Run Observed.Step ⟨start, .none ν κ⟩ calls o) (nonempty : o.groups.nodes ≠ []) :
    o.groups.RemovesNode ↔ o.groups.NodeFirst := by
  have fresh : Booked ⟨start, .none ν κ⟩ := by
    have unused : ∀ g ∈ start.groups.rows, g.nodes = [] ∧ g.regKeys = [] ∧ g.firstnode = none := by
      intro g stored
      obtain ⟨number, own, rfl⟩ := (CloudGroups.create_new made).1 g stored
      exact ⟨rfl, rfl, rfl⟩
    refine ⟨⟨.nil, ?_, ?_, by rintro _ _ ⟨⟩⟩, ⟨.nil, ?_, ?_, by rintro _ _ ⟨⟩⟩, ?_, ?_⟩
    all_goals
      intro g stored
      obtain ⟨noNodes, noKeys, noFirst⟩ := unused g stored
      simp [noNodes, noKeys, noFirst, Registrations.none]
  have booked := run.invariant fresh fun booked taken => taken.elim fun _ answers => booked.step answers
  have stays {before after : Observed ν κ} {c : GroupCall ν κ} (timed : before.groups.Timed) (taken : Observed.Step before c after) :
      after.groups.Timed := taken.elim fun _ answers => timed.call answers.2.1
  have timed : o.groups.Timed := run.invariant (CloudGroups.create_timed made) stays
  have filled : o.groups.groups.rows ≠ [] := fun none => nonempty (by rw [CloudGroups.nodes, none, List.flatMap_nil])
  obtain ⟨g, most⟩ := CloudGroups.exists_largest filled
  rw [CloudGroups.nodeFirst_iff timed most]
  constructor
  · intro removes none
    obtain ⟨after, failed⟩ : ∃ after, o.groups.removeNode [] = some (after, .raised "IndexError") := by
      rw [CloudGroups.removeNode, most, Option.bind_some, if_pos none]
      exact ⟨_, rfl⟩
    obtain ⟨_, _, answer, -⟩ := removes.removed [] _ _ failed
    cases answer
  · exact booked.removesNode most

/-- A node on one cloud, and two registrations that are pending on the other. -/
def pendingElsewhere : List (GroupCall Nat Nat) :=
  [.next 0 0, .completeRegistration 7 0 "iaas", .registerNode "cloud1" 1, .registerNode "cloud1" 2]

theorem pendingElsewhere_removes : ∃ start o, CloudGroups.create Nat Nat ["iaas", "cloud1"] "iaas" = some start ∧
    Run Observed.Step ⟨start, .none Nat Nat⟩ (pendingElsewhere.take 3) o ∧ o.groups.nodes = [7] ∧
      (o.groups.RemovesNode ↔ o.groups.NodeFirst) := by
  obtain ⟨start, made⟩ : ∃ start, CloudGroups.create Nat Nat ["iaas", "cloud1"] "iaas" = some start := ⟨_, rfl⟩
  have nodes : (play Observed.after ⟨start, .none Nat Nat⟩ (pendingElsewhere.take 3)).map (fun o => o.groups.nodes) = some [7] := by
    cases made
    decide +kernel
  obtain ⟨o, played, own⟩ := Option.map_eq_some_iff.mp nodes
  have run := run_of_play played
  exact ⟨start, o, made, run, own, removesNode_iff made run (own ▸ List.cons_ne_nil 7 [])⟩

/-- With more keys pending in a group without nodes than there are nodes in the
other, the removal fails. -/
theorem pendingElsewhere_fails : ¬∀ (clouds : List String) (defaultCloud : String) (start : CloudGroups Nat Nat)
    (calls : List (GroupCall Nat Nat)) (o : Observed Nat Nat), CloudGroups.create Nat Nat clouds defaultCloud = some start →
      Run Observed.Step ⟨start, .none Nat Nat⟩ calls o → o.groups.nodes ≠ [] → o.groups.RemovesNode := by
  intro law
  obtain ⟨start, made⟩ : ∃ start, CloudGroups.create Nat Nat ["iaas", "cloud1"] "iaas" = some start := ⟨_, rfl⟩
  have answers : (play Observed.after ⟨start, .none Nat Nat⟩ pendingElsewhere).map (fun o =>
      (o.groups.nodes, (o.groups.removeNode []).any fun result => result.2 matches .raised _)) = some ([7], true) := by
    cases made
    decide +kernel
  obtain ⟨o, played, own⟩ := Option.map_eq_some_iff.mp answers
  obtain ⟨nodes, fails⟩ := Prod.mk.inj own
  have removes := law _ _ start _ o made (run_of_play played) (nodes ▸ List.cons_ne_nil 7 [])
  obtain ⟨⟨later, answer⟩, called, raised⟩ := (Option.any_eq_true _ _).mp fails
  obtain ⟨node, -, rfl, -⟩ := removes.removed [] later answer called
  cases raised

end ConPaaS
