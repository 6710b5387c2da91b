import ConPaaS.Scalaris.Balance

namespace ConPaaS

open Keyed Transition

variable {ν κ : Type}

/-- What has become of the calls: the keys that are outstanding and the nodes
that are there, with their clouds, and for each group the nodes completed since
it was last empty, the earliest first. -/
structure Registrations (ν κ : Type) where
  pending : List (κ × String)
  placed : List (ν × String)
  since : Nat → List ν

namespace Registrations

/-- Nothing has been called yet. -/
def none (ν κ : Type) : Registrations ν κ := ⟨[], [], fun _ => []⟩

variable [DecidableEq ν] [DecidableEq κ]

/-- A call is recorded with its answer. -/
def recorded (h : Registrations ν κ) (before : CloudGroups ν κ) : GroupCall ν κ → GroupAnswer ν κ → Registrations ν κ
  | _, .registered cloud regKey => { h with pending := (regKey, cloud) :: h.pending }
  | .completeRegistration node regKey cloud, .completed _ =>
    { pending := h.pending.filter fun entry => entry.1 ≠ regKey
      placed := (node, cloud) :: h.placed
      since := fun number =>
        if before.cloud2group.lookup cloud = some number then h.since number ++ [node] else h.since number }
  | _, .removed node => { h with placed := h.placed.filter fun entry => entry.1 ≠ node }
  | _, _ => h

theorem recorded_raised (h : Registrations ν κ) (before : CloudGroups ν κ) (c : GroupCall ν κ) (error : String) :
    h.recorded before c (.raised error) = h := by
  cases c <;> rfl

theorem recorded_registered (h : Registrations ν κ) (before : CloudGroups ν κ) (c : GroupCall ν κ) (cloud : String)
    (regKey : κ) : h.recorded before c (.registered cloud regKey) = { h with pending := (regKey, cloud) :: h.pending } := by
  cases c <;> rfl

/-- A group that is empty starts anew. -/
def forgotten (h : Registrations ν κ) (after : CloudGroups ν κ) : Registrations ν κ :=
  { h with
    since := fun number =>
      if (after.groups.get? number).any fun g => g.nodes ≠ [] then h.since number else [] }

/-- Keys are new, and a registration is completed with an outstanding key, its
cloud and a node that is not there yet. -/
def Proper (h : Registrations ν κ) : GroupCall ν κ → Prop
  | .next _ regKey => regKey ∉ h.pending.map Prod.fst
  | .registerNode _ regKey => regKey ∉ h.pending.map Prod.fst
  | .completeRegistration node regKey cloud => (regKey, cloud) ∈ h.pending ∧ node ∉ h.placed.map Prod.fst
  | .removeNode _ => True

instance (h : Registrations ν κ) : (c : GroupCall ν κ) → Decidable (h.Proper c)
  | .next _ regKey => inferInstanceAs (Decidable (regKey ∉ h.pending.map Prod.fst))
  | .registerNode _ regKey => inferInstanceAs (Decidable (regKey ∉ h.pending.map Prod.fst))
  | .completeRegistration node regKey cloud =>
    inferInstanceAs (Decidable ((regKey, cloud) ∈ h.pending ∧ node ∉ h.placed.map Prod.fst))
  | .removeNode _ => inferInstanceAs (Decidable True)

end Registrations

/-- Entries with a cloud each, that the groups of these clouds list. -/
structure Listed {α : Type} (s : CloudGroups ν κ) (parts : CloudGroup ν κ → List α) (entries : List (α × String)) :
    Prop where
  once : (entries.map Prod.fst).Nodup
  distinct : ∀ g ∈ s.groups.rows, (parts g).Nodup
  listed : ∀ g ∈ s.groups.rows, ∀ a, a ∈ parts g ↔
    ∃ cloud, (a, cloud) ∈ entries ∧ s.cloud2group.lookup cloud = some g.number
  known : ∀ a cloud, (a, cloud) ∈ entries → ∃ number, s.cloud2group.lookup cloud = some number

namespace Listed

variable {α : Type} {s : CloudGroups ν κ} {parts : CloudGroup ν κ → List α} {entries : List (α × String)}
  {number clock : Nat} {change : CloudGroup ν κ → CloudGroup ν κ} {cloud : String} {a : α}

/-- An entry has one cloud. -/
theorem cloud_unique (held : Listed s parts entries) {other : String} (left : (a, cloud) ∈ entries)
    (right : (a, other) ∈ entries) : cloud = other :=
  congrArg Prod.snd (List.inj_on_of_nodup_map held.once left right rfl)

/-- No two groups list the same. -/
theorem group_unique (held : Listed s parts entries) {g h : CloudGroup ν κ} (left : g ∈ s.groups.rows)
    (right : h ∈ s.groups.rows) (inG : a ∈ parts g) (inH : a ∈ parts h) : g = h := by
  obtain ⟨cloud, entry, found⟩ := (held.listed g left a).mp inG
  obtain ⟨other, entry', found'⟩ := (held.listed h right a).mp inH
  obtain rfl := held.cloud_unique entry entry'
  exact s.groups.unique left right (Option.some.inj (found.symm.trans found'))

/-- A change of a group that leaves its list alone. -/
theorem keep (held : Listed s parts entries) (same : ∀ g, (change g).number = g.number)
    (fixed : ∀ g, parts (change g) = parts g) :
    Listed ⟨s.groups.modify number change same, s.cloud2group, clock⟩ parts entries where
  once := held.once
  distinct := Table.forall_modify same (fun g member _ => by rw [fixed]; exact held.distinct g member)
    fun g member _ => held.distinct g member
  listed := Table.forall_modify same (fun g member _ a => by rw [fixed, same]; exact held.listed g member a)
    fun g member _ => held.listed g member
  known := held.known

/-- A new entry is listed by the group of its cloud. -/
theorem add (held : Listed s parts entries) (same : ∀ g, (change g).number = g.number)
    (grown : ∀ g, parts (change g) = parts g ++ [a]) (found : s.cloud2group.lookup cloud = some number)
    (fresh : a ∉ entries.map Prod.fst) :
    Listed ⟨s.groups.modify number change same, s.cloud2group, clock⟩ parts ((a, cloud) :: entries) where
  once := List.nodup_cons.mpr ⟨fresh, held.once⟩
  distinct := by
    refine Table.forall_modify same (fun g member _ => ?_) fun g member _ => held.distinct g member
    rw [grown]
    refine List.nodup_append.mpr ⟨held.distinct g member, List.nodup_singleton a, ?_⟩
    rintro b inside _ last rfl
    obtain rfl := List.mem_singleton.mp last
    obtain ⟨other, entry, -⟩ := (held.listed g member b).mp inside
    exact fresh (List.mem_map_of_mem entry)
  listed := by
    refine Table.forall_modify same (fun g member here b => ?_) fun g member elsewhere b => ?_
    · rw [grown, List.mem_append, List.mem_singleton, same, held.listed g member b]
      constructor
      · rintro (⟨other, entry, leads⟩ | rfl)
        · exact ⟨other, List.mem_cons_of_mem _ entry, leads⟩
        · exact ⟨cloud, List.mem_cons_self, here ▸ found⟩
      · rintro ⟨other, entry, leads⟩
        rcases List.mem_cons.mp entry with new | old
        · exact Or.inr (congrArg Prod.fst new)
        · exact Or.inl ⟨other, old, leads⟩
    · rw [held.listed g member b]
      constructor
      · rintro ⟨other, entry, leads⟩
        exact ⟨other, List.mem_cons_of_mem _ entry, leads⟩
      · rintro ⟨other, entry, leads⟩
        rcases List.mem_cons.mp entry with new | old
        · cases new
          exact absurd (Option.some.inj (leads.symm.trans found)) elsewhere
        · exact ⟨other, old, leads⟩
  known := by
    intro b other entry
    rcases List.mem_cons.mp entry with new | old
    · cases new
      exact ⟨number, found⟩
    · exact held.known b other old

/-- An entry is dropped from the list of its group. -/
theorem drop [DecidableEq α] (held : Listed s parts entries) (same : ∀ g, (change g).number = g.number)
    (shrunk : ∀ g, parts (change g) = (parts g).erase a) {g : CloudGroup ν κ} (stored : g ∈ s.groups.rows)
    (inside : a ∈ parts g) :
    Listed ⟨s.groups.modify g.number change same, s.cloud2group, clock⟩ parts
      (entries.filter fun entry => entry.1 ≠ a) where
  once := held.once.sublist (List.filter_sublist.map Prod.fst)
  distinct := by
    refine Table.forall_modify same (fun h member _ => ?_) fun h member _ => held.distinct h member
    rw [shrunk]
    exact (held.distinct h member).erase a
  listed := by
    refine Table.forall_modify same (fun h member here b => ?_) fun h member elsewhere b => ?_
    · rw [shrunk, (held.distinct h member).mem_erase_iff, same, held.listed h member b]
      constructor
      · rintro ⟨other, cloud, entry, leads⟩
        exact ⟨cloud, List.mem_filter.mpr ⟨entry, by simpa using other⟩, leads⟩
      · rintro ⟨cloud, entry, leads⟩
        obtain ⟨entry, other⟩ := List.mem_filter.mp entry
        exact ⟨by simpa using other, cloud, entry, leads⟩
    · have other : b ∈ parts h → b ≠ a := by
        rintro member' rfl
        exact elsewhere (congrArg CloudGroup.number (held.group_unique member stored member' inside))
      constructor
      · intro member'
        obtain ⟨cloud, entry, leads⟩ := (held.listed h member b).mp member'
        exact ⟨cloud, List.mem_filter.mpr ⟨entry, by simpa using other member'⟩, leads⟩
      · rintro ⟨cloud, entry, leads⟩
        exact (held.listed h member b).mpr ⟨cloud, (List.mem_filter.mp entry).1, leads⟩
  known := fun b cloud entry => held.known b cloud (List.mem_filter.mp entry).1

end Listed

/-- The nodes completed since a group was last empty, in the groups after a
call. -/
theorem Registrations.forgotten_head {h : Registrations ν κ} {s : CloudGroups ν κ}
    (heads : ∀ g ∈ s.groups.rows, g.nodes ≠ [] → (h.since g.number).head? = g.nodes.head?) :
    ∀ g ∈ s.groups.rows, ((h.forgotten s).since g.number).head? = g.nodes.head? := by
  intro g stored
  simp only [Registrations.forgotten, Table.get?_of_mem stored, Option.any_some]
  split
  · rename_i some
    exact heads g stored (by simpa using some)
  · rename_i none
    rw [show g.nodes = [] by simpa using none]

/-- The groups with what has become of the calls. -/
structure Observed (ν κ : Type) where
  groups : CloudGroups ν κ
  history : Registrations ν κ

namespace Observed

variable [DecidableEq ν] [DecidableEq κ] {groups number : Nat} {clouds : List String} {defaultCloud : String}
  {o later : Observed ν κ} {c : GroupCall ν κ} {answer : GroupAnswer ν κ}

/-- A call by the rules, with its answer. -/
def Answers (before : Observed ν κ) (c : GroupCall ν κ) (answer : GroupAnswer ν κ) (after : Observed ν κ) : Prop :=
  before.history.Proper c ∧ before.groups.call c = some (after.groups, answer) ∧
    after.history = (before.history.recorded before.groups c answer).forgotten after.groups

def Step (before : Observed ν κ) (c : GroupCall ν κ) (after : Observed ν κ) : Prop :=
  ∃ answer, before.Answers c answer after

/-- The state after a call by the rules, if it comes to an end. -/
def after (o : Observed ν κ) (c : GroupCall ν κ) : Option (Observed ν κ) :=
  if o.history.Proper c then
    (o.groups.call c).map fun result => ⟨result.1, (o.history.recorded o.groups c result.2).forgotten result.1⟩
  else none

theorem run_of_play {start current : Observed ν κ} {calls : List (GroupCall ν κ)}
    (played : play after start calls = some current) : Run Step start calls current := by
  refine (Run.play played).mono fun {before c later} taken => ?_
  obtain ⟨proper, taken⟩ := Option.ite_none_right_eq_some.mp taken
  obtain ⟨⟨_, answer⟩, called, rfl⟩ := Option.map_eq_some_iff.mp taken
  exact ⟨answer, proper, called, rfl⟩

/-- Keys and nodes are listed by the groups the index leads to, and the first
node of a group heads its nodes and the nodes completed since it was empty. -/
structure Booked (o : Observed ν κ) : Prop where
  keys : Listed o.groups CloudGroup.regKeys o.history.pending
  nodes : Listed o.groups CloudGroup.nodes o.history.placed
  first : ∀ g ∈ o.groups.groups.rows, g.firstnode = g.nodes.head?
  since : ∀ g ∈ o.groups.groups.rows, (o.history.since g.number).head? = g.nodes.head?

/-- Keys and nodes are where their clouds are, and the first node of a group
heads its nodes and the nodes completed since it was empty. -/
structure Kept (groups : Nat) (clouds : List String) (defaultCloud : String) (o : Observed ν κ) : Prop where
  laid : CloudGroups.Laid groups clouds defaultCloud o.groups
  keys : Listed o.groups CloudGroup.regKeys o.history.pending
  nodes : Listed o.groups CloudGroup.nodes o.history.placed
  first : ∀ g ∈ o.groups.groups.rows, g.firstnode = g.nodes.head?
  since : ∀ g ∈ o.groups.groups.rows, (o.history.since g.number).head? = g.nodes.head?

/-- The first node of a group that has several stays at the head. -/
theorem head_erase {l : List ν} {node : ν} (other : l.head? ≠ some node) : (l.erase node).head? = l.head? := by
  cases l with
  | nil => rfl
  | cons a rest =>
    have apart : a ≠ node := fun same => other (by rw [same]; rfl)
    rw [List.erase_cons_tail (by simpa using apart)]
    rfl

theorem Booked.step (kept : Booked o) (answers : o.Answers c answer later) : Booked later := by
  obtain ⟨proper, called, recorded⟩ := answers
  obtain ⟨s, h⟩ := later
  obtain ⟨t, h₀⟩ := o
  dsimp only at proper called recorded
  subst recorded
  cases CloudGroups.call_called called with
  | raised =>
    rw [Registrations.recorded_raised]
    exact ⟨kept.keys, kept.nodes, kept.first, Registrations.forgotten_head fun g stored _ => kept.since g stored⟩
  | @registered _ cloud regKey number found source =>
    rw [Registrations.recorded_registered]
    have fresh : regKey ∉ h₀.pending.map Prod.fst := by
      rcases source with rfl | ⟨choice, g, rfl, -, -⟩
      · exact proper
      · exact proper
    refine ⟨kept.keys.add (by intro _; rfl) (by intro _; rfl) found fresh, kept.nodes.keep (by intro _; rfl) (by intro _; rfl),
      Table.forall_modify (by intro _; rfl) (fun g stored _ => kept.first g stored) fun g stored _ => kept.first g stored,
      Registrations.forgotten_head ?_⟩
    exact Table.forall_modify (by intro _; rfl) (fun g stored _ _ => kept.since g stored) fun g stored _ _ => kept.since g stored
  | @completed node regKey cloud g found stored outstanding =>
    obtain ⟨pending, fresh⟩ := proper
    refine ⟨kept.keys.drop (by intro _; rfl) (by intro _; rfl) stored outstanding,
      kept.nodes.add (by intro _; rfl) (by intro _; rfl) found fresh,
      Table.forall_modify (by intro _; rfl) (fun g stored _ => ?_) fun g stored _ => kept.first g stored,
      Registrations.forgotten_head ?_⟩
    · simp only [CloudGroup.complete, kept.first g stored, List.head?_append, List.head?_cons]
    · refine Table.forall_modify (by intro _; rfl) (fun h stored here _ => ?_) fun h stored elsewhere _ => ?_
      · have leads : t.cloud2group.lookup cloud = some h.number := here ▸ found
        have old : (h₀.since h.number).head? = h.nodes.head? := kept.since h stored
        simp only [Registrations.recorded, CloudGroup.complete, leads, if_true, List.head?_append, List.head?_cons, old]
      · have away : t.cloud2group.lookup cloud ≠ some h.number := fun leads =>
          elsewhere (Option.some.inj (leads.symm.trans found))
        simp only [Registrations.recorded, away, if_false]
        exact kept.since h stored
  | barren =>
    rw [Registrations.recorded_raised]
    refine ⟨kept.keys.keep (by intro _; rfl) (by intro _; rfl), kept.nodes.keep (by intro _; rfl) (by intro _; rfl),
      Table.forall_modify (by intro _; rfl) (fun g stored _ => kept.first g stored) fun g stored _ => kept.first g stored,
      Registrations.forgotten_head ?_⟩
    exact Table.forall_modify (by intro _; rfl) (fun g stored _ _ => kept.since g stored) fun g stored _ _ => kept.since g stored
  | @removed draws g node most some picked =>
    have stored := (CloudGroups.largest_most most).1
    have inside := CloudGroup.pick_mem picked
    have heads : g.nodes = [node] ∨ g.nodes.length ≠ 1 ∧ (g.nodes.erase node).head? = g.nodes.head? := by
      rcases CloudGroup.pick_cases picked with single | ⟨several, -, other⟩
      · exact Or.inl single
      · rw [kept.first g stored] at other
        exact Or.inr ⟨several, head_erase other.symm⟩
    refine ⟨kept.keys.keep (by intro _; rfl) (by intro _; rfl),
      kept.nodes.drop (by intro _; rfl) (by intro _; rfl) stored inside,
      Table.forall_modify (by intro _; rfl) (fun h member here => ?_) fun h member _ => kept.first h member,
      Registrations.forgotten_head ?_⟩
    · obtain rfl := t.groups.unique member stored here
      rcases heads with single | ⟨several, same⟩
      · simp [CloudGroup.remove, CloudGroup.touch, single]
      · simp only [CloudGroup.remove, CloudGroup.touch, several, if_false, same]
        exact kept.first h stored
    · refine Table.forall_modify (by intro _; rfl) (fun h member here left => ?_) fun h member _ _ => kept.since h member
      obtain rfl := t.groups.unique member stored here
      rcases heads with single | ⟨-, same⟩
      · exact absurd (by simp [CloudGroup.remove, CloudGroup.touch, single]) left
      · exact (kept.since h stored).trans same.symm

omit [DecidableEq ν] [DecidableEq κ] in
theorem Kept.booked (kept : Kept groups clouds defaultCloud o) : Booked o := ⟨kept.keys, kept.nodes, kept.first, kept.since⟩

theorem Kept.step (kept : Kept groups clouds defaultCloud o) (answers : o.Answers c answer later) :
    Kept groups clouds defaultCloud later := by
  obtain ⟨keys, nodes, first, since⟩ := kept.booked.step answers
  exact ⟨kept.laid.call answers.2.1, keys, nodes, first, since⟩

/-- The structure of the groups: the clouds, the keys and the nodes are where
they belong, and the first node is the earliest of its group. -/
structure Grouped (clouds : List String) (defaultCloud : String) (o : Observed ν κ) : Prop where
  cloudOnce : ∀ cloud ∈ clouds, ∃ g ∈ o.groups.groups.rows, cloud ∈ g.clouds ∧
    ∀ other ∈ o.groups.groups.rows, cloud ∈ other.clouds → other = g
  inhabited : ∀ g ∈ o.groups.groups.rows, g.clouds ≠ []
  keys : ∀ regKey cloud, (regKey, cloud) ∈ o.history.pending → ∃ g ∈ o.groups.groups.rows,
    g.Serves clouds defaultCloud cloud ∧ regKey ∈ g.regKeys ∧
      ∀ other ∈ o.groups.groups.rows, regKey ∈ other.regKeys → other = g
  nodes : ∀ node cloud, (node, cloud) ∈ o.history.placed → ∃ g ∈ o.groups.groups.rows,
    g.Serves clouds defaultCloud cloud ∧ node ∈ g.nodes ∧
      ∀ other ∈ o.groups.groups.rows, node ∈ other.nodes → other = g
  accounted : ∀ g ∈ o.groups.groups.rows, (∀ regKey ∈ g.regKeys, ∃ cloud, (regKey, cloud) ∈ o.history.pending) ∧
    ∀ node ∈ g.nodes, ∃ cloud, (node, cloud) ∈ o.history.placed
  empty : ∀ g ∈ o.groups.groups.rows, g.firstnode = none ↔ g.nodes = []
  earliest : ∀ g ∈ o.groups.groups.rows, g.firstnode = (o.history.since g.number).head?

omit [DecidableEq ν] [DecidableEq κ] in
theorem Kept.grouped (kept : Kept groups clouds defaultCloud o) (positive : 0 < groups) (enough : groups ≤ clouds.length)
    (distinct : clouds.Nodup)
    (aliased : ∀ number, Slot groups clouds "default" number → Slot groups clouds defaultCloud number) :
    Grouped clouds defaultCloud o where
  cloudOnce := fun cloud member => kept.laid.cloud_once positive distinct member
  inhabited := fun g stored => kept.laid.inhabited enough stored
  keys := fun regKey cloud entry => by
    obtain ⟨number, found⟩ := kept.keys.known regKey cloud entry
    obtain ⟨g, stored, rfl, serves⟩ := kept.laid.served positive aliased distinct found
    have inside := (kept.keys.listed g stored regKey).mpr ⟨cloud, entry, found⟩
    exact ⟨g, stored, serves, inside, fun other present shared => kept.keys.group_unique present stored shared inside⟩
  nodes := fun node cloud entry => by
    obtain ⟨number, found⟩ := kept.nodes.known node cloud entry
    obtain ⟨g, stored, rfl, serves⟩ := kept.laid.served positive aliased distinct found
    have inside := (kept.nodes.listed g stored node).mpr ⟨cloud, entry, found⟩
    exact ⟨g, stored, serves, inside, fun other present shared => kept.nodes.group_unique present stored shared inside⟩
  accounted := fun g stored =>
    ⟨fun regKey inside => ((kept.keys.listed g stored regKey).mp inside).imp fun _ entry => entry.1,
      fun node inside => ((kept.nodes.listed g stored node).mp inside).imp fun _ entry => entry.1⟩
  empty := fun g stored => by rw [kept.first g stored, List.head?_eq_none_iff]
  earliest := fun g stored => (kept.first g stored).trans (kept.since g stored).symm

/-- The answers of the calls: the first node is removed only as the last one of
its group, and `complete_registration` returns true for a first node alone. -/
structure Truthful (o : Observed ν κ) : Prop where
  removed : ∀ draws node after, o.groups.call (.removeNode draws) = some (after, .removed node) →
    ∀ g ∈ o.groups.groups.rows, g.firstnode = some node → g.nodes = [node]
  completed : ∀ node regKey cloud first after,
    o.Answers (.completeRegistration node regKey cloud) (.completed first) after →
      (first = true ↔ ∃ g ∈ after.groups.groups.rows, g.firstnode = some node)

theorem Kept.truthful (kept : Kept groups clouds defaultCloud o) : Truthful o where
  removed := by
    intro draws node after called g stored marked
    cases CloudGroups.call_called called with
    | @removed _ h _ most some picked =>
      have inside : node ∈ g.nodes := by
        rw [kept.first g stored] at marked
        exact List.mem_of_head? marked
      obtain rfl := kept.nodes.group_unique stored (CloudGroups.largest_most most).1 inside (CloudGroup.pick_mem picked)
      rcases CloudGroup.pick_cases picked with single | ⟨-, -, other⟩
      · exact single
      · exact absurd marked.symm other
  completed := by
    intro node regKey cloud first after answers
    have later := kept.step answers
    obtain ⟨-, called, -⟩ := answers
    obtain ⟨s, h⟩ := after
    dsimp only at called
    cases CloudGroups.call_called called with
    | @completed _ _ _ g found stored outstanding =>
      have present : g.complete node regKey ∈ (o.groups.groups.modify g.number fun g => g.complete node regKey).rows :=
        List.mem_map.mpr ⟨g, stored, if_pos rfl⟩
      rw [decide_eq_true_eq, eq_comm]
      constructor
      · exact fun marked => ⟨_, present, marked⟩
      · rintro ⟨other, member, marked⟩
        have inside : node ∈ other.nodes := by
          rw [later.first other member] at marked
          exact List.mem_of_head? marked
        have last : node ∈ (g.complete node regKey).nodes := List.mem_append_right _ (List.mem_singleton_self node)
        rwa [later.nodes.group_unique member present inside last] at marked

end Observed

open Observed

variable [DecidableEq ν] [DecidableEq κ]

/-- Whatever is called in whatever order, the groups keep their structure. -/
theorem registrations_grouped {clouds : List String} {defaultCloud : String} {start : CloudGroups ν κ}
    (distinct : clouds.Nodup) (made : CloudGroups.create ν κ clouds defaultCloud = some start)
    (unambiguous : start.Unambiguous defaultCloud) {calls : List (GroupCall ν κ)} {o : Observed ν κ}
    (run : Run Observed.Step ⟨start, .none ν κ⟩ calls o) : Grouped clouds defaultCloud o ∧ Truthful o := by
  obtain ⟨groups, positive, enough, laid, unused⟩ := CloudGroups.create_laid distinct made
  have fresh : Kept groups clouds defaultCloud ⟨start, .none ν κ⟩ := by
    refine ⟨laid, ⟨.nil, ?_, ?_, nofun⟩, ⟨.nil, ?_, ?_, nofun⟩, ?_, ?_⟩
    all_goals
      intro g stored
      obtain ⟨noNodes, noKeys, noFirst⟩ := unused g stored
      simp [noNodes, noKeys, noFirst, Registrations.none]
  have kept := run.invariant fresh fun kept ⟨_, answers⟩ => kept.step answers
  exact ⟨kept.grouped positive enough distinct (laid.aliased positive unambiguous), kept.truthful⟩

/-- Two nodes on one cloud, of which the second is removed first. -/
def twoNodes : List (GroupCall Nat Nat) :=
  [.registerNode "default" 0, .completeRegistration 7 0 "default", .registerNode "iaas" 1, .completeRegistration 8 1 "iaas",
    .next 0 2, .removeNode [0, 1], .removeNode []]

theorem twoNodes_grouped : ∃ start o, CloudGroups.create Nat Nat ["iaas", "cloud1"] "iaas" = some start ∧
    Run Observed.Step ⟨start, .none Nat Nat⟩ twoNodes o ∧ Grouped ["iaas", "cloud1"] "iaas" o ∧ Truthful o := by
  obtain ⟨start, made⟩ : ∃ start, CloudGroups.create Nat Nat ["iaas", "cloud1"] "iaas" = some start := ⟨_, rfl⟩
  have clear : start.Unambiguous "iaas" := by
    cases made
    unfold CloudGroups.Unambiguous
    decide +kernel
  obtain ⟨o, played⟩ : ∃ o, play Observed.after ⟨start, .none Nat Nat⟩ twoNodes = some o := by
    cases made
    exact Option.isSome_iff_exists.mp (by decide +kernel)
  have run := run_of_play played
  exact ⟨start, o, made, run, registrations_grouped (by decide) made clear run⟩

/-- The key of a cloud that is named `default` is kept in another group than
the cloud. -/
theorem defaultCloud_misplaced : ¬∀ (clouds : List String) (defaultCloud : String) (start : CloudGroups Nat Nat)
    (o : Observed Nat Nat) (calls : List (GroupCall Nat Nat)), clouds.Nodup →
      CloudGroups.create Nat Nat clouds defaultCloud = some start →
        Run Observed.Step ⟨start, .none Nat Nat⟩ calls o → Grouped clouds defaultCloud o ∧ Truthful o := by
  intro law
  obtain ⟨start, made⟩ : ∃ start, CloudGroups.create Nat Nat ["iaas", "default"] "iaas" = some start := ⟨_, rfl⟩
  obtain ⟨o, played⟩ : ∃ o, play Observed.after ⟨start, .none Nat Nat⟩ [.registerNode "default" 0] = some o := by
    cases made
    exact Option.isSome_iff_exists.mp (by decide +kernel)
  have entries : (play Observed.after ⟨start, .none Nat Nat⟩ [.registerNode "default" 0]).map (fun o =>
      (o.history.pending, o.groups.groups.rows.map fun g => (g.clouds, g.regKeys))) =
      some ([(0, "default")], [(["iaas"], [0]), (["default"], [])]) := by
    cases made
    decide +kernel
  rw [played, Option.map_some, Option.some.injEq, Prod.mk.injEq] at entries
  obtain ⟨pending, rows⟩ := entries
  obtain ⟨g, stored, serves, inside, -⟩ :=
    (law _ _ start o _ (by decide) made (run_of_play played)).1.keys 0 "default" (by rw [pending]; decide)
  have listed : (g.clouds, g.regKeys) ∈ [(["iaas"], [0]), (["default"], [])] := by
    rw [← rows]
    exact List.mem_map_of_mem stored
  simp only [List.mem_cons, Prod.mk.injEq, List.not_mem_nil, or_false] at listed
  rcases listed with ⟨named, -⟩ | ⟨-, keyless⟩
  · rcases serves with own | ⟨-, absent, -⟩
    · rw [named] at own
      exact absurd own (by decide)
    · exact absurd absent (by decide)
  · rw [keyless] at inside
    cases inside

end ConPaaS
