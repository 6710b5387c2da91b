import ConPaaS.Manager.States
import ConPaaS.Lib.Transition
import ConPaaS.Lib.Partition

namespace ConPaaS

open Keyed Transition Partition

/-- A list of nodes only, none of them twice. -/
structure Nodes.Clean (nodes : Nodes) : Prop where
  list : nodes.isList = true
  only : ∀ entry ∈ nodes.entries, entry.isNode = true
  once : (nodes.entries.map Entry.id).Nodup

/-- Where ids are distinct the first entry with the id of a node is that node. -/
theorem eraseP_hasId {entries : List Entry} {node : ServiceNode} (once : (entries.map Entry.id).Nodup)
    (member : .node node ∈ entries) : entries.eraseP (Entry.hasId node.id) = entries.erase (.node node) := by
  induction entries with
  | nil => rfl
  | cons entry rest ih =>
    obtain ⟨apart, once⟩ := List.nodup_cons.mp once
    by_cases here : entry = .node node
    · subst here
      rw [List.eraseP_cons_of_pos (by simp [Entry.hasId]), List.erase_cons_head]
    · have later : .node node ∈ rest := (List.mem_cons.mp member).resolve_left (Ne.symm here)
      have other : Entry.hasId node.id entry = false := by
        cases entry with
        | key => rfl
        | node n =>
          refine decide_eq_false fun same => apart ?_
          exact List.mem_map.mpr ⟨_, later, same.symm⟩
      rw [List.eraseP_cons_of_neg (by simp [other]), List.erase_cons_tail (by simpa using here), ih once later]

/-- A node of a clean list can be taken out of it. -/
theorem Nodes.Clean.remove {nodes : Nodes} (clean : nodes.Clean) {node : ServiceNode}
    (member : .node node ∈ nodes.entries) : nodes.remove node.id = some (.list (nodes.entries.erase (.node node))) := by
  cases nodes with
  | dict => cases clean.list
  | list entries =>
    have found : entries.any (Entry.hasId node.id) = true := List.any_eq_true.mpr ⟨_, member, by simp [Entry.hasId]⟩
    have only : entries.all Entry.isNode = true := List.all_eq_true.mpr clean.only
    have erased := eraseP_hasId clean.once member
    simp only [Nodes.entries] at erased
    simp only [Nodes.remove, removeById, only, found, Bool.and_self, if_true, Option.map_some, erased, Nodes.entries]

/-- What is left of a clean list is clean. -/
theorem Nodes.Clean.of_le {nodes less : Nodes} (clean : nodes.Clean) (list : less.isList = true)
    (le : (less.entries : Multiset Entry) ≤ nodes.entries) : less.Clean where
  list := list
  only entry member := clean.only entry (Multiset.mem_of_le le member)
  once := by
    have ids : (less.entries : Multiset Entry).map Entry.id ≤ (nodes.entries : Multiset Entry).map Entry.id :=
      Multiset.map_le_map le
    exact Multiset.coe_nodup.mp (Multiset.nodup_of_le ids (Multiset.coe_nodup.mpr clean.once))

namespace ApplicationManager

variable {am mid after : ApplicationManager} {sid : Nat} {stage : Stage} {next : Option Stage} {outcome : Outcome}

/-- The nodes of a manager without their order. -/
def entriesOf (am : ApplicationManager) (sid : Nat) : Multiset Entry := (am.object sid).nodes.entries

/-- A node that some managers all list is taken out of all their lists. -/
theorem removeNode_spec (node : ServiceNode) (am : ApplicationManager) {holders : List Nat} (distinct : holders.Nodup)
    (held : ∀ holder ∈ holders, (am.object holder).nodes.Clean ∧ .node node ∈ (am.object holder).nodes.entries) :
    ∃ after, removeNode node.id holders am = (after, true) ∧
      (∀ holder ∈ holders, (after.object holder).nodes = .list ((am.object holder).nodes.entries.erase (.node node))) ∧
      ∀ other, other ∉ holders → after.object other = am.object other := by
  induction holders generalizing am with
  | nil => exact ⟨am, rfl, by simp, fun _ _ => rfl⟩
  | cons holder rest ih =>
    obtain ⟨apart, distinct⟩ := List.nodup_cons.mp distinct
    obtain ⟨clean, member⟩ := held holder (List.mem_cons_self ..)
    have others : ∀ other, other ≠ holder → ∀ nodes, (am.setNodes holder nodes).object other = am.object other := by
      intro other away nodes
      simp [setNodes, away]
    obtain ⟨after, run, erased, same⟩ := ih
      (am.setNodes holder (.list ((am.object holder).nodes.entries.erase (.node node)))) distinct (by
        intro other inside
        rw [others other (fun equal => apart (equal ▸ inside))]
        exact held other (List.mem_cons_of_mem _ inside))
    refine ⟨after, by simp only [removeNode, clean.remove member, run], ?_, ?_⟩
    · intro other inside
      rcases List.mem_cons.mp inside with rfl | later
      · rw [same other apart, setNodes_nodes, if_pos rfl]
      · rw [erased other later, others other (fun equal => apart (equal ▸ later))]
    · intro other outside
      obtain ⟨away, beyond⟩ := not_or.mp (List.mem_cons.not.mp outside)
      rw [same other beyond, others other away]

/-- The loop over nodes that some managers all list: each of them loses just
these nodes. -/
theorem forget_spec (nodes : List Entry) (am : ApplicationManager) {first : Nat} {rest : List Nat} (distinct : (first :: rest).Nodup)
    (held : ∀ holder ∈ first :: rest, (am.object holder).nodes.Clean ∧ (nodes : Multiset Entry) ≤ am.entriesOf holder) :
    ∃ after, forget (first :: rest) nodes am = (after, true) ∧
      (∀ holder ∈ first :: rest, (after.object holder).nodes.isList = true ∧
        am.entriesOf holder = after.entriesOf holder + (nodes : Multiset Entry)) ∧
      ∀ other, other ∉ first :: rest → after.object other = am.object other := by
  induction nodes generalizing am with
  | nil =>
    refine ⟨am, rfl, fun holder member => ⟨(held holder member).1.list, ?_⟩, fun _ _ => rfl⟩
    rw [Multiset.coe_nil, add_zero]
  | cons entry later ih =>
    have listed : ∀ holder ∈ first :: rest, entry ∈ (am.object holder).nodes.entries := fun holder member =>
      Multiset.mem_of_le (held holder member).2 (List.mem_cons_self ..)
    have isNode := (held first (List.mem_cons_self ..)).1.only entry (listed first (List.mem_cons_self ..))
    cases entry with
    | key => cases isNode
    | node node =>
      obtain ⟨mid, removed, erased, same⟩ := removeNode_spec node (am.dropVolumes node.id) distinct
        fun holder member => ⟨(held holder member).1, listed holder member⟩
      have fewer : ∀ holder ∈ first :: rest, mid.entriesOf holder = (am.entriesOf holder).erase (.node node) := by
        intro holder member
        rw [entriesOf, erased holder member, entriesOf, Multiset.coe_erase]
        rfl
      obtain ⟨after, forgotten, left, same'⟩ := ih mid (by
        intro holder member
        have less : (later : Multiset Entry) ≤ mid.entriesOf holder := by
          rw [fewer holder member]
          have bound := Multiset.erase_le_erase (.node node) (held holder member).2
          rwa [← Multiset.cons_coe, Multiset.erase_cons_head] at bound
        refine ⟨(held holder member).1.of_le (by rw [erased holder member]; rfl) ?_, less⟩
        have shrunk := fewer holder member
        unfold entriesOf at shrunk
        rw [shrunk]
        exact Multiset.erase_le _ _)
      refine ⟨after, by simp only [forget, removed, forgotten], ?_, ?_⟩
      · intro holder member
        refine ⟨(left holder member).1, ?_⟩
        have split := (left holder member).2
        rw [fewer holder member] at split
        rw [← Multiset.cons_coe, Multiset.add_cons, ← split]
        exact (Multiset.cons_erase (listed holder member)).symm
      · intro other outside
        rw [same' other outside, same other outside]
        rfl

/-- The books of the application manager: its nodes are those of its services
and some that are loose, no node is listed twice, and services are registered
once. -/
structure Books (am : ApplicationManager) (loose : Multiset Entry) : Prop where
  own : (am.object 0).nodes.Clean
  lists : ∀ sid ∈ am.instances, (am.object sid).nodes.isList = true
  splits : Splits (am.entriesOf 0) loose am.instances.toFinset am.entriesOf
  nodup : am.instances.Nodup
  instances : ∀ sid ∈ am.instances, sid ≠ 0 ∧ sid ≤ am.serviceId

variable {loose : Multiset Entry}

theorem Books.le_own (books : Books am loose) (member : sid ∈ am.instances) : am.entriesOf sid ≤ am.entriesOf 0 :=
  books.splits.part_le (List.mem_toFinset.mpr member)

theorem Books.clean (books : Books am loose) (member : sid ∈ am.instances) : (am.object sid).nodes.Clean :=
  books.own.of_le (books.lists sid member) (books.le_own member)

theorem Books.loose_le (books : Books am loose) : loose ≤ am.entriesOf 0 := by
  rw [show am.entriesOf 0 = _ from books.splits]
  exact Multiset.le_add_right _ _

/-- Steps that change no node list and register no service. -/
theorem Books.congr (books : Books am loose) (nodes : ∀ other, (after.object other).nodes = (am.object other).nodes)
    (instances : after.instances = am.instances) (serviceId : am.serviceId ≤ after.serviceId) : Books after loose := by
  have entries : after.entriesOf = am.entriesOf := funext fun other => by rw [entriesOf, nodes, entriesOf]
  refine ⟨nodes 0 ▸ books.own, ?_, ?_, instances ▸ books.nodup, ?_⟩
  · rw [instances]
    exact fun other member => nodes other ▸ books.lists other member
  · rw [instances, entries]
    exact books.splits
  · rw [instances]
    exact fun other member => ⟨(books.instances other member).1, (books.instances other member).2.trans serviceId⟩

/-- New nodes enter the list of the application and that of a service. -/
theorem Books.grow (books : Books am loose) (member : sid ∈ am.instances) {nodes : List ServiceNode}
    (once : (nodes.map ServiceNode.id).Nodup)
    (new : ∀ node ∈ nodes, node.id ∉ (am.object 0).nodes.entries.map Entry.id)
    (own : (after.object 0).nodes = .list ((am.object 0).nodes.entries ++ nodes.map .node))
    (grown : (after.object sid).nodes = .list ((am.object sid).nodes.entries ++ nodes.map .node))
    (others : ∀ other, other ≠ sid → other ≠ 0 → after.object other = am.object other)
    (instances : after.instances = am.instances) (serviceId : after.serviceId = am.serviceId) : Books after loose := by
  refine ⟨⟨own ▸ rfl, ?_, ?_⟩, ?_, ?_, instances ▸ books.nodup, ?_⟩
  · rw [own]
    intro entry inside
    rcases List.mem_append.mp inside with old | added
    · exact books.own.only entry old
    · obtain ⟨node, -, rfl⟩ := List.mem_map.mp added
      rfl
  · rw [own]
    simp only [Nodes.entries, List.map_append, List.map_map]
    refine List.Nodup.append books.own.once once ?_
    intro id old added
    obtain ⟨node, inside, rfl⟩ := List.mem_map.mp added
    exact new node inside old
  · rw [instances]
    intro other inside
    by_cases here : other = sid
    · rw [here, grown]
      rfl
    · rw [others other here (books.instances other inside).1]
      exact books.lists other inside
  · rw [instances]
    have whole : after.entriesOf 0 = am.entriesOf 0 + (nodes.map Entry.node : Multiset Entry) := by
      rw [entriesOf, own]
      exact (Multiset.coe_add _ _).symm
    rw [whole]
    refine books.splits.grow (List.mem_toFinset.mpr member) ?_ ?_
    · intro other inside away
      rw [entriesOf, others other away (books.instances other (List.mem_toFinset.mp inside)).1]
      rfl
    · rw [entriesOf, grown]
      exact (Multiset.coe_add _ _).symm
  · rw [instances, serviceId]
    exact books.instances

/-- A service gives up all its nodes. -/
theorem Books.release (books : Books am 0) (member : sid ∈ am.instances) (state : ManagerState) :
    Books ((am.setNodes sid (.list [])).setState sid state) (am.entriesOf sid) := by
  have away : sid ≠ 0 := (books.instances sid member).1
  refine ⟨?_, ?_, ?_, books.nodup, books.instances⟩
  · rw [setState_nodes, setNodes_nodes, if_neg away.symm]
    exact books.own
  · intro other inside
    rw [setState_nodes, setNodes_nodes]
    split
    · rfl
    · exact books.lists other inside
  · have same : ∀ other, other ≠ sid →
        ((am.setNodes sid (.list [])).setState sid state).entriesOf other = am.entriesOf other := by
      intro other apart
      rw [entriesOf, setState_nodes, setNodes_nodes, if_neg apart, entriesOf]
    rw [same 0 away.symm]
    have released := books.splits.release (List.mem_toFinset.mpr member) (fun other _ apart => same other apart) (by
      rw [entriesOf, setState_nodes, setNodes_nodes, if_pos rfl]
      rfl)
    rwa [zero_add] at released

/-- The nodes of a stopped service leave the list of the application. -/
theorem Books.forget {nodes : List Entry} (books : Books am (nodes : Multiset Entry)) :
    ∃ after, ApplicationManager.forget [0] nodes am = (after, true) ∧ Books after 0 ∧
      am.entriesOf 0 = after.entriesOf 0 + (nodes : Multiset Entry) ∧ ∀ other, other ≠ 0 → after.object other = am.object other := by
  obtain ⟨after, run, left, others⟩ := forget_spec nodes am (List.nodup_singleton 0) (by
    intro holder member
    rw [List.mem_singleton.mp member]
    exact ⟨books.own, books.loose_le⟩)
  obtain ⟨list, split⟩ := left 0 (List.mem_singleton_self 0)
  have apart : ∀ other, other ≠ 0 → after.object other = am.object other := fun other away => others other (by simpa using away)
  have shuffled : Shuffled 0 am (ApplicationManager.forget [0] nodes am).1 := .forget 0 nodes am (by simp)
  rw [run] at shuffled
  refine ⟨after, run, ⟨books.own.of_le list ?_, ?_, ?_, ?_, ?_⟩, split, apart⟩
  · exact (Multiset.le_add_right _ _).trans split.ge
  · rw [shuffled.instances]
    exact fun other member => apart other (books.instances other member).1 ▸ books.lists other member
  · have splits := books.splits
    rw [split] at splits
    rw [shuffled.instances]
    refine splits.discard.congr fun other member => ?_
    rw [entriesOf, apart other (books.instances other (List.mem_toFinset.mp member)).1, entriesOf]
  · exact shuffled.instances ▸ books.nodup
  · rw [shuffled.instances, shuffled.serviceId]
    exact books.instances

/-- Nodes of a service leave its list and that of the application. -/
theorem Books.leave {nodes : List Entry} (books : Books am 0) (member : sid ∈ am.instances)
    (listed : (nodes : Multiset Entry) ≤ am.entriesOf sid) :
    ∃ after, ApplicationManager.forget [0, sid] nodes am = (after, true) ∧ Books after 0 ∧
      am.entriesOf sid = after.entriesOf sid + (nodes : Multiset Entry) := by
  have service := (books.instances sid member).1
  obtain ⟨after, run, left, others⟩ := forget_spec nodes am
    (show (0 :: [sid]).Nodup by simpa using service.symm) (by
      intro holder inside
      rcases List.mem_cons.mp inside with rfl | inside
      · exact ⟨books.own, listed.trans (books.le_own member)⟩
      · rw [List.mem_singleton.mp inside]
        exact ⟨books.clean member, listed⟩)
  obtain ⟨list, split⟩ := left 0 (by simp)
  obtain ⟨list', split'⟩ := left sid (by simp)
  have apart : ∀ other, other ≠ sid → other ≠ 0 → after.object other = am.object other :=
    fun other away own => others other (by simp [away, own])
  have shuffled : Shuffled sid am (ApplicationManager.forget [0, sid] nodes am).1 := .forget sid nodes am (by simp)
  rw [run] at shuffled
  refine ⟨after, run, ⟨books.own.of_le list ((Multiset.le_add_right _ _).trans split.ge), ?_, ?_, ?_, ?_⟩, split'⟩
  · rw [shuffled.instances]
    intro other inside
    by_cases here : other = sid
    · exact here ▸ list'
    · exact apart other here (books.instances other inside).1 ▸ books.lists other inside
  · have splits := books.splits
    rw [split] at splits
    rw [shuffled.instances]
    refine splits.shrink (List.mem_toFinset.mpr member) (fun other inside away => ?_) split'
    rw [entriesOf, apart other away (books.instances other (List.mem_toFinset.mp inside)).1, entriesOf]
  · exact shuffled.instances ▸ books.nodup
  · rw [shuffled.instances, shuffled.serviceId]
    exact books.instances

theorem deregister_nodes (am : ApplicationManager) (sid other : Nat) : ((am.deregister sid).object other).nodes = (am.object other).nodes := by
  rcases deregister_cases am sid with same | same | same
  · rw [same]
  · rw [same]
  · rw [same, setState_nodes]

/-- A service without nodes is not registered any more. -/
theorem Books.deregister (books : Books am loose) (bare : am.entriesOf sid = 0) : Books (am.deregister sid) loose := by
  have entries : (am.deregister sid).entriesOf = am.entriesOf :=
    funext fun other => by rw [entriesOf, deregister_nodes, entriesOf]
  have registered : (am.deregister sid).instances = am.instances ∨
      (am.deregister sid).instances = am.instances.erase sid := by
    rcases deregister_cases am sid with same | same | same
    · exact Or.inl (by rw [same])
    · exact Or.inr (by rw [same])
    · exact Or.inr (by rw [same]; rfl)
  have serviceId : (am.deregister sid).serviceId = am.serviceId := deregister_effect.serviceId
  refine ⟨deregister_nodes am sid 0 ▸ books.own, ?_, ?_, ?_, ?_⟩
  · exact fun other inside => deregister_nodes am sid other ▸ books.lists other (deregister_instances other inside)
  · rw [entries]
    rcases registered with same | fewer
    · rw [same]
      exact books.splits
    · rw [fewer, books.nodup.erase_eq_filter]
      have parts : (am.instances.filter (· != sid)).toFinset = am.instances.toFinset.erase sid := by
        ext other
        simp [and_comm]
      rw [parts]
      exact books.splits.erase bare
  · rcases registered with same | fewer
    · rw [same]
      exact books.nodup
    · rw [fewer]
      exact books.nodup.erase sid
  · rw [serviceId]
    exact fun other inside => books.instances other (deregister_instances other inside)

/-- A new service has no nodes. -/
theorem Books.addService (books : Books am loose) (construction : Construction) :
    Books (am.addService construction) loose := by
  cases construction with
  | unknownType => exact books
  | notImported => exact books.congr (fun other => setState_nodes _ _ _ _) rfl le_rfl
  | raised => exact books.congr (fun other => setState_nodes am 0 other .adapting) rfl (Nat.le_succ _)
  | made exposed =>
    have fresh : am.serviceId + 1 ∉ am.instances := fun member => by
      have bound := (books.instances _ member).2
      omega
    have old : ∀ other, other ≠ am.serviceId + 1 →
        ((am.addService (.made exposed)).object other).nodes = (am.object other).nodes := by
      intro other away
      simp only [ApplicationManager.addService, Function.update_of_ne away]
      exact setState_nodes am 0 other .running
    have new : (am.addService (.made exposed)).object (am.serviceId + 1) = ⟨.init, .list [], exposed⟩ := by
      simp [ApplicationManager.addService]
    have entries : ∀ other, other ≠ am.serviceId + 1 → (am.addService (.made exposed)).entriesOf other = am.entriesOf other :=
      fun other away => by rw [entriesOf, old other away, entriesOf]
    refine ⟨old 0 (Nat.succ_ne_zero _).symm ▸ books.own, ?_, ?_, ?_, ?_⟩
    · intro other member
      rcases List.mem_append.mp member with inside | added
      · rw [old other (fun same => fresh (same ▸ inside))]
        exact books.lists other inside
      · rw [List.mem_singleton.mp added, new]
        rfl
    · have parts : (am.addService (.made exposed)).instances.toFinset = insert (am.serviceId + 1) am.instances.toFinset := by
        ext other
        simp [ApplicationManager.addService, or_comm]
      rw [parts, entries 0 (Nat.succ_ne_zero _).symm]
      refine books.splits.insert (fun member => fresh (List.mem_toFinset.mp member)) ?_ ?_
      · exact fun other inside => entries other fun same => fresh (same ▸ List.mem_toFinset.mp inside)
      · rw [entriesOf, new]
        rfl
    · exact books.nodup.append (List.nodup_singleton _) (by simpa using fresh)
    · intro other member
      refine ⟨?_, addService_instances (fun sid inside => (books.instances sid inside).2) other member⟩
      rcases List.mem_append.mp member with inside | added
      · exact (books.instances other inside).1
      · rw [List.mem_singleton.mp added]
        exact Nat.succ_ne_zero _

/-- The nodes of the application are those of its services, each listed once. -/
structure Balanced (am : ApplicationManager) : Prop where
  only : ∀ entry ∈ (am.object 0).nodes.entries, entry.isNode = true
  union : (am.object 0).nodes.entries.Perm (am.instances.flatMap fun sid => (am.object sid).nodes.entries)
  once : ((am.object 0).nodes.entries.map Entry.id).Nodup

theorem sum_entriesOf (services : List Nat) : (services.map am.entriesOf).sum =
    ((services.flatMap fun sid => (am.object sid).nodes.entries : List Entry) : Multiset Entry) := by
  induction services with
  | nil => rfl
  | cons sid rest ih =>
    rw [List.map_cons, List.sum_cons, ih, List.flatMap_cons, ← Multiset.coe_add]
    rfl

/-- The books with nothing loose. -/
theorem Books.balanced (books : Books am 0) : Balanced am where
  only := books.own.only
  union := by
    have splits := books.splits
    rw [Splits, zero_add, List.sum_toFinset _ books.nodup, sum_entriesOf] at splits
    exact Multiset.coe_eq_coe.mp splits
  once := books.own.once

end ApplicationManager

end ConPaaS
