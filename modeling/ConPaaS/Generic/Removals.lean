import Mathlib.Data.List.DropRight
import Mathlib.Data.List.Nodup
import ConPaaS.Generic.Service

namespace ConPaaS

open Keyed Transition Fallible
open BaseManager (Fits checkNodeRoles_ok checkState_ok dropNode)

/-- A removal has picked the node. -/
def Chosen (removals : List Removal) (node : ServiceNode) : Prop :=
  ∃ removal ∈ removals, ∃ other ∈ removal.picked, other.id = node.id

instance (removals : List Removal) (node : ServiceNode) : Decidable (Chosen removals node) :=
  inferInstanceAs (Decidable (∃ removal ∈ removals, ∃ other ∈ removal.picked, other.id = node.id))

/-- The nodes that no removal has picked. -/
def kept (removals : List Removal) (nodes : List ServiceNode) : List ServiceNode :=
  nodes.filter fun node => ¬Chosen removals node

/-- Where ids are distinct, dropping a node leaves the nodes with other ids. -/
theorem dropNode_filter {id : String} {nodes : List ServiceNode} (once : (nodes.map ServiceNode.id).Nodup)
    (member : id ∈ nodes.map ServiceNode.id) : dropNode id nodes = some (nodes.filter fun node => node.id ≠ id) := by
  obtain ⟨stored, inside, same⟩ := List.mem_map.mp member
  rw [dropNode, if_pos (List.any_eq_true.mpr ⟨stored, inside, decide_eq_true same⟩)]
  congr 1
  clear member stored inside same
  induction nodes with
  | nil => rfl
  | cons node rest ih =>
    obtain ⟨apart, once⟩ := List.nodup_cons.mp once
    by_cases here : node.id = id
    · rw [List.eraseP_cons_of_pos (by simpa using here), List.filter_cons_of_neg (by simpa using here)]
      refine (List.filter_eq_self.mpr fun other inside => decide_eq_true ?_).symm
      exact fun same => apart (here.trans same.symm ▸ List.mem_map_of_mem inside)
    · rw [List.eraseP_cons_of_neg (by simpa using here), List.filter_cons_of_pos (by simpa using here), ih once]

theorem dropNode_none {id : String} {nodes : List ServiceNode} (absent : id ∉ nodes.map ServiceNode.id) :
    dropNode id nodes = none := by
  refine if_neg fun found => ?_
  obtain ⟨node, inside, same⟩ := List.any_eq_true.mp found
  exact absent (of_decide_eq_true same ▸ List.mem_map_of_mem inside)

/-- The lists of nodes, with what the threads of removals have in hand: what is
in hand was picked, and picked nodes that are still listed are in hand. Each
thread finds all its nodes in the list or none, and the first node stays. -/
structure Lists (applicationNodes nodes : List ServiceNode) (removals : List Removal) (masterIp : Option String)
    (holdings : List (List ServiceNode)) : Prop where
  sub : nodes ⊆ applicationNodes
  distinct : (applicationNodes.map ServiceNode.id).Nodup
  ids : (nodes.map ServiceNode.id).Nodup
  ips : (nodes.map ServiceNode.ip).Nodup
  apart : (holdings.flatten.map ServiceNode.id).Nodup
  held : ∀ node ∈ holdings.flatten, Chosen removals node
  whole : ∀ holding ∈ holdings, holding ⊆ nodes ∨ ∀ node ∈ holding, node.id ∉ nodes.map ServiceNode.id
  gone : ∀ node ∈ nodes, Chosen removals node → node ∈ holdings.flatten
  picks : removals.Pairwise fun first second => ∀ node ∈ first.picked, ∀ other ∈ second.picked, node.id ≠ other.id
  spared : ∀ removal ∈ removals, ∀ node ∈ removal.picked, removal.masterIp ≠ some node.ip
  first : ∀ node ∈ nodes.head?, ¬Chosen removals node
  master : ∀ ip ∈ masterIp, ∀ node ∈ nodes.head?, node.ip = ip

section

variable {applicationNodes nodes reply picked left holding : List ServiceNode} {removals : List Removal} {masterIp : Option String}
  {holdings : List (List ServiceNode)} {node : ServiceNode}

theorem Lists.perm {holdings' : List (List ServiceNode)} (lists : Lists applicationNodes nodes removals masterIp holdings)
    (same : holdings'.Perm holdings) : Lists applicationNodes nodes removals masterIp holdings' where
  sub := lists.sub
  distinct := lists.distinct
  ids := lists.ids
  ips := lists.ips
  apart := (same.flatten.map _).nodup_iff.mpr lists.apart
  held node member := lists.held node (same.flatten.mem_iff.mp member)
  whole holding member := lists.whole holding (same.mem_iff.mp member)
  gone node member chosen := same.flatten.mem_iff.mpr (lists.gone node member chosen)
  picks := lists.picks
  spared := lists.spared
  first := lists.first
  master := lists.master

/-- Nodes nobody has picked are never lost from the list. -/
theorem kept_dropped (chosen : Chosen removals node) :
    kept removals (nodes.filter fun other => other.id ≠ node.id) = kept removals nodes := by
  rw [kept, kept, List.filter_filter]
  refine List.filter_congr fun other _ => ?_
  rw [Bool.and_eq_left_iff_imp]
  intro free
  refine decide_eq_true fun same => of_decide_eq_true free ?_
  obtain ⟨removal, member, found, inside, id⟩ := chosen
  exact ⟨removal, member, found, inside, id.trans same.symm⟩

theorem chosen_congr {other : ServiceNode} (same : node.id = other.id) (chosen : Chosen removals node) : Chosen removals other := by
  obtain ⟨removal, member, found, inside, id⟩ := chosen
  exact ⟨removal, member, found, inside, id.trans same⟩

/-- The first node stays first. -/
theorem head?_dropped (first : ∀ node ∈ nodes.head?, ¬Chosen removals node) (chosen : Chosen removals node) :
    (nodes.filter fun other => other.id ≠ node.id).head? = nodes.head? := by
  cases nodes with
  | nil => rfl
  | cons head rest =>
    have stays : head.id ≠ node.id := fun same => first head rfl (chosen_congr same.symm chosen)
    rw [List.filter_cons_of_pos (by simpa using stays)]
    rfl

theorem mem_dropped {other : ServiceNode} : other ∈ nodes.filter (fun other => other.id ≠ node.id) ↔
    other ∈ nodes ∧ other.id ≠ node.id := by
  rw [List.mem_filter, decide_eq_true_eq]

/-- A thread drops a node that both lists have. -/
theorem Lists.drop (lists : Lists applicationNodes nodes removals masterIp ((node :: holding) :: holdings)) (member : node ∈ nodes) :
    Lists (applicationNodes.filter fun other => other.id ≠ node.id) (nodes.filter fun other => other.id ≠ node.id) removals masterIp
      (holding :: holdings) := by
  have chosen : Chosen removals node := lists.held node (List.mem_cons_self ..)
  have apart := lists.apart
  rw [List.flatten_cons, List.cons_append, List.map_cons] at apart
  obtain ⟨alone, apart⟩ := List.nodup_cons.mp apart
  have other {held : ServiceNode} (inside : held ∈ (holding :: holdings).flatten) : held.id ≠ node.id :=
    fun same => alone (same ▸ List.mem_map_of_mem inside)
  have head := head?_dropped lists.first chosen
  refine {
    sub := fun other member => ?_
    distinct := lists.distinct.sublist (List.filter_sublist.map _)
    ids := lists.ids.sublist (List.filter_sublist.map _)
    ips := lists.ips.sublist (List.filter_sublist.map _)
    apart := apart
    held := fun other inside => lists.held other (List.mem_cons_of_mem _ inside)
    whole := fun others member => ?_
    gone := fun other member chosen => ?_
    picks := lists.picks
    spared := lists.spared
    first := head ▸ lists.first
    master := head ▸ lists.master }
  · obtain ⟨inside, apart⟩ := mem_dropped.mp member
    exact mem_dropped.mpr ⟨lists.sub inside, apart⟩
  · have held {entry : ServiceNode} (inside : entry ∈ others) : entry ∈ (holding :: holdings).flatten :=
      List.mem_flatten.mpr ⟨others, member, inside⟩
    have before : others ⊆ nodes ∨ ∀ entry ∈ others, entry.id ∉ nodes.map ServiceNode.id := by
      rcases List.mem_cons.mp member with rfl | later
      · refine (lists.whole _ (List.mem_cons_self ..)).imp (fun all => List.Subset.trans (List.subset_cons_self ..) all) fun none entry inside => ?_
        exact none entry (List.mem_cons_of_mem _ inside)
      · exact lists.whole others (List.mem_cons_of_mem _ later)
    refine before.imp (fun all entry inside => mem_dropped.mpr ⟨all inside, other (held inside)⟩) fun none entry inside listed => ?_
    exact none entry inside ((List.filter_sublist.map _).subset listed)
  · obtain ⟨inside, apart⟩ := mem_dropped.mp member
    refine (List.mem_cons.mp (lists.gone other inside chosen)).resolve_left ?_
    rintro rfl
    exact apart rfl

/-- A thread ends that has none of the listed nodes in hand. -/
theorem Lists.abandon (lists : Lists applicationNodes nodes removals masterIp (holding :: holdings))
    (none : ∀ node ∈ holding, node.id ∉ nodes.map ServiceNode.id) : Lists applicationNodes nodes removals masterIp holdings where
  sub := lists.sub
  distinct := lists.distinct
  ids := lists.ids
  ips := lists.ips
  apart := by
    have apart := lists.apart
    rw [List.flatten_cons, List.map_append] at apart
    exact (List.nodup_append.mp apart).2.1
  held node member := lists.held node (List.mem_append_right _ member)
  whole holding member := lists.whole holding (List.mem_cons_of_mem _ member)
  gone node member chosen := by
    refine (List.mem_append.mp (lists.gone node member chosen)).resolve_left fun inside => ?_
    exact none node inside (List.mem_map_of_mem member)
  picks := lists.picks
  spared := lists.spared
  first := lists.first
  master := lists.master

/-- Threads with nothing in hand do not count. -/
theorem Lists.without (lists : Lists applicationNodes nodes removals masterIp ([] :: holdings)) :
    Lists applicationNodes nodes removals masterIp holdings :=
  lists.abandon nofun

theorem Lists.with (lists : Lists applicationNodes nodes removals masterIp holdings) :
    Lists applicationNodes nodes removals masterIp ([] :: holdings) where
  sub := lists.sub
  distinct := lists.distinct
  ids := lists.ids
  ips := lists.ips
  apart := lists.apart
  held := lists.held
  whole holding member := by
    rcases List.mem_cons.mp member with rfl | old
    · exact Or.inr nofun
    · exact lists.whole holding old
  gone := lists.gone
  picks := lists.picks
  spared := lists.spared
  first := lists.first
  master := lists.master

/-- The application loses a node that the service does not have. -/
theorem Lists.release (lists : Lists applicationNodes nodes removals masterIp holdings) (absent : node.id ∉ nodes.map ServiceNode.id) :
    Lists (applicationNodes.filter fun other => other.id ≠ node.id) nodes removals masterIp holdings where
  sub _ member := mem_dropped.mpr ⟨lists.sub member, fun same => absent (same ▸ List.mem_map_of_mem member)⟩
  distinct := lists.distinct.sublist (List.filter_sublist.map _)
  ids := lists.ids
  ips := lists.ips
  apart := lists.apart
  held := lists.held
  whole := lists.whole
  gone := lists.gone
  picks := lists.picks
  spared := lists.spared
  first := lists.first
  master := lists.master

/-- A service that stops forgets its nodes. -/
theorem Lists.clear (lists : Lists applicationNodes nodes removals masterIp holdings) :
    Lists applicationNodes [] removals masterIp holdings where
  sub := List.nil_subset _
  distinct := lists.distinct
  ids := .nil
  ips := .nil
  apart := lists.apart
  held := lists.held
  whole _ _ := Or.inr fun _ _ => List.not_mem_nil
  gone _ member := absurd member List.not_mem_nil
  picks := lists.picks
  spared := lists.spared
  first := nofun
  master := nofun

/-- Nobody is the master, or the first node is. -/
theorem Lists.crown (lists : Lists applicationNodes nodes removals masterIp holdings) {masterIp' : Option String}
    (master : ∀ ip ∈ masterIp', ∀ node ∈ nodes.head?, node.ip = ip) : Lists applicationNodes nodes removals masterIp' holdings where
  sub := lists.sub
  distinct := lists.distinct
  ids := lists.ids
  ips := lists.ips
  apart := lists.apart
  held := lists.held
  whole := lists.whole
  gone := lists.gone
  picks := lists.picks
  spared := lists.spared
  first := lists.first
  master := master

/-- New machines: their ids are not those of any that are still listed, in the
hands of a thread or were picked, and their addresses are their own. -/
structure Fresh (applicationNodes inHand : List ServiceNode) (removals : List Removal) (reply : List ServiceNode) : Prop where
  ids : (reply.map ServiceNode.id).Nodup
  ips : (reply.map ServiceNode.ip).Nodup
  unknown : ∀ node ∈ reply, ∀ known ∈ applicationNodes, node.id ≠ known.id ∧ node.ip ≠ known.ip
  unheld : ∀ node ∈ reply, ∀ known ∈ inHand, node.id ≠ known.id
  unpicked : ∀ node ∈ reply, ¬Chosen removals node

/-- The service gets new nodes. -/
theorem Lists.arrive {inHand : List ServiceNode} (lists : Lists applicationNodes nodes removals masterIp holdings)
    (fresh : Fresh applicationNodes inHand removals reply) (headed : nodes ≠ [] ∨ masterIp = none) :
    Lists (applicationNodes ++ reply) (nodes ++ reply) removals masterIp holdings where
  sub := List.append_subset.mpr ⟨List.Subset.trans lists.sub (List.subset_append_left ..), List.subset_append_right ..⟩
  distinct := by
    rw [List.map_append]
    refine List.nodup_append.mpr ⟨lists.distinct, fresh.ids, fun id old other new => ?_⟩
    obtain ⟨known, stored, rfl⟩ := List.mem_map.mp old
    obtain ⟨node, inside, rfl⟩ := List.mem_map.mp new
    exact (fresh.unknown node inside known stored).1.symm
  ids := by
    rw [List.map_append]
    refine List.nodup_append.mpr ⟨lists.ids, fresh.ids, fun id old other new => ?_⟩
    obtain ⟨known, stored, rfl⟩ := List.mem_map.mp old
    obtain ⟨node, inside, rfl⟩ := List.mem_map.mp new
    exact (fresh.unknown node inside known (lists.sub stored)).1.symm
  ips := by
    rw [List.map_append]
    refine List.nodup_append.mpr ⟨lists.ips, fresh.ips, fun ip old other new => ?_⟩
    obtain ⟨known, stored, rfl⟩ := List.mem_map.mp old
    obtain ⟨node, inside, rfl⟩ := List.mem_map.mp new
    exact (fresh.unknown node inside known (lists.sub stored)).2.symm
  apart := lists.apart
  held := lists.held
  whole holding member := by
    refine (lists.whole holding member).imp (fun all => List.Subset.trans all (List.subset_append_left ..)) fun none node inside listed => ?_
    rw [List.map_append] at listed
    rcases List.mem_append.mp listed with old | new
    · exact none node inside old
    · obtain ⟨other, arrived, same⟩ := List.mem_map.mp new
      refine fresh.unpicked other arrived (chosen_congr same.symm (lists.held node ?_))
      exact List.mem_flatten.mpr ⟨holding, member, inside⟩
  gone node member chosen := by
    rcases List.mem_append.mp member with old | new
    · exact lists.gone node old chosen
    · exact absurd chosen (fresh.unpicked node new)
  picks := lists.picks
  spared := lists.spared
  first node head := by
    cases nodes with
    | nil => exact fresh.unpicked node (List.mem_of_mem_head? head)
    | cons => exact lists.first node head
  master ip is node head := by
    cases nodes with
    | nil =>
      rcases headed with some | none
      · exact absurd rfl some
      · exact absurd (none ▸ is) nofun
    | cons => exact lists.master ip is node head

theorem kept_arrived {inHand : List ServiceNode} (fresh : Fresh applicationNodes inHand removals reply) :
    kept removals (nodes ++ reply) = kept removals nodes ++ reply := by
  rw [kept, List.filter_append]
  congr 1
  exact List.filter_eq_self.mpr fun node member => decide_eq_true (fresh.unpicked node member)

theorem chosen_cons {removal : Removal} : Chosen (removal :: removals) node ↔
    (∃ other ∈ removal.picked, other.id = node.id) ∨ Chosen removals node := by
  unfold Chosen
  rw [List.exists_mem_cons_iff]

/-- A removal picks nodes from the end that nobody has picked yet, and some node
is left. -/
theorem Lists.pick (lists : Lists applicationNodes (left ++ picked.reverse) removals masterIp holdings) (some : left ≠ [])
    (free : ∀ node ∈ picked, ¬Chosen removals node) :
    Lists applicationNodes (left ++ picked.reverse) (⟨picked, masterIp⟩ :: removals) masterIp (picked :: holdings) := by
  have ids := lists.ids
  rw [List.map_append] at ids
  obtain ⟨-, once, away⟩ := List.nodup_append.mp ids
  have once : (picked.map ServiceNode.id).Nodup := by
    rw [List.map_reverse] at once
    exact List.nodup_reverse.mp once
  have inList {node : ServiceNode} (member : node ∈ picked) : node ∈ left ++ picked.reverse :=
    List.mem_append_right _ (List.mem_reverse.mpr member)
  have earlier {node : ServiceNode} (member : node ∈ left) : ∀ other ∈ picked, other.id ≠ node.id := by
    intro other inside same
    refine away _ (List.mem_map_of_mem member) _ ?_ same.symm
    exact List.mem_map_of_mem (List.mem_reverse.mpr inside)
  have head : ∀ node ∈ (left ++ picked.reverse).head?, node ∈ left := by
    intro node head
    cases left with
    | nil => exact absurd rfl some
    | cons => exact List.mem_of_mem_head? head
  exact {
    sub := lists.sub
    distinct := lists.distinct
    ids := lists.ids
    ips := lists.ips
    apart := by
      rw [List.flatten_cons, List.map_append]
      refine List.nodup_append.mpr ⟨once, lists.apart, fun id new other old same => ?_⟩
      obtain ⟨node, inside, rfl⟩ := List.mem_map.mp new
      obtain ⟨known, held, rfl⟩ := List.mem_map.mp old
      exact free node inside (chosen_congr same.symm (lists.held known held))
    held := fun node member => chosen_cons.mpr <| by
      rcases List.mem_append.mp member with new | old
      · exact Or.inl ⟨node, new, rfl⟩
      · exact Or.inr (lists.held node old)
    whole := fun holding member => by
      rcases List.mem_cons.mp member with rfl | old
      · exact Or.inl fun _ => inList
      · exact lists.whole holding old
    gone := fun node member chosen => by
      rcases chosen_cons.mp chosen with ⟨other, inside, same⟩ | old
      · have one : other = node := List.inj_on_of_nodup_map lists.ids (inList inside) member same
        exact List.mem_append_left _ (one ▸ inside)
      · exact List.mem_append_right _ (lists.gone node member old)
    picks := List.pairwise_cons.mpr ⟨fun removal member node new other old same =>
      free node new ⟨removal, member, other, old, same.symm⟩, lists.picks⟩
    spared := fun removal member node inside => by
      rcases List.mem_cons.mp member with rfl | old
      · intro master
        obtain ⟨first, rest, rfl⟩ := List.exists_cons_of_ne_nil some
        have ip := lists.master node.ip master first rfl
        have one : first = node := List.inj_on_of_nodup_map lists.ips (List.mem_cons_self ..) (inList inside) ip
        exact earlier (List.mem_cons_self ..) node inside (congrArg ServiceNode.id one.symm)
      · exact lists.spared removal old node inside
    first := fun node is chosen => by
      rcases chosen_cons.mp chosen with ⟨other, inside, same⟩ | old
      · exact earlier (head node is) other inside same
      · exact lists.first node is old
    master := lists.master }

theorem kept_picked (ids : ((left ++ picked.reverse).map ServiceNode.id).Nodup) :
    kept (⟨picked, masterIp⟩ :: removals) (left ++ picked.reverse) = kept removals left := by
  rw [List.map_append] at ids
  obtain ⟨-, -, away⟩ := List.nodup_append.mp ids
  have none : picked.reverse.filter (fun node => ¬Chosen (⟨picked, masterIp⟩ :: removals) node) = [] := by
    refine List.filter_eq_nil_iff.mpr fun node member => ?_
    rw [decide_eq_true_eq, not_not]
    exact chosen_cons.mpr (Or.inl ⟨node, List.mem_reverse.mp member, rfl⟩)
  rw [kept, List.filter_append, none, List.append_nil, kept]
  refine List.filter_congr fun node member => decide_eq_decide.mpr (not_congr ?_)
  rw [chosen_cons, or_iff_right]
  rintro ⟨other, inside, same⟩
  refine away _ (List.mem_map_of_mem member) _ ?_ same.symm
  exact List.mem_map_of_mem (List.mem_reverse.mpr inside)

theorem kept_free (free : ∀ node ∈ picked, ¬Chosen removals node) :
    kept removals (left ++ picked.reverse) = kept removals left ++ picked.reverse := by
  rw [kept, List.filter_append]
  congr 1
  exact List.filter_eq_self.mpr fun node member => decide_eq_true (free node (List.mem_reverse.mp member))

end

namespace PoolWork

/-- The nodes a removal has in hand. -/
def holds : PoolWork → List ServiceNode
  | .notifying nodes | .dropping nodes => nodes
  | _ => []

/-- All nodes a thread has in hand. -/
def hands : PoolWork → List ServiceNode
  | .onStart nodes | .onAddNodes nodes | .notifying nodes | .dropping nodes | .stopped nodes | .releasing nodes => nodes
  | _ => []

/-- The thread has still to enter nodes into `agents_info`. -/
def enters : PoolWork → Bool
  | .onAddNodes _ => true
  | _ => false

/-- The thread has still to set the state. -/
def busy : PoolWork → Bool
  | .dropping _ | .releasing _ => false
  | _ => true

/-- The thread is about to stop the service. -/
def stops : PoolWork → Bool
  | .stopping | .stopped _ => true
  | _ => false

theorem not_busy {work : PoolWork} (idle : work.busy = false) :
    (∃ nodes, work = .dropping nodes) ∨ ∃ nodes, work = .releasing nodes := by
  cases work with
  | dropping nodes => exact Or.inl ⟨nodes, rfl⟩
  | releasing nodes => exact Or.inr ⟨nodes, rfl⟩
  | _ => cases idle

end PoolWork

namespace PoolManager

variable {m after : PoolManager} {position : Nat} {reply : List ServiceNode} {agents : AgentsReply} {work next : PoolWork}
  {works rest : List PoolWork} {event : PoolEvent}

/-- What the director replies with: nothing, or new machines in the roles it was
asked for. -/
def Supplied (m : PoolManager) (reply : List ServiceNode) : PoolWork → Prop
  | .starting => reply = [] ∨ Delivered (getSninfo m.service.getStartingNodes) reply ∧
    Fresh m.applicationNodes (m.inFlight.flatMap PoolWork.hands) m.removals reply
  | .adding nodeRoles => reply = [] ∨ Delivered (getSninfo nodeRoles) reply ∧
    Fresh m.applicationNodes (m.inFlight.flatMap PoolWork.hands) m.removals reply
  | _ => True

def Served (m : PoolManager) : PoolEvent → Prop
  | .advance position reply _ => ∀ work ∈ m.inFlight[position]?, m.Supplied reply work
  | _ => True

/-- The nodes a removal will pick are none that another one has picked. -/
def Spare (m : PoolManager) : PoolWork → Prop
  | .removing nodeRoles => ∀ node ∈ m.nodes.rtake (total nodeRoles).toNat, ¬Chosen m.removals node
  | _ => True

/-- The agents that are left are notified of a removal. -/
def Notified (m : PoolManager) (agents : AgentsReply) : PoolWork → Prop
  | .notifying _ => m.service = .generic → agents = .succeed
  | _ => True

/-- A request is accepted only while the other threads have set the state, and
a removal only where it picks other nodes than those before it. -/
def Spaced (m : PoolManager) : PoolEvent → Prop
  | .request request => ∀ started ∈ (m.answer request).toOption,
    (∀ work ∈ m.inFlight, work.busy = false) ∧ m.Spare started.2
  | .advance position _ agents => ∀ work ∈ m.inFlight[position]?, m.Notified agents work
  | .scriptFails => True

/-- The service has nodes, and a Generic service has a master. -/
def Ready (m : PoolManager) : Prop := m.nodes ≠ [] ∧ (m.service = .generic → m.masterIp ≠ none)

/-- The service runs or is adapted, and no thread is about to stop it. -/
def Serves (m : PoolManager) (works : List PoolWork) : Prop :=
  (m.state = .running ∨ m.state = .adapting) ∧ ∀ work ∈ works, work.stops = false

/-- The start of a Generic service has failed: it has a node but no master. -/
def StartFailed (m : PoolManager) : Prop := m.nodes ≠ [] ∧ m.masterIp = none

/-- Removals pick different nodes and never the master, a node is left that none
has picked, and `agents_info` is about the nodes of the service. -/
structure Safe (m : PoolManager) : Prop where
  disjoint : m.removals.Pairwise fun first second => ∀ node ∈ first.picked, ∀ other ∈ second.picked, node.id ≠ other.id
  master : ∀ removal ∈ m.removals, ∀ node ∈ removal.picked, removal.masterIp ≠ some node.ip
  left : m.Serves m.inFlight → ∃ node ∈ m.nodes.head?, ¬Chosen m.removals node ∧
    (m.service = .generic → m.masterIp = some node.ip)
  agents : m.service = .generic → m.inFlight = [] → ¬m.StartFailed →
    m.agentsInfo.map AgentInfo.id = m.nodes.map ServiceNode.id

/-- What a thread relies on. -/
def Prepared (m : PoolManager) : PoolWork → Prop
  | .starting => (m.state = .prologue ∨ m.state = .error) ∧ m.masterIp = none ∧ m.nodes = []
  | .onStart nodes => (m.state = .prologue ∨ m.state = .error) ∧ m.masterIp = none ∧
    ∃ node, nodes = [node] ∧ m.nodes = [node] ∧ ¬Chosen m.removals node
  | .adding _ | .configuring | .notifying _ | .adapting => m.Ready
  | .onAddNodes nodes => m.Ready ∧ (m.service = .generic →
    m.agentsInfo.map AgentInfo.id ++ nodes.map ServiceNode.id = (kept m.removals m.nodes).map ServiceNode.id)
  | .removing nodeRoles => m.Ready ∧ ∃ left picked : List ServiceNode, m.nodes = left ++ picked.reverse ∧ left ≠ [] ∧
    picked.length = (total nodeRoles).toNat ∧ ∀ node ∈ picked, ¬Chosen m.removals node
  | .stopped _ => m.masterIp = none
  | .releasing nodes => ∀ node ∈ nodes, node.id ∉ m.nodes.map ServiceNode.id
  | .dropping _ | .stopping => True

/-- The books of the service with some threads in flight. -/
structure Books (m : PoolManager) (works : List PoolWork) : Prop where
  lists : Lists m.applicationNodes m.nodes m.removals m.masterIp (works.map PoolWork.holds)
  one : works.countP PoolWork.busy ≤ 1
  plain : m.service = .helloworld → m.masterIp = none
  agents : m.service = .generic → m.masterIp ≠ none → (∀ work ∈ works, work.enters = false) →
    m.agentsInfo.map AgentInfo.id = (kept m.removals m.nodes).map ServiceNode.id
  bare : m.masterIp = none → m.agentsInfo = []
  asleep : m.state = .init ∨ m.state = .stopped → m.masterIp = none ∧ m.nodes = []
  serving : m.Serves works → m.Ready
  prepared : ∀ work ∈ works, m.Prepared work

theorem Books.safe (books : Books m m.inFlight) : Safe m where
  disjoint := books.lists.picks
  master := books.lists.spared
  left serves := by
    obtain ⟨some, crowned⟩ := books.serving serves
    obtain ⟨first, rest, same⟩ := List.exists_cons_of_ne_nil some
    have head : first ∈ m.nodes.head? := by
      rw [same]
      rfl
    refine ⟨first, head, books.lists.first first head, fun generic => ?_⟩
    obtain ⟨ip, is⟩ := Option.ne_none_iff_exists'.mp (crowned generic)
    rw [is, books.lists.master ip is first head]
  agents generic idle started := by
    by_cases crowned : m.masterIp = none
    · have empty : m.nodes = [] := by
        by_contra some
        exact started ⟨some, crowned⟩
      rw [books.bare crowned, empty]
      rfl
    · have same := books.agents generic crowned (by simp [idle])
      have all : kept m.removals m.nodes = m.nodes := by
        refine List.filter_eq_self.mpr fun node member => decide_eq_true fun chosen => ?_
        have held := books.lists.gone node member chosen
        rw [idle] at held
        exact absurd held List.not_mem_nil
      rw [same, all]

/-- The order of the threads does not matter, nor where they are. -/
theorem Books.perm {works' inFlight : List PoolWork} (books : Books m works) (same : works'.Perm works) :
    Books { m with inFlight } works' where
  lists := books.lists.perm (same.map _)
  one := (same.countP_eq _).trans_le books.one
  plain := books.plain
  agents generic crowned enters := books.agents generic crowned fun work member => enters work (same.mem_iff.mpr member)
  bare := books.bare
  asleep := books.asleep
  serving serves := books.serving ⟨serves.1, fun work member => serves.2 work (same.mem_iff.mpr member)⟩
  prepared work member := by
    have prepared := books.prepared work (same.mem_iff.mp member)
    cases work <;> exact prepared

/-- While one thread has still to set the state, the others only take nodes out
of lists. -/
theorem Books.others (books : Books m (work :: rest)) (busy : work.busy = true) : ∀ other ∈ rest, other.busy = false := by
  have one := books.one
  rw [List.countP_cons_of_pos busy] at one
  have none : rest.countP PoolWork.busy = 0 := by omega
  intro other member
  simpa using List.countP_eq_zero.mp none other member

theorem idle_countP (idle : ∀ work ∈ works, work.busy = false) : works.countP PoolWork.busy = 0 := by
  refine List.countP_eq_zero.mpr fun work member => ?_
  rw [idle work member]
  exact Bool.false_ne_true

theorem idle_enters (idle : ∀ work ∈ works, work.busy = false) : ∀ work ∈ works, work.enters = false := by
  intro work member
  rcases PoolWork.not_busy (idle work member) with ⟨nodes, rfl⟩ | ⟨nodes, rfl⟩ <;> rfl

theorem idle_stops (idle : ∀ work ∈ works, work.busy = false) : ∀ work ∈ works, work.stops = false := by
  intro work member
  rcases PoolWork.not_busy (idle work member) with ⟨nodes, rfl⟩ | ⟨nodes, rfl⟩ <;> rfl

/-- Such threads rely only on it that the nodes they release do not come back. -/
theorem Books.resting (books : Books m (work :: rest)) (busy : work.busy = true)
    (listed : ∀ other ∈ rest, ∀ node ∈ other.hands, node.id ∈ after.nodes.map ServiceNode.id →
      node.id ∈ m.nodes.map ServiceNode.id) : ∀ other ∈ rest, after.Prepared other := by
  intro other member
  have prepared := books.prepared other (List.mem_cons_of_mem _ member)
  have stays := listed other member
  rcases PoolWork.not_busy (books.others busy other member) with ⟨nodes, rfl⟩ | ⟨nodes, rfl⟩
  · trivial
  · exact fun node inside back => prepared node inside (stays node inside back)

/-- A thread with nothing in hand ends and sets the state, where the service is
ready for it to run. -/
theorem Books.settled (books : Books m (work :: rest)) (busy : work.busy = true) (empty : work.holds = []) (enters : work.enters = false)
    {state : ManagerState} (passing : state = m.state ∧ work.stops = false ∨ state = .running ∧ m.Ready ∨ state = .error ∨
      state = .stopped ∧ m.masterIp = none ∧ m.nodes = []) : Books { m with state } rest where
  lists := by
    have lists := books.lists
    rw [List.map_cons, empty] at lists
    exact lists.without
  one := by
    rw [idle_countP (books.others busy)]
    exact Nat.zero_le 1
  plain := books.plain
  agents generic crowned _ := books.agents generic crowned fun other member => by
    rcases List.mem_cons.mp member with rfl | later
    · exact enters
    · exact idle_enters (books.others busy) other later
  bare := books.bare
  asleep asleep := by
    rcases passing with ⟨rfl, -⟩ | ⟨rfl, -⟩ | rfl | ⟨-, none⟩
    · exact books.asleep asleep
    · rcases asleep with asleep | asleep <;> cases asleep
    · rcases asleep with asleep | asleep <;> cases asleep
    · exact none
  serving serves := by
    rcases passing with ⟨rfl, none⟩ | ⟨rfl, ready⟩ | rfl | ⟨rfl, -⟩
    · refine books.serving ⟨serves.1, fun other member => ?_⟩
      rcases List.mem_cons.mp member with rfl | later
      · exact none
      · exact serves.2 other later
    · exact ready
    · rcases serves.1 with serves | serves <;> cases serves
    · rcases serves.1 with serves | serves <;> cases serves
  prepared := books.resting busy fun _ _ _ _ back => back

/-- A thread that has asked for nodes gets new ones. -/
theorem Books.arrive (books : Books m (work :: rest)) (busy : work.busy = true) (empty : work.holds = []) (next : PoolWork) (active : next.busy = true) (bare : next.holds = []) (stops : next.stops = false)
    {inHand : List ServiceNode} (fresh : Fresh m.applicationNodes inHand m.removals reply)
    (hands : ∀ other ∈ rest, other.hands ⊆ inHand) (headed : m.nodes ≠ [] ∨ m.masterIp = none)
    (awake : m.state ≠ .init ∧ m.state ≠ .stopped)
    (entering : m.service = .generic → m.masterIp ≠ none → next.enters = true)
    (serving : m.Serves rest → m.Ready)
    (ready : Prepared { m with applicationNodes := m.applicationNodes ++ reply, nodes := m.nodes ++ reply } next) :
    Books { m with applicationNodes := m.applicationNodes ++ reply, nodes := m.nodes ++ reply } (next :: rest) where
  lists := by
    have lists := books.lists
    rw [List.map_cons, empty] at lists
    rw [List.map_cons, bare]
    exact lists.arrive fresh headed
  one := by
    rw [List.countP_cons_of_pos active, idle_countP (books.others busy)]
  plain := books.plain
  agents generic crowned none := by
    rw [none next (List.mem_cons_self ..)] at entering
    cases entering generic crowned
  bare := books.bare
  asleep asleep := asleep.elim (absurd · awake.1) (absurd · awake.2)
  serving serves := by
    obtain ⟨some, crowned⟩ := serving ⟨serves.1, fun other member => serves.2 other (List.mem_cons_of_mem _ member)⟩
    exact ⟨List.append_ne_nil_of_left_ne_nil some _, crowned⟩
  prepared other member := by
    rcases List.mem_cons.mp member with rfl | later
    · exact ready
    · refine books.resting busy (fun other member node inside back => ?_) other later
      dsimp only at back
      rw [List.map_append] at back
      refine (List.mem_append.mp back).resolve_right fun new => ?_
      obtain ⟨arrived, known, same⟩ := List.mem_map.mp new
      exact fresh.unheld arrived known node (hands other member inside) same

theorem updateAgentsInfo_ids {nodes : List ServiceNode} {roles : RoleCounts} (enough : (getSninfo roles).length = nodes.length) :
    (updateAgentsInfo nodes roles).map AgentInfo.id = nodes.map ServiceNode.id := by
  rw [updateAgentsInfo, List.map_zipWith]
  generalize getSninfo roles = asked at enough
  induction nodes generalizing asked with
  | nil => rw [List.zipWith_nil_left, List.map_nil]
  | cons node rest ih =>
    cases asked with
    | nil => cases enough
    | cons role asked => rw [List.zipWith_cons_cons, List.map_cons, ih asked (Nat.succ.inj enough)]

/-- The first node of a service becomes its master. -/
theorem Books.started {nodes : List ServiceNode} (books : Books m (.onStart nodes :: rest)) :
    Books { m.onStart nodes with state := .running } rest := by
  obtain ⟨-, uncrowned, node, rfl, listed, free⟩ := books.prepared _ (List.mem_cons_self ..)
  have lists := books.lists.without
  have bare := books.bare uncrowned
  have one : rest.countP PoolWork.busy ≤ 1 := by
    rw [idle_countP (books.others rfl)]
    exact Nat.zero_le 1
  have some : m.nodes ≠ [] := by
    rw [listed]
    exact List.cons_ne_nil _ _
  cases kind : m.service with
  | generic =>
    simp only [PoolManager.onStart, kind]
    have entered : (updateAgentsInfo [node] PoolService.generic.getStartingNodes).map AgentInfo.id = [node].map ServiceNode.id :=
      updateAgentsInfo_ids rfl
    have all : kept m.removals [node] = [node] := List.filter_eq_self.mpr fun other member =>
      decide_eq_true (List.mem_singleton.mp member ▸ free)
    refine ⟨lists.crown ?_, one, nofun, fun _ _ _ => ?_, nofun, by simp, fun _ => ⟨some, nofun⟩,
      books.resting rfl fun _ _ _ _ back => back⟩
    · rintro _ ⟨⟩ head member
      rw [listed] at member
      cases member
      rfl
    · dsimp only
      rw [bare, List.nil_append, entered, listed, all]
  | helloworld =>
    simp only [PoolManager.onStart, kind]
    refine ⟨lists, one, fun _ => uncrowned, nofun, fun _ => bare, by simp, fun _ => ⟨some, nofun⟩,
      books.resting rfl fun _ _ _ _ back => back⟩

/-- New nodes are entered into `agents_info`. -/
theorem Books.entered {nodes : List ServiceNode} (books : Books m (.onAddNodes nodes :: rest)) :
    Books (m.onAddNodes nodes) (.configuring :: rest) := by
  obtain ⟨ready, agents⟩ := books.prepared _ (List.mem_cons_self ..)
  have lists := books.lists
  have one : (PoolWork.configuring :: rest).countP PoolWork.busy ≤ 1 := by
    rw [List.countP_cons_of_pos rfl, idle_countP (books.others rfl)]
  have prepared (after : PoolManager) (same : after.nodes = m.nodes) (ready : after.Ready) :
      ∀ other ∈ PoolWork.configuring :: rest, after.Prepared other := by
    intro other member
    rcases List.mem_cons.mp member with rfl | later
    · exact ready
    · exact books.resting rfl (fun _ _ _ _ back => same ▸ back) other later
  cases kind : m.service with
  | generic =>
    simp only [PoolManager.onAddNodes, kind]
    have still (_ : PoolService.generic = .generic) : m.masterIp ≠ none := ready.2 kind
    refine ⟨lists, one, by rintro ⟨⟩, fun _ _ _ => ?_, fun uncrowned => absurd uncrowned (still rfl), ?_, fun _ => ⟨ready.1, still⟩,
      prepared _ rfl ⟨ready.1, still⟩⟩
    · dsimp only
      rw [List.map_append, updateAgentsInfo_ids (by simp [getSninfo]), agents kind]
    · exact fun asleep => absurd (books.asleep asleep).2 ready.1
  | helloworld =>
    simp only [PoolManager.onAddNodes, kind]
    refine ⟨lists, one, fun _ => books.plain kind, ?_, books.bare, books.asleep, fun _ => ready, prepared _ rfl ready⟩
    exact fun generic => by cases kind.symm.trans generic

/-- The loop picks the last nodes of a service that has enough of them. -/
theorem popNodes_helloworld (left picked before : List ServiceNode) (agentsInfo : List AgentInfo) :
    popNodes .helloworld picked.length (left ++ picked.reverse) before agentsInfo = (some (left, before ++ picked), agentsInfo) := by
  induction picked generalizing before with
  | nil => simp [popNodes]
  | cons node rest ih =>
    rw [List.length_cons, List.reverse_cons, ← List.append_assoc]
    unfold popNodes
    simp only [List.getLast?_concat, List.dropLast_concat]
    rw [ih, List.append_assoc]
    rfl

theorem popNodes_generic (left picked before : List ServiceNode) (first last : List AgentInfo) (same : last.length = picked.length) :
    popNodes .generic picked.length (left ++ picked.reverse) before (first ++ last.reverse) = (some (left, before ++ picked), first) := by
  induction picked generalizing before last with
  | nil =>
    rw [List.length_nil, List.length_eq_zero_iff] at same
    simp [popNodes, same]
  | cons node rest ih =>
    cases last with
    | nil => cases same
    | cons info last =>
      rw [List.length_cons, List.reverse_cons, List.reverse_cons, ← List.append_assoc, ← List.append_assoc]
      unfold popNodes
      simp only [List.getLast?_concat, List.dropLast_concat]
      rw [if_neg (List.append_ne_nil_of_right_ne_nil _ (List.cons_ne_nil _ _)), ih _ _ (Nat.succ.inj same), List.append_assoc]
      rfl

/-- What is left of `agents_info` is about the nodes that are left. -/
theorem agents_left {left picked : List ServiceNode} {agentsInfo : List AgentInfo}
    (same : agentsInfo.map AgentInfo.id = (left ++ picked.reverse).map ServiceNode.id) :
    ∃ first last : List AgentInfo, agentsInfo = first ++ last.reverse ∧ last.length = picked.length ∧
      first.map AgentInfo.id = left.map ServiceNode.id := by
  rw [List.map_append] at same
  obtain ⟨first, last, rfl, own, others⟩ := List.map_eq_append_iff.mp same
  refine ⟨first, last.reverse, by rw [List.reverse_reverse], ?_, own⟩
  have lengths := congrArg List.length others
  rw [List.length_map, List.length_map, List.length_reverse] at lengths
  rw [List.length_reverse, lengths]

/-- A removal picks its nodes. -/
theorem Books.picked {nodeRoles : RoleCounts} (books : Books m (.removing nodeRoles :: rest)) :
    ∃ picked agentsInfo, (∀ position, m.onRemoveNodes position (total nodeRoles).toNat =
        { m.goesOn position (.notifying picked) with agentsInfo, removals := ⟨picked, m.masterIp⟩ :: m.removals }) ∧
      Books { m with agentsInfo, removals := ⟨picked, m.masterIp⟩ :: m.removals } (.notifying picked :: rest) := by
  obtain ⟨ready, left, picked, listed, some, count, free⟩ := books.prepared _ (List.mem_cons_self ..)
  have lists := books.lists.without
  rw [listed] at lists
  have prepared (after : PoolManager) (same : after.nodes = m.nodes) (ready : after.Ready) :
      ∀ other ∈ PoolWork.notifying picked :: rest, after.Prepared other := by
    intro other member
    rcases List.mem_cons.mp member with rfl | later
    · exact ready
    · exact books.resting rfl (fun _ _ _ _ back => same ▸ back) other later
  have one : (PoolWork.notifying picked :: rest).countP PoolWork.busy ≤ 1 := by
    rw [List.countP_cons_of_pos rfl, idle_countP (books.others rfl)]
  have chosen : Lists m.applicationNodes m.nodes (⟨picked, m.masterIp⟩ :: m.removals) m.masterIp
      ((PoolWork.notifying picked :: rest).map PoolWork.holds) := by
    rw [listed]
    exact lists.pick some free
  cases kind : m.service with
  | generic =>
    have known := books.agents kind (ready.2 kind) fun work member => by
      rcases List.mem_cons.mp member with rfl | later
      · rfl
      · exact idle_enters (books.others rfl) work later
    rw [listed, kept_free free] at known
    obtain ⟨first, last, same, length, own⟩ := agents_left known
    refine ⟨picked, first, fun position => ?_, ?_⟩
    · rw [PoolManager.onRemoveNodes, kind, listed, same, ← count, popNodes_generic _ _ _ _ _ length]
      simp only [some, if_false, List.nil_append]
    · have crowned (_ : PoolService.generic = .generic) : m.masterIp ≠ none := ready.2 kind
      refine ⟨chosen, one, nofun, fun _ _ _ => ?_, fun none => absurd none (crowned rfl), books.asleep, fun _ => ⟨ready.1, crowned⟩,
        prepared _ rfl ⟨ready.1, crowned⟩⟩
      dsimp only
      rw [listed, kept_picked lists.ids, own]
  | helloworld =>
    refine ⟨picked, m.agentsInfo, fun position => ?_, ?_⟩
    · rw [PoolManager.onRemoveNodes, kind, listed, ← count, popNodes_helloworld]
      simp only [some, if_false, List.nil_append]
    · exact ⟨chosen, one, fun _ => books.plain kind, nofun, books.bare, books.asleep, fun _ => ⟨ready.1, nofun⟩,
        prepared _ rfl ⟨ready.1, nofun⟩⟩

/-- The others are notified, and the nodes can be taken out of the lists. -/
theorem Books.notified {picked : List ServiceNode} (books : Books m (.notifying picked :: rest)) :
    Books { m with state := .running } (.dropping picked :: rest) where
  lists := books.lists
  one := by
    rw [List.countP_cons_of_neg (by exact Bool.false_ne_true), idle_countP (books.others rfl)]
    exact Nat.zero_le 1
  plain := books.plain
  agents generic crowned _ := books.agents generic crowned fun work member => by
    rcases List.mem_cons.mp member with rfl | later
    · rfl
    · exact idle_enters (books.others rfl) work later
  bare := books.bare
  asleep := by simp
  serving _ := books.prepared _ (List.mem_cons_self ..)
  prepared other member := by
    rcases List.mem_cons.mp member with rfl | later
    · trivial
    · exact books.resting rfl (fun _ _ _ _ back => by exact back) other later

/-- Nothing a thread relies on is lost with a node that was picked. -/
theorem Prepared.drop {node : ServiceNode} (prepared : m.Prepared work) (applicationNodes : List ServiceNode)
    (first : ∀ node ∈ m.nodes.head?, ¬Chosen m.removals node) (chosen : Chosen m.removals node) :
    Prepared { m with applicationNodes, nodes := m.nodes.filter fun other => other.id ≠ node.id } work := by
  have head := head?_dropped first chosen
  have ready (ready : m.Ready) : Ready { m with applicationNodes, nodes := m.nodes.filter fun other => other.id ≠ node.id } := by
    refine ⟨fun none => ready.1 ?_, ready.2⟩
    dsimp only at none
    rw [none] at head
    exact List.head?_eq_none_iff.mp head.symm
  have stays {other : ServiceNode} (free : ¬Chosen m.removals other) : other.id ≠ node.id :=
    fun same => free (chosen_congr same.symm chosen)
  cases work with
  | starting =>
    obtain ⟨passing, uncrowned, none⟩ := prepared
    exact ⟨passing, uncrowned, by rw [none]; rfl⟩
  | onStart nodes =>
    obtain ⟨passing, uncrowned, own, rfl, listed, free⟩ := prepared
    refine ⟨passing, uncrowned, own, rfl, ?_, free⟩
    rw [listed]
    exact List.filter_eq_self.mpr fun other member => decide_eq_true (List.mem_singleton.mp member ▸ stays free)
  | adding | configuring | notifying | adapting => exact ready prepared
  | onAddNodes nodes =>
    refine ⟨ready prepared.1, fun generic => ?_⟩
    dsimp only
    rw [kept_dropped chosen]
    exact prepared.2 generic
  | removing nodeRoles =>
    obtain ⟨was, left, picked, listed, some, count, free⟩ := prepared
    refine ⟨ready was, left.filter fun other => other.id ≠ node.id, picked, ?_, fun none => ?_, count, free⟩
    · dsimp only
      rw [listed, List.filter_append]
      congr 1
      exact List.filter_eq_self.mpr fun other member => decide_eq_true (stays (free other (List.mem_reverse.mp member)))
    · obtain ⟨own, others, rfl⟩ := List.exists_cons_of_ne_nil some
      rw [listed] at first
      exact List.filter_eq_nil_iff.mp none own (List.mem_cons_self ..) (decide_eq_true (stays (first own rfl)))
  | stopped => exact prepared
  | releasing nodes =>
    exact fun other member listed => prepared other member ((List.filter_sublist.map _).subset listed)
  | dropping | stopping => trivial

/-- A thread that only takes nodes out of lists ends. -/
theorem Books.over (books : Books m (work :: rest)) (idle : work.busy = false) (applicationNodes : List ServiceNode)
    (lists : Lists applicationNodes m.nodes m.removals m.masterIp (rest.map PoolWork.holds)) : Books { m with applicationNodes } rest where
  lists := lists
  one := ((List.sublist_cons_self work rest).countP_le).trans books.one
  plain := books.plain
  agents generic crowned enters := books.agents generic crowned fun other member => by
    rcases List.mem_cons.mp member with rfl | later
    · exact idle_enters (by simpa using idle) other (List.mem_singleton_self _)
    · exact enters other later
  bare := books.bare
  asleep := books.asleep
  serving serves := books.serving ⟨serves.1, fun other member => by
    rcases List.mem_cons.mp member with rfl | later
    · exact idle_stops (by simpa using idle) other (List.mem_singleton_self _)
    · exact serves.2 other later⟩
  prepared other member := by
    have prepared := books.prepared other (List.mem_cons_of_mem _ member)
    cases other <;> exact prepared

/-- What a removal that takes a node out of the lists comes to: it goes on, or
finds that the service has been stopped and ends. -/
theorem Books.dropped {node : ServiceNode} {nodes : List ServiceNode} (books : Books m (.dropping (node :: nodes) :: rest)) :
    (∃ applicationNodes, (∀ position reply agents, m.carryOut position reply agents (.dropping (node :: nodes)) =
        { m.ended position with applicationNodes }) ∧ Books { m with applicationNodes } rest) ∨
      ∃ applicationNodes left, (∀ position reply agents, m.carryOut position reply agents (.dropping (node :: nodes)) =
        { m.goesOn position (.dropping nodes) with applicationNodes, nodes := left }) ∧
          Books { m with applicationNodes, nodes := left } (.dropping nodes :: rest) := by
  have lists := books.lists
  rw [List.map_cons] at lists
  have chosen : Chosen m.removals node := lists.held node (List.mem_cons_self ..)
  rcases lists.whole _ (List.mem_cons_self ..) with all | none
  · have listed := all (List.mem_cons_self ..)
    have dropped := dropNode_filter lists.ids (List.mem_map_of_mem listed)
    have released := dropNode_filter lists.distinct (List.mem_map_of_mem (lists.sub listed))
    refine Or.inr ⟨m.applicationNodes.filter fun other => other.id ≠ node.id, m.nodes.filter fun other => other.id ≠ node.id,
      fun position reply agents => ?_, ?_⟩
    · simp only [PoolManager.carryOut, dropped, released]
    · have prepared (other : PoolWork) (member : other ∈ rest) := (books.prepared other (List.mem_cons_of_mem _ member)).drop
        (m.applicationNodes.filter fun other => other.id ≠ node.id) lists.first chosen
      exact {
        lists := lists.drop listed
        one := books.one
        plain := books.plain
        agents := fun generic crowned enters => by
          rw [kept_dropped chosen]
          exact books.agents generic crowned fun other member => by
            rcases List.mem_cons.mp member with rfl | later
            · rfl
            · exact enters other (List.mem_cons_of_mem _ later)
        bare := books.bare
        asleep := fun asleep => by
          obtain ⟨uncrowned, empty⟩ := books.asleep asleep
          rw [empty] at listed
          cases listed
        serving := fun serves => by
          obtain ⟨some, crowned⟩ := books.serving ⟨serves.1, fun other member => by
            rcases List.mem_cons.mp member with rfl | later
            · rfl
            · exact serves.2 other (List.mem_cons_of_mem _ later)⟩
          refine ⟨fun none => some ?_, crowned⟩
          have head := head?_dropped lists.first chosen
          dsimp only at none
          rw [none] at head
          exact List.head?_eq_none_iff.mp head.symm
        prepared := fun other member => by
          rcases List.mem_cons.mp member with rfl | later
          · trivial
          · exact prepared other later }
  · left
    have absent := none node (List.mem_cons_self ..)
    by_cases known : node.id ∈ m.applicationNodes.map ServiceNode.id
    · refine ⟨m.applicationNodes.filter fun other => other.id ≠ node.id, fun position reply agents => ?_,
        books.over rfl _ ((lists.abandon none).release absent)⟩
      simp only [PoolManager.carryOut, dropNode_filter lists.distinct known, dropNode_none absent]
    · refine ⟨m.applicationNodes, fun position reply agents => ?_, books.over rfl _ (lists.abandon none)⟩
      simp only [PoolManager.carryOut, dropNode_none known]
      rfl

/-- The application loses the nodes of a service that has been stopped. -/
theorem Books.released {node : ServiceNode} {nodes : List ServiceNode} (books : Books m (.releasing (node :: nodes) :: rest)) :
    (∀ position reply agents, m.carryOut position reply agents (.releasing (node :: nodes)) = m.ended position) ∧ Books m rest ∨
      ∃ applicationNodes, (∀ position reply agents, m.carryOut position reply agents (.releasing (node :: nodes)) =
        { m.goesOn position (.releasing nodes) with applicationNodes }) ∧
          Books { m with applicationNodes } (.releasing nodes :: rest) := by
  have lists := books.lists
  have prepared := books.prepared _ (List.mem_cons_self ..)
  have absent := prepared node (List.mem_cons_self ..)
  by_cases known : node.id ∈ m.applicationNodes.map ServiceNode.id
  · refine Or.inr ⟨m.applicationNodes.filter fun other => other.id ≠ node.id, fun position reply agents => ?_, ?_⟩
    · simp only [PoolManager.carryOut, dropNode_filter lists.distinct known]
    · exact {
        lists := lists.release absent
        one := books.one
        plain := books.plain
        agents := fun generic crowned enters => books.agents generic crowned fun other member => by
          rcases List.mem_cons.mp member with rfl | later
          · rfl
          · exact enters other (List.mem_cons_of_mem _ later)
        bare := books.bare
        asleep := books.asleep
        serving := fun serves => books.serving ⟨serves.1, fun other member => by
          rcases List.mem_cons.mp member with rfl | later
          · rfl
          · exact serves.2 other (List.mem_cons_of_mem _ later)⟩
        prepared := fun other member => by
          rcases List.mem_cons.mp member with rfl | later
          · exact fun other inside => prepared other (List.mem_cons_of_mem _ inside)
          · have prepared := books.prepared other (List.mem_cons_of_mem _ later)
            cases other <;> exact prepared }
  · refine Or.inl ⟨fun position reply agents => ?_, books.over rfl m.applicationNodes lists.without⟩
    simp only [PoolManager.carryOut, dropNode_none known]

/-- A service that is stopped forgets who its nodes are. -/
theorem Books.halting (books : Books m (.stopping :: rest)) : Books m.onStop (.stopped m.nodes :: rest) := by
  have lists := books.lists
  have one : (PoolWork.stopped m.nodes :: rest).countP PoolWork.busy ≤ 1 := by
    rw [List.countP_cons_of_pos rfl, idle_countP (books.others rfl)]
  have stops (serves : ∀ work ∈ PoolWork.stopped m.nodes :: rest, work.stops = false) : False :=
    Bool.false_ne_true (serves _ (List.mem_cons_self ..)).symm
  have prepared (after : PoolManager) (same : after.nodes = m.nodes) (uncrowned : after.masterIp = none) :
      ∀ other ∈ PoolWork.stopped m.nodes :: rest, after.Prepared other := by
    intro other member
    rcases List.mem_cons.mp member with rfl | later
    · exact uncrowned
    · exact books.resting rfl (fun _ _ _ _ back => same ▸ back) other later
  cases kind : m.service with
  | generic =>
    simp only [PoolManager.onStop, kind]
    exact ⟨lists.crown nofun, one, nofun, fun _ crowned => absurd rfl crowned, fun _ => rfl,
      fun asleep => ⟨rfl, (books.asleep asleep).2⟩, fun serves => (stops serves.2).elim, prepared _ rfl rfl⟩
  | helloworld =>
    simp only [PoolManager.onStop, kind]
    have uncrowned := books.plain kind
    exact ⟨lists, one, fun _ => uncrowned, fun _ crowned => absurd uncrowned crowned, books.bare, books.asleep,
      fun serves => (stops serves.2).elim, prepared _ rfl uncrowned⟩

/-- It then has none. -/
theorem Books.halted {nodes : List ServiceNode} (books : Books m (.stopped nodes :: rest)) :
    Books { m with nodes := [], state := .stopped } (.releasing nodes :: rest) where
  lists := books.lists.clear
  one := by
    rw [List.countP_cons_of_neg (by exact Bool.false_ne_true), idle_countP (books.others rfl)]
    exact Nat.zero_le 1
  plain := books.plain
  agents _ crowned := absurd (books.prepared _ (List.mem_cons_self ..)) crowned
  bare := books.bare
  asleep _ := ⟨books.prepared _ (List.mem_cons_self ..), rfl⟩
  serving serves := by
    rcases serves.1 with serves | serves <;> cases serves
  prepared other member := by
    rcases List.mem_cons.mp member with rfl | later
    · exact fun _ _ => List.not_mem_nil
    · exact books.resting rfl (fun _ _ _ _ back => absurd back List.not_mem_nil) other later

theorem onStart_inFlight (inFlight : List PoolWork) (nodes : List ServiceNode) :
    { m with inFlight }.onStart nodes = { m.onStart nodes with inFlight } := by
  cases kind : m.service <;> simp only [PoolManager.onStart, kind]

theorem onAddNodes_inFlight (inFlight : List PoolWork) (nodes : List ServiceNode) :
    { m with inFlight }.onAddNodes nodes = { m.onAddNodes nodes with inFlight } := by
  cases kind : m.service <;> simp only [PoolManager.onAddNodes, kind]

theorem onStop_inFlight (inFlight : List PoolWork) : { m with inFlight }.onStop = { m.onStop with inFlight } := by
  cases kind : m.service <;> simp only [PoolManager.onStop, kind]

/-- What the next turn of a thread leaves of the books. -/
theorem Books.carryOut (books : Books m (work :: rest)) (flight : m.inFlight.eraseIdx position = rest)
    (bound : position < m.inFlight.length) (among : ∀ other ∈ rest, other ∈ m.inFlight) (supplied : m.Supplied reply work)
    (notified : m.Notified agents work) :
    Books (m.carryOut position reply agents work) (m.carryOut position reply agents work).inFlight := by
  have prepared := books.prepared work (List.mem_cons_self ..)
  have ends {m' : PoolManager} (ended : Books m' rest) : Books { m' with inFlight := m.inFlight.eraseIdx position }
      (m.inFlight.eraseIdx position) := ended.perm (.of_eq flight)
  have onward {m' : PoolManager} {next : PoolWork} (goes : Books m' (next :: rest)) :
      Books { m' with inFlight := m.inFlight.set position next } (m.inFlight.set position next) :=
    goes.perm (flight ▸ List.set_perm_cons_eraseIdx bound next)
  have hands : ∀ other ∈ rest, other.hands ⊆ m.inFlight.flatMap PoolWork.hands :=
    fun other member node inside => List.mem_flatMap.mpr ⟨other, among other member, inside⟩
  cases work with
  | starting =>
    obtain ⟨passing, uncrowned, none⟩ := prepared
    simp only [PoolManager.carryOut]
    split
    · exact ends (books.settled rfl rfl rfl (Or.inl ⟨rfl, rfl⟩))
    · rename_i some
      obtain ⟨delivered, fresh⟩ := supplied.resolve_left some
      have single : ∃ node, reply = [node] := by
        have length := delivered.1.length_eq
        rw [List.length_map] at length
        refine List.length_eq_one_iff.mp (length.trans ?_)
        cases m.service <;> rfl
      obtain ⟨node, rfl⟩ := single
      have asleep : m.state ≠ .init ∧ m.state ≠ .stopped := by
        rcases passing with state | state <;> simp [state]
      have arrived := books.arrive rfl rfl (.onStart [node]) rfl rfl rfl fresh hands (Or.inr uncrowned) asleep
        (fun _ crowned => absurd uncrowned crowned) (fun serves => by rcases passing with state | state <;> simp [Serves, state] at serves)
        ⟨passing, uncrowned, node, rfl, by rw [none, List.nil_append], fresh.unpicked node (List.mem_singleton_self _)⟩
      rw [none, List.nil_append] at arrived
      exact onward arrived
  | onStart nodes =>
    simp only [PoolManager.carryOut]
    split
    · rw [ended, onStart_inFlight]
      exact ends books.started
    · exact ends (books.settled rfl rfl rfl (Or.inr (Or.inr (Or.inl rfl))))
  | adding nodeRoles =>
    simp only [PoolManager.carryOut]
    split
    · exact ends (books.settled rfl rfl rfl (Or.inl ⟨rfl, rfl⟩))
    · rename_i some
      obtain ⟨-, fresh⟩ := supplied.resolve_left some
      have ready : m.Ready := prepared
      have awake : m.state ≠ .init ∧ m.state ≠ .stopped :=
        ⟨fun state => ready.1 (books.asleep (Or.inl state)).2, fun state => ready.1 (books.asleep (Or.inr state)).2⟩
      refine onward (books.arrive rfl rfl (.onAddNodes reply) rfl rfl rfl fresh hands (Or.inl ready.1) awake
        (fun _ _ => rfl) (fun _ => ready) ⟨⟨List.append_ne_nil_of_left_ne_nil ready.1 _, ready.2⟩, fun generic => ?_⟩)
      have known := books.agents generic (ready.2 generic) fun other member => by
        rcases List.mem_cons.mp member with rfl | later
        · rfl
        · exact idle_enters (books.others rfl) other later
      dsimp only
      rw [kept_arrived fresh, List.map_append, known]
  | onAddNodes nodes =>
    simp only [PoolManager.carryOut]
    rw [goesOn, onAddNodes_inFlight]
    exact onward books.entered
  | configuring =>
    have ready : m.Ready := prepared
    simp only [PoolManager.carryOut]
    split
    · exact ends (books.settled rfl rfl rfl (Or.inr (Or.inl ⟨rfl, ready⟩)))
    · exact ends (books.settled rfl rfl rfl (Or.inl ⟨rfl, rfl⟩))
    · exact ends (books.settled rfl rfl rfl (Or.inr (Or.inr (Or.inl rfl))))
  | removing nodeRoles =>
    obtain ⟨picked, agentsInfo, same, after⟩ := books.picked
    simp only [PoolManager.carryOut]
    rw [same position]
    exact onward after
  | notifying picked =>
    simp only [PoolManager.carryOut]
    split
    · rename_i generic
      cases notified generic
    · rename_i generic
      cases notified generic
    · exact onward books.notified
  | dropping nodes =>
    cases nodes with
    | nil => exact ends (books.over rfl m.applicationNodes books.lists.without)
    | cons node nodes =>
      rcases books.dropped with ⟨applicationNodes, same, after⟩ | ⟨applicationNodes, left, same, after⟩
      · rw [same]
        exact ends after
      · rw [same]
        exact onward after
  | stopping =>
    simp only [PoolManager.carryOut]
    split
    · rename_i asleep
      obtain ⟨uncrowned, none⟩ := books.asleep (Or.inl asleep)
      exact ends (books.settled rfl rfl rfl (Or.inr (Or.inr (Or.inr ⟨rfl, uncrowned, none⟩))))
    · rw [goesOn, onStop_inFlight]
      exact onward books.halting
  | stopped nodes => exact onward books.halted
  | releasing nodes =>
    cases nodes with
    | nil => exact ends (books.over rfl m.applicationNodes books.lists.without)
    | cons node nodes =>
      rcases books.released with ⟨same, after⟩ | ⟨applicationNodes, same, after⟩
      · rw [same]
        exact ends after
      · rw [same]
        exact onward after
  | adapting =>
    have ready : m.Ready := prepared
    simp only [PoolManager.carryOut]
    split
    · exact ends (books.settled rfl rfl rfl (Or.inr (Or.inl ⟨rfl, ready⟩)))
    · exact ends (books.settled rfl rfl rfl (Or.inr (Or.inr (Or.inl rfl))))
    · exact ends (books.settled rfl rfl rfl (Or.inl ⟨rfl, rfl⟩))

/-- An accepted request starts a thread beside others that have set the state. -/
theorem Books.launch (books : Books m m.inFlight) (idle : ∀ other ∈ m.inFlight, other.busy = false) {state : ManagerState}
    (empty : work.holds = []) (enters : work.enters = false)
    (passing : state ≠ .init ∧ state ≠ .stopped ∧ (state = .adapting → m.Ready) ∧ state ≠ .running ∨
      state = m.state ∧ work.stops = true)
    (ready : Prepared { m with state } work) : Books { m with state, inFlight := m.inFlight ++ [work] } (m.inFlight ++ [work]) := by
  have started : Books { m with state } (work :: m.inFlight) := {
    lists := by
      rw [List.map_cons, empty]
      exact books.lists.with
    one := by
      rw [List.countP_cons, idle_countP idle]
      split <;> omega
    plain := books.plain
    agents := fun generic crowned _ => books.agents generic crowned (idle_enters idle)
    bare := books.bare
    asleep := fun asleep => by
      rcases passing with ⟨init, stopped, -⟩ | ⟨rfl, -⟩
      · exact asleep.elim (absurd · init) (absurd · stopped)
      · exact books.asleep asleep
    serving := fun serves => by
      rcases passing with ⟨-, -, ready, other⟩ | ⟨-, stops⟩
      · exact ready (serves.1.resolve_left other)
      · rw [serves.2 work (List.mem_cons_self ..)] at stops
        cases stops
    prepared := fun other member => by
      rcases List.mem_cons.mp member with rfl | old
      · exact ready
      · have prepared := books.prepared other old
        rcases PoolWork.not_busy (idle other old) with ⟨nodes, rfl⟩ | ⟨nodes, rfl⟩ <;> exact prepared }
  exact started.perm (List.perm_append_singleton _ _)

theorem checkRemoveNodes_ok {nodeRoles : RoleCounts} (passed : m.checkRemoveNodes nodeRoles = .ok ()) :
    total nodeRoles < m.nodes.length := by
  unfold checkRemoveNodes at passed
  split at passed
  · cases passed
  · rename_i fewer
    exact Int.not_le.mp fewer

/-- What an accepted request leaves of the books. -/
theorem Books.accepted (books : Books m m.inFlight) {request : PoolRequest} {state : ManagerState}
    (answered : m.answer request = .ok (state, work)) (idle : ∀ other ∈ m.inFlight, other.busy = false) (spare : m.Spare work) :
    Books { m with state, inFlight := m.inFlight ++ [work] } (m.inFlight ++ [work]) := by
  have running (runs : m.state = .running) : m.Ready := books.serving ⟨Or.inl runs, idle_stops idle⟩
  cases request with
  | startService credit =>
    obtain ⟨_, -, accepted⟩ := bind_ok.mp answered
    obtain ⟨_, checked, accepted⟩ := bind_ok.mp accepted
    cases accepted
    have asleep : m.state = .init ∨ m.state = .stopped := by simpa using checkState_ok checked
    refine books.launch idle rfl rfl (Or.inl ?_) ⟨Or.inl rfl, books.asleep asleep⟩
    exact ⟨nofun, nofun, nofun, nofun⟩
  | stopService =>
    cases answered
    exact books.launch idle rfl rfl (Or.inl ⟨nofun, nofun, nofun, nofun⟩) trivial
  | removeService =>
    cases answered
    exact books.launch idle rfl rfl (Or.inr ⟨rfl, rfl⟩) trivial
  | addNodes nodeRoles credit =>
    obtain ⟨_, -, accepted⟩ := bind_ok.mp answered
    obtain ⟨_, -, accepted⟩ := bind_ok.mp accepted
    obtain ⟨_, checked, accepted⟩ := bind_ok.mp accepted
    cases accepted
    have ready := running (List.mem_singleton.mp (checkState_ok checked))
    exact books.launch idle rfl rfl (Or.inl ⟨nofun, nofun, fun _ => ready, nofun⟩) ready
  | removeNodes nodeRoles =>
    obtain ⟨counts, -, accepted⟩ := bind_ok.mp answered
    obtain ⟨_, checked, accepted⟩ := bind_ok.mp accepted
    obtain ⟨_, counted, accepted⟩ := bind_ok.mp accepted
    cases accepted
    have ready := running (List.mem_singleton.mp (checkState_ok checked))
    have some := List.length_pos_of_ne_nil ready.1
    have fewer := checkRemoveNodes_ok counted
    refine books.launch idle rfl rfl (Or.inl ⟨nofun, nofun, fun _ => ready, nofun⟩) ⟨ready, m.nodes.rdrop (total counts).toNat,
      (m.nodes.rtake (total counts).toNat).reverse, ?_, fun none => ?_, ?_, fun node member => spare node (List.mem_reverse.mp member)⟩
    · rw [List.reverse_reverse, List.rdrop, List.rtake, List.take_append_drop]
    · have length := congrArg List.length none
      rw [List.rdrop, List.length_take, List.length_nil] at length
      omega
    · rw [List.length_reverse, List.rtake, List.length_drop]
      omega
  | adapt =>
    obtain ⟨_, checked, accepted⟩ := bind_ok.mp answered
    cases accepted
    have ready := running (List.mem_singleton.mp (checkState_ok checked))
    exact books.launch idle rfl rfl (Or.inl ⟨nofun, nofun, fun _ => ready, nofun⟩) ready

theorem Books.step (books : Books m m.inFlight) (served : m.Served event) (spaced : m.Spaced event) (taken : Step m event after) :
    Books after after.inFlight := by
  unfold Step handle at taken
  cases event with
  | request request =>
    dsimp only at taken
    cases answered : m.answer request with
    | error =>
      rw [answered] at taken
      cases taken
      exact books
    | ok started =>
      obtain ⟨state, work⟩ := started
      rw [answered] at taken
      cases taken
      obtain ⟨idle, spare⟩ := spaced (state, work) (by rw [answered]; rfl)
      exact books.accepted answered idle spare
  | advance position reply agents =>
    obtain ⟨work, found, rfl⟩ := Option.map_eq_some_iff.mp taken
    obtain ⟨bound, rfl⟩ := List.getElem?_eq_some_iff.mp found
    have parted := List.getElem_cons_eraseIdx_perm bound
    exact (books.perm parted).carryOut rfl bound (fun other member => List.mem_of_mem_eraseIdx member) (served _ found)
      (spaced _ found)
  | scriptFails =>
    cases taken
    exact {
      lists := books.lists
      one := books.one
      plain := books.plain
      agents := books.agents
      bare := books.bare
      asleep := by simp
      serving := fun serves => by rcases serves.1 with serves | serves <;> cases serves
      prepared := fun work member => by
        have prepared := books.prepared work member
        cases work with
        | starting | onStart => exact ⟨Or.inr rfl, prepared.2⟩
        | adding | onAddNodes | configuring | removing | notifying | dropping | stopping | stopped | releasing | adapting =>
          exact prepared }

theorem created_books {service : PoolService} {applicationNodes : List ServiceNode}
    (distinct : (applicationNodes.map ServiceNode.id).Nodup) : Books (created service applicationNodes) [] where
  lists := ⟨List.nil_subset _, distinct, .nil, .nil, .nil, nofun, nofun, nofun, .nil, nofun, nofun, nofun⟩
  one := Nat.zero_le 1
  plain _ := rfl
  agents _ crowned := absurd rfl crowned
  bare _ := rfl
  asleep _ := ⟨rfl, rfl⟩
  serving serves := by rcases serves.1 with serves | serves <;> cases serves
  prepared := nofun

/-- Removals pick different nodes and never the last one or the master, as long
as each is accepted for nodes that no other has picked. -/
theorem removals_safe {service : PoolService} {applicationNodes : List ServiceNode}
    (distinct : (applicationNodes.map ServiceNode.id).Nodup) {events : List PoolEvent} {current : PoolManager}
    (run : Run (Guarded (fun m event => m.Served event ∧ m.Spaced event) Step) (created service applicationNodes) events current) :
    Safe current := by
  have books : Books current current.inFlight :=
    @Run.guarded_invariant _ _ _ _ _ _ _ (fun m => Books m m.inFlight) run (created_books distinct)
      fun books allowed taken => books.step allowed.1 allowed.2 taken
  exact books.safe

/-- A node for runs on fixed inputs. -/
def poolNode (vmid role : String) : ServiceNode := ⟨vmid, "10.0.0." ++ vmid, "", "iaas", 100, role, []⟩

instance (applicationNodes inHand : List ServiceNode) (removals : List Removal) (reply : List ServiceNode) :
    Decidable (Fresh applicationNodes inHand removals reply) :=
  decidable_of_iff ((reply.map ServiceNode.id).Nodup ∧ (reply.map ServiceNode.ip).Nodup ∧
      (∀ node ∈ reply, ∀ known ∈ applicationNodes, node.id ≠ known.id ∧ node.ip ≠ known.ip) ∧
      (∀ node ∈ reply, ∀ known ∈ inHand, node.id ≠ known.id) ∧ ∀ node ∈ reply, ¬Chosen removals node)
    ⟨fun ⟨ids, ips, unknown, unheld, unpicked⟩ => ⟨ids, ips, unknown, unheld, unpicked⟩,
      fun fresh => ⟨fresh.ids, fresh.ips, fresh.unknown, fresh.unheld, fresh.unpicked⟩⟩

instance (m : PoolManager) (reply : List ServiceNode) : (work : PoolWork) → Decidable (m.Supplied reply work)
  | .starting | .adding _ => inferInstanceAs (Decidable (_ ∨ _))
  | .onStart _ | .onAddNodes _ | .configuring | .removing _ | .notifying _ | .dropping _ | .stopping | .stopped _ | .releasing _
  | .adapting => .isTrue trivial

instance (m : PoolManager) : (event : PoolEvent) → Decidable (m.Served event)
  | .advance position reply _ => inferInstanceAs (Decidable (∀ work ∈ m.inFlight[position]?, m.Supplied reply work))
  | .request _ | .scriptFails => .isTrue trivial

instance (m : PoolManager) : (work : PoolWork) → Decidable (m.Spare work)
  | .removing nodeRoles =>
    inferInstanceAs (Decidable (∀ node ∈ m.nodes.rtake (total nodeRoles).toNat, ¬Chosen m.removals node))
  | .starting | .onStart _ | .adding _ | .onAddNodes _ | .configuring | .notifying _ | .dropping _ | .stopping | .stopped _
  | .releasing _ | .adapting => .isTrue trivial

instance (m : PoolManager) (agents : AgentsReply) : (work : PoolWork) → Decidable (m.Notified agents work)
  | .notifying _ => inferInstanceAs (Decidable (m.service = .generic → agents = .succeed))
  | .starting | .onStart _ | .adding _ | .onAddNodes _ | .configuring | .removing _ | .dropping _ | .stopping | .stopped _
  | .releasing _ | .adapting => .isTrue trivial

instance (m : PoolManager) : (event : PoolEvent) → Decidable (m.Spaced event)
  | .request request => inferInstanceAs (Decidable (∀ started ∈ (m.answer request).toOption,
      (∀ work ∈ m.inFlight, work.busy = false) ∧ m.Spare started.2))
  | .advance position _ agents => inferInstanceAs (Decidable (∀ work ∈ m.inFlight[position]?, m.Notified agents work))
  | .scriptFails => .isTrue trivial

/-- A service grows and shrinks, and grows and shrinks again before the first
node it gives up is taken out of the lists. -/
def shrinkingTwice : List PoolEvent :=
  [.request (.startService true), .advance 0 [poolNode "1" "master"] .succeed, .advance 0 [] .succeed,
    .request (.addNodes ⟨[("count", 2)], by decide⟩ true), .advance 0 [poolNode "2" "node", poolNode "3" "node"] .succeed,
    .advance 0 [] .succeed, .advance 0 [] .succeed, .request (.removeNodes ⟨[("node", 1)], by decide⟩), .advance 0 [] .succeed,
    .advance 0 [] .succeed, .request (.addNodes ⟨[("node", 1)], by decide⟩ true), .advance 1 [poolNode "4" "node"] .succeed,
    .advance 1 [] .succeed, .advance 1 [] .succeed, .request (.removeNodes ⟨[("node", 1)], by decide⟩), .advance 1 [] .succeed,
    .advance 1 [] .succeed, .advance 0 [] .succeed, .advance 0 [] .succeed, .advance 0 [] .succeed, .advance 0 [] .succeed]

theorem shrinkingTwice_safe : ∃ current,
    Run (Guarded (fun m event => m.Served event ∧ m.Spaced event) Step) (created .generic []) shrinkingTwice current ∧ Safe current := by
  obtain ⟨current, played⟩ := Option.isSome_iff_exists.mp
    (show (play (fun m event => if m.Served event ∧ m.Spaced event then handle m event else none) (created .generic [])
      shrinkingTwice).isSome = true by decide +kernel)
  have run := Run.play_guarded played
  exact ⟨current, run, @removals_safe .generic [] .nil _ _ run⟩

/-- A node is removed, and another one before the first is out of the list. -/
def removedTwice : List PoolEvent :=
  [.request (.startService true), .advance 0 [poolNode "1" "master"] .succeed, .advance 0 [] .succeed,
    .request (.addNodes ⟨[("node", 1)], by decide⟩ true), .advance 0 [poolNode "2" "node"] .succeed, .advance 0 [] .succeed,
    .advance 0 [] .succeed, .request (.removeNodes ⟨[("node", 1)], by decide⟩), .advance 0 [] .succeed, .advance 0 [] .succeed,
    .request (.removeNodes ⟨[("node", 1)], by decide⟩), .advance 0 [] .succeed, .advance 1 [] .succeed]

/-- The second removal picks the master, which is all that is left. -/
theorem removedTwice_unsafe : ¬∀ (service : PoolService) (applicationNodes : List ServiceNode) (events : List PoolEvent)
    (current : PoolManager), (applicationNodes.map ServiceNode.id).Nodup →
      Run (Guarded Served Step) (created service applicationNodes) events current → Safe current := by
  intro safe
  have picked : (play (fun m event => if m.Served event then handle m event else none) (created .generic []) removedTwice).map
      (fun m => decide (∃ removal ∈ m.removals, ∃ node ∈ removal.picked, removal.masterIp = some node.ip)) = some true := by
    decide +kernel
  obtain ⟨current, played, picked⟩ := Option.map_eq_some_iff.mp picked
  obtain ⟨removal, member, node, inside, master⟩ := of_decide_eq_true picked
  exact (safe .generic [] removedTwice current .nil (Run.play_guarded played)).master removal member node inside master

end PoolManager

end ConPaaS
