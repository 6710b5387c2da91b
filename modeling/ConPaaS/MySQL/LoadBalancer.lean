import ConPaaS.MySQL.Service
import Mathlib.Data.Finset.Lattice.Lemmas

namespace ConPaaS

open Keyed Transition Fallible BaseManager Parties

namespace MySQLConfiguration

variable {config after : MySQLConfiguration} {agents agents' : MySQLAgents} {list rmRegNodes rmGlbNodes : List ServiceNode}

/-- Every load balancer has the addresses of the nodes with a database as its
hosts. -/
structure Follows (config : MySQLConfiguration) (agents : MySQLAgents) : Prop where
  ids : (config.nodes.map ServiceNode.id).Nodup
  ips : (config.nodes.map ServiceNode.ip).Nodup
  hosts : ∀ glb ∈ config.getGlbNodes, (agents glb.ip).glbd = some (config.getNodes.map address).toFinset

theorem address_ip {node other : ServiceNode} (same : address node = address other) : node.ip = other.ip := by
  have texts := congrArg String.toList same
  simp only [address, String.toList_append, List.append_assoc] at texts
  exact String.toList_inj.mp (List.append_cancel_right texts)

theorem map_address_recordOf (list : List ServiceNode) : (list.map recordOf).map address = list.map address := by
  rw [List.map_map]
  rfl

/-- Where all ids differ, no node is recorded twice. -/
theorem apart_of_ids (ids : (config.nodes.map ServiceNode.id).Nodup) {node : ServiceNode} (regular : node ∈ config.getNodes) :
    node ∉ config.getGlbNodes := by
  rw [nodes, List.map_append] at ids
  intro balancer
  exact (List.nodup_append.mp ids).2.2 _ (List.mem_map_of_mem regular) _ (List.mem_map_of_mem balancer) rfl

theorem glb_ips (ips : (config.nodes.map ServiceNode.ip).Nodup) : (config.getGlbNodes.map ServiceNode.ip).Nodup := by
  rw [nodes, List.map_append] at ips
  exact (List.nodup_append.mp ips).2.1

/-- The addresses of new nodes are not those of nodes of the service. -/
theorem Fresh.other (fresh : config.Fresh list) {node : ServiceNode} (member : node ∈ config.nodes) :
    node.ip ∉ list.map ServiceNode.ip := by
  have ips := fresh.ips
  rw [List.map_append] at ips
  intro inside
  exact (List.nodup_append.mp ips).2.2 _ inside _ (List.mem_map_of_mem member) rfl

theorem Follows.entered (fresh : config.Fresh list) (perm : after.nodes.Perm (list.map recordOf ++ config.nodes))
    (hosts : ∀ glb ∈ after.getGlbNodes, (agents glb.ip).glbd = some (after.getNodes.map address).toFinset) :
    after.Follows agents where
  ids := by
    refine (perm.map ServiceNode.id).nodup_iff.mpr ?_
    rw [List.map_append, List.map_map]
    exact List.map_append ▸ fresh.ids
  ips := by
    refine (perm.map ServiceNode.ip).nodup_iff.mpr ?_
    rw [List.map_append, List.map_map]
    exact List.map_append ▸ fresh.ips
  hosts := hosts

/-- New nodes with a database are added at every load balancer. -/
theorem Follows.startMysqld (follows : config.Follows agents) (fresh : config.Fresh list)
    (started : config.startMysqld agents list = some agents') : (config.addMySQLServiceNodes list).Follows agents' := by
  obtain ⟨middle, starting, added⟩ := Option.bind_eq_some_iff.mp started
  refine .entered fresh (addMySQLServiceNodes_nodes fresh.ids) fun glb member => ?_
  have untouched := callAll_other starting (fresh.other (List.mem_append_right _ member))
  have served := callAll_called added (glb_ips follows.ips) member
  rw [MySQLAgent.addGlbdNodes, untouched, follows.hosts glb member] at served
  simp only [Option.some.injEq] at served
  rw [← served]
  simp only [Option.some.injEq]
  rw [List.toFinset_eq_of_perm _ _ ((addMySQLServiceNodes_perm fresh.ids).map address), List.map_append, map_address_recordOf,
    List.toFinset_append, Finset.union_comm]

/-- New load balancers start with all nodes with a database. -/
theorem Follows.startGlbd (follows : config.Follows agents) (fresh : config.Fresh list)
    (started : config.startGlbd agents list = some agents') : (config.addGLBServiceNodes list).Follows agents' := by
  refine .entered fresh (addGLBServiceNodes_nodes fresh.ids) fun glb member => ?_
  rcases List.mem_append.mp ((addGLBServiceNodes_perm fresh.ids).mem_iff.mp member) with new | old
  · obtain ⟨node, inside, rfl⟩ := List.mem_map.mp new
    have ips := fresh.ips
    rw [List.map_append] at ips
    have served := callAll_called started (List.nodup_append.mp ips).1 inside
    unfold MySQLAgent.startGlbd at served
    split at served
    · cases served
    · exact congrArg MySQLAgent.glbd (Option.some.inj served).symm
  · rw [callAll_other started (fresh.other (List.mem_append_right _ old)), follows.hosts glb old]
    rfl

/-- Among nodes of their own, some are nodes of their own. -/
theorem Fresh.part {part : List ServiceNode} (fresh : config.Fresh list) (among : part.Subperm list) : config.Fresh part := by
  obtain ⟨same, perm, sub⟩ := among
  have joined := perm.append_right config.nodes
  have inside := sub.append_right config.nodes
  exact ⟨(joined.map _).nodup_iff.mp (fresh.ids.sublist (inside.map _)),
    (joined.map _).nodup_iff.mp (fresh.ips.sublist (inside.map _))⟩

/-- They are also beside others of them that have been entered. -/
theorem Fresh.later {first second : List ServiceNode} (fresh : config.Fresh (second ++ first))
    (perm : after.nodes.Perm (first.map recordOf ++ config.nodes)) : after.Fresh second := by
  obtain ⟨ids, ips⟩ := fresh
  rw [List.append_assoc, List.map_append, List.map_append] at ids ips
  have joined := perm.append_left second
  constructor
  · refine (joined.map ServiceNode.id).nodup_iff.mpr ?_
    rw [List.map_append, List.map_append, List.map_map]
    exact ids
  · refine (joined.map ServiceNode.ip).nodup_iff.mpr ?_
    rw [List.map_append, List.map_append, List.map_map]
    exact ips

/-- The hook for new nodes enters those with a database before it starts load
balancers. -/
theorem Follows.onAddNodes (follows : config.Follows agents) (fresh : config.Fresh list)
    (hook : config.onAddNodes agents list = some (after, agents')) : after.Follows agents' := by
  obtain ⟨⟨entered, middle⟩, first, second⟩ := Option.bind_eq_some_iff.mp hook
  have both := fresh.part (roles_subperm list)
  have regular := both.part (List.sublist_append_right _ _).subperm
  have halfway : entered.Follows middle ∧ entered.Fresh (list.filter fun node => node.role = roleGlb) := by
    unfold onAddMysqlNodes at first
    split at first
    · cases first
      exact ⟨follows, both.part (List.sublist_append_left _ _).subperm⟩
    · obtain ⟨started, starting, same⟩ := Option.map_eq_some_iff.mp first
      cases same
      exact ⟨follows.startMysqld regular starting, both.later (addMySQLServiceNodes_nodes regular.ids)⟩
  obtain ⟨follows, balancers⟩ := halfway
  dsimp only at second
  unfold onAddGlbNodes at second
  split at second
  · cases second
    exact follows
  · obtain ⟨started, starting, same⟩ := Option.map_eq_some_iff.mp second
    cases same
    exact follows.startGlbd balancers starting

/-- Nodes that are removed are no hosts any more, and no load balancer that
stays is stopped. -/
theorem Follows.doRemoveNodes (follows : config.Follows agents) (regular : rmRegNodes ⊆ config.getNodes)
    (balancers : rmGlbNodes ⊆ config.getGlbNodes)
    (removed : config.doRemoveNodes agents rmRegNodes rmGlbNodes = some (after, agents')) : after.Follows agents' := by
  obtain ⟨middle, relieved, rest⟩ := Option.bind_eq_some_iff.mp removed
  obtain ⟨_, stopped, same⟩ := Option.map_eq_some_iff.mp rest
  cases same
  obtain ⟨keptNodes, keptGlbNodes⟩ := removeNodes_rows follows.ids (rmRegNodes ++ rmGlbNodes)
  have known : ∀ node ∈ rmRegNodes ++ rmGlbNodes, node ∈ config.nodes := fun node member =>
    (List.mem_append.mp member).elim (fun inside => List.mem_append_left _ (regular inside))
      fun inside => List.mem_append_right _ (balancers inside)
  have fewer : (config.removeNodes (rmRegNodes ++ rmGlbNodes)).nodes.Sublist config.nodes := by
    rw [nodes, keptNodes, keptGlbNodes]
    exact List.filter_sublist.append List.filter_sublist
  refine ⟨follows.ids.sublist (fewer.map _), follows.ips.sublist (fewer.map _), fun glb member => ?_⟩
  rw [keptGlbNodes, List.mem_filter, decide_eq_true_eq] at member
  obtain ⟨member, stays⟩ := member
  have running : glb.ip ∉ (rmRegNodes ++ rmGlbNodes).map ServiceNode.ip := by
    intro inside
    obtain ⟨node, gone, same⟩ := List.mem_map.mp inside
    have one : node = glb := List.inj_on_of_nodup_map follows.ips (known node gone) (List.mem_append_right _ member) same
    exact stays (List.mem_map.mpr ⟨node, gone, one ▸ rfl⟩)
  have served := callAll_called relieved (glb_ips follows.ips) member
  rw [MySQLAgent.removeGlbdNodes, follows.hosts glb member] at served
  simp only [Option.some.injEq] at served
  rw [callAll_other stopped running, ← served, keptNodes]
  simp only [Option.some.injEq]
  ext host
  simp only [Finset.mem_sdiff, List.mem_toFinset, List.mem_map, List.mem_filter, decide_eq_true_eq, not_exists, not_and]
  constructor
  · rintro ⟨⟨node, inside, rfl⟩, kept⟩
    refine ⟨node, ⟨inside, fun other gone same => kept node ?_ rfl⟩, rfl⟩
    have one : other = node := List.inj_on_of_nodup_map follows.ids (known other gone) (List.mem_append_left _ inside) same
    rcases List.mem_append.mp gone with left | right
    · exact one ▸ left
    · exact absurd (balancers (one ▸ right)) (apart_of_ids follows.ids inside)
  · rintro ⟨node, ⟨inside, kept⟩, rfl⟩
    refine ⟨⟨node, inside, rfl⟩, fun other gone same => ?_⟩
    have one : other = node := List.inj_on_of_nodup_map follows.ips (known other (List.mem_append_left _ gone))
      (List.mem_append_left _ inside) (address_ip same)
    exact kept other (List.mem_append_left _ gone) (congrArg ServiceNode.id one)

/-- It does not matter in which order the dictionaries list their values. -/
theorem Follows.rehash (follows : config.Follows agents) (regular : after.getNodes.Perm config.getNodes)
    (balancers : after.getGlbNodes.Perm config.getGlbNodes) : after.Follows agents where
  ids := ((regular.append balancers).map _).nodup_iff.mpr follows.ids
  ips := ((regular.append balancers).map _).nodup_iff.mpr follows.ips
  hosts glb member := by
    rw [follows.hosts glb (balancers.mem_iff.mp member), List.toFinset_eq_of_perm _ _ (regular.map address)]

/-- Ids and addresses of new nodes are their own. -/
def Apart (config : MySQLConfiguration) (list : List ServiceNode) : Prop :=
  (list.map ServiceNode.id).Nodup ∧ (list.map ServiceNode.ip).Nodup ∧
    ∀ node ∈ list, ∀ known ∈ config.nodes, node.id ≠ known.id ∧ node.ip ≠ known.ip

instance (config : MySQLConfiguration) (list : List ServiceNode) : Decidable (config.Apart list) :=
  inferInstanceAs (Decidable (_ ∧ _ ∧ _))

theorem Follows.fresh (follows : config.Follows agents) (apart : config.Apart list) : config.Fresh list := by
  obtain ⟨ids, ips, others⟩ := apart
  constructor
  · rw [List.map_append]
    refine List.nodup_append.mpr ⟨ids, follows.ids, fun id new known old => ?_⟩
    obtain ⟨node, inside, rfl⟩ := List.mem_map.mp new
    obtain ⟨other, stored, rfl⟩ := List.mem_map.mp old
    exact (others node inside other stored).1
  · rw [List.map_append]
    refine List.nodup_append.mpr ⟨ips, follows.ips, fun ip new known old => ?_⟩
    obtain ⟨node, inside, rfl⟩ := List.mem_map.mp new
    obtain ⟨other, stored, rfl⟩ := List.mem_map.mp old
    exact (others node inside other stored).2

end MySQLConfiguration

namespace MySQLManager

open MySQLConfiguration

variable {m after : MySQLManager} {position : Nat} {reply : List ServiceNode} {work : MySQLWork} {event : MySQLEvent}

/-- Operations come one at a time, and the nodes the director replies with have
ids and addresses of their own. -/
def OneAtATime (m : MySQLManager) : MySQLEvent → Prop
  | .request _ => m.inFlight = []
  | .advance _ reply => m.config.Apart reply
  | .rehash _ => True

instance (m : MySQLManager) : (event : MySQLEvent) → Decidable (m.OneAtATime event)
  | .request _ => inferInstanceAs (Decidable (_ = _))
  | .advance _ _ => inferInstanceAs (Decidable (MySQLConfiguration.Apart _ _))
  | .rehash _ => .isTrue trivial

/-- What a thread relies on in the configuration. -/
def Ready (m : MySQLManager) : MySQLWork → Prop
  | .onStart nodes | .onAddNodes nodes => m.config.Fresh nodes
  | .removingSpecific rmRegNodes rmGlbNodes => rmRegNodes ⊆ m.config.getNodes ∧ rmGlbNodes ⊆ m.config.getGlbNodes
  | .starting | .adding _ | .removing _ | .dropping _ | .stopping | .stopped _ | .releasing _ => True

/-- The load balancers follow the configuration, and at most one thread is in
flight. -/
structure InTurn (m : MySQLManager) : Prop where
  follows : m.config.Follows m.agents
  single : m.inFlight = [] ∨ ∃ work, m.inFlight = [work] ∧ m.Ready work

theorem created_inTurn (applicationNodes : List ServiceNode) : (created applicationNodes).InTurn :=
  ⟨⟨.nil, .nil, nofun⟩, Or.inl rfl⟩

theorem specificNodes_ready {ip : String} {rmRegNodes rmGlbNodes : List ServiceNode} (follows : m.config.Follows m.agents)
    (picked : m.specificNodes ip = some (rmRegNodes, rmGlbNodes)) :
    m.Ready (.removingSpecific rmRegNodes rmGlbNodes) := by
  unfold specificNodes at picked
  split at picked
  · cases picked
  · rename_i target last
    obtain ⟨member, here⟩ := List.mem_filter.mp (List.mem_of_getLast? last)
    have here := of_decide_eq_true here
    split at picked
    · rename_i regular
      cases picked
      obtain ⟨node, inside, same⟩ := List.any_eq_true.mp regular
      have one : node = target := List.inj_on_of_nodup_map follows.ips (List.mem_append_left _ inside) member
        ((of_decide_eq_true same).trans here.symm)
      exact ⟨by simpa using one ▸ inside, List.nil_subset _⟩
    · rename_i balances
      cases picked
      rcases List.mem_append.mp member with regular | balancer
      · exact absurd (List.any_eq_true.mpr ⟨target, regular, decide_eq_true here⟩) balances
      · exact ⟨List.nil_subset _, by simpa using balancer⟩

/-- What an answer changes: nothing, the state only, or the state and a thread
that is ready for its work. -/
theorem InTurn.answer (inTurn : m.InTurn) (request : MySQLRequest) (idle : m.inFlight = []) : (m.answer request).1.InTurn := by
  have launched (state : ManagerState) (work : MySQLWork) (ready : m.Ready work) : (m.launch state work).InTurn :=
    ⟨inTurn.follows, Or.inr ⟨work, by simp [launch, idle], by cases work <;> exact ready⟩⟩
  have checked (result : Except String (ManagerState × MySQLWork)) (ready : ∀ state work, result = .ok (state, work) → m.Ready work) :
      (m.checked result).1.InTurn := by
    cases result with
    | error error => exact inTurn
    | ok started => exact launched started.1 started.2 (ready _ _ rfl)
  cases request with
  | startService credit =>
    refine checked _ fun state work accepted => ?_
    obtain ⟨_, -, accepted⟩ := bind_ok.mp accepted
    obtain ⟨_, -, accepted⟩ := bind_ok.mp accepted
    cases accepted
    trivial
  | stopService => exact checked _ fun state work accepted => by cases accepted; trivial
  | addNodes nodeRoles credit =>
    refine checked _ fun state work accepted => ?_
    obtain ⟨_, -, accepted⟩ := bind_ok.mp accepted
    obtain ⟨_, -, accepted⟩ := bind_ok.mp accepted
    obtain ⟨_, -, accepted⟩ := bind_ok.mp accepted
    cases accepted
    trivial
  | removeNodes nodeRoles =>
    refine checked _ fun state work accepted => ?_
    obtain ⟨_, -, accepted⟩ := bind_ok.mp accepted
    obtain ⟨_, -, accepted⟩ := bind_ok.mp accepted
    obtain ⟨_, -, accepted⟩ := bind_ok.mp accepted
    cases accepted
    trivial
  | removeSpecificNodes ip =>
    unfold MySQLManager.answer removeSpecificNodes
    dsimp only
    split
    · exact inTurn
    · split
      · exact ⟨inTurn.follows, Or.inl idle⟩
      · rename_i picked
        exact launched _ _ (specificNodes_ready inTurn.follows picked)

/-- One step of the only thread in flight. -/
theorem InTurn.carryOut (inTurn : m.InTurn) (apart : m.config.Apart reply) (alone : m.inFlight = [work]) (ready : m.Ready work)
    (step : m.carryOut 0 reply work = some after) : after.InTurn := by
  have cleared : m.inFlight.eraseIdx 0 = [] := by rw [alone]; rfl
  have replaced (next : MySQLWork) : m.inFlight.set 0 next = [next] := by rw [alone]; rfl
  have fresh := inTurn.follows.fresh apart
  have booted : m.config.Follows (m.booted reply) := ⟨inTurn.follows.ids, inTurn.follows.ips, fun glb member => by
    rw [MySQLManager.booted, if_neg (fresh.other (List.mem_append_right _ member)), inTurn.follows.hosts glb member]⟩
  cases work with
  | starting =>
    simp only [MySQLManager.carryOut] at step
    split at step
    · cases step
      exact ⟨inTurn.follows, Or.inl cleared⟩
    · cases step
      exact ⟨booted, Or.inr ⟨.onStart reply, replaced _, fresh⟩⟩
  | onStart nodes =>
    simp only [MySQLManager.carryOut] at step
    obtain ⟨config, agents, hook, rfl⟩ := hooked_some step
    obtain ⟨started, starting, same⟩ := Option.map_eq_some_iff.mp hook
    cases same
    exact ⟨inTurn.follows.startMysqld ready starting, Or.inl cleared⟩
  | adding nodeRoles =>
    simp only [MySQLManager.carryOut] at step
    split at step
    · cases step
      exact ⟨inTurn.follows, Or.inl cleared⟩
    · cases step
      exact ⟨booted, Or.inr ⟨.onAddNodes reply, replaced _, fresh⟩⟩
  | onAddNodes nodes =>
    simp only [MySQLManager.carryOut] at step
    obtain ⟨config, agents, hook, rfl⟩ := hooked_some step
    exact ⟨inTurn.follows.onAddNodes ready hook, Or.inl cleared⟩
  | removing nodeRoles =>
    simp only [MySQLManager.carryOut] at step
    obtain ⟨config, agents, hook, rfl⟩ := hooked_some step
    exact ⟨inTurn.follows.doRemoveNodes (List.take_subset _ _) (List.take_subset _ _) hook, Or.inr ⟨_, replaced _, trivial⟩⟩
  | removingSpecific rmRegNodes rmGlbNodes =>
    simp only [MySQLManager.carryOut] at step
    obtain ⟨config, agents, hook, rfl⟩ := hooked_some step
    exact ⟨inTurn.follows.doRemoveNodes ready.1 ready.2 hook, Or.inl cleared⟩
  | dropping nodes =>
    cases nodes with
    | nil =>
      cases step
      exact ⟨inTurn.follows, Or.inl cleared⟩
    | cons node rest =>
      simp only [MySQLManager.carryOut] at step
      split at step
      · cases step
        exact ⟨inTurn.follows, Or.inl cleared⟩
      · split at step
        · cases step
          exact ⟨inTurn.follows, Or.inl cleared⟩
        · cases step
          exact ⟨inTurn.follows, Or.inr ⟨.dropping rest, replaced _, trivial⟩⟩
  | stopping =>
    simp only [MySQLManager.carryOut] at step
    split at step
    · cases step
      exact ⟨inTurn.follows, Or.inl cleared⟩
    · obtain ⟨config, agents, hook, rfl⟩ := hooked_some step
      obtain ⟨_, -, same⟩ := Option.map_eq_some_iff.mp hook
      cases same
      exact ⟨⟨.nil, .nil, nofun⟩, Or.inr ⟨_, replaced _, trivial⟩⟩
  | stopped nodes =>
    cases step
    exact ⟨inTurn.follows, Or.inr ⟨_, replaced _, trivial⟩⟩
  | releasing nodes =>
    cases nodes with
    | nil =>
      cases step
      exact ⟨inTurn.follows, Or.inl cleared⟩
    | cons node rest =>
      simp only [MySQLManager.carryOut] at step
      split at step
      · cases step
        exact ⟨inTurn.follows, Or.inl cleared⟩
      · cases step
        exact ⟨inTurn.follows, Or.inr ⟨.releasing rest, replaced _, trivial⟩⟩

theorem InTurn.step (inTurn : m.InTurn) (orderly : m.OneAtATime event) (taken : Step m event after) : after.InTurn := by
  unfold Step handle at taken
  cases event with
  | request request =>
    cases taken
    exact inTurn.answer request orderly
  | advance position reply =>
    obtain ⟨work, found, step⟩ := Option.bind_eq_some_iff.mp taken
    rcases inTurn.single with idle | ⟨only, alone, ready⟩
    · rw [idle] at found
      cases found
    · rw [alone] at found
      obtain ⟨rfl, rfl⟩ : position = 0 ∧ only = work := by
        cases position with
        | zero => exact ⟨rfl, Option.some.inj found⟩
        | succ n => cases found
      exact inTurn.carryOut orderly alone ready step
  | rehash config =>
    dsimp only at taken
    split at taken
    · rename_i permuted
      obtain ⟨regular, balancers⟩ := Bool.and_eq_true_iff.mp permuted
      have regular := List.isPerm_iff.mp regular
      have balancers := List.isPerm_iff.mp balancers
      cases taken
      refine ⟨inTurn.follows.rehash regular balancers, ?_⟩
      rcases inTurn.single with idle | ⟨work, alone, ready⟩
      · exact Or.inl idle
      · refine Or.inr ⟨work, alone, ?_⟩
        have joined (list : List ServiceNode) (fresh : m.config.Fresh list) : config.Fresh list := by
          have perm := (regular.append balancers).append_left list
          exact ⟨(perm.map _).nodup_iff.mpr fresh.ids, (perm.map _).nodup_iff.mpr fresh.ips⟩
        cases work with
        | onStart nodes => exact joined nodes ready
        | onAddNodes nodes => exact joined nodes ready
        | removingSpecific rmRegNodes rmGlbNodes =>
          exact ⟨fun node member => regular.mem_iff.mpr (ready.1 member), fun node member => balancers.mem_iff.mpr (ready.2 member)⟩
        | starting | adding | removing | dropping | stopping | stopped | releasing => trivial
    · cases taken

/-- In every state that operations of the service lead to, one at a time and
with agents that succeed, the hosts of every load balancer are the addresses of
the nodes with a database. -/
theorem loadBalancers_follow {applicationNodes : List ServiceNode} {events : List MySQLEvent} {current : MySQLManager}
    (run : Run (Guarded OneAtATime Step) (created applicationNodes) events current) :
    ∀ glb ∈ current.config.getGlbNodes,
      (current.agents glb.ip).glbd = some (current.config.getNodes.map address).toFinset :=
  (run.guarded_invariant (created_inTurn applicationNodes) fun inTurn orderly taken => inTurn.step orderly taken).follows.hosts

/-- A node in a role, with a volume. -/
def databaseNode (vmid role : String) : ServiceNode :=
  ⟨vmid, "10.0.0." ++ vmid, "", "iaas", 100, role, [⟨"mysql-" ++ vmid, 1024, none, some vmid, some "sdb", some "iaas"⟩]⟩

/-- A service is started, gets a load balancer and another database, a second
load balancer, and loses two nodes. -/
def scaledService : List MySQLEvent :=
  [.request (.startService true), .advance 0 [databaseNode "1" "mysql"], .advance 0 [],
    .request (.addNodes ⟨[("glb", 1), ("mysql", 1)], by decide⟩ true),
    .advance 0 [databaseNode "2" "glb", databaseNode "3" "mysql"], .advance 0 [],
    .request (.addNodes ⟨[("glb", 1)], by decide⟩ true), .advance 0 [databaseNode "4" "glb"], .advance 0 [],
    .request (.removeNodes ⟨[("count", 1)], by decide⟩), .advance 0 [], .advance 0 [], .advance 0 [],
    .request (.removeSpecificNodes (.ok "10.0.0.2")), .advance 0 []]

theorem scaledService_follows : ∃ current, Run (Guarded OneAtATime Step) (created []) scaledService current ∧
    ∀ glb ∈ current.config.getGlbNodes,
      (current.agents glb.ip).glbd = some (current.config.getNodes.map address).toFinset := by
  obtain ⟨current, played⟩ := Option.isSome_iff_exists.mp
    (show (play (fun state event => if OneAtATime state event then handle state event else none) (created []) scaledService).isSome = true by
      decide +kernel)
  have run := Run.play_guarded played
  exact ⟨current, run, loadBalancers_follow run⟩

end MySQLManager

end ConPaaS
