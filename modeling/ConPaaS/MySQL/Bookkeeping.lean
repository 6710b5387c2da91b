import ConPaaS.MySQL.LoadBalancer

namespace ConPaaS

open Keyed Transition Fallible
open BaseManager (Fits checkNodeRoles_ok checkState_ok dropNode dropNode_some)
open MySQLConfiguration (recordOf roleMysql roleGlb)

/-- The nodes with the ids of some of them are these. -/
theorem filter_ids_perm {nodes part : List ServiceNode} (once : (nodes.map ServiceNode.id).Nodup) (sub : part.Sublist nodes) :
    (nodes.filter fun node => node.id ∈ part.map ServiceNode.id).Perm part := by
  have distinct := List.Nodup.of_map _ once
  refine (List.perm_ext_iff_of_nodup (distinct.sublist List.filter_sublist) (distinct.sublist sub)).mpr fun node => ?_
  rw [List.mem_filter, decide_eq_true_eq]
  constructor
  · rintro ⟨member, same⟩
    obtain ⟨other, inside, same⟩ := List.mem_map.mp same
    exact List.inj_on_of_nodup_map once (sub.mem inside) member same ▸ inside
  · exact fun inside => ⟨sub.mem inside, List.mem_map_of_mem inside⟩

/-- The nodes of the service a thread has in hand that the configuration does
not have. -/
def MySQLWork.holds : MySQLWork → List ServiceNode
  | .onStart nodes | .onAddNodes nodes => nodes.map recordOf
  | .dropping nodes => nodes
  | .starting | .adding _ | .removing _ | .removingSpecific _ _ | .stopping | .stopped _ | .releasing _ => []

/-- The thread has still to set the state. -/
def MySQLWork.busy : MySQLWork → Bool
  | .dropping _ => false
  | _ => true

theorem MySQLWork.not_busy {work : MySQLWork} (idle : work.busy = false) : ∃ nodes, work = .dropping nodes := by
  cases work with
  | dropping nodes => exact ⟨nodes, rfl⟩
  | starting | onStart | adding | onAddNodes | removing | removingSpecific | stopping | stopped | releasing => cases idle

namespace MySQLManager

variable {m after : MySQLManager} {position : Nat} {reply : List ServiceNode} {work next : MySQLWork} {event : MySQLEvent}
  {works rest : List MySQLWork}

/-- What the director replies with: the nodes it was asked for, with ids of
their own. -/
def Supplied (m : MySQLManager) (reply : List ServiceNode) : MySQLWork → Prop
  | .starting => Delivered (getSninfo getStartingNodes) reply ∧ ∀ node ∈ reply, ∀ known ∈ m.applicationNodes, node.id ≠ known.id
  | .adding nodeRoles => Delivered (getSninfo nodeRoles) reply ∧ ∀ node ∈ reply, ∀ known ∈ m.applicationNodes, node.id ≠ known.id
  | _ => True

instance (m : MySQLManager) (reply : List ServiceNode) : (work : MySQLWork) → Decidable (m.Supplied reply work)
  | .starting => inferInstanceAs (Decidable (_ ∧ _))
  | .adding _ => inferInstanceAs (Decidable (_ ∧ _))
  | .onStart _ | .onAddNodes _ | .removing _ | .removingSpecific _ _ | .dropping _ | .stopping | .stopped _ | .releasing _ =>
    .isTrue trivial

/-- The service is not asked to stop, and the director replies as asked. -/
def Served (m : MySQLManager) : MySQLEvent → Prop
  | .request .stopService => False
  | .advance position reply => ∀ work ∈ m.inFlight[position]?, m.Supplied reply work
  | _ => True

instance (m : MySQLManager) : (event : MySQLEvent) → Decidable (m.Served event)
  | .request .stopService => .isFalse id
  | .request (.startService _) | .request (.addNodes _ _) | .request (.removeNodes _) | .request (.removeSpecificNodes _) =>
    .isTrue trivial
  | .advance position reply => inferInstanceAs (Decidable (∀ work ∈ m.inFlight[position]?, m.Supplied reply work))
  | .rehash _ => .isTrue trivial

/-- A request for the removal of a node by its address does not pass the checks
of its argument and of the state. -/
def Unspecific (m : MySQLManager) : MySQLEvent → Prop
  | .request (.removeSpecificNodes ip) => (m.checkSpecific ip).isOk = false
  | _ => True

instance (m : MySQLManager) : (event : MySQLEvent) → Decidable (m.Unspecific event)
  | .request (.removeSpecificNodes _) => inferInstanceAs (Decidable (_ = _))
  | .request (.startService _) | .request (.addNodes _ _) | .request (.removeNodes _) | .request .stopService => .isTrue trivial
  | .advance _ _ | .rehash _ => .isTrue trivial

/-- Between operations the nodes of the configuration are those of the service,
and one of them has a database while it runs. A request that is answered with
an error leaves everything as it was. -/
structure Accounted (guard : MySQLManager → MySQLEvent → Prop) (m : MySQLManager) : Prop where
  nodes : m.inFlight = [] → (m.nodes.map recordOf).Perm m.config.nodes
  database : m.inFlight = [] → m.state = .running → m.config.getNodes ≠ []
  refused : ∀ request error, guard m (.request request) → (m.answer request).2 = .error error → (m.answer request).1 = m

/-- What a thread relies on. -/
def Prepared (m : MySQLManager) : MySQLWork → Prop
  | .starting => m.state = .prologue ∧ m.nodes = []
  | .onStart nodes => m.state = .prologue ∧ nodes ≠ []
  | .adding nodeRoles => m.state = .adapting ∧ ∀ entry ∈ nodeRoles.rows, Fits roles entry
  | .onAddNodes nodes => m.state = .adapting ∧ ∀ node ∈ nodes, node.role = roleMysql ∨ node.role = roleGlb
  | .removing nodeRoles => m.state = .adapting ∧ count nodeRoles roleMysql < m.config.getNodes.length
  | .dropping _ => True
  | .removingSpecific _ _ | .stopping | .stopped _ | .releasing _ => False

/-- The books of the service, with some threads in flight: each node of the
service is in the configuration or in the hands of one thread. -/
structure Books (m : MySQLManager) (works : List MySQLWork) : Prop where
  lists : (m.nodes.map recordOf).Perm (m.config.nodes ++ works.flatMap MySQLWork.holds)
  application : (m.nodes.map ServiceNode.id).Subperm (m.applicationNodes.map ServiceNode.id)
  distinct : (m.applicationNodes.map ServiceNode.id).Nodup
  one : works.countP MySQLWork.busy ≤ 1
  born : m.state = .init → m.nodes = [] ∧ works = []
  awake : m.state ≠ .stopped
  database : m.state = .running ∨ m.state = .adapting → m.config.getNodes ≠ []
  prepared : ∀ work ∈ works, m.Prepared work

/-- The order of the threads does not matter. -/
theorem Books.perm {works' : List MySQLWork} (books : Books m works) (same : works'.Perm works) : Books m works' where
  lists := books.lists.trans ((same.flatMap_right _).symm.append_left _)
  application := books.application
  distinct := books.distinct
  one := (same.countP_eq _).trans_le books.one
  born created := by
    obtain ⟨bare, idle⟩ := books.born created
    exact ⟨bare, (idle ▸ same).eq_nil⟩
  awake := books.awake
  database := books.database
  prepared work member := books.prepared work (same.mem_iff.mp member)

theorem Prepared.state (prepared : m.Prepared work) (busy : work.busy = true) : m.state = .prologue ∨ m.state = .adapting := by
  cases work with
  | starting | onStart => exact Or.inl prepared.1
  | adding | onAddNodes | removing => exact Or.inr prepared.1
  | dropping => cases busy
  | removingSpecific | stopping | stopped | releasing => exact prepared.elim

/-- While one thread has still to set the state, the others only drop nodes. -/
theorem Books.others (books : Books m (work :: rest)) (busy : work.busy = true) :
    ∀ other ∈ rest, ∃ nodes, other = .dropping nodes := by
  have one := books.one
  rw [List.countP_cons_of_pos busy] at one
  have none : rest.countP MySQLWork.busy = 0 := by omega
  intro other member
  exact MySQLWork.not_busy (by simpa using List.countP_eq_zero.mp none other member)

/-- While the state is not a passing one all threads only drop nodes. -/
theorem Books.calm (books : Books m works) (running : m.state ≠ .prologue ∧ m.state ≠ .adapting) :
    ∀ work ∈ works, ∃ nodes, work = .dropping nodes := by
  intro work member
  refine MySQLWork.not_busy ?_
  by_contra busy
  exact ((books.prepared work member).state (by simpa using busy)).elim running.1 running.2

/-- Threads that only drop nodes count for nothing and rely on nothing. -/
theorem dropping_countP (drops : ∀ work ∈ works, ∃ nodes, work = .dropping nodes) : works.countP MySQLWork.busy = 0 := by
  refine List.countP_eq_zero.mpr fun work member => ?_
  obtain ⟨nodes, rfl⟩ := drops work member
  exact Bool.false_ne_true

theorem dropping_prepared (drops : ∀ work ∈ works, ∃ nodes, work = .dropping nodes) : ∀ work ∈ works, m.Prepared work := by
  intro work member
  obtain ⟨nodes, rfl⟩ := drops work member
  trivial

/-- The ids of the nodes of the configuration and of those in hand differ. -/
theorem Books.ids (books : Books m works) :
    ((m.config.nodes ++ works.flatMap MySQLWork.holds).map ServiceNode.id).Nodup := by
  refine (books.lists.map ServiceNode.id).nodup_iff.mp ?_
  rw [List.map_map]
  obtain ⟨ids, same, sub⟩ := books.application
  exact same.nodup_iff.mp (books.distinct.sublist sub)

/-- The nodes a thread has in hand are not in the configuration. -/
theorem Books.fresh {nodes : List ServiceNode} (books : Books m (work :: rest)) (held : work.holds = nodes.map recordOf) :
    ((nodes ++ m.config.nodes).map ServiceNode.id).Nodup := by
  have ids := books.ids
  rw [List.flatMap_cons, ← List.append_assoc, List.map_append] at ids
  have both := (List.nodup_append.mp ids).1
  rw [held, List.map_append, List.map_map] at both
  rw [List.map_append]
  exact (List.perm_append_comm.nodup_iff).mp both

/-- Nothing of the books is in the threads themselves or in the agents. -/
theorem Books.carry (books : Books m works) (inFlight : List MySQLWork) (agents : MySQLAgents) :
    Books { m with inFlight, agents } works where
  lists := books.lists
  application := books.application
  distinct := books.distinct
  one := books.one
  born := books.born
  awake := books.awake
  database := books.database
  prepared work member := by
    have prepared := books.prepared work member
    cases work <;> exact prepared

/-- A thread that has nothing in hand ends without having set the state. -/
theorem Books.died (books : Books m (work :: rest)) (empty : work.holds = []) : Books m rest where
  lists := by
    have lists := books.lists
    rwa [List.flatMap_cons, empty, List.nil_append] at lists
  application := books.application
  distinct := books.distinct
  one := ((List.sublist_cons_self work rest).countP_le).trans books.one
  born created := absurd (books.born created).2 (List.cons_ne_nil _ _)
  awake := books.awake
  database := books.database
  prepared other member := books.prepared other (List.mem_cons_of_mem _ member)

/-- The director supplies the nodes of a thread that has asked for some. -/
theorem Books.supplied (books : Books m (work :: rest)) (next : MySQLWork) (nodes : List ServiceNode) (busy : work.busy = true)
    (empty : work.holds = []) (held : next.holds = reply.map recordOf) (active : next.busy = true)
    (fresh : ∀ node ∈ reply, ∀ known ∈ m.applicationNodes, node.id ≠ known.id) (once : (reply.map ServiceNode.id).Nodup)
    (joined : nodes = m.nodes ++ reply)
    (ready : Prepared { m with applicationNodes := m.applicationNodes ++ reply, nodes } next) :
    Books { m with applicationNodes := m.applicationNodes ++ reply, nodes } (next :: rest) where
  lists := by
    have lists := (books.died empty).lists.append_right (reply.map recordOf)
    rw [List.append_assoc] at lists
    rw [joined, List.map_append, List.flatMap_cons, held]
    exact lists.trans (List.perm_append_comm.append_left _)
  application := by
    rw [joined, List.map_append, List.map_append]
    exact books.application.append (.refl _)
  distinct := by
    rw [List.map_append]
    refine List.nodup_append.mpr ⟨books.distinct, once, fun id old other new => ?_⟩
    obtain ⟨known, stored, rfl⟩ := List.mem_map.mp old
    obtain ⟨node, inside, rfl⟩ := List.mem_map.mp new
    exact (fresh node inside known stored).symm
  one := by
    rw [List.countP_cons_of_pos active, dropping_countP (books.others busy)]
  born created := absurd (books.born created).2 (List.cons_ne_nil _ _)
  awake := books.awake
  database := books.database
  prepared other member := by
    rcases List.mem_cons.mp member with rfl | later
    · exact ready
    · exact dropping_prepared (books.others busy) other later

/-- A hook leaves the service running, with other nodes in the configuration
and perhaps some in the hands of a thread that drops them. -/
theorem Books.settled (books : Books m (work :: rest)) (busy : work.busy = true) {config : MySQLConfiguration}
    (left : List MySQLWork) (drops : ∀ work ∈ left, ∃ nodes, work = .dropping nodes)
    (moved : (config.nodes ++ left.flatMap MySQLWork.holds).Perm (m.config.nodes ++ work.holds)) (some : config.getNodes ≠ []) :
    Books { m with config, state := .running } (left ++ rest) := by
  have all : ∀ other ∈ left ++ rest, ∃ nodes, other = .dropping nodes := fun other member =>
    (List.mem_append.mp member).elim (drops other) (books.others busy other)
  refine ⟨?_, books.application, books.distinct, ?_, nofun, nofun, fun _ => some, dropping_prepared all⟩
  · have lists := books.lists
    rw [List.flatMap_cons, ← List.append_assoc] at lists
    rw [List.flatMap_append, ← List.append_assoc]
    exact lists.trans (moved.symm.append_right _)
  · rw [dropping_countP all]
    exact Nat.zero_le 1

/-- A thread drops a node, which both lists have. -/
theorem Books.dropped {node : ServiceNode} {nodes : List ServiceNode} (books : Books m (.dropping (node :: nodes) :: rest)) :
    ∃ applicationNodes left, dropNode node.id m.applicationNodes = some applicationNodes ∧
      dropNode node.id m.nodes = some left ∧
      Books { m with applicationNodes, nodes := left } (.dropping nodes :: rest) := by
  have lists := books.lists
  have inHand : node ∈ m.nodes.map recordOf := lists.mem_iff.mpr (List.mem_append_right _ (List.mem_cons_self ..))
  obtain ⟨source, inside, rfl⟩ := List.mem_map.mp inHand
  have listed : source.id ∈ m.nodes.map ServiceNode.id := List.mem_map_of_mem inside
  obtain ⟨own, left, dropped, same, split⟩ := dropNode_some listed
  obtain ⟨known, applicationNodes, dropped', same', split'⟩ := dropNode_some (books.application.subset listed)
  have once : (m.nodes.map ServiceNode.id).Nodup := by
    obtain ⟨ids, perm, sub⟩ := books.application
    exact perm.nodup_iff.mp (books.distinct.sublist sub)
  have one : own = source := List.inj_on_of_nodup_map once (split.mem_iff.mpr (List.mem_cons_self ..)) inside same
  refine ⟨applicationNodes, left, dropped', dropped, ?_⟩
  exact {
    lists := by
      have moved := (split.map recordOf).symm.trans (lists.trans List.perm_middle)
      rw [one] at moved
      exact moved.cons_inv
    application := by
      have among := ((split.map ServiceNode.id).symm.subperm.trans books.application).trans (split'.map ServiceNode.id).subperm
      rw [List.map_cons, List.map_cons, same, same'] at among
      exact (List.subperm_cons _).mp among
    distinct := (List.nodup_cons.mp ((split'.map ServiceNode.id).nodup_iff.mp books.distinct)).2
    one := books.one
    born := fun created => absurd (books.born created).2 (List.cons_ne_nil _ _)
    awake := books.awake
    database := books.database
    prepared := fun work member => by
      rcases List.mem_cons.mp member with rfl | later
      · trivial
      · have prepared := books.prepared work (List.mem_cons_of_mem _ later)
        cases work with
        | starting => exact absurd (prepared.2 ▸ inside) (List.not_mem_nil)
        | onStart | adding | onAddNodes | removing | removingSpecific | dropping | stopping | stopped | releasing => exact prepared }

/-- A removal parts the nodes of the configuration, and some node with a
database is left if fewer than there are go. -/
theorem removeNodes_perm {config : MySQLConfiguration} {regular : Nat} (balancers : Nat)
    (ids : (config.nodes.map ServiceNode.id).Nodup) (fewer : regular < config.getNodes.length) :
    ((config.removeNodes (config.getNodes.take regular ++ config.getGlbNodes.take balancers)).nodes ++
        (config.getNodes.take regular ++ config.getGlbNodes.take balancers)).Perm config.nodes ∧
      (config.removeNodes (config.getNodes.take regular ++ config.getGlbNodes.take balancers)).getNodes ≠ [] := by
  set gone := config.getNodes.take regular ++ config.getGlbNodes.take balancers with taken
  obtain ⟨keptNodes, keptGlbNodes⟩ := MySQLConfiguration.removeNodes_rows ids gone
  have sub : gone.Sublist config.nodes := (List.take_sublist _ _).append (List.take_sublist _ _)
  constructor
  · have kept : (config.removeNodes gone).nodes = config.nodes.filter fun node => node.id ∉ gone.map ServiceNode.id := by
      rw [MySQLConfiguration.nodes, keptNodes, keptGlbNodes, ← List.filter_append]
      rfl
    rw [kept]
    have split := List.filter_append_perm (fun node : ServiceNode => decide (node.id ∈ gone.map ServiceNode.id)) config.nodes
    simp only [← decide_not] at split
    exact (List.perm_append_comm.trans ((filter_ids_perm ids sub).symm.append_right _)).trans split
  · rw [keptNodes]
    intro none
    have all : config.getNodes ⊆ config.getNodes.take regular := by
      intro node member
      have listed := List.filter_eq_nil_iff.mp none node member
      rw [decide_eq_true_eq, not_not] at listed
      obtain ⟨other, inside, same⟩ := List.mem_map.mp listed
      have one : other = node := List.inj_on_of_nodup_map ids (sub.mem inside) (List.mem_append_left _ member) same
      rcases List.mem_append.mp (one ▸ inside) with left | right
      · exact left
      · exact absurd (List.mem_of_mem_take right) (MySQLConfiguration.apart_of_ids ids member)
    have once : config.getNodes.Nodup := config.serviceNodes.rows_nodup
    have bounded := (once.subperm all).length_le
    rw [List.length_take] at bounded
    omega

/-- Nodes in the roles of the service are all entered. -/
theorem roles_perm {list : List ServiceNode} (known : ∀ node ∈ list, node.role = roleMysql ∨ node.role = roleGlb) :
    ((list.filter fun node => node.role = roleGlb) ++ list.filter fun node => node.role = roleMysql).Perm list := by
  have others : (list.filter fun node => node.role = roleGlb) = list.filter fun node => !decide (node.role = roleMysql) := by
    refine List.filter_congr fun node member => ?_
    rcases known node member with role | role
    · rw [role]
      rfl
    · rw [role]
      rfl
  rw [others]
  exact List.perm_append_comm.trans (List.filter_append_perm (fun node => decide (node.role = roleMysql)) list)

theorem onAddNodes_perm {config after : MySQLConfiguration} {agents agents' : MySQLAgents} {list : List ServiceNode}
    (ids : ((list ++ config.nodes).map ServiceNode.id).Nodup)
    (known : ∀ node ∈ list, node.role = roleMysql ∨ node.role = roleGlb)
    (hook : config.onAddNodes agents list = some (after, agents')) :
    after.nodes.Perm (list.map recordOf ++ config.nodes) ∧ (config.getNodes ≠ [] → after.getNodes ≠ []) := by
  have roles := roles_perm known
  have same := MySQLConfiguration.onAddNodes_config hook
  revert roles same
  generalize (list.filter fun node => decide (node.role = roleMysql)) = regular
  generalize (list.filter fun node => decide (node.role = roleGlb)) = balancers
  rintro roles rfl
  have joined : ((balancers ++ (regular ++ config.nodes)).map ServiceNode.id).Nodup := by
    rw [← List.append_assoc]
    exact ((roles.append_right _).map _).nodup_iff.mpr ids
  have first : ((regular ++ config.nodes).map ServiceNode.id).Nodup :=
    joined.sublist ((List.sublist_append_right _ _).map _)
  have entered := MySQLConfiguration.addMySQLServiceNodes_nodes first
  have second : ((balancers ++ (config.addMySQLServiceNodes regular).nodes).map ServiceNode.id).Nodup := by
    refine ((entered.append_left balancers).map ServiceNode.id).nodup_iff.mpr ?_
    rw [List.map_append, List.map_append, List.map_map]
    rwa [List.map_append, List.map_append] at joined
  constructor
  · refine (MySQLConfiguration.addGLBServiceNodes_nodes second).trans ?_
    refine (entered.append_left _).trans ?_
    rw [← List.append_assoc, ← List.map_append]
    exact (roles.map recordOf).append_right _
  · intro some none
    have kept := MySQLConfiguration.addMySQLServiceNodes_perm first
    have empty : (config.addMySQLServiceNodes regular).getNodes = [] := none
    rw [empty] at kept
    exact some (List.append_eq_nil_iff.mp kept.symm.eq_nil).2

/-- The roles of nodes the director was asked for. -/
theorem delivered_roles {nodeRoles : RoleCounts} (fits : ∀ entry ∈ nodeRoles.rows, Fits roles entry)
    (delivered : Delivered (getSninfo nodeRoles) reply) : ∀ node ∈ reply, node.role = roleMysql ∨ node.role = roleGlb := by
  intro node member
  have asked := delivered.1.mem_iff.mp (List.mem_map_of_mem member)
  obtain ⟨entry, inside, role⟩ := List.mem_flatMap.mp asked
  rw [List.eq_of_mem_replicate role]
  simpa [roles, roleMysql, roleGlb] using (fits entry inside).1

/-- What the next turn of a thread leaves of the books. -/
theorem Books.carryOut (books : Books m (work :: rest)) (flight : m.inFlight.eraseIdx position = rest)
    (bound : position < m.inFlight.length) (supplied : m.Supplied reply work)
    (step : m.carryOut position reply work = some after) : Books after after.inFlight := by
  have prepared := books.prepared work (List.mem_cons_self ..)
  have stops : Books m rest → Books (m.ended position) (m.ended position).inFlight := fun ended =>
    (ended.carry _ _).perm (List.Perm.of_eq flight)
  have onward (next : MySQLWork) : (m.goesOn position next).inFlight.Perm (next :: rest) :=
    flight ▸ List.set_perm_cons_eraseIdx bound next
  cases work with
  | starting =>
    simp only [MySQLManager.carryOut] at step
    split at step
    · cases step
      exact stops (books.died rfl)
    · rename_i some
      cases step
      have entered := books.supplied (.onStart reply) reply rfl rfl rfl rfl supplied.2 supplied.1.2
        (by rw [prepared.2, List.nil_append]) ⟨prepared.1, some⟩
      exact (entered.carry _ _).perm (onward _)
  | onStart nodes =>
    simp only [MySQLManager.carryOut] at step
    obtain ⟨config, agents, hook, rfl⟩ := hooked_some step
    obtain ⟨_, -, same⟩ := Option.map_eq_some_iff.mp hook
    cases same
    have fresh : ((nodes ++ m.config.nodes).map ServiceNode.id).Nodup := books.fresh rfl
    have entered := MySQLConfiguration.addMySQLServiceNodes_nodes fresh
    have some : (m.config.addMySQLServiceNodes nodes).getNodes ≠ [] := by
      intro none
      have kept := MySQLConfiguration.addMySQLServiceNodes_perm fresh
      rw [none] at kept
      exact prepared.2 (List.map_eq_nil_iff.mp (List.append_eq_nil_iff.mp kept.symm.eq_nil).1)
    have moved : ((m.config.addMySQLServiceNodes nodes).nodes ++ [].flatMap MySQLWork.holds).Perm
        (m.config.nodes ++ (MySQLWork.onStart nodes).holds) := by
      rw [List.flatMap_nil, List.append_nil]
      exact entered.trans List.perm_append_comm
    exact ((books.settled rfl [] (List.forall_mem_nil _) moved some).carry _ _).perm (List.Perm.of_eq flight)
  | adding nodeRoles =>
    simp only [MySQLManager.carryOut] at step
    split at step
    · cases step
      exact stops (books.died rfl)
    · cases step
      have entered := books.supplied (.onAddNodes reply) (m.nodes ++ reply) rfl rfl rfl rfl supplied.2
        supplied.1.2 rfl ⟨prepared.1, delivered_roles prepared.2 supplied.1⟩
      exact (entered.carry _ _).perm (onward _)
  | onAddNodes nodes =>
    simp only [MySQLManager.carryOut] at step
    obtain ⟨config, agents, hook, rfl⟩ := hooked_some step
    obtain ⟨entered, kept⟩ := onAddNodes_perm (books.fresh rfl) prepared.2 hook
    have moved : (config.nodes ++ [].flatMap MySQLWork.holds).Perm (m.config.nodes ++ (MySQLWork.onAddNodes nodes).holds) := by
      rw [List.flatMap_nil, List.append_nil]
      exact entered.trans List.perm_append_comm
    exact ((books.settled rfl [] (List.forall_mem_nil _) moved (kept (books.database (Or.inr prepared.1)))).carry _ _).perm (List.Perm.of_eq flight)
  | removing nodeRoles =>
    simp only [MySQLManager.carryOut] at step
    obtain ⟨config, agents, hook, rfl⟩ := hooked_some step
    have ids : (m.config.nodes.map ServiceNode.id).Nodup := by
      have all := books.ids
      rw [List.map_append] at all
      exact (List.nodup_append.mp all).1
    have fewer : (count nodeRoles roleMysql).toNat < m.config.getNodes.length := by
      have bounded := prepared.2
      have some := List.length_pos_of_ne_nil (books.database (Or.inr prepared.1))
      omega
    obtain rfl := MySQLConfiguration.doRemoveNodes_config hook
    obtain ⟨parted, some⟩ := removeNodes_perm (count nodeRoles roleGlb).toNat ids fewer
    have running : remaining (m.config.removeNodes (m.config.getNodes.take (count nodeRoles roleMysql).toNat ++
        m.config.getGlbNodes.take (count nodeRoles roleGlb).toNat)) = .running := by
      refine if_neg fun none => some ?_
      exact List.length_eq_zero_iff.mp (by omega)
    rw [running]
    have moved := books.settled rfl [.dropping _] (fun other member => ⟨_, List.mem_singleton.mp member⟩)
      (by simpa [MySQLWork.holds] using parted) some
    exact (moved.carry _ _).perm (onward _)
  | removingSpecific | stopping | stopped | releasing => exact prepared.elim
  | dropping nodes =>
    cases nodes with
    | nil =>
      cases step
      exact stops (books.died rfl)
    | cons node nodes =>
      obtain ⟨applicationNodes, left, dropped', dropped, after⟩ := books.dropped
      simp only [MySQLManager.carryOut, dropped', dropped] at step
      cases step
      exact (after.carry _ _).perm (onward _)

/-- A request that is refused leaves nothing behind. -/
theorem checked_refused {result : Except String (ManagerState × MySQLWork)} {error : String}
    (refused : (m.checked result).2 = .error error) : (m.checked result).1 = m := by
  cases result with
  | error => rfl
  | ok started => cases refused

theorem answer_refused {request : MySQLRequest} {error : String} (unspecific : m.Unspecific (.request request))
    (refused : (m.answer request).2 = .error error) : (m.answer request).1 = m := by
  cases request with
  | startService credit => exact checked_refused refused
  | stopService => exact checked_refused refused
  | addNodes nodeRoles credit => exact checked_refused refused
  | removeNodes nodeRoles => exact checked_refused refused
  | removeSpecificNodes ip =>
    cases passed : m.checkSpecific ip with
    | error => simp only [answer, removeSpecificNodes, passed]
    | ok =>
      have passes : (m.checkSpecific ip).isOk = false := unspecific
      rw [passed] at passes
      cases passes

/-- A request that is accepted starts a thread beside others that only drop
nodes. -/
theorem Books.launch (books : Books m m.inFlight) (drops : ∀ work ∈ m.inFlight, ∃ nodes, work = .dropping nodes)
    {state : ManagerState} (passing : state = .prologue ∨ state = .adapting) (empty : work.holds = [])
    (some : state = .adapting → m.config.getNodes ≠ []) (ready : (m.launch state work).Prepared work) :
    Books (m.launch state work) (m.launch state work).inFlight where
  lists := by
    refine books.lists.trans (List.Perm.append_left _ (List.Perm.of_eq ?_))
    simp [MySQLManager.launch, empty]
  application := books.application
  distinct := books.distinct
  one := by
    have none := dropping_countP drops
    simp only [MySQLManager.launch, List.countP_append, none, List.countP_singleton]
    split <;> omega
  born created := by
    rcases passing with rfl | rfl <;> cases created
  awake stopped := by
    rcases passing with rfl | rfl <;> cases stopped
  database awake := by
    rcases passing with rfl | rfl
    · rcases awake with awake | awake <;> cases awake
    · exact some rfl
  prepared other member := by
    rcases List.mem_append.mp member with old | new
    · exact dropping_prepared drops other old
    · exact List.mem_singleton.mp new ▸ ready

theorem Books.answer (books : Books m m.inFlight) {request : MySQLRequest} (served : m.Served (.request request))
    (unspecific : m.Unspecific (.request request)) : Books (m.answer request).1 (m.answer request).1.inFlight := by
  have resting (running : m.state = .running) : ∀ work ∈ m.inFlight, ∃ nodes, work = .dropping nodes :=
    books.calm (by simp [running])
  cases request with
  | startService credit =>
    cases started : m.startService credit with
    | error => simpa only [MySQLManager.answer, started, MySQLManager.checked] using books
    | ok result =>
      simp only [MySQLManager.answer, started, MySQLManager.checked]
      obtain ⟨_, -, accepted⟩ := bind_ok.mp started
      obtain ⟨_, checked, accepted⟩ := bind_ok.mp accepted
      cases accepted
      have created : m.state = .init := by
        rcases List.mem_cons.mp (checkState_ok checked) with created | stopped
        · exact created
        · exact absurd (List.mem_singleton.mp stopped) books.awake
      obtain ⟨bare, idle⟩ := books.born created
      exact books.launch (by simp [idle]) (Or.inl rfl) rfl nofun ⟨rfl, bare⟩
  | stopService => exact served.elim
  | addNodes nodeRoles credit =>
    cases started : m.addNodes nodeRoles credit with
    | error => simpa only [MySQLManager.answer, started, MySQLManager.checked] using books
    | ok result =>
      simp only [MySQLManager.answer, started, MySQLManager.checked]
      obtain ⟨_, -, accepted⟩ := bind_ok.mp started
      obtain ⟨nodeRoles, fits, accepted⟩ := bind_ok.mp accepted
      obtain ⟨_, checked, accepted⟩ := bind_ok.mp accepted
      cases accepted
      have running := List.mem_singleton.mp (checkState_ok checked)
      exact books.launch (resting running) (Or.inr rfl) rfl (fun _ => books.database (Or.inl running))
        ⟨rfl, checkNodeRoles_ok (by decide) fits⟩
  | removeNodes nodeRoles =>
    cases started : m.removeNodes nodeRoles with
    | error => simpa only [MySQLManager.answer, started, MySQLManager.checked] using books
    | ok result =>
      simp only [MySQLManager.answer, started, MySQLManager.checked]
      obtain ⟨nodeRoles, -, accepted⟩ := bind_ok.mp started
      obtain ⟨_, checked, accepted⟩ := bind_ok.mp accepted
      obtain ⟨_, counted, accepted⟩ := bind_ok.mp accepted
      cases accepted
      have running := List.mem_singleton.mp (checkState_ok checked)
      refine books.launch (resting running) (Or.inr rfl) rfl (fun _ => books.database (Or.inl running)) ⟨rfl, ?_⟩
      unfold checkRemoveNodes at counted
      dsimp only at counted
      split at counted
      · cases counted
      · rename_i fewer
        exact not_le.mp fewer
  | removeSpecificNodes ip =>
    cases passed : m.checkSpecific ip with
    | error => simpa only [MySQLManager.answer, removeSpecificNodes, passed] using books
    | ok =>
      have passes : (m.checkSpecific ip).isOk = false := unspecific
      rw [passed] at passes
      cases passes

theorem Books.step (books : Books m m.inFlight) (served : m.Served event) (unspecific : m.Unspecific event)
    (taken : Step m event after) : Books after after.inFlight := by
  unfold Step handle at taken
  cases event with
  | request request =>
    cases taken
    exact books.answer served unspecific
  | advance position reply =>
    obtain ⟨work, found, step⟩ := Option.bind_eq_some_iff.mp taken
    obtain ⟨bound, rfl⟩ := List.getElem?_eq_some_iff.mp found
    have parted := List.getElem_cons_eraseIdx_perm bound
    exact (books.perm parted).carryOut rfl bound (served _ found) step
  | rehash config =>
    dsimp only at taken
    split at taken
    · rename_i permuted
      obtain ⟨regular, balancers⟩ := Bool.and_eq_true_iff.mp permuted
      have regular := List.isPerm_iff.mp regular
      have balancers := List.isPerm_iff.mp balancers
      cases taken
      exact {
        lists := books.lists.trans ((regular.append balancers).symm.append_right _)
        application := books.application
        distinct := books.distinct
        one := books.one
        born := books.born
        awake := books.awake
        database := fun awake none => books.database awake (regular.symm.trans (List.Perm.of_eq none)).eq_nil
        prepared := fun work member => by
          have prepared := books.prepared work member
          cases work with
          | removing => exact ⟨prepared.1, regular.length_eq ▸ prepared.2⟩
          | starting | onStart | adding | onAddNodes | removingSpecific | dropping | stopping | stopped | releasing =>
            exact prepared }
    · cases taken

theorem created_books {applicationNodes : List ServiceNode} (distinct : (applicationNodes.map ServiceNode.id).Nodup) :
    Books (created applicationNodes) [] where
  lists := .nil
  application := List.nil_subperm
  distinct := distinct
  one := Nat.zero_le 1
  born _ := ⟨rfl, rfl⟩
  awake := nofun
  database awake := awake.elim nofun nofun
  prepared := nofun

/-- The nodes of the configuration are those of the service between operations,
one of them has a database while the service runs, and errors change nothing,
as long as no node is removed by its address. -/
theorem nodes_accounted {applicationNodes : List ServiceNode} (distinct : (applicationNodes.map ServiceNode.id).Nodup)
    {events : List MySQLEvent} {current : MySQLManager}
    (run : Run (Guarded (fun m event => m.Served event ∧ m.Unspecific event) Step) (created applicationNodes) events current) :
    current.Accounted fun m event => m.Served event ∧ m.Unspecific event := by
  have books : Books current current.inFlight :=
    @Run.guarded_invariant _ _ _ _ _ _ _ (fun m => Books m m.inFlight) run (created_books distinct)
      fun books allowed taken => books.step allowed.1 allowed.2 taken
  constructor
  · intro idle
    have lists := books.lists
    rwa [idle, List.flatMap_nil, List.append_nil] at lists
  · exact fun _ running => books.database (Or.inl running)
  · exact fun request error allowed refused => answer_refused allowed.2 refused

theorem balanced_distinct : ["glb", "mysql"].Nodup := by decide

/-- A service is started, grows by two nodes and shrinks by one, refusing to
give up its last database. -/
def countedService : List MySQLEvent :=
  [.request (.startService true), .advance 0 [databaseNode "1" "mysql"], .advance 0 [],
    .request (.removeSpecificNodes (.error "Missing the mandatory parameter 'ip'.")),
    .request (.addNodes ⟨[("glb", 1), ("mysql", 1)], balanced_distinct⟩ true),
    .advance 0 [databaseNode "2" "glb", databaseNode "3" "mysql"], .advance 0 [],
    .request (.removeNodes ⟨[("count", 2)], List.nodup_singleton "count"⟩), .request (.removeNodes ⟨[("mysql", 1)], List.nodup_singleton "mysql"⟩), .advance 0 [],
    .request (.addNodes ⟨[("glb", 1)], List.nodup_singleton "glb"⟩ true), .advance 0 [], .advance 1 [databaseNode "4" "glb"], .advance 0 [],
    .advance 0 []]

theorem countedService_accounted : ∃ current,
    Run (Guarded (fun m event => m.Served event ∧ m.Unspecific event) Step) (created []) countedService current ∧
    current.Accounted fun m event => m.Served event ∧ m.Unspecific event := by
  obtain ⟨current, played⟩ := Option.isSome_iff_exists.mp
    (show (play (fun m event => if m.Served event ∧ m.Unspecific event then handle m event else none) (created [])
      countedService).isSome = true by decide +kernel)
  have run := Run.play_guarded played
  exact ⟨current, run, @nodes_accounted [] .nil _ _ run⟩

/-- The only node of a service is removed by its address. -/
def removedByAddress : List MySQLEvent :=
  [.request (.startService true), .advance 0 [databaseNode "1" "mysql"], .advance 0 [],
    .request (.removeSpecificNodes (.ok "10.0.0.1")), .advance 0 []]

/-- The service keeps the node that its configuration has lost. -/
theorem removedByAddress_unaccounted : ¬∀ (applicationNodes : List ServiceNode) (events : List MySQLEvent) (current : MySQLManager),
    (applicationNodes.map ServiceNode.id).Nodup → Run (Guarded Served Step) (created applicationNodes) events current →
      current.Accounted Served := by
  intro accounted
  obtain ⟨current, played⟩ := Option.isSome_iff_exists.mp
    (show (play (fun m event => if m.Served event then handle m event else none) (created []) removedByAddress).isSome = true by
      decide +kernel)
  have kept : (play (fun m event => if m.Served event then handle m event else none) (created []) removedByAddress).map
      (fun m => (m.nodes.length, m.config.nodes.length, m.inFlight)) = some (1, 0, []) := by
    decide +kernel
  rw [played, Option.map_some, Option.some.injEq] at kept
  simp only [Prod.mk.injEq] at kept
  obtain ⟨owned, recorded, idle⟩ := kept
  have same := ((accounted [] removedByAddress current .nil (Run.play_guarded played)).nodes idle).length_eq
  rw [List.length_map] at same
  omega

end MySQLManager

end ConPaaS
