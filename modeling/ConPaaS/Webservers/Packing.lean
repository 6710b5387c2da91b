import ConPaaS.Lib.Packing
import ConPaaS.Webservers.Configuration

namespace ConPaaS

open Keyed Packing

theorem WebServiceNode.runs_setRuns (node : WebServiceNode) (running : Bool) (tier other : Tier) :
    (node.setRuns running tier).runs other = if other = tier then running else node.runs other := by
  cases tier <;> cases other <;> rfl

theorem WebServiceNode.runs_updateRole (node : WebServiceNode) (tier : Tier) :
    node.updateRole.runs tier = node.runs tier := by
  unfold updateRole
  split_ifs <;> cases tier <;> rfl

theorem WebServiceNode.id_updateRole (node : WebServiceNode) : node.updateRole.id = node.id := by
  unfold updateRole
  split_ifs <;> rfl

theorem WebServiceNode.id_setRuns (node : WebServiceNode) (running : Bool) (tier : Tier) :
    (node.setRuns running tier).id = node.id := by
  cases tier <;> rfl

theorem WebServiceNode.isUsed_iff {node : WebServiceNode} : node.isUsed = true ↔ ∃ tier, node.runs tier = true := by
  constructor
  · intro used
    simp only [isUsed, Bool.or_eq_true] at used
    rcases used with (backend | web) | proxy
    · exact ⟨.backend, backend⟩
    · exact ⟨.web, web⟩
    · exact ⟨.proxy, proxy⟩
  · rintro ⟨tier, runs⟩
    cases tier <;> simp_all [isUsed, WebServiceNode.runs]

namespace ServiceConfiguration

variable {config : ServiceConfiguration} {tier other : Tier}

/-- The ids of the nodes that run a duty. -/
def running (config : ServiceConfiguration) (tier : Tier) : Finset String :=
  ((config.getServiceNodes tier).map WebServiceNode.id).toFinset

/-- The ids of all nodes. -/
def ids (config : ServiceConfiguration) : Finset String := (config.serviceNodes.rows.map WebServiceNode.id).toFinset

theorem mem_running {id : String} :
    id ∈ config.running tier ↔ ∃ node ∈ config.serviceNodes.rows, node.runs tier = true ∧ node.id = id := by
  simp [running, getServiceNodes, and_assoc]

theorem mem_ids {id : String} : id ∈ config.ids ↔ ∃ node ∈ config.serviceNodes.rows, node.id = id := by
  simp [ids]

theorem running_subset_ids (config : ServiceConfiguration) (tier : Tier) : config.running tier ⊆ config.ids := by
  intro id member
  obtain ⟨node, inside, _, same⟩ := mem_running.mp member
  exact mem_ids.mpr ⟨node, inside, same⟩

theorem runs_iff {node : WebServiceNode} (member : node ∈ config.serviceNodes.rows) :
    node.runs tier = true ↔ node.id ∈ config.running tier := by
  rw [mem_running]
  constructor
  · exact fun runs => ⟨node, member, runs, rfl⟩
  · rintro ⟨other, inside, runs, same⟩
    rwa [← config.serviceNodes.unique inside member same]

theorem getServiceNodes_ids_nodup (config : ServiceConfiguration) (tier : Tier) :
    ((config.getServiceNodes tier).map WebServiceNode.id).Nodup :=
  config.serviceNodes.keyed.sublist (List.filter_sublist.map WebServiceNode.id)

theorem card_running (config : ServiceConfiguration) (tier : Tier) :
    (config.running tier).card = (config.getServiceNodes tier).length := by
  rw [running, List.toFinset_card_of_nodup (config.getServiceNodes_ids_nodup tier), List.length_map]

/-- A change of the nodes that leaves their ids alone changes who runs what
row by row. -/
theorem running_map {nodes : Table WebServiceNode.id} {change : WebServiceNode → WebServiceNode}
    (rows : nodes.rows = config.serviceNodes.rows.map change) (same : ∀ node, (change node).id = node.id) {id : String} :
    id ∈ running { config with serviceNodes := nodes } tier ↔
      ∃ node ∈ config.serviceNodes.rows, (change node).runs tier = true ∧ node.id = id := by
  rw [mem_running]
  simp only [rows, List.mem_map]
  constructor
  · rintro ⟨_, ⟨node, member, rfl⟩, runs, equal⟩
    exact ⟨node, member, runs, (same node).symm.trans equal⟩
  · rintro ⟨node, member, runs, equal⟩
    exact ⟨_, ⟨node, member, rfl⟩, runs, (same node).trans equal⟩

theorem ids_map {nodes : Table WebServiceNode.id} {change : WebServiceNode → WebServiceNode}
    (rows : nodes.rows = config.serviceNodes.rows.map change) (same : ∀ node, (change node).id = node.id) :
    ids { config with serviceNodes := nodes } = config.ids := by
  unfold ids
  rw [rows, List.map_map]
  congr 1
  exact List.map_congr_left fun node _ => same node

theorem setRunning_ids (config : ServiceConfiguration) (tier : Tier) (on : Bool) (nodes : List WebServiceNode) :
    (config.setRunning tier on nodes).ids = config.ids := by
  refine ids_map rfl fun node => ?_
  split
  · exact node.id_setRuns on tier
  · rfl

theorem mem_setRunning {on : Bool} {nodes : List WebServiceNode} {id : String} :
    id ∈ (config.setRunning tier on nodes).running other ↔ ∃ node ∈ config.serviceNodes.rows, node.id = id ∧
      if other = tier ∧ node.id ∈ nodes.map WebServiceNode.id then on = true else node.runs other = true := by
  refine (running_map rfl fun node => ?_).trans ?_
  · split
    · exact node.id_setRuns on tier
    · rfl
  · refine exists_congr fun node => and_congr_right fun _ => ?_
    by_cases chosen : node.id ∈ nodes.map WebServiceNode.id
    · rw [if_pos chosen, WebServiceNode.runs_setRuns]
      by_cases here : other = tier <;> simp [here, chosen, and_comm]
    · rw [if_neg chosen, if_neg (fun both => chosen both.2), and_comm]

/-- The nodes of a list stop a duty and keep the others. -/
theorem running_stop (config : ServiceConfiguration) (tier other : Tier) (nodes : List WebServiceNode) :
    (config.setRunning tier false nodes).running other =
      if other = tier then config.running other \ (nodes.map WebServiceNode.id).toFinset else config.running other := by
  ext id
  rw [mem_setRunning]
  split
  · rename_i here
    rw [Finset.mem_sdiff, List.mem_toFinset, mem_running]
    constructor
    · rintro ⟨node, member, rfl, state⟩
      split at state
      · cases state
      · rename_i chosen
        exact ⟨⟨node, member, state, rfl⟩, fun inside => chosen ⟨here, inside⟩⟩
    · rintro ⟨⟨node, member, runs, rfl⟩, outside⟩
      exact ⟨node, member, rfl, by rwa [if_neg fun both => outside both.2]⟩
  · rename_i apart
    rw [mem_running]
    simp only [apart, false_and, if_false]
    exact exists_congr fun node => and_congr_right fun _ => and_comm

/-- One node of the configuration starts a duty and keeps the others. -/
theorem running_start {node : WebServiceNode} (known : node.id ∈ config.ids) (tier other : Tier) :
    (config.setRunning tier true [node]).running other =
      if other = tier then insert node.id (config.running other) else config.running other := by
  ext id
  rw [mem_setRunning]
  split
  · rename_i here
    rw [Finset.mem_insert, mem_running]
    constructor
    · rintro ⟨row, member, rfl, state⟩
      split at state
      · rename_i chosen
        exact Or.inl (by simpa using chosen.2)
      · exact Or.inr ⟨row, member, state, rfl⟩
    · rintro (rfl | ⟨row, member, runs, rfl⟩)
      · obtain ⟨row, member, same⟩ := mem_ids.mp known
        exact ⟨row, member, same, by simp [here, same]⟩
      · exact ⟨row, member, rfl, by split <;> trivial⟩
  · rename_i apart
    rw [mem_running]
    simp only [apart, false_and, if_false]
    exact exists_congr fun node => and_congr_right fun _ => and_comm

theorem updateRoles_running (config : ServiceConfiguration) (tier : Tier) :
    config.updateRoles.running tier = config.running tier := by
  ext id
  have rows : config.updateRoles.serviceNodes.rows = config.serviceNodes.rows.map WebServiceNode.updateRole := rfl
  refine (running_map rows WebServiceNode.id_updateRole).trans ?_
  rw [mem_running]
  simp only [WebServiceNode.runs_updateRole]

theorem updateRoles_ids (config : ServiceConfiguration) : config.updateRoles.ids = config.ids :=
  have rows : config.updateRoles.serviceNodes.rows = config.serviceNodes.rows.map WebServiceNode.updateRole := rfl
  ids_map rows WebServiceNode.id_updateRole

section Put

variable {node : WebServiceNode} (new : node.id ∉ config.ids)

include new

theorem put_rows : (config.serviceNodes.put node).rows = node :: config.serviceNodes.rows :=
  Table.put_fresh (Table.get?_none_iff.mpr fun row member same => new (mem_ids.mpr ⟨row, member, same⟩))

theorem put_ids : ids { config with serviceNodes := config.serviceNodes.put node } = insert node.id config.ids := by
  simp only [ids, put_rows new, List.map_cons, List.toFinset_cons]

/-- A node with a new id is added to the duties it runs. -/
theorem put_running (tier : Tier) : running { config with serviceNodes := config.serviceNodes.put node } tier =
    if node.runs tier then insert node.id (config.running tier) else config.running tier := by
  simp only [running, getServiceNodes, put_rows new, List.filter_cons]
  split
  · rw [List.map_cons, List.toFinset_cons]
  · rfl

end Put

/-- Entering a new node adds it to its duty only. -/
theorem enterNodes_spec {pairs : List (ServiceNode × Tier)} (distinct : (pairs.map fun pair => pair.1.id).Nodup)
    (fresh : ∀ pair ∈ pairs, pair.1.id ∉ config.ids) :
    (config.enterNodes pairs).ids = config.ids ∪ (pairs.map fun pair => pair.1.id).toFinset ∧
      ∀ tier, (config.enterNodes pairs).running tier = config.running tier ∪
        ((pairs.filter fun pair => pair.2 = tier).map fun pair => pair.1.id).toFinset := by
  induction pairs generalizing config with
  | nil => simp [enterNodes]
  | cons pair rest ih =>
    obtain ⟨node, duty⟩ := pair
    obtain ⟨apart, distinct⟩ := List.nodup_cons.mp distinct
    have new : (WebServiceNode.create node defaultNodeWeight defaultNodeWeight duty).id ∉ config.ids :=
      fresh _ (List.mem_cons_self ..)
    have entered : ids { config with
        serviceNodes := config.serviceNodes.put (.create node defaultNodeWeight defaultNodeWeight duty) } =
        insert node.id config.ids := put_ids new
    obtain ⟨allIds, each⟩ := @ih { config with
      serviceNodes := config.serviceNodes.put (.create node defaultNodeWeight defaultNodeWeight duty) } distinct (by
        intro later member inside
        rw [entered] at inside
        rcases Finset.mem_insert.mp inside with same | old
        · exact apart (List.mem_map.mpr ⟨later, member, same⟩)
        · exact fresh later (List.mem_cons_of_mem _ member) old)
    refine ⟨?_, fun tier => ?_⟩
    · rw [enterNodes, allIds, entered, List.map_cons, List.toFinset_cons, Finset.insert_union, Finset.union_insert]
    · rw [enterNodes, each tier]
      have head : running { config with
          serviceNodes := config.serviceNodes.put (.create node defaultNodeWeight defaultNodeWeight duty) } tier =
          if duty = tier then insert node.id (config.running tier) else config.running tier := by
        have runs : (WebServiceNode.create node defaultNodeWeight defaultNodeWeight duty).runs tier =
            decide (duty = tier) := by
          cases tier <;> cases duty <;> rfl
        rw [put_running new, runs]
        simp only [decide_eq_true_eq]
        rfl
      rw [head, List.filter_cons]
      by_cases here : duty = tier
      · rw [if_pos here, if_pos (by simpa using here), List.map_cons, List.toFinset_cons, Finset.insert_union,
          Finset.union_insert]
      · rw [if_neg here, if_neg (by simpa using here)]

theorem proxy_same_iff {node : WebServiceNode} (member : node ∈ config.serviceNodes.rows) :
    (config.getProxyServiceNodes.any fun proxy => proxy.same node.toServiceNode) = true ↔
      node.id ∈ config.running .proxy := by
  rw [List.any_eq_true, mem_running]
  constructor
  · rintro ⟨proxy, inside, same⟩
    obtain ⟨stored, runs⟩ := List.mem_filter.mp inside
    simp only [ServiceNode.same, Bool.and_eq_true, decide_eq_true_eq] at same
    exact ⟨proxy, stored, runs, same.1⟩
  · rintro ⟨proxy, stored, runs, same⟩
    have equal := config.serviceNodes.unique stored member same
    exact ⟨proxy, List.mem_filter.mpr ⟨stored, runs⟩, by simp [ServiceNode.same, equal]⟩

theorem running_of_nodes {nodes : List WebServiceNode} (list : config.getServiceNodes tier = nodes) :
    config.running tier = (nodes.map WebServiceNode.id).toFinset := by
  rw [running, list]

/-- The counters of web servers and backends count zero for a packed duty. -/
theorem countPacked_eq (config : ServiceConfiguration) (tier : Tier) :
    config.countPacked tier =
      if ∃ id ∈ config.running .proxy, config.running tier = {id} then 0 else ((config.running tier).card : Int) := by
  have size := config.card_running tier
  unfold countPacked
  split
  · rename_i node alone
    have set : config.running tier = {node.id} := by rw [running_of_nodes alone]; rfl
    have member : node ∈ config.serviceNodes.rows :=
      (List.mem_filter.mp (show node ∈ config.getServiceNodes tier by rw [alone]; exact List.mem_singleton_self _)).1
    have packed : (∃ id ∈ config.running .proxy, config.running tier = {id}) ↔
        (config.getProxyServiceNodes.any fun proxy => proxy.same node.toServiceNode) = true := by
      rw [proxy_same_iff member, set]
      constructor
      · rintro ⟨id, host, same⟩
        rwa [Finset.singleton_injective same]
      · exact fun host => ⟨_, host, rfl⟩
    have one : ((config.running tier).card : Int) = 1 := by rw [set]; rfl
    rw [one]
    exact if_congr packed.symm rfl rfl
  · rename_i several
    rw [if_neg]
    · rw [size]
    · rintro ⟨id, _, same⟩
      rw [same, Finset.card_singleton] at size
      obtain ⟨node, alone⟩ := List.length_eq_one_iff.mp size.symm
      exact several node alone

/-- The packing of a configuration: every duty is run, every node runs one, the
counters count the nodes of each duty, with zero for a duty that is packed on a
proxy, a duty with nodes of its own is not run by proxies as well, and several
proxies have no duty packed on them. -/
structure Packed (config : ServiceConfiguration) : Prop where
  covered : ∀ tier, ∃ node ∈ config.serviceNodes.rows, node.runs tier = true
  used : ∀ node ∈ config.serviceNodes.rows, node.isUsed = true
  proxyCount : config.proxyCount = config.getProxyServiceNodes.length
  packed : ∀ tier, tier ≠ .proxy → (∃ node, config.getServiceNodes tier = [node] ∧ node.isRunningProxy = true) →
    config.count tier = 0
  counted : ∀ tier, tier ≠ .proxy → (¬ ∃ node, config.getServiceNodes tier = [node] ∧ node.isRunningProxy = true) →
    config.count tier = (config.getServiceNodes tier).length
  apart : ∀ tier, tier ≠ .proxy → 0 < config.count tier → ∀ node ∈ config.serviceNodes.rows,
    node.isRunningProxy = true → node.runs tier = false
  several : 1 < config.proxyCount → 0 < config.webCount ∧ 0 < config.backendCount

/-- The same in terms of the sets of nodes that run the duties. -/
structure Balanced (config : ServiceConfiguration) : Prop where
  hosts : (config.running .proxy).Nonempty
  used : ∀ id ∈ config.ids, ∃ tier, id ∈ config.running tier
  proxyCount : config.proxyCount = (config.running .proxy).card
  shared : ∀ tier, tier ≠ .proxy → Shared (config.running .proxy) (config.running tier) (config.count tier)
  several : 1 < config.proxyCount → 0 < config.webCount ∧ 0 < config.backendCount

theorem packed_alone_iff (config : ServiceConfiguration) (tier : Tier) :
    (∃ node, config.getServiceNodes tier = [node] ∧ node.isRunningProxy = true) ↔
      ∃ id ∈ config.running .proxy, config.running tier = {id} := by
  constructor
  · rintro ⟨node, alone, proxy⟩
    have member := (List.mem_filter.mp (show node ∈ config.getServiceNodes tier by rw [alone]; simp)).1
    exact ⟨node.id, (runs_iff member).mp proxy, by rw [running_of_nodes alone]; rfl⟩
  · rintro ⟨id, host, same⟩
    have size := config.card_running tier
    rw [same, Finset.card_singleton] at size
    obtain ⟨node, alone⟩ := List.length_eq_one_iff.mp size.symm
    have member := (List.mem_filter.mp (show node ∈ config.getServiceNodes tier by rw [alone]; simp)).1
    have equal : id = node.id := by
      rw [running_of_nodes alone] at same
      exact (Finset.singleton_injective same).symm
    have proxy : node.runs .proxy = true := (runs_iff member).mpr (equal ▸ host)
    exact ⟨node, alone, proxy⟩

theorem Packed.balanced (packing : config.Packed) : config.Balanced where
  hosts := by
    obtain ⟨node, member, runs⟩ := packing.covered .proxy
    exact ⟨node.id, (runs_iff member).mp runs⟩
  used := by
    intro id member
    obtain ⟨node, inside, rfl⟩ := mem_ids.mp member
    obtain ⟨tier, runs⟩ := WebServiceNode.isUsed_iff.mp (packing.used node inside)
    exact ⟨tier, (runs_iff inside).mp runs⟩
  proxyCount := by rw [packing.proxyCount, card_running]; rfl
  shared := by
    intro tier own
    refine ⟨?_, ?_, fun positive => ?_⟩
    · obtain ⟨node, member, runs⟩ := packing.covered tier
      exact ⟨node.id, (runs_iff member).mp runs⟩
    · split
      · rename_i alone
        exact packing.packed tier own ((packed_alone_iff config tier).mpr alone)
      · rename_i several
        rw [card_running]
        exact packing.counted tier own (several ∘ (packed_alone_iff config tier).mp)
    · refine Finset.disjoint_left.mpr fun id host worker => ?_
      obtain ⟨node, member, proxy, rfl⟩ := mem_running.mp host
      have idle := packing.apart tier own positive node member proxy
      rw [(runs_iff member).mpr worker] at idle
      cases idle
  several := packing.several

theorem Balanced.packed (balance : config.Balanced) : config.Packed where
  covered := by
    intro tier
    have some : (config.running tier).Nonempty := by
      by_cases host : tier = .proxy
      · exact host ▸ balance.hosts
      · exact (balance.shared tier host).nonempty
    obtain ⟨id, member⟩ := some
    obtain ⟨node, inside, runs, _⟩ := mem_running.mp member
    exact ⟨node, inside, runs⟩
  used := by
    intro node member
    obtain ⟨tier, runs⟩ := balance.used node.id (mem_ids.mpr ⟨node, member, rfl⟩)
    exact WebServiceNode.isUsed_iff.mpr ⟨tier, (runs_iff member).mpr runs⟩
  proxyCount := by rw [balance.proxyCount, card_running]; rfl
  packed := by
    intro tier own alone
    rw [(balance.shared tier own).counted, if_pos ((packed_alone_iff config tier).mp alone)]
  counted := by
    intro tier own several
    rw [(balance.shared tier own).counted, if_neg (several ∘ (packed_alone_iff config tier).mpr), card_running]
  apart := by
    intro tier own positive node member proxy
    have apart := Finset.disjoint_left.mp ((balance.shared tier own).apart positive) ((runs_iff member).mp proxy)
    exact Bool.eq_false_iff.mpr fun runs => apart ((runs_iff member).mp runs)
  several := balance.several

/-- Recounting writes the counters of a configuration whose nodes are packed. -/
theorem recount_balanced {counts : Tier → Int} (hosts : (config.running .proxy).Nonempty)
    (used : ∀ id ∈ config.ids, ∃ tier, id ∈ config.running tier)
    (size : counts .proxy = (config.running .proxy).card)
    (shared : ∀ tier, tier ≠ .proxy → Shared (config.running .proxy) (config.running tier) (counts tier))
    (several : 1 < counts .proxy → 0 < counts .web ∧ 0 < counts .backend) :
    config.recount.Balanced ∧ ∀ tier, config.recount.count tier = counts tier := by
  have counted (tier : Tier) : config.recount.count tier = counts tier := by
    cases tier with
    | proxy => exact (congrArg Int.ofNat (config.card_running .proxy).symm).trans size.symm
    | web => exact (config.countPacked_eq .web).trans (shared .web (by decide)).counted.symm
    | backend => exact (config.countPacked_eq .backend).trans (shared .backend (by decide)).counted.symm
  refine ⟨⟨hosts, used, (counted .proxy).trans size, fun tier own => ?_, fun many => ?_⟩, counted⟩
  · rw [counted tier]
    exact shared tier own
  · obtain ⟨web, backend⟩ := several ((counted .proxy) ▸ many)
    exact ⟨web.trans_eq (counted .web).symm, backend.trans_eq (counted .backend).symm⟩

theorem zip_fst_sublist {α β : Type} (left : List α) (right : List β) : ((left.zip right).map Prod.fst).Sublist left := by
  induction left generalizing right with
  | nil => simp
  | cons head tail ih =>
    cases right with
    | nil => simp
    | cons _ rest => exact (ih rest).cons_cons head

/-- The ids of the new nodes that get a duty. -/
def newIds (nodes : List ServiceNode) (tier : Tier) : Finset String :=
  (((nodes.zip (newDuties nodes)).filter fun pair => pair.2 = tier).map fun pair => pair.1.id).toFinset

theorem supplied_cons (node : ServiceNode) (rest : List ServiceNode) (tier : Tier) :
    supplied (node :: rest) tier = supplied rest tier + if node.role = tier.role then 1 else 0 := by
  unfold supplied
  rw [List.filter_cons]
  by_cases here : node.role = tier.role <;> simp [here]

/-- A node is supplied in one role. -/
theorem supplied_le (nodes : List ServiceNode) :
    supplied nodes .proxy + supplied nodes .web + supplied nodes .backend ≤ nodes.length := by
  induction nodes with
  | nil => simp [supplied]
  | cons node rest ih =>
    have once : (if node.role = Tier.proxy.role then 1 else 0) + (if node.role = Tier.web.role then 1 else 0) +
        (if node.role = Tier.backend.role then 1 else 0) ≤ 1 := by
      split_ifs <;> simp_all [Tier.role]
    simp only [supplied_cons, List.length_cons]
    omega

theorem newDuties_length (nodes : List ServiceNode) : (newDuties nodes).length ≤ nodes.length := by
  have enough := supplied_le nodes
  simp only [newDuties, List.length_append, List.length_replicate]
  omega

theorem newDuties_count (nodes : List ServiceNode) (tier : Tier) :
    ((newDuties nodes).filter fun duty => duty = tier).length = supplied nodes tier := by
  cases tier <;> simp [newDuties, List.filter_append]

section New

variable {nodes : List ServiceNode} (distinct : (nodes.map ServiceNode.id).Nodup)

include distinct

theorem pairs_nodup : ((nodes.zip (newDuties nodes)).map fun pair => pair.1.id).Nodup := by
  have ids := (zip_fst_sublist nodes (newDuties nodes)).map ServiceNode.id
  rw [List.map_map] at ids
  exact distinct.sublist ids

/-- As many nodes get a duty as were supplied for it. -/
theorem newIds_card (tier : Tier) : (newIds nodes tier).card = supplied nodes tier := by
  rw [newIds, List.toFinset_card_of_nodup ((pairs_nodup distinct).sublist (List.filter_sublist.map _)),
    List.length_map, ← newDuties_count]
  have duties : (nodes.zip (newDuties nodes)).map Prod.snd = newDuties nodes :=
    List.map_snd_zip (newDuties_length nodes)
  conv_rhs => rw [← duties, List.filter_map, List.length_map]
  rfl

/-- No new node gets two duties. -/
theorem newIds_disjoint (apart : tier ≠ other) : Disjoint (newIds nodes tier) (newIds nodes other) := by
  refine Finset.disjoint_left.mpr fun id left right => ?_
  simp only [newIds, List.mem_toFinset, List.mem_map, List.mem_filter, decide_eq_true_eq] at left right
  obtain ⟨first, ⟨inside, duty⟩, rfl⟩ := left
  obtain ⟨second, ⟨inside', duty'⟩, same⟩ := right
  have equal := List.inj_on_of_nodup_map (pairs_nodup distinct) inside' inside same
  exact apart (duty.symm.trans (equal ▸ duty'))

end New

theorem newIds_fresh {nodes : List ServiceNode} (fresh : ∀ node ∈ nodes, node.id ∉ config.ids) (tier : Tier) :
    Disjoint config.ids (newIds nodes tier) := by
  refine Finset.disjoint_left.mpr fun id old new => ?_
  simp only [newIds, List.mem_toFinset, List.mem_map, List.mem_filter] at new
  obtain ⟨pair, ⟨inside, _⟩, rfl⟩ := new
  exact fresh pair.1 (List.of_mem_zip inside).1 old

/-- The relieved node is the one a duty is packed on. -/
theorem Balanced.unpacked (balance : config.Balanced) (own : tier ≠ .proxy) (requested : Nat) :
    ∃ kill, config.unpacked tier requested = .ok kill ∧
      (0 < requested → config.count tier = 0 → (kill.map WebServiceNode.id).toFinset = config.running tier) ∧
      (requested = 0 ∨ config.count tier ≠ 0 → (kill.map WebServiceNode.id).toFinset = ∅) := by
  unfold ServiceConfiguration.unpacked
  split
  · rename_i packed
    rcases (balance.shared tier own).cases with ⟨_, id, _, alone⟩ | ⟨positive, _⟩
    · have size := config.card_running tier
      rw [alone, Finset.card_singleton] at size
      obtain ⟨node, list⟩ := List.length_eq_one_iff.mp size.symm
      rw [list]
      refine ⟨[node], rfl, fun _ _ => (running_of_nodes list).symm, fun either => ?_⟩
      rcases either with none | some
      · omega
      · exact absurd packed.2 some
    · omega
  · rename_i separate
    exact ⟨[], rfl, fun some zero => absurd ⟨some, zero⟩ separate, fun _ => rfl⟩

theorem newIds_apart {nodes : List ServiceNode} (fresh : ∀ node ∈ nodes, node.id ∉ config.ids) (tier other : Tier) :
    Disjoint (config.running tier) (newIds nodes other) :=
  Finset.disjoint_of_subset_left (config.running_subset_ids tier) (newIds_fresh fresh other)

/-- The nodes that lose a duty, of three lists of nodes. -/
def killed (proxyKill webKill backendKill : List WebServiceNode) : Tier → Finset String
  | .proxy => (proxyKill.map WebServiceNode.id).toFinset
  | .web => (webKill.map WebServiceNode.id).toFinset
  | .backend => (backendKill.map WebServiceNode.id).toFinset

theorem stopWebAndBackend_ids (config : ServiceConfiguration) (webKill backendKill : List WebServiceNode) :
    (config.stopWebAndBackend webKill backendKill).ids = config.ids := by
  rw [stopWebAndBackend, setRunning_ids, setRunning_ids]

theorem stopWebAndBackend_running (config : ServiceConfiguration) (webKill backendKill : List WebServiceNode)
    (tier : Tier) : (config.stopWebAndBackend webKill backendKill).running tier =
      config.running tier \ killed [] webKill backendKill tier := by
  rw [stopWebAndBackend, running_stop, running_stop]
  cases tier <;> simp [killed]

theorem checkAddNodes_ok {nodeRoles : NodeRoles} (checked : config.checkAddNodes nodeRoles = .ok ())
    (many : 1 < config.proxyCount + nodeRoles Tier.proxy.role) :
    config.webCount + nodeRoles Tier.web.role ≠ 0 ∧ config.backendCount + nodeRoles Tier.backend.role ≠ 0 := by
  simp only [checkAddNodes] at checked
  split at checked
  · cases checked
  · omega

theorem Balanced.count_nonneg (balance : config.Balanced) (tier : Tier) : 0 ≤ config.count tier := by
  by_cases host : tier = .proxy
  · subst host
    exact (Int.natCast_nonneg _).trans_eq balance.proxyCount.symm
  · exact (balance.shared tier host).nonneg

/-- New nodes join the duties and relieve the proxy of packed ones. -/
theorem Balanced.joined (balance : config.Balanced) {full : ServiceConfiguration} {gone new : Tier → Finset String}
    (running : ∀ tier, full.running tier = config.running tier \ gone tier ∪ new tier)
    (ids : ∀ id ∈ full.ids, id ∈ config.ids ∨ ∃ tier, id ∈ new tier) (stay : gone .proxy = ∅)
    (fresh : ∀ tier other, Disjoint (config.running tier) (new other))
    (apart : ∀ {tier other}, tier ≠ other → Disjoint (new tier) (new other))
    (relieved : ∀ tier, tier ≠ .proxy → 0 < (new tier).card → config.count tier = 0 → gone tier = config.running tier)
    (others : ∀ tier, tier ≠ .proxy → (new tier).card = 0 ∨ config.count tier ≠ 0 → gone tier = ∅)
    (several : 1 < config.proxyCount + (new .proxy).card →
      config.webCount + (new .web).card ≠ 0 ∧ config.backendCount + (new .backend).card ≠ 0) :
    full.recount.Balanced ∧ ∀ tier, full.recount.count tier = config.count tier + (new tier).card := by
  have hosts : full.running .proxy = config.running .proxy ∪ new .proxy := by
    rw [running, stay, Finset.sdiff_empty]
  have shared (tier : Tier) (own : tier ≠ .proxy) :
      Shared (full.running .proxy) (full.running tier) (config.count tier + (new tier).card) := by
    rw [hosts, running]
    exact (balance.shared tier own).join (fresh tier tier)
      (Finset.disjoint_union_left.mpr ⟨fresh .proxy tier, apart own.symm⟩) (fresh tier .proxy).symm
      (relieved tier own) (others tier own)
  have proxies (tier : Tier) (own : tier ≠ .proxy) : gone tier ⊆ config.running .proxy := by
    rcases (balance.shared tier own).cases with ⟨zero, a, host, alone⟩ | ⟨positive, _⟩
    · rcases Nat.eq_zero_or_pos (new tier).card with none | some
      · rw [others tier own (Or.inl none)]
        exact Finset.empty_subset _
      · rw [relieved tier own some zero, alone]
        exact Finset.singleton_subset_iff.mpr host
    · rw [others tier own (Or.inr (by omega))]
      exact Finset.empty_subset _
  have used : ∀ id ∈ full.ids, ∃ tier, id ∈ full.running tier := by
    intro id member
    rcases ids id member with old | ⟨tier, inside⟩
    · obtain ⟨tier, runs⟩ := balance.used id old
      by_cases host : id ∈ config.running .proxy
      · exact ⟨.proxy, hosts ▸ Finset.mem_union_left _ host⟩
      · have own : tier ≠ .proxy := fun proxy => host (proxy ▸ runs)
        refine ⟨tier, ?_⟩
        rw [running]
        exact Finset.mem_union_left _ (Finset.mem_sdiff.mpr ⟨runs, fun stopped => host (proxies tier own stopped)⟩)
    · exact ⟨tier, by rw [running]; exact Finset.mem_union_right _ inside⟩
  have size : config.count .proxy + ((new .proxy).card : Int) = (full.running .proxy).card := by
    rw [hosts, Finset.card_union_of_disjoint (fresh .proxy .proxy), Int.natCast_add]
    exact congrArg (· + ((new .proxy).card : Int)) balance.proxyCount
  refine recount_balanced ?_ used size shared fun many => ?_
  · rw [hosts]
    exact balance.hosts.mono Finset.subset_union_left
  · have enough := several many
    have web := balance.count_nonneg .web
    have backend := balance.count_nonneg .backend
    simp only [ServiceConfiguration.count] at web backend ⊢
    omega

/-- The new nodes are entered for their duties, beside those that are relieved. -/
theorem entered_spec {nodes : List ServiceNode} (distinct : (nodes.map ServiceNode.id).Nodup) (fresh : ∀ node ∈ nodes, node.id ∉ config.ids)
    (webKill backendKill : List WebServiceNode) :
    ((config.stopWebAndBackend webKill backendKill).enterNodes (nodes.zip (newDuties nodes))).updateMappings.updateRoles.ids =
        config.ids ∪ ((nodes.zip (newDuties nodes)).map fun pair => pair.1.id).toFinset ∧
      ∀ tier, ((config.stopWebAndBackend webKill backendKill).enterNodes
        (nodes.zip (newDuties nodes))).updateMappings.updateRoles.running tier =
          config.running tier \ killed [] webKill backendKill tier ∪ newIds nodes tier := by
  obtain ⟨ids, entered⟩ := @enterNodes_spec (config.stopWebAndBackend webKill backendKill) _ (pairs_nodup distinct)
    fun pair member => by
      rw [stopWebAndBackend_ids]
      exact fresh pair.1 (List.of_mem_zip member).1
  rw [stopWebAndBackend_ids] at ids
  refine ⟨(updateRoles_ids _).trans ids, fun tier => ?_⟩
  rw [updateRoles_running, ← stopWebAndBackend_running]
  exact entered tier

/-- Adding nodes keeps the packing and counts what was requested. -/
theorem Balanced.onAddNodes (balance : config.Balanced) {nodeRoles : NodeRoles}
    (checked : config.checkAddNodes nodeRoles = .ok ()) {nodes : List ServiceNode}
    (roles : ∀ tier : Tier, supplied nodes tier = nodeRoles tier.role) (distinct : (nodes.map ServiceNode.id).Nodup)
    (fresh : ∀ node ∈ nodes, node.id ∉ config.ids) :
    ∃ after, config.onAddNodes nodes = .ok after ∧ after.Balanced ∧
      ∀ tier, after.count tier = config.count tier + nodeRoles tier.role := by
  obtain ⟨backendKill, backendRun, backendPacked, backendOwn⟩ :=
    balance.unpacked (show Tier.backend ≠ .proxy by decide) (supplied nodes .backend)
  obtain ⟨webKill, webRun, webPacked, webOwn⟩ :=
    balance.unpacked (show Tier.web ≠ .proxy by decide) (supplied nodes .web)
  have card (tier : Tier) : (newIds nodes tier).card = nodeRoles tier.role := (newIds_card distinct tier).trans (roles tier)
  obtain ⟨ids, running⟩ := entered_spec distinct fresh webKill backendKill
  obtain ⟨after, counted⟩ := balance.joined running
    (fun id member => by
      refine (Finset.mem_union.mp (ids ▸ member)).imp_right fun new => ?_
      obtain ⟨pair, inside, rfl⟩ := List.mem_map.mp (List.mem_toFinset.mp new)
      exact ⟨pair.2, List.mem_toFinset.mpr (List.mem_map_of_mem (List.mem_filter.mpr ⟨inside, by simp⟩))⟩)
    rfl (newIds_apart fresh) (newIds_disjoint distinct)
    (fun tier own => by
      rw [newIds_card distinct]
      cases tier with
      | proxy => exact absurd rfl own
      | web => exact webPacked
      | backend => exact backendPacked)
    (fun tier own => by
      rw [newIds_card distinct]
      cases tier with
      | proxy => exact absurd rfl own
      | web => exact webOwn
      | backend => exact backendOwn)
    (fun many => by
      rw [card] at many ⊢
      rw [card]
      exact checkAddNodes_ok checked many)
  refine ⟨_, ?_, after, fun tier => by rw [counted, card]⟩
  simp only [ServiceConfiguration.onAddNodes, backendRun, webRun]

/-- The last nodes of a duty stop it, as many as were asked for. -/
theorem nodesKill_spec {requested : Nat} (enough : requested ≤ (config.running tier).card) :
    ((config.nodesKill tier requested).map WebServiceNode.id).toFinset ⊆ config.running tier ∧
      ((config.nodesKill tier requested).map WebServiceNode.id).toFinset.card = requested := by
  rw [card_running] at enough
  unfold nodesKill
  split
  · have part : (lastNodes (config.getServiceNodes tier) requested).Sublist (config.getServiceNodes tier) :=
      List.drop_sublist _ _
    refine ⟨fun id member => ?_, ?_⟩
    · exact List.mem_toFinset.mpr ((part.map _).subset (List.mem_toFinset.mp member))
    · rw [List.toFinset_card_of_nodup ((config.getServiceNodes_ids_nodup tier).sublist (part.map _)), List.length_map,
        lastNodes, List.length_drop]
      omega
  · rename_i none
    exact ⟨by simp, by simp; omega⟩

/-- The first proxy does not stop while one stays. -/
theorem packingNode_stays {node : WebServiceNode} {rest : List WebServiceNode}
    (list : config.getProxyServiceNodes = node :: rest) {requested : Nat}
    (fewer : requested < (config.running .proxy).card) :
    node.id ∈ config.running .proxy \ ((config.nodesKill .proxy requested).map WebServiceNode.id).toFinset := by
  have distinct := config.getServiceNodes_ids_nodup .proxy
  rw [card_running] at fewer
  change config.getServiceNodes .proxy = node :: rest at list
  rw [list] at distinct fewer
  refine Finset.mem_sdiff.mpr ⟨by rw [running, list]; simp, fun stopped => ?_⟩
  unfold nodesKill at stopped
  split at stopped
  · rw [List.mem_toFinset, lastNodes, list] at stopped
    obtain ⟨k, size⟩ : ∃ k, (node :: rest).length - requested = k + 1 := ⟨(node :: rest).length - requested - 1, by omega⟩
    rw [size, List.drop_succ_cons] at stopped
    exact (List.nodup_cons.mp distinct).1 (((List.drop_sublist k rest).map _).subset stopped)
  · simp at stopped

/-- Nodes leave the duties, and a proxy that stays takes over those which lose
the last node of their own. -/
theorem Balanced.removed (balance : config.Balanced) {full : ServiceConfiguration} {gone : Tier → Finset String}
    {host : String} (hosts : full.running .proxy = config.running .proxy \ gone .proxy)
    (stays : host ∈ config.running .proxy \ gone .proxy)
    (running : ∀ tier, tier ≠ .proxy → full.running tier =
      if 0 < (gone tier).card ∧ config.count tier = (gone tier).card then insert host (config.running tier \ gone tier)
      else config.running tier \ gone tier)
    (inside : ∀ tier, gone tier ⊆ config.running tier)
    (enough : ∀ tier, tier ≠ .proxy → ((gone tier).card : Int) ≤ config.count tier)
    (used : ∀ id ∈ full.ids, ∃ tier, id ∈ full.running tier)
    (several : 1 < config.proxyCount - (gone .proxy).card →
      0 < config.webCount - (gone .web).card ∧ 0 < config.backendCount - (gone .backend).card) :
    full.recount.Balanced ∧ ∀ tier, full.recount.count tier = config.count tier - (gone tier).card := by
  -- A packed duty leaves room for one proxy only, and that one stays.
  have alone (tier : Tier) (own : tier ≠ .proxy) (zero : config.count tier = 0) :
      config.running .proxy \ gone .proxy = config.running .proxy := by
    refine Finset.eq_of_subset_of_card_le Finset.sdiff_subset ?_
    have one : config.proxyCount ≤ 1 := by
      by_contra many
      have counts := balance.several (by omega)
      cases tier with
      | proxy => exact own rfl
      | web => simp only [ServiceConfiguration.count] at zero; omega
      | backend => simp only [ServiceConfiguration.count] at zero; omega
    have size := balance.proxyCount
    have some := Finset.card_pos.mpr ⟨host, stays⟩
    omega
  refine recount_balanced (hosts ▸ ⟨host, stays⟩) used ?_ (fun tier own => ?_) several
  · have size := Finset.card_sdiff_add_card_eq_card (inside .proxy)
    have before := balance.proxyCount
    simp only [ServiceConfiguration.count, hosts]
    omega
  · rw [hosts, running tier own]
    exact (balance.shared tier own).remove (inside tier) (enough tier own) Finset.sdiff_subset stays (alone tier own)

theorem mem_deleteUnused {id : String} :
    id ∈ config.deleteUnused.1.running tier ↔ id ∈ config.running tier := by
  rw [mem_running, mem_running]
  constructor
  · rintro ⟨node, member, runs, same⟩
    exact ⟨node, (List.mem_filter.mp member).1, runs, same⟩
  · rintro ⟨node, member, runs, same⟩
    exact ⟨node, List.mem_filter.mpr ⟨member, WebServiceNode.isUsed_iff.mpr ⟨tier, runs⟩⟩, runs, same⟩

theorem deleteUnused_running (config : ServiceConfiguration) (tier : Tier) :
    config.deleteUnused.1.running tier = config.running tier := Finset.ext fun _ => mem_deleteUnused

theorem deleteUnused_used (config : ServiceConfiguration) :
    ∀ id ∈ config.deleteUnused.1.ids, ∃ tier, id ∈ config.deleteUnused.1.running tier := by
  intro id member
  obtain ⟨node, inside, rfl⟩ := mem_ids.mp member
  obtain ⟨tier, runs⟩ := WebServiceNode.isUsed_iff.mp (List.mem_filter.mp inside).2
  exact ⟨tier, (runs_iff inside).mp runs⟩

/-- The nodes that are returned are the nodes without a duty, and they are
not in the configuration any more. -/
structure Released (before after : ServiceConfiguration) (nodes : List WebServiceNode) : Prop where
  once : (nodes.map WebServiceNode.id).Nodup
  unused : ∀ node ∈ nodes, node.isUsed = false
  exactly : ∀ id ∈ before.ids, id ∈ nodes.map WebServiceNode.id ↔ ∀ tier, id ∉ after.running tier
  kept : ∀ id, id ∈ after.ids ↔ id ∈ before.ids ∧ id ∉ nodes.map WebServiceNode.id
  known : ∀ node ∈ nodes, node.id ∈ before.ids

theorem deleteUnused_released {before : ServiceConfiguration} (ids : config.ids = before.ids) :
    Released before config.deleteUnused.1.recount config.deleteUnused.2 where
  once := config.serviceNodes.keyed.sublist (List.filter_sublist.map WebServiceNode.id)
  unused := by
    intro node member
    simpa using (List.mem_filter.mp member).2
  exactly := by
    intro id member
    obtain ⟨node, inside, rfl⟩ := mem_ids.mp (ids ▸ member)
    have duties : (∀ tier, node.id ∉ config.deleteUnused.1.recount.running tier) ↔ node.isUsed = false := by
      rw [← Bool.not_eq_true, WebServiceNode.isUsed_iff, not_exists]
      refine forall_congr' fun tier => not_congr ?_
      exact mem_deleteUnused.trans (runs_iff inside).symm
    rw [duties, List.mem_map]
    constructor
    · rintro ⟨other, chosen, same⟩
      obtain ⟨stored, idle⟩ := List.mem_filter.mp chosen
      rw [← config.serviceNodes.unique stored inside same]
      simpa using idle
    · exact fun idle => ⟨node, List.mem_filter.mpr ⟨inside, by simpa using idle⟩, rfl⟩
  kept := by
    intro id
    rw [← ids]
    refine (show id ∈ config.deleteUnused.1.ids ↔ _ from mem_ids).trans ?_
    rw [mem_ids, List.mem_map]
    constructor
    · rintro ⟨node, member, rfl⟩
      obtain ⟨stored, busy⟩ := List.mem_filter.mp member
      refine ⟨⟨node, stored, rfl⟩, ?_⟩
      rintro ⟨other, chosen, same⟩
      obtain ⟨stored', idle⟩ := List.mem_filter.mp chosen
      rw [config.serviceNodes.unique stored' stored same, busy] at idle
      cases idle
    · rintro ⟨⟨node, stored, rfl⟩, outside⟩
      refine ⟨node, List.mem_filter.mpr ⟨stored, ?_⟩, rfl⟩
      by_contra idle
      exact outside ⟨node, List.mem_filter.mpr ⟨stored, by simpa using idle⟩, rfl⟩
  known := by
    intro node member
    rw [← ids]
    exact mem_ids.mpr ⟨node, (List.mem_filter.mp member).1, rfl⟩

theorem packOn_ids (config : ServiceConfiguration) (tier : Tier) (packing : Bool) (node : WebServiceNode) :
    (config.packOn tier packing node).ids = config.ids := by
  unfold packOn
  split
  · exact setRunning_ids ..
  · rfl

theorem packOn_running {node : WebServiceNode} (known : node.id ∈ config.ids) (tier other : Tier) (packing : Bool) :
    (config.packOn tier packing node).running other =
      if other = tier ∧ packing = true then insert node.id (config.running other) else config.running other := by
  unfold packOn
  cases packing with
  | false => simp
  | true => simp [running_start known]

theorem checkRemoveNodes_ok {nodeRoles : NodeRoles} (checked : config.checkRemoveNodes nodeRoles = .ok ()) :
    1 ≤ config.proxyCount - nodeRoles Tier.proxy.role ∧ (nodeRoles Tier.web.role : Int) ≤ config.webCount ∧
      (nodeRoles Tier.backend.role : Int) ≤ config.backendCount ∧
      (1 < config.proxyCount - nodeRoles Tier.proxy.role →
        0 < config.webCount - nodeRoles Tier.web.role ∧ 0 < config.backendCount - nodeRoles Tier.backend.role) := by
  simp only [checkRemoveNodes] at checked
  split_ifs at checked
  omega

/-- Removing nodes keeps the packing, counts what was requested and returns
the nodes that are not needed any more. -/
theorem Balanced.onRemoveNodes (balance : config.Balanced) {nodeRoles : NodeRoles}
    (checked : config.checkRemoveNodes nodeRoles = .ok ()) :
    ∃ after nodes, config.onRemoveNodes nodeRoles = .ok (after, nodes) ∧ after.Balanced ∧
      (∀ tier, after.count tier = config.count tier - nodeRoles tier.role) ∧ Released config after nodes := by
  obtain ⟨proxies, webs, backends, several⟩ := checkRemoveNodes_ok checked
  have fewer : nodeRoles Tier.proxy.role < (config.running .proxy).card := by
    have size := balance.proxyCount
    omega
  have enough (tier : Tier) : nodeRoles tier.role ≤ (config.running tier).card := by
    have counted (own : tier ≠ .proxy) : config.count tier ≤ (config.running tier).card := by
      rcases (balance.shared tier own).cases with ⟨zero, _⟩ | ⟨_, size, _⟩ <;> omega
    cases tier with
    | proxy => exact fewer.le
    | web => exact_mod_cast webs.trans (counted (by decide))
    | backend => exact_mod_cast backends.trans (counted (by decide))
  obtain ⟨packingNode, rest, list⟩ : ∃ node rest, config.getProxyServiceNodes = node :: rest := by
    cases list : config.getProxyServiceNodes with
    | nil =>
      have none := config.card_running .proxy
      rw [show config.getServiceNodes .proxy = [] from list] at none
      simp only [List.length_nil] at none
      omega
    | cons node rest => exact ⟨node, rest, rfl⟩
  have stays := packingNode_stays list fewer
  let gone : Tier → Finset String :=
    killed (config.nodesKill .proxy (nodeRoles Tier.proxy.role)) (config.nodesKill .web (nodeRoles Tier.web.role))
      (config.nodesKill .backend (nodeRoles Tier.backend.role))
  have spec (tier : Tier) : gone tier ⊆ config.running tier ∧ (gone tier).card = nodeRoles tier.role := by
    cases tier <;> exact nodesKill_spec (enough _)
  let stopped := (config.stopWebAndBackend (config.nodesKill .web (nodeRoles Tier.web.role))
    (config.nodesKill .backend (nodeRoles Tier.backend.role))).setRunning .proxy false
      (config.nodesKill .proxy (nodeRoles Tier.proxy.role))
  let full := ((stopped.packOn .backend (config.packs .backend (nodeRoles Tier.backend.role)) packingNode).packOn .web
    (config.packs .web (nodeRoles Tier.web.role)) packingNode).updateMappings.updateRoles
  have stoppedIds : stopped.ids = config.ids := (setRunning_ids ..).trans (stopWebAndBackend_ids ..)
  have fullIds : full.ids = config.ids :=
    (updateRoles_ids _).trans ((packOn_ids ..).trans ((packOn_ids ..).trans stoppedIds))
  have known : packingNode.id ∈ config.ids := config.running_subset_ids .proxy (Finset.mem_sdiff.mp stays).1
  have stoppedRunning (tier : Tier) : stopped.running tier = config.running tier \ gone tier := by
    refine (running_stop ..).trans ?_
    rw [stopWebAndBackend_running]
    cases tier <;> simp [gone, killed]
  have running (tier : Tier) : full.running tier =
      if tier ≠ .proxy ∧ config.packs tier (nodeRoles tier.role) = true then
        insert packingNode.id (config.running tier \ gone tier)
      else config.running tier \ gone tier := by
    refine (updateRoles_running _ tier).trans ((packOn_running (by rwa [packOn_ids, stoppedIds]) ..).trans ?_)
    rw [packOn_running (by rwa [stoppedIds]), stoppedRunning]
    cases tier <;> simp
  have counted := @Balanced.removed _ balance full.deleteUnused.1 gone packingNode.id
    (by rw [deleteUnused_running, running, if_neg (fun both => both.1 rfl)]) stays
    (fun tier own => by
      rw [deleteUnused_running, running, (spec tier).2]
      refine if_congr ?_ rfl rfl
      simp only [packs, own, ne_eq, not_false_eq_true, true_and, Bool.and_eq_true, decide_eq_true_eq]
      omega)
    (fun tier => (spec tier).1)
    (fun tier own => by
      rw [(spec tier).2]
      cases tier with
      | proxy => exact absurd rfl own
      | web => exact webs
      | backend => exact backends)
    full.deleteUnused_used
    (fun many => by
      rw [(spec .proxy).2] at many
      rw [(spec .web).2, (spec .backend).2]
      exact several many)
  refine ⟨_, _, ?_, counted.1, fun tier => by rw [counted.2, (spec tier).2], deleteUnused_released fullIds⟩
  simp only [ServiceConfiguration.onRemoveNodes, list, firstNode]
  rfl

/-- From every packed configuration, every request to add or to remove nodes
that passes its check leads to a packed configuration, changes the counters by
what was requested and, on removal, returns the nodes left without a duty. -/
theorem packing_kept (packing : config.Packed) :
    (∀ (nodeRoles : NodeRoles) (nodes : List ServiceNode), config.checkAddNodes nodeRoles = .ok () →
      (∀ tier : Tier, supplied nodes tier = nodeRoles tier.role) → (nodes.map ServiceNode.id).Nodup →
      (∀ node ∈ nodes, ∀ known ∈ config.serviceNodes.rows, known.id ≠ node.id) →
      ∃ after, config.onAddNodes nodes = .ok after ∧ after.Packed ∧
        ∀ tier, after.count tier = config.count tier + nodeRoles tier.role) ∧
    ∀ nodeRoles : NodeRoles, config.checkRemoveNodes nodeRoles = .ok () →
      ∃ after nodes, config.onRemoveNodes nodeRoles = .ok (after, nodes) ∧ after.Packed ∧
        (∀ tier, after.count tier = config.count tier - nodeRoles tier.role) ∧ Released config after nodes := by
  constructor
  · intro nodeRoles nodes checked roles distinct fresh
    obtain ⟨after, run, balance, counts⟩ := packing.balanced.onAddNodes checked roles distinct fun node member old => by
      obtain ⟨known, stored, same⟩ := mem_ids.mp old
      exact fresh node member known stored same
    exact ⟨after, run, balance.packed, counts⟩
  · intro nodeRoles checked
    obtain ⟨after, nodes, run, balance, counts, released⟩ := packing.balanced.onRemoveNodes checked
    exact ⟨after, nodes, run, balance.packed, counts, released⟩

end ServiceConfiguration

/-- A web service as it starts, with all duties on one node. -/
def singleNode : ServiceConfiguration where
  proxyCount := 1
  webCount := 0
  backendCount := 0
  serviceNodes := ⟨[⟨⟨"i-1", "10.0.0.1", "", "iaas", 100, "proxybackendweb", []⟩, 100, 100, true, true, true⟩], by decide⟩
  backends := []
  webBackends := []

theorem singleNode_packed : singleNode.Packed where
  covered := by intro tier; cases tier <;> decide
  used := by decide
  proxyCount := rfl
  packed := by
    intro tier own _
    cases tier with
    | proxy => exact absurd rfl own
    | web => rfl
    | backend => rfl
  counted := by
    intro tier _ apart
    refine absurd ⟨⟨⟨"i-1", "10.0.0.1", "", "iaas", 100, "proxybackendweb", []⟩, 100, 100, true, true, true⟩, ?_, rfl⟩ apart
    cases tier <;> rfl
  apart := by
    intro tier own positive
    cases tier with
    | proxy => exact absurd rfl own
    | web => exact absurd positive (by decide)
    | backend => exact absurd positive (by decide)
  several := by decide

/-- A web server of its own takes the duty off the first node. -/
theorem singleNode_grows :
    ∃ after, singleNode.onAddNodes [⟨"i-2", "10.0.0.2", "", "iaas", 100, "web", []⟩] = .ok after ∧ after.Packed ∧
      ∀ tier, after.count tier = singleNode.count tier + if tier = .web then 1 else 0 := by
  obtain ⟨after, run, packed, counts⟩ := (ServiceConfiguration.packing_kept singleNode_packed).1
    (fun role => if role = "web" then 1 else 0) [⟨"i-2", "10.0.0.2", "", "iaas", 100, "web", []⟩] (by decide)
    (fun tier => by cases tier <;> decide) (by decide) (by decide)
  refine ⟨after, run, packed, fun tier => (counts tier).trans ?_⟩
  cases tier <;> rfl

end ConPaaS
