import ConPaaS.Manager.NodeRoles
import ConPaaS.Webservers.Packing

namespace ConPaaS

open Keyed Packing

/-- The number of nodes requested in a role. -/
def RoleCounts.requested (nodeRoles : RoleCounts) : ServiceConfiguration.NodeRoles := fun role =>
  match nodeRoles.get? role with
  | some (_, count) => count.toNat
  | none => 0

/-- The duties a node is started with for its role. -/
def startDuties : String → Option (List Tier)
  | "proxybackendweb" => some [.proxy, .web, .backend]
  | "proxybackend" => some [.proxy, .backend]
  | "proxyweb" => some [.proxy, .web]
  | "proxy" => some [.proxy]
  | "web" => some [.web]
  | "backend" => some [.backend]
  | _ => none

/-- Whether a role is started with a duty. -/
def starts (tier : Tier) (role : String) : Bool := tier ∈ (startDuties role).getD []

/-- The constructor of the class, for a node that is to run some duties. -/
def WebServiceNode.started (node : ServiceNode) (weightWeb weightBackend : Int) (duties : List Tier) : WebServiceNode where
  toServiceNode := { node with weightNode := weightBackend, volumes := [] }
  weightWeb := weightWeb
  weightBackend := weightBackend
  isRunningProxy := .proxy ∈ duties
  isRunningWeb := .web ∈ duties
  isRunningBackend := .backend ∈ duties

theorem WebServiceNode.create_eq_started (node : ServiceNode) (weightWeb weightBackend : Int) (tier : Tier) :
    WebServiceNode.create node weightWeb weightBackend tier = .started node weightWeb weightBackend [tier] := by
  cases tier <;> rfl

theorem WebServiceNode.runs_started (node : ServiceNode) (weightWeb weightBackend : Int) (duties : List Tier) (tier : Tier) :
    (WebServiceNode.started node weightWeb weightBackend duties).runs tier = decide (tier ∈ duties) := by
  cases tier <;> rfl

/-- The default of the weights in the constructor. -/
def defaultWeight : Int := 100

namespace ServiceConfiguration

variable {config : ServiceConfiguration} {nodes : List ServiceNode} {tier other : Tier} {sninfo : List String}

/-- Web servers and backends that are not packed have at least one node. -/
def ensureOwn (config : ServiceConfiguration) : ServiceConfiguration :=
  { config with
    webCount := if config.webCount < 1 then 1 else config.webCount
    backendCount := if config.backendCount < 1 then 1 else config.backendCount }

/-- The roles of nodes with all duties apart. -/
def ownRoles (config : ServiceConfiguration) : RoleCounts :=
  ⟨[("proxy", config.proxyCount), ("web", config.webCount), ("backend", config.backendCount)],
    show ["proxy", "web", "backend"].Nodup by decide⟩

/-- `get_starting_nodes`: the counters and the roles to start with. -/
def getStartingNodes (config : ServiceConfiguration) : ServiceConfiguration × RoleCounts :=
  if config.proxyCount = 1 ∧ (config.webCount = 0 ∨ config.backendCount = 0) then
    if config.webCount = 0 ∧ config.backendCount = 0 then (config, ⟨[("proxybackendweb", 1)], by decide⟩)
    else if config.webCount = 0 ∧ config.backendCount > 0 then
      (config, ⟨[("backend", config.backendCount), ("proxyweb", 1)], show ["backend", "proxyweb"].Nodup by decide⟩)
    -- The backend is packed, but its host gets the role of the branch above.
    else if config.webCount > 0 ∧ config.backendCount = 0 then
      (config, ⟨[("web", config.webCount), ("proxyweb", 1)], show ["web", "proxyweb"].Nodup by decide⟩)
    else (config, .empty)
  else (config.ensureOwn, config.ensureOwn.ownRoles)

/-- The loop of `on_start`. The arguments of a node of an unknown role are
those of the node before it, and missing before the first. -/
def startNodes (config : ServiceConfiguration) (kwargs : Option (List Tier)) : List Entry → ServiceConfiguration × Bool
  | [] => (config, true)
  | .key _ :: _ => (config, false)
  | .node node :: rest =>
    match (startDuties node.role).or kwargs with
    | none => (config, false)
    | some duties =>
      startNodes { config with
        serviceNodes := config.serviceNodes.put (.started node defaultWeight defaultWeight duties) } (some duties) rest

/-- `on_start`, with all agents answering, and whether it returns. -/
def onStart (config : ServiceConfiguration) (nodes : List Entry) : ServiceConfiguration × Bool :=
  match startNodes { config with serviceNodes := .empty } none nodes with
  | (config, true) => (config.updateMappings, true)
  | (config, false) => (config, false)

/-- `on_stop`, with all agents answering. The counters stay. -/
def onStop (config : ServiceConfiguration) : ServiceConfiguration × List WebServiceNode :=
  ({ config with serviceNodes := .empty }, config.serviceNodes.rows)

/-- The ids of the nodes that are started with a duty. -/
def started (nodes : List ServiceNode) (tier : Tier) : Finset String :=
  ((nodes.filter fun node => starts tier node.role).map ServiceNode.id).toFinset

theorem mem_started {id : String} :
    id ∈ started nodes tier ↔ ∃ node ∈ nodes, starts tier node.role = true ∧ node.id = id := by
  simp [started, and_assoc]

theorem started_cons (node : ServiceNode) (rest : List ServiceNode) (tier : Tier) :
    started (node :: rest) tier = if starts tier node.role then insert node.id (started rest tier) else started rest tier := by
  unfold started
  rw [List.filter_cons]
  split
  · rw [List.map_cons, List.toFinset_cons]
  · rfl

/-- Nodes of known roles are all entered, each with the duties of its role. -/
theorem startNodes_spec {kwargs : Option (List Tier)} (known : ∀ node ∈ nodes, (startDuties node.role).isSome = true)
    (distinct : (nodes.map ServiceNode.id).Nodup) (fresh : ∀ node ∈ nodes, node.id ∉ config.ids) :
    ∃ after, config.startNodes kwargs (nodes.map .node) = (after, true) ∧
      after.ids = config.ids ∪ (nodes.map ServiceNode.id).toFinset ∧
      (∀ tier, after.running tier = config.running tier ∪ started nodes tier) ∧
      ∀ tier, after.count tier = config.count tier := by
  induction nodes generalizing config kwargs with
  | nil => exact ⟨config, rfl, by simp, by simp [started], fun _ => rfl⟩
  | cons node rest ih =>
    obtain ⟨apart, distinct⟩ := List.nodup_cons.mp distinct
    obtain ⟨duties, role⟩ := Option.isSome_iff_exists.mp (known node (List.mem_cons_self ..))
    have new : (WebServiceNode.started node defaultWeight defaultWeight duties).id ∉ config.ids :=
      fresh node (List.mem_cons_self ..)
    have entered : ids { config with
        serviceNodes := config.serviceNodes.put (.started node defaultWeight defaultWeight duties) } =
        insert node.id config.ids := put_ids new
    obtain ⟨after, run, allIds, each, counts⟩ := @ih { config with
      serviceNodes := config.serviceNodes.put (.started node defaultWeight defaultWeight duties) } (some duties)
      (fun later member => known later (List.mem_cons_of_mem _ member)) distinct (by
        intro later member inside
        rw [entered] at inside
        rcases Finset.mem_insert.mp inside with same | old
        · exact apart (List.mem_map.mpr ⟨later, member, same⟩)
        · exact fresh later (List.mem_cons_of_mem _ member) old)
    refine ⟨after, ?_, ?_, fun tier => ?_, counts⟩
    · simp only [List.map_cons, startNodes, role, Option.some_or]
      exact run
    · rw [allIds, entered, List.map_cons, List.toFinset_cons, Finset.insert_union, Finset.union_insert]
    · have head : running { config with
          serviceNodes := config.serviceNodes.put (.started node defaultWeight defaultWeight duties) } tier =
          if starts tier node.role then insert node.id (config.running tier) else config.running tier := by
        rw [put_running new, WebServiceNode.runs_started, starts, role]
        rfl
      rw [each tier, head, started_cons]
      split
      · rw [Finset.insert_union, Finset.union_insert]
      · rfl

/-- The nodes of a start replace all nodes there were. -/
theorem onStart_spec (config : ServiceConfiguration) (known : ∀ node ∈ nodes, (startDuties node.role).isSome = true)
    (distinct : (nodes.map ServiceNode.id).Nodup) :
    ∃ after, config.onStart (nodes.map .node) = (after, true) ∧ after.ids = (nodes.map ServiceNode.id).toFinset ∧
      (∀ tier, after.running tier = started nodes tier) ∧ ∀ tier, after.count tier = config.count tier := by
  obtain ⟨after, run, allIds, each, counts⟩ := @startNodes_spec { config with serviceNodes := .empty } nodes none known
    distinct (by simp [ids])
  refine ⟨after.updateMappings, ?_, ?_, fun tier => ?_, counts⟩
  · rw [onStart, run]
  · exact allIds.trans (by simp [ids])
  · exact (each tier).trans (by simp [running, getServiceNodes])

/-- An error in the place of nodes raises after the nodes there were are gone. -/
theorem onStart_error (config : ServiceConfiguration) (text : String) (rest : List Entry) :
    config.onStart (.key text :: rest) = ({ config with serviceNodes := .empty }, false) := rfl

section Delivered

variable (delivered : Delivered sninfo nodes)

include delivered

theorem role_mem {node : ServiceNode} (member : node ∈ nodes) : node.role ∈ sninfo :=
  delivered.1.mem_iff.mp (List.mem_map_of_mem member)

/-- As many nodes start with a duty as roles with it were asked for. -/
theorem started_card (tier : Tier) : (started nodes tier).card = sninfo.countP (starts tier) := by
  rw [started, List.toFinset_card_of_nodup (delivered.2.sublist (List.filter_sublist.map _)), List.length_map,
    ← List.countP_eq_length_filter, ← delivered.1.countP_eq, List.countP_map]
  rfl

theorem started_same (same : ∀ role ∈ sninfo, starts tier role = starts other role) :
    started nodes tier = started nodes other := by
  ext id
  rw [mem_started, mem_started]
  refine exists_congr fun node => and_congr_right fun member => ?_
  rw [same node.role (role_mem delivered member)]

theorem started_disjoint (apart : ∀ role ∈ sninfo, starts tier role = true → starts other role = false) :
    Disjoint (started nodes tier) (started nodes other) := by
  refine Finset.disjoint_left.mpr fun id left right => ?_
  obtain ⟨first, inside, starts₁, rfl⟩ := mem_started.mp left
  obtain ⟨second, inside', starts₂, same⟩ := mem_started.mp right
  have equal := List.inj_on_of_nodup_map delivered.2 inside' inside same
  rw [equal, apart first.role (role_mem delivered inside) starts₁] at starts₂
  cases starts₂

/-- One host starts with a duty packed on it. -/
theorem started_packed (host : sninfo.countP (starts .proxy) = 1)
    (same : ∀ role ∈ sninfo, starts tier role = starts .proxy role) :
    Shared (started nodes .proxy) (started nodes tier) 0 := by
  obtain ⟨id, alone⟩ := Finset.card_eq_one.mp ((started_card delivered .proxy).trans host)
  rw [started_same delivered same, alone]
  exact Shared.packed (Finset.mem_singleton_self id)

/-- A duty starts on nodes of its own. -/
theorem started_own {count : Int} (size : count = sninfo.countP (starts tier)) (positive : 0 < count)
    (apart : ∀ role ∈ sninfo, starts .proxy role = true → starts tier role = false) :
    Shared (started nodes .proxy) (started nodes tier) count := by
  have card := started_card delivered tier
  rw [size, ← card]
  exact Shared.own (Finset.card_pos.mp (by omega)) (started_disjoint delivered apart)

end Delivered

/-- What the counters keep while a service is stopped. -/
structure Counted (config : ServiceConfiguration) : Prop where
  proxies : 1 ≤ config.proxyCount
  webs : 0 ≤ config.webCount
  backends : 0 ≤ config.backendCount
  several : 1 < config.proxyCount → 0 < config.webCount ∧ 0 < config.backendCount

theorem Balanced.counted (balance : config.Balanced) : config.Counted where
  proxies := by
    have some := Finset.card_pos.mpr balance.hosts
    have size := balance.proxyCount
    omega
  webs := (balance.shared .web (by decide)).nonneg
  backends := (balance.shared .backend (by decide)).nonneg
  several := balance.several

theorem Counted.replace (counted : config.Counted) (nodes : Table WebServiceNode.id) :
    Counted { config with serviceNodes := nodes } :=
  ⟨counted.proxies, counted.webs, counted.backends, counted.several⟩

/-- A packed backend beside web servers of their own. -/
def BackendPacked (config : ServiceConfiguration) : Prop :=
  config.proxyCount = 1 ∧ 0 < config.webCount ∧ config.backendCount = 0

instance (config : ServiceConfiguration) : Decidable config.BackendPacked := inferInstanceAs (Decidable (_ ∧ _))

/-- The ways in which a start lays out its nodes. -/
theorem Counted.cases (counted : config.Counted) :
    (config.proxyCount = 1 ∧ config.webCount = 0 ∧ config.backendCount = 0 ∧
      getSninfo config.getStartingNodes.2 = ["proxybackendweb"]) ∨
    (config.proxyCount = 1 ∧ config.webCount = 0 ∧ 0 < config.backendCount ∧
      getSninfo config.getStartingNodes.2 = List.replicate config.backendCount.toNat "backend" ++ ["proxyweb"]) ∨
    (config.BackendPacked ∧
      getSninfo config.getStartingNodes.2 = List.replicate config.webCount.toNat "web" ++ ["proxyweb"]) ∨
    (0 < config.webCount ∧ 0 < config.backendCount ∧
      getSninfo config.getStartingNodes.2 = List.replicate config.proxyCount.toNat "proxy" ++
        (List.replicate config.webCount.toNat "web" ++ List.replicate config.backendCount.toNat "backend")) := by
  obtain ⟨proxies, webs, backends, several⟩ := counted
  unfold getStartingNodes BackendPacked
  split_ifs with packed both webPacked backendPacked
  · exact Or.inl ⟨packed.1, both.1, both.2, rfl⟩
  · exact Or.inr (Or.inl ⟨packed.1, webPacked.1, webPacked.2, by simp [getSninfo]⟩)
  · exact Or.inr (Or.inr (Or.inl ⟨⟨packed.1, backendPacked.1, backendPacked.2⟩, by simp [getSninfo]⟩))
  · omega
  · have own : 0 < config.webCount ∧ 0 < config.backendCount := by omega
    refine Or.inr (Or.inr (Or.inr ⟨own.1, own.2, ?_⟩))
    have web : ¬ config.webCount < 1 := by omega
    have backend : ¬ config.backendCount < 1 := by omega
    simp [getSninfo, ownRoles, ensureOwn, web, backend]

/-- The counters of a stopped service are not changed by the next start. -/
theorem Counted.getStartingNodes (counted : config.Counted) : config.getStartingNodes.1 = config := by
  obtain ⟨proxies, webs, backends, several⟩ := counted
  unfold ServiceConfiguration.getStartingNodes
  split_ifs with packed
  · rfl
  · rfl
  · rfl
  · rfl
  · have web : ¬ config.webCount < 1 := by omega
    have backend : ¬ config.backendCount < 1 := by omega
    simp only [ensureOwn, web, backend, if_false]

theorem Counted.known (counted : config.Counted) :
    ∀ role ∈ getSninfo config.getStartingNodes.2, (startDuties role).isSome = true := by
  intro role member
  rcases counted.cases with ⟨_, _, _, asked⟩ | ⟨_, _, _, asked⟩ | ⟨_, asked⟩ | ⟨_, _, asked⟩
  all_goals
    rw [asked] at member
    simp only [List.mem_append, List.mem_replicate, List.mem_singleton] at member
  · rw [member]; rfl
  · rcases member with ⟨_, rfl⟩ | rfl <;> rfl
  · rcases member with ⟨_, rfl⟩ | rfl <;> rfl
  · rcases member with ⟨_, rfl⟩ | ⟨_, rfl⟩ | ⟨_, rfl⟩ <;> rfl

/-- The hosts and the duties of a start, unless the backend is packed beside
web servers of their own. -/
theorem Counted.shared (counted : config.Counted) (apart : ¬ config.BackendPacked)
    (delivered : Delivered (getSninfo config.getStartingNodes.2) nodes) :
    config.proxyCount = (started nodes .proxy).card ∧
      ∀ tier, tier ≠ .proxy → Shared (started nodes .proxy) (started nodes tier) (config.count tier) := by
  rw [started_card delivered]
  have one := counted.proxies
  rcases counted.cases with ⟨proxy, web, backend, asked⟩ | ⟨proxy, web, backend, asked⟩ | ⟨packed, _⟩ |
    ⟨web, backend, asked⟩
  · rw [asked] at delivered ⊢
    refine ⟨proxy, fun tier own => ?_⟩
    cases tier with
    | proxy => exact absurd rfl own
    | web => exact (show config.count .web = 0 from web) ▸ started_packed delivered rfl (by decide)
    | backend => exact (show config.count .backend = 0 from backend) ▸ started_packed delivered rfl (by decide)
  · rw [asked] at delivered ⊢
    have size (tier : Tier) : (List.replicate config.backendCount.toNat "backend" ++ ["proxyweb"]).countP (starts tier) =
        (if starts tier "backend" then config.backendCount.toNat else 0) + [("proxyweb")].countP (starts tier) := by
      rw [List.countP_append, List.countP_replicate]
    refine ⟨by rw [size]; exact proxy, fun tier own => ?_⟩
    cases tier with
    | proxy => exact absurd rfl own
    | web =>
      refine (show config.count .web = 0 from web) ▸ started_packed delivered (size .proxy) ?_
      intro role member
      rcases List.mem_append.mp member with own | host
      · rw [List.eq_of_mem_replicate own]; rfl
      · rw [List.mem_singleton.mp host]; rfl
    | backend =>
      refine started_own delivered ?_ backend ?_
      · rw [size]
        exact (Int.toNat_of_nonneg backend.le).symm
      · intro role member
        rcases List.mem_append.mp member with own | host
        · rw [List.eq_of_mem_replicate own]; decide
        · rw [List.mem_singleton.mp host]; decide
  · exact absurd packed apart
  · rw [asked] at delivered ⊢
    have size (tier : Tier) : (List.replicate config.proxyCount.toNat "proxy" ++
        (List.replicate config.webCount.toNat "web" ++ List.replicate config.backendCount.toNat "backend")).countP
          (starts tier) = (config.count tier).toNat := by
      rw [List.countP_append, List.countP_append, List.countP_replicate, List.countP_replicate, List.countP_replicate]
      cases tier <;> simp [starts, startDuties, ServiceConfiguration.count]
    have alone : ∀ tier, tier ≠ .proxy → ∀ role ∈ List.replicate config.proxyCount.toNat "proxy" ++
        (List.replicate config.webCount.toNat "web" ++ List.replicate config.backendCount.toNat "backend"),
        starts .proxy role = true → starts tier role = false := by
      intro tier own role member
      rcases List.mem_append.mp member with host | other
      · rw [List.eq_of_mem_replicate host]
        cases tier with
        | proxy => exact absurd rfl own
        | web => decide
        | backend => decide
      · rcases List.mem_append.mp other with web | backend
        · rw [List.eq_of_mem_replicate web]; rintro ⟨⟩
        · rw [List.eq_of_mem_replicate backend]; rintro ⟨⟩
    refine ⟨?_, fun tier own => ?_⟩
    · rw [size]
      exact (Int.toNat_of_nonneg (a := config.proxyCount) (by omega)).symm
    · have positive : 0 < config.count tier := by
        cases tier with
        | proxy => exact absurd rfl own
        | web => exact web
        | backend => exact backend
      refine started_own delivered ?_ positive (alone tier own)
      rw [size]
      exact (Int.toNat_of_nonneg positive.le).symm

theorem starts_some {role : String} (known : (startDuties role).isSome = true) : ∃ tier, starts tier role = true := by
  unfold startDuties at known
  split at known
  case h_5 => exact ⟨.web, rfl⟩
  case h_6 => exact ⟨.backend, rfl⟩
  case h_7 => cases known
  all_goals exact ⟨.proxy, rfl⟩

/-- A start from counters that were kept lays out all duties and leaves the
counters alone, unless the backend is packed beside web servers of their own. -/
theorem Counted.onStart (counted : config.Counted) (apart : ¬ config.BackendPacked)
    (delivered : Delivered (getSninfo config.getStartingNodes.2) nodes) :
    ∃ after, config.onStart (nodes.map .node) = (after, true) ∧ after.Balanced ∧
      ∀ tier, after.count tier = config.count tier := by
  have known (node : ServiceNode) (member : node ∈ nodes) := counted.known node.role (role_mem delivered member)
  obtain ⟨after, run, allIds, each, counts⟩ := onStart_spec config known delivered.2
  obtain ⟨proxies, shared⟩ := counted.shared apart delivered
  refine ⟨after, run, ⟨?_, ?_, ?_, ?_, ?_⟩, counts⟩
  · have one := counted.proxies
    rw [each]
    exact Finset.card_pos.mp (by omega)
  · intro id member
    rw [allIds, List.mem_toFinset] at member
    obtain ⟨node, inside, rfl⟩ := List.mem_map.mp member
    obtain ⟨tier, runs⟩ := starts_some (known node inside)
    exact ⟨tier, by rw [each]; exact mem_started.mpr ⟨node, inside, runs, rfl⟩⟩
  · rw [each]
    exact (counts .proxy).trans proxies
  · intro tier own
    rw [each, each, counts]
    exact shared tier own
  · intro many
    obtain ⟨web, backend⟩ := counted.several (many.trans_eq (counts .proxy))
    exact ⟨web.trans_eq (counts .web).symm, backend.trans_eq (counts .backend).symm⟩

/-- In that case no node is started with the backend. -/
theorem Counted.noBackend (counted : config.Counted) (packed : config.BackendPacked)
    (delivered : Delivered (getSninfo config.getStartingNodes.2) nodes) :
    ∃ after, config.onStart (nodes.map .node) = (after, true) ∧ after.running .backend = ∅ := by
  have known (node : ServiceNode) (member : node ∈ nodes) := counted.known node.role (role_mem delivered member)
  obtain ⟨after, run, -, each, -⟩ := onStart_spec config known delivered.2
  refine ⟨after, run, ?_⟩
  rw [each, ← Finset.card_eq_zero, started_card delivered, List.countP_eq_zero]
  obtain ⟨proxy, web, backend⟩ := packed
  rcases counted.cases with ⟨_, none, _⟩ | ⟨_, none, _⟩ | ⟨_, asked⟩ | ⟨_, some, _⟩
  · omega
  · omega
  · intro role member
    rw [asked] at member
    rcases List.mem_append.mp member with own | host
    · rw [List.eq_of_mem_replicate own]; decide
    · rw [List.mem_singleton.mp host]; decide
  · omega

end ServiceConfiguration

end ConPaaS
