import ConPaaS.Webservers.CodeRuns

namespace ConPaaS

open Keyed Effect ServiceConfiguration

/-- The duty that an agent is told to run. -/
def AgentOp.duty : AgentOp → Option Tier
  | .createHttpProxy _ _ _ _ => some .proxy
  | .createWebServer _ => some .web
  | .createPHP | .createTomcat => some .backend
  | _ => none

/-- A request for nodes in some roles, and what the director has created for it:
nodes that are new to the service, in any order. -/
structure NodeAddition where
  agents : Agents
  kind : WebKind
  before : Deployment
  nodeRoles : RoleCounts
  nodes : List ServiceNode
  delivered : Delivered (getSninfo nodeRoles) nodes
  fresh : ∀ node ∈ nodes, node.id ∉ before.config.ids

namespace NodeAddition

variable (a : NodeAddition)

/-- What `on_add_nodes` leaves, whether it returns or raises. -/
def after : Deployment := left (a.agents.onAddNodes a.kind a.nodes) a.before

def returns : Prop := ∃ t, a.agents.onAddNodes a.kind a.nodes a.before = .ok () t

/-- The calls made by `on_add_nodes`, and whether they were answered. -/
def newCalls : List (AgentCall × Bool) := a.after.calls.drop a.before.calls.length

/-- A new node is entered in the configuration for the duty its role stands for
and for no other one, and its agent is told to run this duty and no other one. -/
structure RunsRole (node : ServiceNode) : Prop where
  entered : node.id ∈ a.after.config.ids
  running : ∀ tier, node.id ∈ a.after.config.running tier ↔ node.role = tier.role
  told : ∀ entry ∈ a.newCalls, entry.1.id = node.id → ∀ tier ∈ entry.1.op.duty, node.role = tier.role
  answered : a.returns → ∃ tier : Tier, node.role = tier.role ∧
    ∃ entry ∈ a.newCalls, entry.1.id = node.id ∧ entry.1.op.duty = some tier ∧ entry.2 = true

/-- There is a node to relieve of each duty that gets its first nodes of its own. -/
def Relieves : Prop :=
  ∀ tier, tier ≠ .proxy → (∃ node ∈ a.nodes, node.role = tier.role) → a.before.config.count tier = 0 →
    a.before.config.getServiceNodes tier ≠ []

/-- The director returns the proxies first, then the web servers, then the
backends. -/
def InOrder : Prop :=
  ∃ proxy web backend, a.nodes.map ServiceNode.role =
    List.replicate proxy Tier.proxy.role ++ List.replicate web Tier.web.role ++ List.replicate backend Tier.backend.role

end NodeAddition

/-- A part of a hook that leaves the configuration alone makes no calls for duties
but those of a list, and makes all of these if it returns. -/
structure Tells {α : Type} (duties : List AgentCall) (x : Hook α) : Prop where
  config : ∀ s, (left x s).config = s.config
  calls : ∀ s, ∃ new, (left x s).calls = s.calls ++ new ∧ ∀ entry ∈ new, entry.1.op.duty ≠ none → entry.1 ∈ duties
  returned : ∀ s a t, x s = .ok a t → ∃ new, t.calls = s.calls ++ new ∧ ∀ call ∈ duties, (call, true) ∈ new

namespace Tells

variable {α β : Type} {duties later : List AgentCall} {x : Hook α} {f : α → Hook β}

theorem of_quiet (quiet : Keeps (Deployment.Ordered fun op => op.duty = none) x) : Tells [] x where
  config s := (quiet s).config
  calls s := by
    obtain ⟨new, calls, none⟩ := (quiet s).calls
    exact ⟨new, calls, fun entry member some => absurd (none entry member) some⟩
  returned s a t run := by
    obtain ⟨new, calls, -⟩ := (quiet.of_ok run).calls
    exact ⟨new, calls, nofun⟩

theorem bind (first : Tells duties x) (second : ∀ s a t, x s = .ok a t → Tells later (f a)) : Tells (duties ++ later) (x >>= f) where
  config s := by
    cases run : x s with
    | ok a t =>
      rw [left, bind_of_ok run]
      exact ((second s a t run).config t).trans (left_ok run ▸ first.config s)
    | error raised t =>
      rw [left_error (bind_of_error run)]
      exact left_error run ▸ first.config s
  calls s := by
    obtain ⟨new, calls, among⟩ := first.calls s
    cases run : x s with
    | ok a t =>
      rw [left_ok run] at calls
      obtain ⟨new', calls', among'⟩ := (second s a t run).calls t
      rw [left, bind_of_ok run]
      refine ⟨new ++ new', calls'.trans (by rw [calls, List.append_assoc]), fun entry member some => ?_⟩
      rcases List.mem_append.mp member with member | member
      · exact List.mem_append_left _ (among entry member some)
      · exact List.mem_append_right _ (among' entry member some)
    | error raised t =>
      rw [left_error run] at calls
      rw [left_error (bind_of_error run)]
      exact ⟨new, calls, fun entry member some => List.mem_append_left _ (among entry member some)⟩
  returned s b t run := by
    obtain ⟨a, u, run, run'⟩ := bind_ok.mp run
    obtain ⟨new, calls, made⟩ := first.returned s a u run
    obtain ⟨new', calls', made'⟩ := (second s a u run).returned u b t run'
    refine ⟨new ++ new', by rw [calls', calls, List.append_assoc], fun call member => ?_⟩
    rcases List.mem_append.mp member with member | member
    · exact List.mem_append_left _ (made call member)
    · exact List.mem_append_right _ (made' call member)

/-- A part of a hook that is followed by a change of the configuration. -/
theorem setConfig {x : Hook Unit} (tells : Tells duties x) (config : CodeConfiguration) (s : Deployment) :
    let hook : Hook Unit := do x; Agents.setConfig config
    ((left hook s).config = s.config ∨ (left hook s).config = config) ∧ ∃ new, (left hook s).calls = s.calls ++ new ∧
      (∀ entry ∈ new, entry.1.op.duty ≠ none → entry.1 ∈ duties) ∧
        ((∃ t, hook s = .ok () t) → ∀ call ∈ duties, (call, true) ∈ new) := by
  obtain ⟨new, calls, among⟩ := tells.calls s
  cases run : x s with
  | ok _ t =>
    rw [left_ok run] at calls
    obtain ⟨new', calls', made⟩ := tells.returned s _ t run
    obtain rfl := List.append_cancel_left (calls.symm.trans calls')
    have run' := bind_of_ok (f := fun _ => Agents.setConfig config) run
    exact ⟨.inr (left_ok run' ▸ rfl), new, (left_ok run' ▸ rfl : _ = t.calls).trans calls, among, fun _ => made⟩
  | error raised t =>
    rw [left_error run] at calls
    have run' := bind_of_error (f := fun _ => Agents.setConfig config) run
    refine ⟨.inl (left_error run' ▸ left_error run ▸ tells.config s), new, left_error run' ▸ calls, among, ?_⟩
    rintro ⟨t, ok⟩
    cases run'.symm.trans ok

end Tells

namespace Agents

variable {agents : Agents} {kind : WebKind} {config : CodeConfiguration} {nodes : List ServiceNode} {s t : Deployment}

theorem tells_tell (op : AgentOp) (node : ServiceNode) : Tells [node.call op] (agents.tell op node) where
  config s := by
    unfold left tell
    split <;> rename_i run <;> split at run <;> cases run <;> rfl
  calls s := by
    unfold left tell
    split <;> rename_i run <;> split at run <;> cases run
    · exact ⟨[(node.call op, true)], rfl, fun entry member _ => by cases List.mem_singleton.mp member; exact List.mem_cons_self⟩
    · exact ⟨[(node.call op, false)], rfl, fun entry member _ => by cases List.mem_singleton.mp member; exact List.mem_cons_self⟩
  returned s _ t run := by
    obtain ⟨-, rfl⟩ := tell_ok.mp run
    exact ⟨[(node.call op, true)], rfl, fun call member => by cases List.mem_singleton.mp member; exact List.mem_cons_self⟩

theorem tells_pure {α : Type} (a : α) : Tells [] (pure a : Hook α) := .of_quiet (quiet_pure a)

theorem tells_tellEach (op : AgentOp) (nodes : List WebServiceNode) : Tells (callsTo op nodes) (agents.tellEach op nodes) := by
  induction nodes with
  | nil => exact tells_pure ()
  | cons node rest ih => exact (tells_tell op node.toServiceNode).bind fun _ _ _ _ => ih

theorem tells_startProxy (nodes : List WebServiceNode) :
    Tells (callsTo (agents.createProxyOp kind config) nodes) (agents.startProxy kind config nodes) := by
  refine (Tells.of_quiet quiet_getServletUrls).bind fun s urls t run => ?_
  obtain ⟨-, rfl, -⟩ := getServletUrls_ok.mp run
  exact tells_tellEach _ nodes

/-- What the agent of a new node is told for its duty. -/
def startOp (agents : Agents) (kind : WebKind) (config : CodeConfiguration) : Tier → AgentOp
  | .proxy => agents.createProxyOp kind config
  | .web => .createWebServer config.webVersions
  | .backend => createBackend kind

theorem duty_startOp (tier : Tier) : (agents.startOp kind config tier).duty = some tier := by
  cases tier with
  | proxy | web => rfl
  | backend => cases kind <;> rfl

/-- The calls for the duties of the new nodes. -/
def dutyCalls (agents : Agents) (kind : WebKind) (config : CodeConfiguration) (nodes : List ServiceNode) : List AgentCall :=
  [Tier.backend, .web, .proxy].flatMap fun tier =>
    callsTo (agents.startOp kind config tier) ((newNodes nodes).filter fun node => node.runs tier)

theorem mem_dutyCalls {call : AgentCall} : call ∈ agents.dutyCalls kind config nodes ↔
    ∃ pair ∈ nodes.zip (newDuties nodes), call = pair.1.call (agents.startOp kind config pair.2) := by
  have runs (node : ServiceNode) (duty tier : Tier) :
      (WebServiceNode.create node defaultNodeWeight defaultNodeWeight duty).runs tier = true ↔ duty = tier := by
    rw [WebServiceNode.create_eq_started, WebServiceNode.runs_started, decide_eq_true_eq, List.mem_singleton, eq_comm]
  have every (tier : Tier) : tier ∈ [Tier.backend, .web, .proxy] := by cases tier <;> decide
  simp only [dutyCalls, callsTo, newNodes, List.mem_flatMap, List.mem_map, List.mem_filter]
  constructor
  · rintro ⟨tier, -, _, ⟨⟨⟨node, duty⟩, member, rfl⟩, here⟩, rfl⟩
    obtain rfl := (runs node duty tier).mp here
    exact ⟨(node, duty), member, rfl⟩
  · rintro ⟨⟨node, duty⟩, member, rfl⟩
    exact ⟨duty, every duty, _, ⟨⟨_, member, rfl⟩, (runs node duty duty).mpr rfl⟩, rfl⟩

theorem tells_addDuties (webNodesKill backendNodesKill : List WebServiceNode) :
    Tells (agents.dutyCalls kind config nodes) (agents.addDuties kind config nodes webNodesKill backendNodesKill) := by
  have codes : ∀ version node, ∀ op ∈ codeOps kind config version node, op.duty = none := by
    intro version node op member
    have code := codeOps_isCode version node op member
    cases op with
    | updatePHPCode | updateTomcatCode => rfl
    | _ => cases code
  have older : Keeps (Deployment.Ordered fun op => op.duty = none) (agents.updateOlderProxies kind config nodes) := by
    unfold updateOlderProxies
    split
    · exact quiet_updateProxy (fun _ _ _ _ => rfl) _
    · exact quiet_pure ()
  have scalaris : Keeps (Deployment.Ordered fun op => op.duty = none) (agents.startScalaris kind config nodes false) :=
    quiet_startScalaris (fun _ _ => rfl) nodes false
  have backends : Keeps (Deployment.Ordered fun op => op.duty = none) (agents.stopBackend kind backendNodesKill) :=
    quiet_tellEach (by cases kind <;> rfl) backendNodesKill
  have webs : Keeps (Deployment.Ordered fun op => op.duty = none) (agents.stopWeb webNodesKill) :=
    quiet_tellEach (by rfl) webNodesKill
  have code : Tells [] (agents.updateCode kind config (newNodes nodes)) := .of_quiet (quiet_updateCode codes _)
  have backend : Tells _ (agents.startBackend kind ((newNodes nodes).filter WebServiceNode.isRunningBackend)) :=
    tells_tellEach (createBackend kind) _
  have web : Tells _ (agents.startWeb config ((newNodes nodes).filter WebServiceNode.isRunningWeb)) :=
    tells_tellEach (.createWebServer config.webVersions) _
  have proxy : Tells _ (agents.startProxy kind config ((newNodes nodes).filter WebServiceNode.isRunningProxy)) := tells_startProxy _
  have tells := (Tells.of_quiet scalaris).bind fun _ _ _ _ => backend.bind fun _ _ _ _ => code.bind fun _ _ _ _ =>
    web.bind fun _ _ _ _ => proxy.bind fun _ _ _ _ => (Tells.of_quiet older).bind fun _ _ _ _ =>
      (Tells.of_quiet backends).bind fun _ _ _ _ => Tells.of_quiet webs
  exact tells

end Agents

theorem ServiceConfiguration.unpacked_ok_iff {config : ServiceConfiguration} {tier : Tier} {requested : Nat} :
    (∃ kill, config.unpacked tier requested = .ok kill) ↔
      (0 < requested → config.count tier = 0 → config.getServiceNodes tier ≠ []) := by
  unfold unpacked
  split
  · rename_i first
    cases config.getServiceNodes tier with
    | nil => simp [firstNode, first]
    | cons node rest => simp [firstNode]
  · rename_i other
    exact iff_of_true ⟨[], rfl⟩ fun some none => absurd ⟨some, none⟩ other

theorem ServiceConfiguration.supplied_pos_iff {nodes : List ServiceNode} {tier : Tier} :
    0 < supplied nodes tier ↔ ∃ node ∈ nodes, node.role = tier.role := by
  simp [supplied, List.length_pos_iff_exists_mem]

namespace NodeAddition

variable {a : NodeAddition}

theorem relieves_iff : a.Relieves ↔ (∃ kill, a.before.config.unpacked .backend (supplied a.nodes .backend) = .ok kill) ∧
    ∃ kill, a.before.config.unpacked .web (supplied a.nodes .web) = .ok kill := by
  simp only [unpacked_ok_iff, supplied_pos_iff, Relieves]
  constructor
  · exact fun relieves => ⟨relieves .backend (by decide), relieves .web (by decide)⟩
  · rintro ⟨backend, web⟩ tier own
    cases tier with
    | proxy => exact absurd rfl own
    | web => exact web
    | backend => exact backend

/-- The nodes with the duties they are given. -/
def pairs (a : NodeAddition) : List (ServiceNode × Tier) := a.nodes.zip (newDuties a.nodes)

/-- What is left where the duties can move. -/
structure Assigned (a : NodeAddition) : Prop where
  ids : ∀ id, id ∈ a.after.config.ids ↔ id ∈ a.before.config.ids ∨ ∃ pair ∈ a.pairs, pair.1.id = id
  running : ∀ tier id, id ∉ a.before.config.ids → (id ∈ a.after.config.running tier ↔ ∃ pair ∈ a.pairs, pair.2 = tier ∧ pair.1.id = id)
  told : ∀ entry ∈ a.newCalls, entry.1.op.duty ≠ none → ∃ pair ∈ a.pairs, entry.1.id = pair.1.id ∧ entry.1.op.duty = some pair.2
  answered : a.returns → ∀ pair ∈ a.pairs, ∃ entry ∈ a.newCalls, entry.1.id = pair.1.id ∧ entry.1.op.duty = some pair.2 ∧ entry.2 = true

theorem Relieves.assigned (relieves : a.Relieves) : a.Assigned := by
  obtain ⟨⟨backendNodesKill, backend⟩, webNodesKill, web⟩ := relieves_iff.mp relieves
  have run := Agents.onAddNodes_eq a.agents a.kind backend web a.before.state a.before.calls
  generalize changed : a.before.config.deploy (Agents.enlarged a.before.config.toServiceConfiguration a.nodes webNodesKill
    backendNodesKill) = config at run
  generalize ended : a.before.config.deploy (Agents.enlarged a.before.config.toServiceConfiguration a.nodes webNodesKill
    backendNodesKill).recount = last at run
  have tells : Tells (a.agents.dutyCalls a.kind config a.nodes) _ := Agents.tells_addDuties webNodesKill backendNodesKill
  obtain ⟨kept, new, calls, among, made⟩ := tells.setConfig last ⟨config, a.before.state, a.before.calls⟩
  have after : a.after = left (do
      a.agents.addDuties a.kind config a.nodes webNodesKill backendNodesKill
      Agents.setConfig last) ⟨config, a.before.state, a.before.calls⟩ :=
    left_of_eq run
  rw [← after] at kept calls
  have nodes : a.after.config.serviceNodes = config.serviceNodes := by
    rcases kept with same | same
    · rw [same]
    · rw [same, ← ended, ← changed]
      rfl
  have newCalls : a.newCalls = new := by rw [NodeAddition.newCalls, calls, List.drop_left]
  obtain ⟨ids, running⟩ := entered_spec a.delivered.2 a.fresh webNodesKill backendNodesKill
  have ids_eq : a.after.config.ids = config.ids := by rw [ServiceConfiguration.ids, nodes, ServiceConfiguration.ids]
  have running_eq (tier : Tier) : a.after.config.running tier = config.running tier := by
    rw [ServiceConfiguration.running, getServiceNodes, nodes, ServiceConfiguration.running, getServiceNodes]
  refine ⟨fun id => ?_, fun tier id new => ?_, fun entry member some => ?_, fun returns pair member => ?_⟩
  · rw [ids_eq, ← changed]
    refine (Finset.ext_iff.mp ids id).trans ?_
    simp [pairs]
  · have fresh : id ∉ a.before.config.running tier := fun member => new (running_subset_ids _ tier member)
    rw [running_eq, ← changed]
    refine (Finset.ext_iff.mp (running tier) id).trans ?_
    simp [newIds, pairs, fresh, and_assoc]
  · rw [newCalls] at member
    obtain ⟨pair, inside, same⟩ := Agents.mem_dutyCalls.mp (among entry member some)
    exact ⟨pair, inside, same ▸ rfl, same ▸ Agents.duty_startOp pair.2⟩
  · obtain ⟨t, ok⟩ := returns
    have told := made ⟨t, run.symm.trans ok⟩ _ (Agents.mem_dutyCalls.mpr ⟨pair, member, rfl⟩)
    exact ⟨_, newCalls ▸ told, rfl, Agents.duty_startOp pair.2, rfl⟩

/-- Nodes that cannot be added leave no trace. -/
theorem relieves_of_entered {node : ServiceNode} (member : node ∈ a.nodes) (entered : node.id ∈ a.after.config.ids) : a.Relieves := by
  have moves {tier : Tier} (own : tier = .backend ∨ tier = .web) : ∃ kill, a.before.config.unpacked tier (supplied a.nodes tier) = .ok kill := by
    cases unpacked : a.before.config.unpacked tier (supplied a.nodes tier) with
    | ok kill => exact ⟨kill, rfl⟩
    | error text =>
      have unchanged : a.after = a.before := Agents.onAddNodes_left a.agents a.kind own unpacked
      exact absurd (unchanged ▸ entered) (a.fresh node member)
  exact relieves_iff.mpr ⟨moves (.inl rfl), moves (.inr rfl)⟩

theorem supplied_eq_count (nodes : List ServiceNode) (tier : Tier) :
    supplied nodes tier = (nodes.map ServiceNode.role).count tier.role := by
  rw [supplied, List.count, List.countP_map, List.countP_eq_length_filter]
  rfl

theorem inOrder_iff : a.InOrder ↔ a.nodes.map ServiceNode.role = (newDuties a.nodes).map Tier.role := by
  constructor
  · rintro ⟨proxy, web, backend, roles⟩
    simp only [newDuties, supplied_eq_count, roles, List.map_append, List.map_replicate]
    simp [List.count_replicate, Tier.role]
  · intro roles
    refine ⟨supplied a.nodes .proxy, supplied a.nodes .web, supplied a.nodes .backend, roles.trans ?_⟩
    simp only [newDuties, List.map_append, List.map_replicate]

theorem role_injective {tier other : Tier} (same : tier.role = other.role) : tier = other := by
  revert same
  cases tier <;> cases other <;> decide

theorem role_of_mem_zip {nodes : List ServiceNode} {duties : List Tier} (same : nodes.map ServiceNode.role = duties.map Tier.role) :
    ∀ pair ∈ nodes.zip duties, pair.1.role = pair.2.role := by
  induction nodes generalizing duties with
  | nil => exact fun pair member => absurd member List.not_mem_nil
  | cons node rest ih =>
    cases duties with
    | nil => exact fun pair member => absurd member List.not_mem_nil
    | cons duty later =>
      obtain ⟨here, same⟩ := List.cons.inj same
      exact List.forall_mem_cons.mpr ⟨here, ih same⟩

theorem pair_unique {pair other : ServiceNode × Tier} (member : pair ∈ a.pairs) (member' : other ∈ a.pairs) (same : pair.1.id = other.1.id) :
    pair = other := List.inj_on_of_nodup_map (pairs_nodup a.delivered.2) member member' same

/-- If each node is given the duty of its role, they are in order. -/
theorem inOrder_of_pairs (given : ∀ node ∈ a.nodes, ∃ tier : Tier, (node, tier) ∈ a.pairs ∧ node.role = tier.role) : a.InOrder := by
  have fits : ∀ pair ∈ a.pairs, pair.1.role = pair.2.role := by
    intro pair member
    obtain ⟨tier, inside, role⟩ := given pair.1 (List.of_mem_zip member).1
    rwa [pair_unique member inside rfl]
  have nodup : a.nodes.Nodup := a.delivered.2.of_map
  have firsts : a.nodes ⊆ a.pairs.map Prod.fst := by
    intro node member
    obtain ⟨tier, inside, -⟩ := given node member
    exact List.mem_map.mpr ⟨_, inside, rfl⟩
  have enough := (List.subperm_of_subset nodup firsts).length_le
  rw [pairs, List.length_map, List.length_zip] at enough
  have nodes : a.pairs.map Prod.fst = a.nodes := List.map_fst_zip (by omega)
  have duties : a.pairs.map Prod.snd = newDuties a.nodes := List.map_snd_zip (newDuties_length a.nodes)
  rw [inOrder_iff, ← duties, List.map_map]
  conv_lhs => rw [← nodes, List.map_map]
  exact List.map_congr_left fits

end NodeAddition

/-- The new nodes run their roles exactly if the director returns the proxies
first, then the web servers and then the backends, and the duties that are
packed can move. -/
theorem runsRole_iff (a : NodeAddition) : (∀ node ∈ a.nodes, a.RunsRole node) ↔ a.Relieves ∧ a.InOrder := by
  constructor
  · intro all
    have relieves : a.Relieves := by
      intro tier own needed
      have ⟨node, member, _⟩ := needed
      exact NodeAddition.relieves_of_entered member (all node member).entered tier own needed
    refine ⟨relieves, NodeAddition.inOrder_of_pairs fun node member => ?_⟩
    have assigned := relieves.assigned
    have fresh := a.fresh node member
    obtain ⟨⟨other, tier⟩, inside, same⟩ := ((assigned.ids node.id).mp (all node member).entered).resolve_left fresh
    obtain rfl := List.inj_on_of_nodup_map a.delivered.2 (List.of_mem_zip inside).1 member same
    exact ⟨tier, inside, ((all other member).running tier).mp ((assigned.running tier _ fresh).mpr ⟨_, inside, rfl, rfl⟩)⟩
  · rintro ⟨relieves, order⟩ node member
    have assigned := relieves.assigned
    have fresh := a.fresh node member
    have same := NodeAddition.inOrder_iff.mp order
    have fits := NodeAddition.role_of_mem_zip same
    have nodes : a.pairs.map Prod.fst = a.nodes := List.map_fst_zip (by simpa using (congrArg List.length same).le)
    obtain ⟨pair, inside, rfl⟩ := List.mem_map.mp (nodes ▸ member)
    have only {other : ServiceNode × Tier} (among : other ∈ a.pairs) (id : other.1.id = pair.1.id) : other = pair :=
      NodeAddition.pair_unique among inside id
    refine ⟨(assigned.ids _).mpr (.inr ⟨pair, inside, rfl⟩), fun tier => (assigned.running tier _ fresh).trans ?_, ?_, ?_⟩
    · constructor
      · rintro ⟨other, among, rfl, id⟩
        rw [only among id]
        exact fits pair inside
      · exact fun role => ⟨pair, inside, NodeAddition.role_injective ((fits pair inside).symm.trans role), rfl⟩
    · intro entry told id tier duty
      obtain ⟨other, among, id', duty'⟩ := assigned.told entry told fun none => by rw [none] at duty; cases duty
      rw [only among (id'.symm.trans id)] at duty'
      obtain rfl := Option.some.inj (duty'.symm.trans duty)
      exact fits pair inside
    · exact fun returns => ⟨pair.2, fits pair inside, assigned.answered returns pair inside⟩

/-- A service on one node gets a web server and a backend, and the backend comes
first. -/
def backendFirst : NodeAddition where
  agents := CodeWebManager.answering
  kind := .php
  before := left (CodeWebManager.answering.onStart .php [.node (serverOf "1" "proxybackendweb")]) (CodeWebManager.created .php).deployment
  nodeRoles := ⟨[("web", 1), ("backend", 1)], by decide⟩
  nodes := [serverOf "2" "backend", serverOf "3" "web"]
  delivered := by decide
  fresh := by decide +kernel

theorem backendFirst_swapped : ¬ ∀ node ∈ backendFirst.nodes, backendFirst.RunsRole node := by
  intro all
  have running := (all (serverOf "2" "backend") List.mem_cons_self).running .web
  exact absurd (running.mp (by decide +kernel)) (by decide)

end ConPaaS
