import ConPaaS.Webservers.FleetOperations

namespace ConPaaS

open Keyed Parties Effect Deployment Agents WebServersAgent

namespace WebServiceNode

/-- A node after the packing node took over a duty. -/
def packIn (tier : Tier) (packing : Bool) (node packingNode : WebServiceNode) : WebServiceNode :=
  if packing = true ∧ node.id = packingNode.id then node.setRuns true tier else node

theorem sameMachine_packIn (tier : Tier) (packing : Bool) (node packingNode : WebServiceNode) :
    SameMachine node (node.packIn tier packing packingNode) := by
  unfold packIn
  split
  · exact sameMachine_setRuns node true tier
  · exact .refl node

theorem runs_packIn (tier other : Tier) (packing : Bool) (node packingNode : WebServiceNode) :
    (node.packIn tier packing packingNode).runs other =
      (node.runs other || decide (other = tier ∧ packing = true ∧ node.id = packingNode.id)) := by
  unfold packIn
  split
  · rename_i packs
    rw [runs_setRuns]
    by_cases same : other = tier <;> simp [same, packs]
  · rename_i stays
    simp [stays]

/-- A node after a removal, before those without a duty are taken out. -/
def remaining (config : ServiceConfiguration) (nodeRoles : ServiceConfiguration.NodeRoles) (node packingNode : WebServiceNode) : WebServiceNode :=
  let stopped := ((node.stopIn .web (kills config nodeRoles .web)).stopIn .backend (kills config nodeRoles .backend)).stopIn .proxy
    (kills config nodeRoles .proxy)
  ((stopped.packIn .backend (config.packs .backend (nodeRoles Tier.backend.role)) packingNode).packIn .web
    (config.packs .web (nodeRoles Tier.web.role)) packingNode).updateRole

variable (config : ServiceConfiguration) (nodeRoles : ServiceConfiguration.NodeRoles) (node packingNode : WebServiceNode)

theorem sameMachine_remaining : SameMachine node (remaining config nodeRoles node packingNode) :=
  (((node.sameMachine_stopIn .web _).trans (sameMachine_stopIn .backend _ _)).trans (sameMachine_stopIn .proxy _ _)).trans
    (((sameMachine_packIn ..).trans (sameMachine_packIn ..)).trans (sameMachine_updateRole _))

theorem runs_remaining (tier : Tier) : (remaining config nodeRoles node packingNode).runs tier =
    ((node.runs tier && !decide (node.id ∈ (kills config nodeRoles tier).map WebServiceNode.id)) ||
      decide (tier ≠ .proxy ∧ config.packs tier (nodeRoles tier.role) = true ∧ node.id = packingNode.id)) := by
  have web := (node.sameMachine_stopIn .web (kills config nodeRoles .web)).id
  have backend := (sameMachine_stopIn .backend (kills config nodeRoles .backend) (node.stopIn .web (kills config nodeRoles .web))).id
  have proxy := (sameMachine_stopIn .proxy (kills config nodeRoles .proxy)
    ((node.stopIn .web (kills config nodeRoles .web)).stopIn .backend (kills config nodeRoles .backend))).id
  have packed := (sameMachine_packIn .backend (config.packs .backend (nodeRoles Tier.backend.role))
    (((node.stopIn .web (kills config nodeRoles .web)).stopIn .backend (kills config nodeRoles .backend)).stopIn .proxy
      (kills config nodeRoles .proxy)) packingNode).id
  simp only [remaining, runs_updateRole, runs_packIn, runs_stopIn, packed, proxy, backend, web]
  cases tier <;> simp

end WebServiceNode

namespace Agents

variable {config : ServiceConfiguration} {nodeRoles : ServiceConfiguration.NodeRoles} {packingNode node : WebServiceNode} {tier : Tier}

theorem packOn_rows (config : ServiceConfiguration) (tier : Tier) (packing : Bool) (packingNode : WebServiceNode) :
    (config.packOn tier packing packingNode).serviceNodes.rows = config.serviceNodes.rows.map fun node => node.packIn tier packing packingNode := by
  unfold ServiceConfiguration.packOn
  split
  · rename_i packs
    refine List.map_congr_left fun node _ => ?_
    simp [WebServiceNode.packIn, packs]
  · rename_i stays
    have same : (fun node : WebServiceNode => node.packIn tier packing packingNode) = id :=
      funext fun node => if_neg fun both => stays both.1
    rw [same, List.map_id]

/-- The nodes of a service that gives some back, before they are taken out. -/
theorem shrunk_rows (config : ServiceConfiguration) (nodeRoles : ServiceConfiguration.NodeRoles) (packingNode : WebServiceNode) :
    (shrunk config nodeRoles packingNode).serviceNodes.rows =
      config.serviceNodes.rows.map fun node => node.remaining config nodeRoles packingNode := by
  have packed {first second : ServiceConfiguration} (tier : Tier) (packing : Bool) {change : WebServiceNode → WebServiceNode}
      (rows : first.serviceNodes.rows = second.serviceNodes.rows.map change) :
      (first.packOn tier packing packingNode).serviceNodes.rows =
        second.serviceNodes.rows.map fun node => (change node).packIn tier packing packingNode := by
    rw [packOn_rows, rows, List.map_map]
    rfl
  have stopped : ((config.stopWebAndBackend (kills config nodeRoles .web) (kills config nodeRoles .backend)).setRunning .proxy false
      (kills config nodeRoles .proxy)).serviceNodes.rows = config.serviceNodes.rows.map fun node =>
        ((node.stopIn .web (kills config nodeRoles .web)).stopIn .backend (kills config nodeRoles .backend)).stopIn .proxy
          (kills config nodeRoles .proxy) := by
    rw [ServiceConfiguration.stopWebAndBackend, ServiceConfiguration.setRunning_rows, ServiceConfiguration.setRunning_rows,
      ServiceConfiguration.setRunning_rows, List.map_map, List.map_map]
    rfl
  have both := packed .web (config.packs .web (nodeRoles Tier.web.role)) (packed .backend (config.packs .backend (nodeRoles Tier.backend.role)) stopped)
  refine (congrArg (List.map WebServiceNode.updateRole) both).trans ?_
  rw [List.map_map]
  rfl

/-- A node that loses a duty has it. -/
theorem kills_among (killed : node ∈ kills config nodeRoles tier) : node ∈ config.serviceNodes.rows ∧ node.runs tier = true := by
  unfold kills ServiceConfiguration.nodesKill at killed
  split at killed
  · exact List.mem_filter.mp (List.mem_of_mem_drop killed)
  · cases killed

theorem kills_sublist (config : ServiceConfiguration) (nodeRoles : ServiceConfiguration.NodeRoles) (tier : Tier) :
    (kills config nodeRoles tier).Sublist config.serviceNodes.rows := by
  unfold kills ServiceConfiguration.nodesKill
  split
  · exact (List.drop_sublist _ _).trans List.filter_sublist
  · exact List.nil_sublist _

/-- A duty loses the last node of its own. -/
theorem packs_spec (balance : config.Balanced) (own : tier ≠ .proxy) (packs : config.packs tier (nodeRoles tier.role) = true) :
    kills config nodeRoles tier ≠ [] ∧ ∀ node ∈ config.serviceNodes.rows, node.isRunningProxy = true → node.runs tier = false := by
  have packing := balance.packed
  simp only [ServiceConfiguration.packs, Bool.and_eq_true, decide_eq_true_eq] at packs
  refine ⟨?_, packing.apart tier own (by omega)⟩
  have separate : ¬ ∃ node, config.getServiceNodes tier = [node] ∧ node.isRunningProxy = true := fun alone => by
    have zero := packing.packed tier own alone
    omega
  have size := packing.counted tier own separate
  rw [kills, ServiceConfiguration.nodesKill, if_pos packs.1, ServiceConfiguration.lastNodes]
  intro none
  have length := congrArg List.length none
  rw [List.length_drop, List.length_nil] at length
  omega

end Agents

namespace Fleet

variable {urls : String → List String} {kind : WebKind} {config changed : CodeConfiguration} {fleet : Fleet} {old packingNode : WebServiceNode}
  {nodeRoles : ServiceConfiguration.NodeRoles}

/-- The configuration when nodes have lost their duties, before they are taken out. -/
abbrev smaller (config : CodeConfiguration) (nodeRoles : ServiceConfiguration.NodeRoles) (packingNode : WebServiceNode) : CodeConfiguration :=
  config.deploy (shrunk config.toServiceConfiguration nodeRoles packingNode)

/-- Whether a web server or a backend stops, of which the proxies learn. -/
abbrev relieves (config : CodeConfiguration) (nodeRoles : ServiceConfiguration.NodeRoles) : Bool :=
  !(kills config.toServiceConfiguration nodeRoles .web).isEmpty || !(kills config.toServiceConfiguration nodeRoles .backend).isEmpty

/-- The calls when nodes are given back. -/
def removeCalls (urls : String → List String) (kind : WebKind) (config : CodeConfiguration) (nodeRoles : ServiceConfiguration.NodeRoles)
    (packingNode : WebServiceNode) : List AgentCall :=
  packCalls urls kind (smaller config nodeRoles packingNode) (config.packs .backend (nodeRoles Tier.backend.role))
      (config.packs .web (nodeRoles Tier.web.role)) (packed (smaller config nodeRoles packingNode).toServiceConfiguration packingNode)
      (relieves config nodeRoles) (smaller config nodeRoles packingNode).getProxyServiceNodes ++
    stopCalls kind (kills config.toServiceConfiguration nodeRoles)

theorem remaining_mem (nodeRoles : ServiceConfiguration.NodeRoles) (packingNode : WebServiceNode) (member : old ∈ config.serviceNodes.rows) :
    old.remaining config.toServiceConfiguration nodeRoles packingNode ∈
      (shrunk config.toServiceConfiguration nodeRoles packingNode).serviceNodes.rows := by
  rw [shrunk_rows]
  exact List.mem_map_of_mem member

theorem smaller_ips (config : CodeConfiguration) (nodeRoles : ServiceConfiguration.NodeRoles) (packingNode : WebServiceNode) :
    ((smaller config nodeRoles packingNode).serviceNodes.rows.map fun node => node.ip) = config.serviceNodes.rows.map fun node => node.ip := by
  refine (congrArg (List.map fun node : WebServiceNode => node.ip) (shrunk_rows config.toServiceConfiguration nodeRoles packingNode)).trans ?_
  rw [List.map_map]
  exact List.map_congr_left fun node _ => (node.sameMachine_remaining config.toServiceConfiguration nodeRoles packingNode).ip

/-- A service gives nodes back, and the first of its proxies packs. -/
structure Leaving (config : CodeConfiguration) (nodeRoles : ServiceConfiguration.NodeRoles) (packingNode : WebServiceNode) : Prop where
  balance : config.Balanced
  checked : config.checkRemoveNodes nodeRoles = .ok ()
  first : ServiceConfiguration.firstNode config.getProxyServiceNodes = .ok packingNode

namespace Leaving

variable (leaving : Leaving config nodeRoles packingNode)

include leaving

theorem packing : packingNode ∈ config.serviceNodes.rows ∧ packingNode.isRunningProxy = true := by
  have first := leaving.first
  cases list : config.getProxyServiceNodes with
  | nil =>
    rw [list] at first
    cases first
  | cons node rest =>
    rw [list] at first
    cases first
    have member : packingNode ∈ config.getProxyServiceNodes := list ▸ List.mem_cons_self
    exact List.mem_filter.mp member

theorem stays : packingNode.id ∉ (kills config.toServiceConfiguration nodeRoles .proxy).map WebServiceNode.id := by
  have first := leaving.first
  cases list : config.getProxyServiceNodes with
  | nil =>
    rw [list] at first
    cases first
  | cons node rest =>
    rw [list] at first
    cases first
    have left := (ServiceConfiguration.checkRemoveNodes_ok leaving.checked).1
    have size := leaving.balance.proxyCount
    have fewer : nodeRoles Tier.proxy.role < (config.running .proxy).card := by omega
    have stays := (Finset.mem_sdiff.mp (ServiceConfiguration.packingNode_stays list fewer)).2
    rwa [List.mem_toFinset] at stays

/-- The packing node does not run the duties that it takes over. -/
theorem takes {tier : Tier} (own : tier ≠ .proxy) (packs : config.packs tier (nodeRoles tier.role) = true) :
    packingNode.runs tier = false ∧ packingNode ∉ kills config.toServiceConfiguration nodeRoles tier := by
  obtain ⟨among, hosts⟩ := leaving.packing
  have free := (packs_spec leaving.balance own packs).2 packingNode among hosts
  exact ⟨free, fun killed => Bool.false_ne_true (free.symm.trans (kills_among killed).2)⟩

/-- Where no web server and no backend stops, the lists of the duties are the same. -/
theorem settings (urls : String → List String) (kind : WebKind) (web : kills config.toServiceConfiguration nodeRoles .web = [])
    (backend : kills config.toServiceConfiguration nodeRoles .backend = []) :
    proxySettings urls kind (smaller config nodeRoles packingNode) = proxySettings urls kind config := by
  have endpoints {tier : Tier} (own : tier ≠ .proxy) (spared : kills config.toServiceConfiguration nodeRoles tier = [])
      (endpoint : WebServiceNode → Endpoint)
      (same : ∀ node, endpoint (WebServiceNode.remaining config.toServiceConfiguration nodeRoles node packingNode) = endpoint node) :
      ((shrunk config.toServiceConfiguration nodeRoles packingNode).getServiceNodes tier).map endpoint = (config.getServiceNodes tier).map endpoint := by
    rw [ServiceConfiguration.getServiceNodes, shrunk_rows]
    refine endpoints_kept endpoint fun node _ => ⟨?_, same node⟩
    have alone : config.packs tier (nodeRoles tier.role) = false :=
      Bool.eq_false_iff.mpr fun packs => (packs_spec leaving.balance own packs).1 spared
    rw [WebServiceNode.runs_remaining, spared, alone]
    simp
  have machine (node : WebServiceNode) := node.sameMachine_remaining config.toServiceConfiguration nodeRoles packingNode
  have webTuples := @endpoints .web (by decide) web (fun node => (⟨node.ip, 8080, none⟩ : Endpoint)) fun node => by rw [(machine node).ip]
  have backendTuples := @endpoints .backend (by decide) backend (fun node => (⟨node.ip, 9000, some node.weightBackend⟩ : Endpoint))
    fun node => by rw [(machine node).ip, (machine node).weight]
  exact congrArg₂ (fun webs backends => (⟨config.currentCodeVersion, webs, backends, (obliging urls).servlets kind config⟩ : HttpProxy))
    webTuples backendTuples

/-- The orders that a node gets when others are given back. -/
theorem moved (urls : String → List String) (kind : WebKind) (member : old ∈ config.serviceNodes.rows) :
    Moved urls kind config (smaller config nodeRoles packingNode) old
      (old.remaining config.toServiceConfiguration nodeRoles packingNode)
      (config.packs .backend (nodeRoles Tier.backend.role) && decide (old = packingNode))
      (config.packs .web (nodeRoles Tier.web.role) && decide (old = packingNode))
      (relieves config nodeRoles && (old.remaining config.toServiceConfiguration nodeRoles packingNode).isRunningProxy)
      (decide (old ∈ kills config.toServiceConfiguration nodeRoles .backend))
      (decide (old ∈ kills config.toServiceConfiguration nodeRoles .web))
      (decide (old ∈ kills config.toServiceConfiguration nodeRoles .proxy)) := by
  obtain ⟨among, hosts⟩ := leaving.packing
  have killed (tier : Tier) : old.id ∈ (kills config.toServiceConfiguration nodeRoles tier).map WebServiceNode.id ↔
      old ∈ kills config.toServiceConfiguration nodeRoles tier :=
    mem_kill_iff (fun _ killed => (kills_among killed).1) member
  have itself : old.id = packingNode.id ↔ old = packingNode :=
    ⟨config.serviceNodes.unique member among, fun same => same ▸ rfl⟩
  have runs (tier : Tier) := old.runs_remaining config.toServiceConfiguration nodeRoles packingNode tier
  simp only [killed, itself] at runs
  have packed {tier : Tier} (own : tier ≠ .proxy) : (config.packs tier (nodeRoles tier.role) && decide (old = packingNode)) = true →
      old.runs tier = false ∧ old ∉ kills config.toServiceConfiguration nodeRoles tier ∧ old.isRunningProxy = true := by
    intro both
    obtain ⟨packs, same⟩ := Bool.and_eq_true_iff.mp both
    obtain rfl : old = packingNode := of_decide_eq_true same
    exact ⟨(leaving.takes own packs).1, (leaving.takes own packs).2, hosts⟩
  -- A node that takes over a duty is not among those that lose it.
  have duty {tier : Tier} (own : tier ≠ .proxy) : (old.remaining config.toServiceConfiguration nodeRoles packingNode).runs tier =
      ((old.runs tier || (config.packs tier (nodeRoles tier.role) && decide (old = packingNode))) &&
        !decide (old ∈ kills config.toServiceConfiguration nodeRoles tier)) := by
    rw [runs]
    cases packs : config.packs tier (nodeRoles tier.role) && decide (old = packingNode) with
    | true =>
      obtain ⟨-, spared, -⟩ := packed own packs
      simp_all
    | false => simp_all
  have proxy : (old.remaining config.toServiceConfiguration nodeRoles packingNode).isRunningProxy =
      (old.isRunningProxy && !decide (old ∈ kills config.toServiceConfiguration nodeRoles .proxy)) :=
    (runs .proxy).trans (by simp [WebServiceNode.runs_proxy])
  constructor
  · rfl
  · rfl
  · exact proxy
  · exact @duty .web (by decide)
  · exact @duty .backend (by decide)
  · intro packs
    obtain ⟨free, spared, -⟩ := @packed .backend (by decide) packs
    refine ⟨free, (@duty .backend (by decide)).trans ?_⟩
    rw [packs]
    simp [spared]
  · intro packs
    obtain ⟨free, -, proxy⟩ := @packed .web (by decide) packs
    exact ⟨free, proxy⟩
  · intro told
    have runs := (Bool.and_eq_true_iff.mp told).2
    rw [proxy] at runs
    exact Bool.and_elim_left runs
  · intro runsProxy untold
    rw [runsProxy, Bool.and_true] at untold
    obtain ⟨web, backend⟩ := Bool.or_eq_false_iff.mp untold
    exact leaving.settings urls kind (by simpa using web) (by simpa using backend)
  · exact fun killed => (kills_among (of_decide_eq_true killed)).2
  · exact fun killed => (kills_among (of_decide_eq_true killed)).2
  · exact fun killed => (kills_among (of_decide_eq_true killed)).2

theorem packed_eq : packed (smaller config nodeRoles packingNode).toServiceConfiguration packingNode =
    packingNode.remaining config.toServiceConfiguration nodeRoles packingNode := by
  have found : (smaller config nodeRoles packingNode).serviceNodes.get? _ = some _ :=
    Table.get?_of_mem (remaining_mem nodeRoles packingNode leaving.packing.1)
  rw [(packingNode.sameMachine_remaining config.toServiceConfiguration nodeRoles packingNode).id] at found
  rw [packed, found, Option.getD_some]

/-- Calls to the packing node, as one of the nodes gets them. -/
theorem callsAt_packing (known : (config.serviceNodes.rows.map fun node => node.ip).Nodup) (member : old ∈ config.serviceNodes.rows)
    (packs : Bool) {calls : WebServiceNode → List AgentCall} (own : ∀ node, ∀ call ∈ calls node, call.ip = node.ip) :
    callsAt old.ip (if packs then calls (packingNode.remaining config.toServiceConfiguration nodeRoles packingNode) else []) =
      if packs && decide (old = packingNode) then calls (old.remaining config.toServiceConfiguration nodeRoles packingNode) else [] := by
  cases packs with
  | false => rfl
  | true =>
    rw [if_pos rfl, Bool.true_and]
    have machine := packingNode.sameMachine_remaining config.toServiceConfiguration nodeRoles packingNode
    by_cases here : old = packingNode
    · rw [decide_eq_true here, if_pos rfl, here]
      exact List.filter_eq_self.mpr fun call called => decide_eq_true ((own _ call called).trans machine.ip)
    · rw [decide_eq_false here, if_neg Bool.false_ne_true]
      refine List.filter_eq_nil_iff.mpr fun call called same => here ?_
      have place : call.ip = packingNode.ip := (own _ call called).trans machine.ip
      exact List.inj_on_of_nodup_map known member leaving.packing.1 ((of_decide_eq_true same).symm.trans place)

/-- The calls to one of the nodes. -/
theorem callsAt_remove (known : (config.serviceNodes.rows.map fun node => node.ip).Nodup) (member : old ∈ config.serviceNodes.rows) :
    callsAt old.ip (removeCalls urls kind config nodeRoles packingNode) =
      (if config.packs .backend (nodeRoles Tier.backend.role) && decide (old = packingNode) then
          (old.remaining config.toServiceConfiguration nodeRoles packingNode).call (createBackend kind) ::
            pushCalls kind (smaller config nodeRoles packingNode) (old.remaining config.toServiceConfiguration nodeRoles packingNode)
        else []) ++
      ((if config.packs .web (nodeRoles Tier.web.role) && decide (old = packingNode) then
          [(old.remaining config.toServiceConfiguration nodeRoles packingNode).call (.createWebServer (smaller config nodeRoles packingNode).webVersions)] else []) ++
        ((if relieves config nodeRoles && (old.remaining config.toServiceConfiguration nodeRoles packingNode).isRunningProxy then
            [(old.remaining config.toServiceConfiguration nodeRoles packingNode).call
              ((obliging urls).updateProxyOp kind (smaller config nodeRoles packingNode))] else []) ++
          ((if old ∈ kills config.toServiceConfiguration nodeRoles .backend then [old.call (stopBackendOp kind)] else []) ++
            ((if old ∈ kills config.toServiceConfiguration nodeRoles .web then [old.call .stopWebServer] else []) ++
              if old ∈ kills config.toServiceConfiguration nodeRoles .proxy then [old.call .stopHttpProxy] else [])))) := by
  have machine := old.sameMachine_remaining config.toServiceConfiguration nodeRoles packingNode
  have apart : ((smaller config nodeRoles packingNode).serviceNodes.rows.map fun node => node.ip).Nodup := by
    rwa [smaller_ips]
  have here : old.remaining config.toServiceConfiguration nodeRoles packingNode ∈ (smaller config nodeRoles packingNode).serviceNodes.rows :=
    remaining_mem nodeRoles packingNode member
  have own (op : AgentOp) : ∀ node : WebServiceNode, ∀ call ∈ [node.call op], call.ip = node.ip := fun node call called =>
    List.mem_singleton.mp called ▸ rfl
  have backend := leaving.callsAt_packing known member (config.packs .backend (nodeRoles Tier.backend.role))
    (fun node call called => (List.mem_append.mp called).elim (own (createBackend kind) node call)
      (@pushCalls_ip kind (smaller config nodeRoles packingNode) node call))
  have web := leaving.callsAt_packing known member (config.packs .web (nodeRoles Tier.web.role)) (own (.createWebServer (smaller config nodeRoles packingNode).webVersions))
  have told : callsAt old.ip (if relieves config nodeRoles then
      callsTo ((obliging urls).updateProxyOp kind (smaller config nodeRoles packingNode)) (smaller config nodeRoles packingNode).getProxyServiceNodes else []) =
        if relieves config nodeRoles && (old.remaining config.toServiceConfiguration nodeRoles packingNode).isRunningProxy then
          [(old.remaining config.toServiceConfiguration nodeRoles packingNode).call
            ((obliging urls).updateProxyOp kind (smaller config nodeRoles packingNode))] else [] := by
    cases relieves config nodeRoles with
    | false => rfl
    | true =>
      rw [if_pos rfl, Bool.true_and, ← machine.ip]
      exact callsAt_filter apart here _
  have stopped (op : AgentOp) (tier : Tier) : callsAt old.ip (callsTo op (kills config.toServiceConfiguration nodeRoles tier)) =
      if old ∈ kills config.toServiceConfiguration nodeRoles tier then [old.call op] else [] :=
    callsAt_killed known (known.sublist ((kills_sublist config.toServiceConfiguration nodeRoles tier).map _)) (fun _ killed => (kills_among killed).1) member
  rw [removeCalls, leaving.packed_eq, callsAt_append, packCalls, callsAt_append, callsAt_append, stopCalls, callsAt_append, callsAt_append,
    stopped, stopped, stopped, List.append_assoc, List.append_assoc]
  exact congrArg₂ (· ++ ·) backend (congrArg₂ (· ++ ·) web (congrArg (· ++ _) told))

/-- All calls go to nodes of the service. -/
theorem places : ∀ call ∈ removeCalls urls kind config nodeRoles packingNode,
    call.ip ∈ (smaller config nodeRoles packingNode).serviceNodes.rows.map fun node => node.ip := by
  intro call called
  have packing : call.ip = packingNode.ip → call.ip ∈ (smaller config nodeRoles packingNode).serviceNodes.rows.map fun node => node.ip := by
    intro same
    rw [smaller_ips, same]
    exact List.mem_map.mpr ⟨packingNode, leaving.packing.1, rfl⟩
  have machine := (packingNode.sameMachine_remaining config.toServiceConfiguration nodeRoles packingNode).ip
  have killed {op : AgentOp} {tier : Tier} (told : call ∈ callsTo op (kills config.toServiceConfiguration nodeRoles tier)) :
      call.ip ∈ (smaller config nodeRoles packingNode).serviceNodes.rows.map fun node => node.ip := by
    rw [smaller_ips]
    exact map_ip_subset (kills_sublist config.toServiceConfiguration nodeRoles tier).subset (callsTo_ip told)
  rw [removeCalls, leaving.packed_eq] at called
  rcases List.mem_append.mp called with called | called
  · rcases List.mem_append.mp called with called | called
    · split at called
      · rcases List.mem_cons.mp called with rfl | called
        · exact packing machine
        · exact packing ((pushCalls_ip called).trans machine)
      · cases called
    rcases List.mem_append.mp called with called | called
    · split at called
      · rcases List.mem_singleton.mp called with rfl
        exact packing machine
      · cases called
    · split at called
      · exact map_ip_subset (List.filter_subset_self _) (callsTo_ip called)
      · cases called
  rcases List.mem_append.mp called with called | called
  · exact killed called
  rcases List.mem_append.mp called with called | called
  · exact killed called
  · exact killed called

end Leaving

theorem removed_getServiceNodes (config : CodeConfiguration) (nodeRoles : ServiceConfiguration.NodeRoles) (packingNode : WebServiceNode) (tier : Tier) :
    (removed config nodeRoles packingNode).getServiceNodes tier = (smaller config nodeRoles packingNode).getServiceNodes tier := by
  refine List.filter_filter.trans (List.filter_congr fun node _ => ?_)
  cases runs : node.runs tier with
  | false => rfl
  | true => exact WebServiceNode.isUsed_iff.mpr ⟨tier, runs⟩

theorem removed_webTuples (config : CodeConfiguration) (nodeRoles : ServiceConfiguration.NodeRoles) (packingNode : WebServiceNode) :
    (removed config nodeRoles packingNode).getWebTuples = (smaller config nodeRoles packingNode).getWebTuples :=
  congrArg (List.map fun node : WebServiceNode => (⟨node.ip, 8080, none⟩ : Endpoint)) (removed_getServiceNodes config nodeRoles packingNode .web)

/-- What is told of the duties is the same without the nodes that have none. -/
theorem Runs.deleteUnused {agent : WebServersAgent} (runs : Runs urls kind (smaller config nodeRoles packingNode) old agent) :
    Runs urls kind (removed config nodeRoles packingNode) old agent := by
  have kept := removed_getServiceNodes config nodeRoles packingNode
  have settings : proxySettings urls kind (removed config nodeRoles packingNode) = proxySettings urls kind (smaller config nodeRoles packingNode) := by
    simp only [proxySettings, ServiceConfiguration.getWebTuples, ServiceConfiguration.getBackendTuples, ServiceConfiguration.getWebServiceNodes,
      ServiceConfiguration.getBackendServiceNodes, kept]
    rfl
  exact ⟨settings ▸ runs.proxy, runs.web, runs.backend, runs.www, runs.webapps⟩

/-- Nodes are given back: no agent refuses an order, then the agents run what the
configuration says, and those of the nodes given back run nothing. -/
theorem remove_accepted (matched : Matches urls kind config fleet) (leaving : Leaving config nodeRoles packingNode) (deployable : CanDeploy config)
    (webs : (smaller config nodeRoles packingNode).getWebTuples ≠ []) :
    ∃ after, carryOut (removeCalls urls kind config nodeRoles packingNode) fleet = some after ∧
      Matches urls kind (removed config nodeRoles packingNode) after ∧
        ∀ node ∈ (smaller config nodeRoles packingNode).deleteUnused.2, Idle kind (after node.ip) := by
  have each : ∀ row ∈ (smaller config nodeRoles packingNode).serviceNodes.rows, ∃ agent,
      (fleet row.ip).obeyAll (callsAt row.ip (removeCalls urls kind config nodeRoles packingNode)) = some agent ∧
        Runs urls kind (smaller config nodeRoles packingNode) row agent := by
    intro row member
    have rows : (smaller config nodeRoles packingNode).serviceNodes.rows =
      config.serviceNodes.rows.map fun node => node.remaining config.toServiceConfiguration nodeRoles packingNode := shrunk_rows _ _ _
    obtain ⟨old, inside, rfl⟩ := List.mem_map.mp (rows ▸ member)
    obtain ⟨agent, taken, runs⟩ := (leaving.moved urls kind inside).taken (old.remaining config.toServiceConfiguration nodeRoles packingNode).toServiceNode
      old.toServiceNode (matched.runs old inside) deployable webs
    refine ⟨agent, ?_, runs⟩
    rw [(old.sameMachine_remaining config.toServiceConfiguration nodeRoles packingNode).ip, leaving.callsAt_remove matched.apart inside]
    simpa only [decide_eq_true_eq] using taken
  obtain ⟨after, carried, runs, -⟩ := carryOut_of_each leaving.places each
  have apart : ((smaller config nodeRoles packingNode).serviceNodes.rows.map fun node => node.ip).Nodup := by
    rw [smaller_ips]
    exact matched.apart
  refine ⟨after, carried, ⟨apart.sublist (List.filter_sublist.map _), fun node member => ?_⟩, fun node member => ?_⟩
  · exact (runs node (List.mem_of_mem_filter member)).deleteUnused
  · obtain ⟨inside, unused⟩ := List.mem_filter.mp member
    have idle : ∀ tier, node.runs tier = false := fun tier =>
      Bool.eq_false_iff.mpr fun runs => by simp [WebServiceNode.isUsed_iff.mpr ⟨tier, runs⟩] at unused
    have here := runs node inside
    have proxy : node.isRunningProxy = false := idle .proxy
    have web : node.isRunningWeb = false := idle .web
    have backend : node.isRunningBackend = false := idle .backend
    exact ⟨by simp [here.proxy, proxy], by simp [here.web, web], by simp [here.backend, backend]⟩

/-- The configuration after an update. -/
def updated (kind : WebKind) (config : CodeConfiguration) : Option String → CodeConfiguration
  | none => config
  | some codeVersionId => switched kind config codeVersionId

/-- The calls of an update. -/
def updateCalls (urls : String → List String) (kind : WebKind) (config : CodeConfiguration) (codeVersionId : Option String) (phpconf : Bool) :
    List AgentCall :=
  (if kind = .php ∧ phpconf = true then callsTo .updatePHP config.getBackendServiceNodes else []) ++
    codeVersionId.elim [] fun codeVersionId => switchCalls urls kind (switched kind config codeVersionId)

/-- An agent takes the orders when the code is another one. -/
theorem switch_taken {agent : WebServersAgent} (runs : Runs urls kind config old agent) (deployable : CanDeploy changed)
    (webs : changed.getWebTuples ≠ []) : ∃ after, agent.obeyAll (pushCalls kind changed old ++
        ((if old.isRunningWeb then [old.call (.updateWebServer changed.webVersions)] else []) ++
          if old.isRunningProxy then [old.call ((obliging urls).updateProxyOp kind changed)] else [])) = some after ∧
      Runs urls kind changed old after := by
  obtain ⟨version, known, deployable⟩ := deployable
  obtain ⟨www, webapps, push, served, deployed, -, -⟩ := obeyAll_push agent kind known deployable old
  refine ⟨_, (obeyAll_append push).trans ((obeyAll_append (obeyAll_updateWeb changed.webVersions ?_)).trans (obeyAll_updateProxy webs ?_)), ?_⟩
  · intro web
    simp [runs.web, web]
  · intro proxy
    simp [runs.proxy, proxy]
  · constructor
    · simp only [withProxy_httpproxyFile, withWeb_httpproxyFile, withCode_httpproxyFile, runs.proxy]
      split <;> rfl
    · simp only [withProxy_webserverFile, withWeb_webserverFile, withCode_webserverFile, runs.web]
      split <;> rfl
    · simp [runs.backend]
    · simpa using served
    · simpa using deployed

/-- The code or the settings of PHP change: no agent refuses an order, and then
the agents run what the configuration says. -/
theorem update_accepted (matched : Matches urls kind config fleet) (codeVersionId : Option String) (phpconf : Bool)
    (deployable : ∀ id ∈ codeVersionId, CanDeploy (switched kind config id)) (webs : config.getWebTuples ≠ []) :
    ∃ after, carryOut (updateCalls urls kind config codeVersionId phpconf) fleet = some after ∧
      Matches urls kind (updated kind config codeVersionId) after := by
  have places : ∀ call ∈ updateCalls urls kind config codeVersionId phpconf, call.ip ∈ config.serviceNodes.rows.map fun node => node.ip := by
    intro call called
    rcases List.mem_append.mp called with called | called
    · split at called
      · exact map_ip_subset (List.filter_subset_self _) (callsTo_ip called)
      · cases called
    cases codeVersionId with
    | none => cases called
    | some id =>
      rcases List.mem_append.mp called with called | called
      · exact push_ip called
      rcases List.mem_append.mp called with called | called
      · exact map_ip_subset (List.filter_subset_self _) (callsTo_ip called)
      · exact map_ip_subset (List.filter_subset_self _) (callsTo_ip called)
  have each : ∀ node ∈ config.serviceNodes.rows, ∃ agent,
      (fleet node.ip).obeyAll (callsAt node.ip (updateCalls urls kind config codeVersionId phpconf)) = some agent ∧
        Runs urls kind (updated kind config codeVersionId) node agent := by
    intro node member
    have runs := matched.runs node member
    have settings : (fleet node.ip).obeyAll
        (callsAt node.ip (if kind = .php ∧ phpconf = true then callsTo .updatePHP config.getBackendServiceNodes else [])) = some (fleet node.ip) := by
      split
      · rename_i php
        rw [ServiceConfiguration.getBackendServiceNodes, ServiceConfiguration.getServiceNodes, callsAt_filter matched.apart member]
        refine obeyAll_updatePHP fun wanted => ?_
        have runsBackend : node.isRunningBackend = true := wanted
        have backend := runs.backend
        rw [php.1, runsBackend] at backend
        exact backend
      · rfl
    rw [updateCalls, callsAt_append, obeyAll_append settings]
    cases codeVersionId with
    | none => exact ⟨_, rfl, runs⟩
    | some id =>
      obtain ⟨agent, taken, after⟩ := switch_taken runs (deployable id rfl) webs
      refine ⟨agent, ?_, after⟩
      have apart : ((switched kind config id).serviceNodes.rows.map fun node => node.ip).Nodup := matched.apart
      have member : node ∈ (switched kind config id).serviceNodes.rows := member
      simp only [Option.elim_some, switchCalls, callsAt_append, ServiceConfiguration.getWebServiceNodes,
        ServiceConfiguration.getProxyServiceNodes, ServiceConfiguration.getServiceNodes, callsAt_push kind _ apart member,
        callsAt_filter apart member]
      exact taken
  obtain ⟨after, carried, runs, -⟩ := carryOut_of_each places each
  refine ⟨after, carried, ?_⟩
  cases codeVersionId with
  | none => exact ⟨matched.apart, runs⟩
  | some id => exact ⟨matched.apart, runs⟩

end Fleet

end ConPaaS
