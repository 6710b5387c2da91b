import ConPaaS.Webservers.FleetMatching

namespace ConPaaS

open Keyed Parties Effect Deployment Agents WebServersAgent

namespace WebServiceNode

theorem runs_proxy (node : WebServiceNode) : node.runs .proxy = node.isRunningProxy := rfl

theorem runs_web (node : WebServiceNode) : node.runs .web = node.isRunningWeb := rfl

theorem runs_backend (node : WebServiceNode) : node.runs .backend = node.isRunningBackend := rfl

/-- A node after others were relieved of a duty. -/
def stopIn (tier : Tier) (killed : List WebServiceNode) (node : WebServiceNode) : WebServiceNode :=
  if node.id ∈ killed.map WebServiceNode.id then node.setRuns false tier else node

/-- What a change of the duties of a node leaves alone. -/
structure SameMachine (node other : WebServiceNode) : Prop where
  id : other.id = node.id
  ip : other.ip = node.ip
  cloud : other.cloudName = node.cloudName
  weight : other.weightBackend = node.weightBackend

theorem SameMachine.refl (node : WebServiceNode) : SameMachine node node := ⟨rfl, rfl, rfl, rfl⟩

theorem SameMachine.trans {node other last : WebServiceNode} (first : SameMachine node other) (second : SameMachine other last) :
    SameMachine node last :=
  ⟨second.id.trans first.id, second.ip.trans first.ip, second.cloud.trans first.cloud, second.weight.trans first.weight⟩

theorem sameMachine_setRuns (node : WebServiceNode) (running : Bool) (tier : Tier) : SameMachine node (node.setRuns running tier) := by
  cases tier <;> exact ⟨rfl, rfl, rfl, rfl⟩

theorem sameMachine_updateRole (node : WebServiceNode) : SameMachine node node.updateRole := by
  unfold updateRole
  split_ifs <;> exact ⟨rfl, rfl, rfl, rfl⟩

theorem sameMachine_stopIn (tier : Tier) (killed : List WebServiceNode) (node : WebServiceNode) : SameMachine node (node.stopIn tier killed) := by
  unfold stopIn
  split
  · exact sameMachine_setRuns node false tier
  · exact .refl node

theorem runs_stopIn (tier other : Tier) (killed : List WebServiceNode) (node : WebServiceNode) :
    (node.stopIn tier killed).runs other = (node.runs other && !decide (other = tier ∧ node.id ∈ killed.map WebServiceNode.id)) := by
  unfold stopIn
  split
  · rename_i inside
    rw [runs_setRuns]
    by_cases same : other = tier <;> simp [same, inside]
  · rename_i outside
    simp [outside]

/-- A node that was there when others were added. -/
def relieved (webKill backendKill : List WebServiceNode) (node : WebServiceNode) : WebServiceNode :=
  ((node.stopIn .web webKill).stopIn .backend backendKill).updateRole

theorem sameMachine_relieved (webKill backendKill : List WebServiceNode) (node : WebServiceNode) :
    SameMachine node (node.relieved webKill backendKill) :=
  ((node.sameMachine_stopIn .web webKill).trans (sameMachine_stopIn .backend backendKill _)).trans (sameMachine_updateRole _)

theorem runs_relieved (webKill backendKill : List WebServiceNode) (node : WebServiceNode) (tier : Tier) :
    (node.relieved webKill backendKill).runs tier = (node.runs tier &&
      !decide (tier = .web ∧ node.id ∈ webKill.map WebServiceNode.id) && !decide (tier = .backend ∧ node.id ∈ backendKill.map WebServiceNode.id)) := by
  rw [relieved, runs_updateRole, runs_stopIn, runs_stopIn, (node.sameMachine_stopIn .web webKill).id]

end WebServiceNode

namespace ServiceConfiguration

variable {config : ServiceConfiguration}

theorem setRunning_rows (config : ServiceConfiguration) (tier : Tier) (killed : List WebServiceNode) :
    (config.setRunning tier false killed).serviceNodes.rows = config.serviceNodes.rows.map (WebServiceNode.stopIn tier killed) := rfl

/-- New nodes are entered before the others, the last one first. -/
theorem enterNodes_rows {pairs : List (ServiceNode × Tier)} (distinct : (pairs.map fun pair => pair.1.id).Nodup)
    (fresh : ∀ pair ∈ pairs, pair.1.id ∉ config.ids) : (config.enterNodes pairs).serviceNodes.rows =
      (pairs.map fun (node, tier) => WebServiceNode.create node defaultNodeWeight defaultNodeWeight tier).reverse ++ config.serviceNodes.rows := by
  induction pairs generalizing config with
  | nil => rfl
  | cons pair rest ih =>
    obtain ⟨node, duty⟩ := pair
    obtain ⟨apart, distinct⟩ := List.nodup_cons.mp distinct
    have new : (WebServiceNode.create node defaultNodeWeight defaultNodeWeight duty).id ∉ config.ids := fresh _ List.mem_cons_self
    rw [enterNodes, ih distinct]
    · rw [List.map_cons, List.reverse_cons, List.append_assoc]
      exact congrArg _ (put_rows new)
    · intro later member inside
      rw [put_ids new] at inside
      rcases Finset.mem_insert.mp inside with same | old
      · exact apart (List.mem_map.mpr ⟨later, member, same⟩)
      · exact fresh later (List.mem_cons_of_mem _ member) old

end ServiceConfiguration

namespace Agents

/-- The nodes of a service that gets new ones. -/
theorem enlarged_rows {config : ServiceConfiguration} {nodes : List ServiceNode} (distinct : (nodes.map ServiceNode.id).Nodup)
    (fresh : ∀ node ∈ nodes, node.id ∉ config.ids) (webKill backendKill : List WebServiceNode) :
    (enlarged config nodes webKill backendKill).serviceNodes.rows = (newNodes nodes).reverse.map WebServiceNode.updateRole ++
      config.serviceNodes.rows.map (WebServiceNode.relieved webKill backendKill) := by
  have entered := @ServiceConfiguration.enterNodes_rows (config.stopWebAndBackend webKill backendKill) _ (ServiceConfiguration.pairs_nodup distinct)
    fun pair member => by
      rw [ServiceConfiguration.stopWebAndBackend_ids]
      exact fresh pair.1 (List.of_mem_zip member).1
  have stopped : (config.stopWebAndBackend webKill backendKill).serviceNodes.rows = config.serviceNodes.rows.map fun node =>
      (node.stopIn .web webKill).stopIn .backend backendKill := by
    rw [ServiceConfiguration.stopWebAndBackend, ServiceConfiguration.setRunning_rows, ServiceConfiguration.setRunning_rows, List.map_map]
    rfl
  rw [stopped] at entered
  have updated := congrArg (List.map WebServiceNode.updateRole) entered
  rw [List.map_append, List.map_map] at updated
  exact updated

end Agents

namespace Fleet

variable {urls : String → List String} {kind : WebKind} {config changed : CodeConfiguration} {fleet : Fleet} {old row : WebServiceNode}
  {agent : WebServersAgent}

/-- An agent without any processes of the duties. -/
structure Idle (kind : WebKind) (agent : WebServersAgent) : Prop where
  proxy : agent.httpproxyFile = none
  web : agent.webserverFile = none
  backend : agent.backendFile kind = none

/-- A running service stops: no agent refuses an order, and then none runs
anything. -/
theorem stop_accepted (matched : Matches urls kind config fleet) : ∃ after, carryOut (haltCalls kind config) fleet = some after ∧
    ∀ node ∈ config.serviceNodes.rows, Idle kind (after node.ip) := by
  have places : ∀ call ∈ haltCalls kind config, call.ip ∈ config.serviceNodes.rows.map fun node => node.ip := by
    intro call called
    rcases List.mem_append.mp called with called | called
    · exact map_ip_subset (List.filter_subset_self _) (callsTo_ip called)
    rcases List.mem_append.mp called with called | called
    · exact map_ip_subset (List.filter_subset_self _) (callsTo_ip called)
    · exact map_ip_subset (List.filter_subset_self _) (callsTo_ip called)
  have each : ∀ node ∈ config.serviceNodes.rows, ∃ agent,
      (fleet node.ip).obeyAll (callsAt node.ip (haltCalls kind config)) = some agent ∧ Idle kind agent := by
    intro node member
    have runs := matched.runs node member
    simp only [haltCalls, callsAt_append, ServiceConfiguration.getBackendServiceNodes, ServiceConfiguration.getWebServiceNodes,
      ServiceConfiguration.getProxyServiceNodes, ServiceConfiguration.getServiceNodes, callsAt_filter matched.apart member,
      WebServiceNode.runs_proxy, WebServiceNode.runs_web, WebServiceNode.runs_backend]
    have proxy (wanted : node.isRunningProxy = true) : (fleet node.ip).httpproxyFile.isSome = true := by simp [runs.proxy, wanted]
    have web (wanted : node.isRunningWeb = true) : (fleet node.ip).webserverFile.isSome = true := by simp [runs.web, wanted]
    have backend (wanted : node.isRunningBackend = true) : (fleet node.ip).backendFile kind = some () := by simp [runs.backend, wanted]
    refine ⟨_, (obeyAll_append (obeyAll_stopProxy proxy)).trans ((obeyAll_append (obeyAll_stopWeb ?_)).trans (obeyAll_stopBackend ?_)), ?_⟩
    · simpa using web
    · simpa using backend
    · constructor
      · simp [runs.proxy]
      · simp [runs.web]
      · simp [runs.backend]
  obtain ⟨after, carried, idle, -⟩ := carryOut_of_each places each
  exact ⟨after, carried, idle⟩

/-- The orders a node gets when duties move, in the order of the source: it may
take over a backend with its code, and a web server, learn of a change, and lose
duties. -/
structure Moved (urls : String → List String) (kind : WebKind) (config changed : CodeConfiguration) (old row : WebServiceNode)
    (packBackend packWeb told stopBackend stopWeb stopProxy : Bool) : Prop where
  current : changed.currentCodeVersion = config.currentCodeVersion
  versions : changed.webVersions = config.webVersions
  proxy : row.isRunningProxy = (old.isRunningProxy && !stopProxy)
  web : row.isRunningWeb = ((old.isRunningWeb || packWeb) && !stopWeb)
  backend : row.isRunningBackend = ((old.isRunningBackend || packBackend) && !stopBackend)
  packedBackend : packBackend = true → old.isRunningBackend = false ∧ row.isRunningBackend = true
  packedWeb : packWeb = true → old.isRunningWeb = false ∧ old.isRunningProxy = true
  known : told = true → old.isRunningProxy = true
  untold : row.isRunningProxy = true → told = false → proxySettings urls kind changed = proxySettings urls kind config
  ownBackend : stopBackend = true → old.isRunningBackend = true
  ownWeb : stopWeb = true → old.isRunningWeb = true
  ownProxy : stopProxy = true → old.isRunningProxy = true

/-- An agent takes these orders. -/
theorem Moved.taken {packBackend packWeb told stopBackend stopWeb stopProxy : Bool}
    (moved : Moved urls kind config changed old row packBackend packWeb told stopBackend stopWeb stopProxy) (node killed : ServiceNode)
    (runs : Runs urls kind config old agent) (deployable : CanDeploy changed) (webs : changed.getWebTuples ≠ []) :
    ∃ after, agent.obeyAll ((if packBackend then node.call (createBackend kind) :: pushCalls kind changed row else []) ++
        ((if packWeb then [node.call (.createWebServer changed.webVersions)] else []) ++
          ((if told then [node.call ((obliging urls).updateProxyOp kind changed)] else []) ++
            ((if stopBackend then [killed.call (stopBackendOp kind)] else []) ++
              ((if stopWeb then [killed.call .stopWebServer] else []) ++ if stopProxy then [killed.call .stopHttpProxy] else []))))) =
        some after ∧ Runs urls kind changed row after := by
  obtain ⟨version, known, deployable⟩ := deployable
  have packed : ∃ www webapps, agent.obeyAll (if packBackend then node.call (createBackend kind) :: pushCalls kind changed row else []) =
      some ((agent.withBackend kind (if packBackend then some () else agent.backendFile kind)).withCode www webapps) ∧
      agent.www ⊆ www ∧ agent.webapps ⊆ webapps ∧
      (packBackend = true → kind = .php ∨ row.isRunningProxy = true ∨ row.isRunningWeb = true → changed.currentCodeVersion ∈ www) ∧
      (packBackend = true → kind = .java → changed.currentCodeVersion ∈ webapps) := by
    cases packBackend with
    | false => exact ⟨agent.www, agent.webapps, by cases kind <;> rfl, List.Subset.refl _, List.Subset.refl _, by simp, by simp⟩
    | true =>
      obtain ⟨before, after⟩ := moved.packedBackend rfl
      have started : agent.obeyAll (if true then [node.call (createBackend kind)] else []) = some _ :=
        obeyAll_startBackend fun _ => by simp [runs.backend, before]
      obtain ⟨www, webapps, push, served, deployed, more, more'⟩ :=
        obeyAll_push (agent.withBackend kind (if true then some () else agent.backendFile kind)) kind known deployable row
      exact ⟨www, webapps, (obeyAll_append started).trans push, by simpa using more, by simpa using more', fun _ => served,
        fun _ java => deployed java after⟩
  obtain ⟨www, webapps, packed, more, more', served, deployed⟩ := packed
  refine ⟨_, (obeyAll_append packed).trans ((obeyAll_append (obeyAll_startWeb changed.webVersions ?_)).trans
    ((obeyAll_append (obeyAll_updateProxy webs ?_)).trans ((obeyAll_append (obeyAll_stopBackend ?_)).trans
      ((obeyAll_append (obeyAll_stopWeb ?_)).trans (obeyAll_stopProxy ?_))))), ?_⟩
  · intro pack
    simp [runs.web, (moved.packedWeb pack).1]
  · intro some
    simp [runs.proxy, moved.known some]
  · intro stop
    simp [runs.backend, moved.ownBackend stop]
  · intro stop
    simp only [withBackend_webserverFile, withProxy_webserverFile, withWeb_webserverFile, withCode_webserverFile, runs.web, moved.ownWeb stop]
    split <;> rfl
  · intro stop
    simp only [withWeb_httpproxyFile, withBackend_httpproxyFile, withProxy_httpproxyFile, withCode_httpproxyFile, runs.proxy, moved.ownProxy stop]
    split <;> rfl
  · constructor
    · simp only [withProxy_httpproxyFile, withWeb_httpproxyFile, withBackend_httpproxyFile, withCode_httpproxyFile, runs.proxy, moved.proxy]
      have known := moved.known
      have same := moved.untold
      rw [moved.proxy] at same
      cases stopProxy <;> cases told <;> cases proxy : old.isRunningProxy <;> simp_all
    · simp only [withProxy_webserverFile, withWeb_webserverFile, withBackend_webserverFile, withCode_webserverFile, runs.web, moved.web, moved.versions]
      cases stopWeb <;> cases packWeb <;> cases web : old.isRunningWeb <;> simp
    · simp only [withProxy_backendFile, withWeb_backendFile, withBackend_backendFile, withCode_backendFile, runs.backend, moved.backend]
      cases stopBackend <;> cases packBackend <;> cases backend : old.isRunningBackend <;> simp
    · intro wanted
      simp only [withProxy_www, withWeb_www, withBackend_www, withCode_www]
      cases pack : packBackend with
      | true => exact served pack wanted
      | false =>
        refine more (moved.current ▸ runs.www (wanted.imp_right fun duty => ?_))
        rw [moved.proxy, moved.web] at duty
        rcases duty with proxy | web
        · exact .inl (Bool.and_elim_left proxy)
        · rcases Bool.or_eq_true_iff.mp (Bool.and_elim_left web) with web | taken
          · exact .inr web
          · exact .inl (moved.packedWeb taken).2
    · intro java wanted
      simp only [withProxy_webapps, withWeb_webapps, withBackend_webapps, withCode_webapps]
      cases pack : packBackend with
      | true => exact deployed pack java
      | false =>
        refine more' (moved.current ▸ runs.webapps java ?_)
        rw [moved.backend] at wanted
        simp_all

theorem Runs.updateRole (runs : Runs urls kind config row agent) : Runs urls kind config row.updateRole agent := by
  have same := WebServiceNode.runs_updateRole row
  have proxy : row.updateRole.isRunningProxy = row.isRunningProxy := same .proxy
  have web : row.updateRole.isRunningWeb = row.isRunningWeb := same .web
  have backend : row.updateRole.isRunningBackend = row.isRunningBackend := same .backend
  exact ⟨proxy ▸ runs.proxy, web ▸ runs.web, backend ▸ runs.backend, by rw [proxy, web]; exact runs.www, by rw [backend]; exact runs.webapps⟩

/-- The calls to a node in a loop over nodes that are relieved of a duty. -/
theorem callsAt_killed {op : AgentOp} {kill rows : List WebServiceNode} (apart : (rows.map fun node => node.ip).Nodup)
    (distinct : (kill.map fun node => node.ip).Nodup) (among : ∀ node ∈ kill, node ∈ rows) (member : old ∈ rows) :
    callsAt old.ip (callsTo op kill) = if old ∈ kill then [old.call op] else [] := by
  split
  · rename_i killed
    exact callsAt_callsTo distinct killed
  · rename_i spared
    refine callsAt_callsTo_other fun known => spared ?_
    obtain ⟨other, inside, same⟩ := List.mem_map.mp known
    rwa [← List.inj_on_of_nodup_map apart (among other inside) member same]

section Addition

variable {nodes : List ServiceNode} {webKill backendKill : List WebServiceNode}

theorem newNodes_ips (nodes : List ServiceNode) : ((newNodes nodes).map fun node => node.ip).Sublist (nodes.map ServiceNode.ip) := by
  have firsts := (ServiceConfiguration.zip_fst_sublist nodes (ServiceConfiguration.newDuties nodes)).map ServiceNode.ip
  rw [List.map_map] at firsts
  rwa [newNodes, List.map_map]

theorem newNodes_ids {node : WebServiceNode} (member : node ∈ newNodes nodes) : ∃ given ∈ nodes, given.id = node.id := by
  obtain ⟨⟨given, tier⟩, inside, rfl⟩ := List.mem_map.mp member
  exact ⟨given, (List.of_mem_zip inside).1, rfl⟩

/-- A duty that nodes were asked for is run by a new node. -/
theorem newNodes_supplied {tier : Tier} (distinct : (nodes.map ServiceNode.id).Nodup) (some : 0 < ServiceConfiguration.supplied nodes tier) :
    ∃ node ∈ newNodes nodes, node.runs tier = true := by
  rw [← ServiceConfiguration.newIds_card distinct tier, Finset.card_pos] at some
  obtain ⟨id, member⟩ := some
  obtain ⟨⟨given, duty⟩, inside, -⟩ := List.mem_map.mp (List.mem_toFinset.mp member)
  obtain ⟨among, same⟩ := List.mem_filter.mp inside
  obtain rfl : duty = tier := of_decide_eq_true same
  exact ⟨_, List.mem_map_of_mem among, by cases duty <;> rfl⟩

/-- At most one node is relieved of a packed duty, and only for new ones. -/
theorem unpacked_kill {tier : Tier} {requested : Nat} {config : ServiceConfiguration} {kill : List WebServiceNode}
    (unpacked : config.unpacked tier requested = .ok kill) :
    kill = [] ∨ (0 < requested ∧ ∃ node ∈ config.serviceNodes.rows, node.runs tier = true ∧ kill = [node]) := by
  unfold ServiceConfiguration.unpacked at unpacked
  split at unpacked
  · rename_i first
    cases list : config.getServiceNodes tier with
    | nil =>
      rw [list] at unpacked
      cases unpacked
    | cons node rest =>
      rw [list] at unpacked
      cases unpacked
      have member : node ∈ config.getServiceNodes tier := list ▸ List.mem_cons_self
      obtain ⟨inside, runs⟩ := List.mem_filter.mp member
      exact .inr ⟨first.1, node, inside, runs, rfl⟩
  · cases unpacked
    exact .inl rfl

theorem newNodes_ips_eq (employed : (ServiceConfiguration.newDuties nodes).length = nodes.length) :
    (newNodes nodes).map (fun node => node.ip) = nodes.map ServiceNode.ip := by
  have firsts := congrArg (List.map ServiceNode.ip) (@List.map_fst_zip _ _ nodes (ServiceConfiguration.newDuties nodes) employed.ge)
  rw [List.map_map] at firsts
  rw [newNodes, List.map_map]
  exact firsts

/-- Nodes that keep a duty keep their place among the nodes that run it. -/
theorem endpoints_kept {β : Type} {tier : Tier} {rows : List WebServiceNode} (endpoint : WebServiceNode → β) {change : WebServiceNode → WebServiceNode}
    (same : ∀ node ∈ rows, (change node).runs tier = node.runs tier ∧ endpoint (change node) = endpoint node) :
    ((rows.map change).filter fun node => node.runs tier).map endpoint = (rows.filter fun node => node.runs tier).map endpoint := by
  rw [List.filter_map, List.map_map]
  have kept : rows.filter ((fun node => node.runs tier) ∘ change) = rows.filter fun node => node.runs tier :=
    List.filter_congr fun node member => (same node member).1
  rw [kept]
  exact List.map_congr_left fun node member => (same node (List.mem_filter.mp member).1).2

theorem proxiesTold_subset (config : CodeConfiguration) (nodes : List ServiceNode) : proxiesTold config nodes ⊆ config.serviceNodes.rows := by
  unfold proxiesTold
  split
  · exact fun _ member => List.mem_of_mem_filter (List.mem_of_mem_filter member)
  · exact List.nil_subset _

/-- The calls to a new node. -/
theorem addCalls_new {node : WebServiceNode} (distinct : (nodes.map ServiceNode.ip).Nodup) (member : node ∈ newNodes nodes)
    (told : node.ip ∉ (proxiesTold changed nodes).map fun node => node.ip) (web : node.ip ∉ webKill.map fun node => node.ip)
    (backend : node.ip ∉ backendKill.map fun node => node.ip) : callsAt node.ip (addCalls urls kind changed nodes webKill backendKill) =
      callsAt node.ip (scalarisOf kind changed nodes false) ++ ((if node.isRunningBackend then [node.call (createBackend kind)] else []) ++
        (pushCalls kind changed node ++ ((if node.isRunningWeb then [node.call (.createWebServer changed.webVersions)] else []) ++
          if node.isRunningProxy then [node.call ((obliging urls).createProxyOp kind changed)] else []))) := by
  have apart : ((newNodes nodes).map fun node => node.ip).Nodup := distinct.sublist (newNodes_ips nodes)
  simp only [addCalls, callsAt_append, callsAt_filter apart member, callsAt_push kind changed apart member, callsAt_callsTo_other told,
    callsAt_callsTo_other web, callsAt_callsTo_other backend, List.append_nil]

/-- The calls to a node that is not new. -/
theorem addCalls_old {ip : String} (other : ip ∉ nodes.map ServiceNode.ip) : callsAt ip (addCalls urls kind changed nodes webKill backendKill) =
    callsAt ip (callsTo ((obliging urls).updateProxyOp kind changed) (proxiesTold changed nodes)) ++
      (callsAt ip (callsTo (stopBackendOp kind) backendKill) ++ callsAt ip (callsTo .stopWebServer webKill)) := by
  have unknown {wanted : WebServiceNode → Bool} : ip ∉ ((newNodes nodes).filter wanted).map fun node => node.ip := fun member =>
    other ((newNodes_ips nodes).subset (map_ip_subset (List.filter_subset_self _) member))
  have scalaris : callsAt ip (scalarisOf kind changed nodes false) = [] := by
    refine List.filter_eq_nil_iff.mpr fun call called => ?_
    simp only [decide_eq_true_eq]
    rintro rfl
    exact other (scalarisOf_ip called)
  simp only [addCalls, callsAt_append, scalaris, callsAt_callsTo_other unknown,
    callsAt_push_other kind changed fun member => other ((newNodes_ips nodes).subset member), List.nil_append]

/-- The nodes that are relieved of a packed duty. -/
theorem unpacked_among {tier : Tier} {requested : Nat} {config : ServiceConfiguration} {kill : List WebServiceNode}
    (unpacked : config.unpacked tier requested = .ok kill) :
    (∀ node ∈ kill, node ∈ config.serviceNodes.rows ∧ node.runs tier = true) ∧ (kill.map fun node => node.ip).Nodup := by
  rcases unpacked_kill unpacked with rfl | ⟨-, node, member, runs, rfl⟩
  · exact ⟨fun _ killed => absurd killed List.not_mem_nil, List.nodup_nil⟩
  · exact ⟨fun other only => List.mem_singleton.mp only ▸ ⟨member, runs⟩, List.nodup_singleton _⟩

theorem mem_kill_iff {config : ServiceConfiguration} {kill : List WebServiceNode} (among : ∀ node ∈ kill, node ∈ config.serviceNodes.rows)
    (member : old ∈ config.serviceNodes.rows) : old.id ∈ kill.map WebServiceNode.id ↔ old ∈ kill := by
  constructor
  · intro inside
    obtain ⟨node, killed, same⟩ := List.mem_map.mp inside
    exact config.serviceNodes.unique (among node killed) member same ▸ killed
  · exact List.mem_map_of_mem

/-- Where no duty is new, no node is relieved and the lists of the duties are the
same. -/
theorem enlarged_settings (urls : String → List String) (kind : WebKind) (ids : (nodes.map ServiceNode.id).Nodup) (fresh : ∀ node ∈ nodes, node.id ∉ config.ids)
    (backend : config.unpacked .backend (ServiceConfiguration.supplied nodes .backend) = .ok backendKill)
    (web : config.unpacked .web (ServiceConfiguration.supplied nodes .web) = .ok webKill)
    (none : ((newNodes nodes).any fun node => node.isRunningWeb || node.isRunningBackend) = false) :
    proxySettings urls kind (config.deploy (enlarged config.toServiceConfiguration nodes webKill backendKill)) = proxySettings urls kind config := by
  have idle : ∀ node ∈ newNodes nodes, node.isRunningWeb = false ∧ node.isRunningBackend = false := by
    simpa only [List.any_eq_false, Bool.or_eq_true, not_or, Bool.not_eq_true] using none
  have unsupplied {tier : Tier} (quiet : ∀ node ∈ newNodes nodes, node.runs tier = false) :
      ¬ 0 < ServiceConfiguration.supplied nodes tier := by
    intro some
    obtain ⟨node, member, runs⟩ := newNodes_supplied ids some
    exact Bool.false_ne_true ((quiet node member).symm.trans runs)
  obtain rfl : backendKill = [] := (unpacked_kill backend).resolve_right fun some => @unsupplied .backend (fun node member => (idle node member).2) some.1
  obtain rfl : webKill = [] := (unpacked_kill web).resolve_right fun some => @unsupplied .web (fun node member => (idle node member).1) some.1
  have rows := enlarged_rows ids fresh ([] : List WebServiceNode) []
  have endpoints {β : Type} {tier : Tier} (quiet : ∀ node ∈ newNodes nodes, node.runs tier = false) (endpoint : WebServiceNode → β)
      (same : ∀ node, endpoint (WebServiceNode.relieved [] [] node) = endpoint node) :
      ((enlarged config.toServiceConfiguration nodes [] []).getServiceNodes tier).map endpoint = (config.getServiceNodes tier).map endpoint := by
    have others : ((newNodes nodes).reverse.map WebServiceNode.updateRole).filter (fun node => node.runs tier) = [] := by
      refine List.filter_eq_nil_iff.mpr fun node member => ?_
      obtain ⟨new, inside, rfl⟩ := List.mem_map.mp member
      rw [WebServiceNode.runs_updateRole, quiet new (List.mem_reverse.mp inside)]
      exact Bool.false_ne_true
    rw [ServiceConfiguration.getServiceNodes, rows, List.filter_append, others, List.nil_append]
    refine endpoints_kept endpoint fun node _ => ⟨?_, same node⟩
    rw [WebServiceNode.runs_relieved]
    simp
  have machine (node : WebServiceNode) := node.sameMachine_relieved [] []
  have webTuples := @endpoints Endpoint .web (fun node member => (idle node member).1) (fun node => (⟨node.ip, 8080, Option.none⟩ : Endpoint))
    fun node => by rw [(machine node).ip]
  have backendTuples := @endpoints Endpoint .backend (fun node member => (idle node member).2)
    (fun node => (⟨node.ip, 9000, some node.weightBackend⟩ : Endpoint)) fun node => by rw [(machine node).ip, (machine node).weight]
  exact congrArg₂ (fun webs backends => (⟨config.currentCodeVersion, webs, backends, (obliging urls).servlets kind config⟩ : HttpProxy))
    webTuples backendTuples

/-- New nodes at new addresses get their duties, and others are relieved. -/
structure Joining (config changed : CodeConfiguration) (nodes : List ServiceNode) (webKill backendKill : List WebServiceNode) : Prop where
  ids : (nodes.map ServiceNode.id).Nodup
  fresh : ∀ node ∈ nodes, node.id ∉ config.ids
  distinct : (nodes.map ServiceNode.ip).Nodup
  unused : ∀ ip ∈ nodes.map ServiceNode.ip, ip ∉ config.serviceNodes.rows.map fun node => node.ip
  employed : (ServiceConfiguration.newDuties nodes).length = nodes.length
  backend : config.unpacked .backend (ServiceConfiguration.supplied nodes .backend) = .ok backendKill
  web : config.unpacked .web (ServiceConfiguration.supplied nodes .web) = .ok webKill
  enlarged : config.deploy (enlarged config.toServiceConfiguration nodes webKill backendKill) = changed

namespace Joining

variable (joining : Joining config changed nodes webKill backendKill)

include joining

theorem rows : changed.serviceNodes.rows = (newNodes nodes).reverse.map WebServiceNode.updateRole ++
    config.serviceNodes.rows.map (WebServiceNode.relieved webKill backendKill) :=
  joining.enlarged ▸ enlarged_rows joining.ids joining.fresh webKill backendKill

theorem ips : changed.serviceNodes.rows.map (fun node => node.ip) =
    (nodes.map ServiceNode.ip).reverse ++ config.serviceNodes.rows.map fun node => node.ip := by
  rw [joining.rows, List.map_append, List.map_map, List.map_map, ← newNodes_ips_eq joining.employed, List.map_reverse]
  refine congrArg₂ _ (congrArg _ ?_) ?_
  · exact List.map_congr_left fun node _ => (WebServiceNode.sameMachine_updateRole node).ip
  · exact List.map_congr_left fun node _ => (node.sameMachine_relieved webKill backendKill).ip

theorem apart (known : (config.serviceNodes.rows.map fun node => node.ip).Nodup) :
    (changed.serviceNodes.rows.map fun node => node.ip).Nodup := by
  rw [joining.ips]
  exact List.nodup_append'.mpr ⟨List.nodup_reverse.mpr joining.distinct, known,
    fun ip inside => joining.unused ip (List.mem_reverse.mp inside)⟩

/-- All calls go to nodes of the service. -/
theorem places : ∀ call ∈ addCalls urls kind changed nodes webKill backendKill,
    call.ip ∈ changed.serviceNodes.rows.map fun node => node.ip := by
  intro call called
  have new : call.ip ∈ nodes.map ServiceNode.ip → call.ip ∈ changed.serviceNodes.rows.map fun node => node.ip := fun inside =>
    joining.ips ▸ List.mem_append_left _ (List.mem_reverse.mpr inside)
  have known {told : List WebServiceNode} (among : ∀ node ∈ told, node ∈ config.serviceNodes.rows)
      (inside : call.ip ∈ told.map fun node => node.ip) : call.ip ∈ changed.serviceNodes.rows.map fun node => node.ip :=
    joining.ips ▸ List.mem_append_right _ (map_ip_subset among inside)
  have chosen {wanted : WebServiceNode → Bool} (inside : call.ip ∈ ((newNodes nodes).filter wanted).map fun node => node.ip) :
      call.ip ∈ changed.serviceNodes.rows.map fun node => node.ip :=
    new ((newNodes_ips nodes).subset (map_ip_subset (List.filter_subset_self _) inside))
  rcases List.mem_append.mp called with called | called
  · exact new (scalarisOf_ip called)
  rcases List.mem_append.mp called with called | called
  · exact chosen (callsTo_ip called)
  rcases List.mem_append.mp called with called | called
  · exact new ((newNodes_ips nodes).subset (push_ip called))
  rcases List.mem_append.mp called with called | called
  · exact chosen (callsTo_ip called)
  rcases List.mem_append.mp called with called | called
  · exact chosen (callsTo_ip called)
  rcases List.mem_append.mp called with called | called
  · exact map_ip_subset (proxiesTold_subset changed nodes) (callsTo_ip called)
  rcases List.mem_append.mp called with called | called
  · exact known (fun node member => ((unpacked_among joining.backend).1 node member).1) (callsTo_ip called)
  · exact known (fun node member => ((unpacked_among joining.web).1 node member).1) (callsTo_ip called)

/-- A new node is not told of itself. -/
theorem untold {node : WebServiceNode} (known : (config.serviceNodes.rows.map fun node => node.ip).Nodup) (member : node ∈ newNodes nodes) :
    node.ip ∉ (proxiesTold changed nodes).map fun node => node.ip := by
  intro inside
  obtain ⟨proxy, told, same⟩ := List.mem_map.mp inside
  have here : node.updateRole ∈ changed.serviceNodes.rows := by
    rw [joining.rows]
    exact List.mem_append_left _ (List.mem_map_of_mem (List.mem_reverse.mpr member))
  have itself : proxy = node.updateRole := List.inj_on_of_nodup_map (joining.apart known) (proxiesTold_subset changed nodes told) here
    (same.trans (WebServiceNode.sameMachine_updateRole node).ip.symm)
  unfold proxiesTold at told
  split at told
  · obtain ⟨-, other⟩ := List.mem_filter.mp told
    have found : ((newNodes nodes).any fun new => proxy.same new.toServiceNode) = true := by
      refine List.any_eq_true.mpr ⟨node, member, ?_⟩
      have machine := WebServiceNode.sameMachine_updateRole node
      have id : node.updateRole.toServiceNode.id = node.toServiceNode.id := machine.id
      rw [itself, ServiceNode.same, id, machine.cloud]
      simp
    rw [found] at other
    cases other
  · cases told

/-- A node that was there is told when it runs a proxy and some duty is new. -/
theorem told (known : (config.serviceNodes.rows.map fun node => node.ip).Nodup) (op : AgentOp) (member : old ∈ config.serviceNodes.rows) :
    callsAt old.ip (callsTo op (proxiesTold changed nodes)) =
      if ((newNodes nodes).any fun node => node.isRunningWeb || node.isRunningBackend) && old.isRunningProxy then
        [(old.relieved webKill backendKill).call op]
      else [] := by
  have machine := old.sameMachine_relieved webKill backendKill
  have here : old.relieved webKill backendKill ∈ changed.serviceNodes.rows := by
    rw [joining.rows]
    exact List.mem_append_right _ (List.mem_map_of_mem member)
  have other : ((newNodes nodes).any fun new => (old.relieved webKill backendKill).same new.toServiceNode) = false := by
    refine List.any_eq_false.mpr fun new inside same => ?_
    obtain ⟨given, among, equal⟩ := newNodes_ids inside
    have id : (old.relieved webKill backendKill).id = new.id := of_decide_eq_true (Bool.and_elim_left same)
    exact joining.fresh given among (ServiceConfiguration.mem_ids.mpr ⟨old, member, machine.id.symm.trans (id.trans equal.symm)⟩)
  have proxy : (old.relieved webKill backendKill).runs .proxy = old.isRunningProxy := by
    rw [WebServiceNode.runs_relieved]
    simp [WebServiceNode.runs_proxy]
  unfold proxiesTold
  cases (newNodes nodes).any fun node => node.isRunningWeb || node.isRunningBackend with
  | false => rfl
  | true =>
    rw [if_pos rfl, olderProxies, ServiceConfiguration.getProxyServiceNodes, ServiceConfiguration.getServiceNodes, List.filter_filter,
      ← machine.ip, callsAt_filter (joining.apart known) here, other, proxy]
    simp

/-- The orders that a node gets that was there. -/
theorem moved (urls : String → List String) (kind : WebKind) (member : old ∈ config.serviceNodes.rows) : Moved urls kind config changed old (old.relieved webKill backendKill) false false
    (((newNodes nodes).any fun node => node.isRunningWeb || node.isRunningBackend) && old.isRunningProxy)
    (decide (old ∈ backendKill)) (decide (old ∈ webKill)) false := by
  have webKilled := mem_kill_iff (fun node killed => ((unpacked_among joining.web).1 node killed).1) member
  have backendKilled := mem_kill_iff (fun node killed => ((unpacked_among joining.backend).1 node killed).1) member
  have runs (tier : Tier) := old.runs_relieved webKill backendKill tier
  simp only [webKilled, backendKilled] at runs
  have settings := enlarged_settings urls kind joining.ids joining.fresh joining.backend joining.web
  rw [joining.enlarged] at settings
  have proxy : (old.relieved webKill backendKill).isRunningProxy = old.isRunningProxy := (runs .proxy).trans (by simp [WebServiceNode.runs_proxy])
  constructor
  · rw [← joining.enlarged]
    rfl
  · rw [← joining.enlarged]
    rfl
  · rw [proxy]
    simp
  · exact (runs .web).trans (by simp [WebServiceNode.runs_web])
  · exact (runs .backend).trans (by simp [WebServiceNode.runs_backend])
  · exact fun absurd => by cases absurd
  · exact fun absurd => by cases absurd
  · exact fun told => (Bool.and_eq_true_iff.mp told).2
  · intro runsProxy untold
    rw [proxy] at runsProxy
    rw [runsProxy, Bool.and_true] at untold
    exact settings untold
  · exact fun killed => ((unpacked_among joining.backend).1 old (of_decide_eq_true killed)).2
  · exact fun killed => ((unpacked_among joining.web).1 old (of_decide_eq_true killed)).2
  · exact fun absurd => by cases absurd

end Joining

/-- Nodes are added: no agent refuses an order, and then the agents run what the
configuration says. -/
theorem add_accepted (matched : Matches urls kind config fleet) (joining : Joining config changed nodes webKill backendKill)
    (created : ∀ ip ∈ nodes.map ServiceNode.ip, fleet ip = .fresh) (deployable : CanDeploy config) (webs : changed.getWebTuples ≠ []) :
    ∃ after, carryOut (addCalls urls kind changed nodes webKill backendKill) fleet = some after ∧ Matches urls kind changed after := by
  have deployable' : CanDeploy changed := joining.enlarged ▸ deployable
  obtain ⟨webAmong, webApart⟩ := unpacked_among joining.web
  obtain ⟨backendAmong, backendApart⟩ := unpacked_among joining.backend
  have each : ∀ row ∈ changed.serviceNodes.rows, ∃ agent,
      (fleet row.ip).obeyAll (callsAt row.ip (addCalls urls kind changed nodes webKill backendKill)) = some agent ∧ Runs urls kind changed row agent := by
    intro row member
    rcases List.mem_append.mp (joining.rows ▸ member) with new | kept
    · obtain ⟨node, inside, rfl⟩ := List.mem_map.mp new
      rw [List.mem_reverse] at inside
      have place : node.ip ∈ nodes.map ServiceNode.ip := (newNodes_ips nodes).subset (List.mem_map.mpr ⟨node, inside, rfl⟩)
      have other (kill : List WebServiceNode) (among : ∀ node ∈ kill, node ∈ config.serviceNodes.rows) :
          node.ip ∉ kill.map fun node => node.ip := fun killed => joining.unused node.ip place (map_ip_subset among killed)
      obtain ⟨file, scalaris⟩ := obeyAll_scalaris kind changed false joining.distinct place
      obtain ⟨agent, taken, runs⟩ : ∃ agent, _ ∧ Runs urls kind changed node agent := duties_taken changed node scalaris deployable' webs
      refine ⟨agent, ?_, runs.updateRole⟩
      rw [(WebServiceNode.sameMachine_updateRole node).ip, created node.ip place, addCalls_new joining.distinct inside
        (joining.untold matched.apart inside) (other webKill fun node killed => (webAmong node killed).1)
        (other backendKill fun node killed => (backendAmong node killed).1)]
      exact taken
    · obtain ⟨old, inside, rfl⟩ := List.mem_map.mp kept
      have moved := joining.moved urls kind inside
      obtain ⟨agent, taken, runs⟩ := moved.taken (old.relieved webKill backendKill).toServiceNode old.toServiceNode (matched.runs old inside) deployable' webs
      refine ⟨agent, ?_, runs⟩
      have others : old.ip ∉ nodes.map ServiceNode.ip := fun place => joining.unused old.ip place (List.mem_map.mpr ⟨old, inside, rfl⟩)
      rw [(old.sameMachine_relieved webKill backendKill).ip, addCalls_old others, joining.told matched.apart _ inside,
        callsAt_killed matched.apart backendApart (fun node killed => (backendAmong node killed).1) inside,
        callsAt_killed matched.apart webApart (fun node killed => (webAmong node killed).1) inside]
      simpa [ServiceNode.call] using taken
  obtain ⟨after, carried, runs, -⟩ := carryOut_of_each joining.places each
  exact ⟨after, carried, joining.apart matched.apart, runs⟩

end Addition

end Fleet

end ConPaaS
