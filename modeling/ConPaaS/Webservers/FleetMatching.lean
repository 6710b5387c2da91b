import ConPaaS.Webservers.FleetStates

namespace ConPaaS

open Keyed Parties Effect Deployment Agents WebServersAgent

/-- The agents of a service, by the addresses of their nodes. -/
abbrev Fleet := String → WebServersAgent

theorem Agents.pushCalls_ip {kind : WebKind} {config : CodeConfiguration} {node : WebServiceNode} {call : AgentCall}
    (called : call ∈ pushCalls kind config node) : call.ip = node.ip := by
  unfold pushCalls at called
  split at called
  · obtain ⟨op, -, rfl⟩ := List.mem_map.mp called
    rfl
  · cases called

theorem Agents.scalarisCalls_ip {hosts : String} {first : Bool} {nodes : List ServiceNode} {call : AgentCall}
    (called : call ∈ scalarisCalls hosts first nodes) : call.ip ∈ nodes.map ServiceNode.ip := by
  induction nodes generalizing first with
  | nil => cases called
  | cons node rest ih =>
    rcases List.mem_cons.mp called with rfl | called
    · exact List.mem_cons_self
    · exact List.mem_cons_of_mem _ (ih called)

namespace Fleet

/-- The agents carry out calls one after the other, up to one that is refused. -/
def carryOut (calls : List AgentCall) (fleet : Fleet) : Option Fleet :=
  callAll AgentCall.ip (fun call agent => agent.obey call) calls fleet

/-- The calls to one address. -/
def callsAt (ip : String) (calls : List AgentCall) : List AgentCall := calls.filter fun call => call.ip = ip

variable {calls first second : List AgentCall} {fleet after : Fleet} {rows told : List WebServiceNode} {node : WebServiceNode} {op : AgentOp}
  {ip : String}

theorem callsAt_append (ip : String) (first second : List AgentCall) :
    callsAt ip (first ++ second) = callsAt ip first ++ callsAt ip second := List.filter_append ..

/-- Calls to the nodes of a list are carried out when each of these agents
carries out its own, and leave the other agents alone. -/
theorem carryOut_of_each {Q : WebServiceNode → WebServersAgent → Prop}
    (places : ∀ call ∈ calls, call.ip ∈ rows.map fun node => node.ip)
    (each : ∀ node ∈ rows, ∃ agent, (fleet node.ip).obeyAll (callsAt node.ip calls) = some agent ∧ Q node agent) :
    ∃ after, carryOut calls fleet = some after ∧ (∀ node ∈ rows, Q node (after node.ip)) ∧
      ∀ ip, ip ∉ (rows.map fun node => node.ip) → after ip = fleet ip := by
  have served (ip : String) : ∃ agent, (fleet ip).obeyAll (callsAt ip calls) = some agent := by
    by_cases known : ip ∈ rows.map fun node => node.ip
    · obtain ⟨node, member, rfl⟩ := List.mem_map.mp known
      obtain ⟨agent, obeyed, -⟩ := each node member
      exact ⟨agent, obeyed⟩
    · have none : callsAt ip calls = [] := by
        refine List.filter_eq_nil_iff.mpr fun call member => ?_
        simp only [decide_eq_true_eq]
        rintro rfl
        exact known (places call member)
      exact ⟨fleet ip, by rw [none]; rfl⟩
  choose after obeyed using served
  refine ⟨after, callAll_some.mpr obeyed, fun node member => ?_, fun ip unknown => ?_⟩
  · obtain ⟨agent, here, holds⟩ := each node member
    cases here.symm.trans (obeyed node.ip)
    exact holds
  · have none : callsAt ip calls = [] := by
      refine List.filter_eq_nil_iff.mpr fun call member => ?_
      simp only [decide_eq_true_eq]
      rintro rfl
      exact unknown (places call member)
    have left := obeyed ip
    rw [none] at left
    exact (Option.some.inj left).symm

/-- Nodes of a list at distinct addresses are called once in a loop. -/
theorem callsAt_callsTo (distinct : (told.map fun node => node.ip).Nodup) (member : node ∈ told) :
    callsAt node.ip (callsTo op told) = [node.call op] := by
  rw [callsTo, List.map_eq_flatMap]
  exact filter_flatMap (fun node : WebServiceNode => node.ip) (fun _ _ _ called => List.mem_singleton.mp called ▸ rfl) distinct member

theorem callsAt_callsTo_other (unknown : ip ∉ told.map fun node => node.ip) : callsAt ip (callsTo op told) = [] := by
  rw [callsTo, List.map_eq_flatMap]
  exact filter_flatMap_other (fun node : WebServiceNode => node.ip) (fun _ _ _ called => List.mem_singleton.mp called ▸ rfl) unknown

/-- A loop over some of the nodes at distinct addresses. -/
theorem callsAt_filter (distinct : (rows.map fun node => node.ip).Nodup) (member : node ∈ rows) (wanted : WebServiceNode → Bool) :
    callsAt node.ip (callsTo op (rows.filter wanted)) = if wanted node then [node.call op] else [] := by
  have apart : ((rows.filter wanted).map fun node => node.ip).Nodup := distinct.sublist (List.filter_sublist.map _)
  split
  · rename_i some
    exact callsAt_callsTo apart (List.mem_filter.mpr ⟨member, some⟩)
  · rename_i none
    refine callsAt_callsTo_other fun known => none ?_
    obtain ⟨other, inside, same⟩ := List.mem_map.mp known
    obtain ⟨among, some⟩ := List.mem_filter.mp inside
    rwa [← List.inj_on_of_nodup_map distinct among member same]

/-- The code is pushed to each node of a list once. -/
theorem callsAt_push (kind : WebKind) (config : CodeConfiguration) (distinct : (told.map fun node => node.ip).Nodup) (member : node ∈ told) :
    callsAt node.ip (told.flatMap (pushCalls kind config)) = pushCalls kind config node :=
  filter_flatMap (fun node : WebServiceNode => node.ip) (fun _ _ _ called => pushCalls_ip called) distinct member

theorem callsAt_push_other (kind : WebKind) (config : CodeConfiguration) (unknown : ip ∉ told.map fun node => node.ip) :
    callsAt ip (told.flatMap (pushCalls kind config)) = [] :=
  filter_flatMap_other (fun node : WebServiceNode => node.ip) (fun _ _ _ called => pushCalls_ip called) unknown

/-- A node on which Scalaris starts is told so once. -/
theorem obeyAll_scalaris {nodes : List ServiceNode} (kind : WebKind) (config : CodeConfiguration) (firstStart : Bool)
    (distinct : (nodes.map ServiceNode.ip).Nodup) (member : ip ∈ nodes.map ServiceNode.ip) :
    ∃ file, fresh.obeyAll (callsAt ip (scalarisOf kind config nodes firstStart)) = some (fresh.withScalaris file) := by
  cases kind with
  | java => exact ⟨none, rfl⟩
  | php =>
    simp only [scalarisOf]
    generalize renderScalarisHosts config.serviceNodes.rows = hosts
    induction nodes generalizing firstStart with
    | nil => cases member
    | cons node rest ih =>
      obtain ⟨apart, distinct⟩ := List.nodup_cons.mp distinct
      by_cases here : node.ip = ip
      · subst here
        have none : callsAt node.ip (scalarisCalls hosts false rest) = [] := by
          refine List.filter_eq_nil_iff.mpr fun call called => ?_
          simp only [decide_eq_true_eq]
          intro same
          exact apart (same ▸ scalarisCalls_ip called)
        refine ⟨some (firstStart, hosts), ?_⟩
        rw [scalarisCalls, callsAt, List.filter_cons_of_pos (by simp [ServiceNode.call])]
        rw [callsAt] at none
        rw [none, obeyAll_single]
        simp [obey, answer, ServiceNode.call, fresh, changed, create, withScalaris]
      · have later := (List.mem_cons.mp member).resolve_left (Ne.symm here)
        obtain ⟨file, obeyed⟩ := ih false distinct later
        refine ⟨file, ?_⟩
        rwa [scalarisCalls, callsAt, List.filter_cons_of_neg (by simp [ServiceNode.call, here])]

/-- What the agent of a node keeps that runs the duties of the node. -/
structure Runs (urls : String → List String) (kind : WebKind) (config : CodeConfiguration) (node : WebServiceNode)
    (agent : WebServersAgent) : Prop where
  proxy : agent.httpproxyFile = if node.isRunningProxy then some (proxySettings urls kind config) else none
  web : agent.webserverFile = if node.isRunningWeb then some config.webVersions else none
  backend : agent.backendFile kind = if node.isRunningBackend then some () else none
  www : kind = .php ∨ node.isRunningProxy = true ∨ node.isRunningWeb = true → config.currentCodeVersion ∈ agent.www
  webapps : kind = .java → node.isRunningBackend = true → config.currentCodeVersion ∈ agent.webapps

/-- The agents run the duties that the nodes have in a configuration. -/
structure Matches (urls : String → List String) (kind : WebKind) (config : CodeConfiguration) (fleet : Fleet) : Prop where
  apart : (config.serviceNodes.rows.map fun node => node.ip).Nodup
  runs : ∀ node ∈ config.serviceNodes.rows, Runs urls kind config node (fleet node.ip)

/-- What runs does not depend on the counters, nor on versions that are not used. -/
theorem Runs.congr {urls : String → List String} {kind : WebKind} {config changed : CodeConfiguration} {agent : WebServersAgent}
    (runs : Runs urls kind config node agent) (nodes : changed.serviceNodes = config.serviceNodes)
    (current : changed.currentCodeVersion = config.currentCodeVersion) (previous : changed.prevCodeVersion = config.prevCodeVersion) :
    Runs urls kind changed node agent := by
  have settings : proxySettings urls kind changed = proxySettings urls kind config := by
    simp only [proxySettings, ServiceConfiguration.getWebTuples, ServiceConfiguration.getBackendTuples, ServiceConfiguration.getWebServiceNodes,
      ServiceConfiguration.getBackendServiceNodes, ServiceConfiguration.getServiceNodes, nodes, current, servlets]
  have versions : changed.webVersions = config.webVersions := by
    simp only [CodeConfiguration.webVersions, current, previous]
  exact ⟨settings ▸ runs.proxy, versions ▸ runs.web, runs.backend, current ▸ runs.www, current ▸ runs.webapps⟩

theorem Matches.congr {urls : String → List String} {kind : WebKind} {config changed : CodeConfiguration}
    (matched : Matches urls kind config fleet) (nodes : changed.serviceNodes = config.serviceNodes)
    (current : changed.currentCodeVersion = config.currentCodeVersion) (previous : changed.prevCodeVersion = config.prevCodeVersion) :
    Matches urls kind changed fleet where
  apart := nodes ▸ matched.apart
  runs := fun node member => (matched.runs node (nodes ▸ member)).congr nodes current previous

/-- Without nodes there is nothing to run. -/
theorem Matches.of_empty {urls : String → List String} {kind : WebKind} {config : CodeConfiguration} (idle : config.serviceNodes.rows = []) :
    Matches urls kind config fleet where
  apart := idle ▸ List.nodup_nil
  runs := fun _ member => absurd (idle ▸ member) List.not_mem_nil

/-- The current version can be deployed. -/
def CanDeploy (config : CodeConfiguration) : Prop :=
  ∃ version, config.codeVersions.get? config.currentCodeVersion = some version ∧ Deployable version

theorem callsTo_ip {call : AgentCall} (called : call ∈ callsTo op told) : call.ip ∈ told.map fun node => node.ip := by
  obtain ⟨node, member, rfl⟩ := List.mem_map.mp called
  exact List.mem_map.mpr ⟨node, member, rfl⟩

theorem push_ip {kind : WebKind} {config : CodeConfiguration} {call : AgentCall} (called : call ∈ told.flatMap (pushCalls kind config)) :
    call.ip ∈ told.map fun node => node.ip := by
  obtain ⟨node, member, called⟩ := List.mem_flatMap.mp called
  exact List.mem_map.mpr ⟨node, member, (pushCalls_ip called).symm⟩

theorem scalarisOf_ip {kind : WebKind} {config : CodeConfiguration} {nodes : List ServiceNode} {firstStart : Bool} {call : AgentCall}
    (called : call ∈ scalarisOf kind config nodes firstStart) : call.ip ∈ nodes.map ServiceNode.ip := by
  cases kind with
  | php => exact scalarisCalls_ip called
  | java => cases called

theorem map_ip_subset {some all : List WebServiceNode} (subset : some ⊆ all) :
    (some.map fun node => node.ip) ⊆ all.map fun node => node.ip := List.map_subset _ subset

section Operations

variable {urls : String → List String} {kind : WebKind} {config : CodeConfiguration} {nodes : List ServiceNode}

/-- A new agent takes the orders for the duties of its node. -/
theorem duties_taken (config : CodeConfiguration) {scalaris : List AgentCall} {file : Option (Bool × String)} (node : WebServiceNode)
    (begun : fresh.obeyAll scalaris = some (fresh.withScalaris file)) (deployable : CanDeploy config) (webs : config.getWebTuples ≠ []) :
    ∃ agent, fresh.obeyAll (scalaris ++ ((if node.isRunningBackend then [node.call (createBackend kind)] else []) ++
        (pushCalls kind config node ++ ((if node.isRunningWeb then [node.call (.createWebServer config.webVersions)] else []) ++
          if node.isRunningProxy then [node.call ((obliging urls).createProxyOp kind config)] else [])))) = some agent ∧
      Runs urls kind config node agent := by
  obtain ⟨version, known, deployable⟩ := deployable
  have free : fresh.backendFile kind = none := by cases kind <;> rfl
  have backend : (fresh.withScalaris file).obeyAll (if node.isRunningBackend then [node.call (createBackend kind)] else []) = some _ :=
    obeyAll_startBackend fun _ => (withScalaris_backendFile ..).trans free
  obtain ⟨www, webapps, push, served, deployed, -, -⟩ := obeyAll_push ((fresh.withScalaris file).withBackend kind
    (if node.isRunningBackend then some () else (fresh.withScalaris file).backendFile kind)) kind known deployable node
  refine ⟨_, (obeyAll_append begun).trans ((obeyAll_append backend).trans ((obeyAll_append push).trans
    ((obeyAll_append (obeyAll_startWeb config.webVersions ?_)).trans (obeyAll_startProxy webs ?_)))), ?_⟩
  · simp [fresh]
  · simp [fresh]
  · constructor
    · simp [fresh]
    · simp [fresh]
    · simp [free]
    · simpa using served
    · simpa using deployed

/-- A service whose nodes have just been created starts: no agent refuses an
order, and then the agents run what the configuration says. -/
theorem start_accepted (apart : (config.serviceNodes.rows.map fun node => node.ip).Nodup) (distinct : (nodes.map ServiceNode.ip).Nodup)
    (same : ∀ ip, ip ∈ nodes.map ServiceNode.ip ↔ ip ∈ config.serviceNodes.rows.map fun node => node.ip)
    (created : ∀ node ∈ config.serviceNodes.rows, fleet node.ip = .fresh) (deployable : CanDeploy config) (webs : config.getWebTuples ≠ []) :
    ∃ after, carryOut (startCalls urls kind config nodes) fleet = some after ∧ Matches urls kind config after := by
  have places : ∀ call ∈ startCalls urls kind config nodes, call.ip ∈ config.serviceNodes.rows.map fun node => node.ip := by
    intro call called
    rcases List.mem_append.mp called with called | called
    · exact (same _).mp (scalarisOf_ip called)
    rcases List.mem_append.mp called with called | called
    · exact map_ip_subset (List.filter_subset_self _) (callsTo_ip called)
    rcases List.mem_append.mp called with called | called
    · exact push_ip called
    rcases List.mem_append.mp called with called | called
    · exact map_ip_subset (List.filter_subset_self _) (callsTo_ip called)
    · exact map_ip_subset (List.filter_subset_self _) (callsTo_ip called)
  have each : ∀ node ∈ config.serviceNodes.rows, ∃ agent,
      (fleet node.ip).obeyAll (callsAt node.ip (startCalls urls kind config nodes)) = some agent ∧ Runs urls kind config node agent := by
    intro node member
    have inside : node.ip ∈ nodes.map ServiceNode.ip := (same _).mpr (List.mem_map.mpr ⟨node, member, rfl⟩)
    obtain ⟨file, scalaris⟩ := obeyAll_scalaris kind config true distinct inside
    rw [created node member]
    simp only [startCalls, callsAt_append, ServiceConfiguration.getBackendServiceNodes, ServiceConfiguration.getWebServiceNodes,
      ServiceConfiguration.getProxyServiceNodes, ServiceConfiguration.getServiceNodes, callsAt_filter apart member,
      callsAt_push kind config apart member]
    exact duties_taken config node scalaris deployable webs
  obtain ⟨after, carried, runs, -⟩ := carryOut_of_each places each
  exact ⟨after, carried, apart, runs⟩

end Operations

end Fleet

end ConPaaS
