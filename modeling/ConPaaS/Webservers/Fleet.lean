import ConPaaS.Webservers.NodeAgents

namespace ConPaaS

open Keyed Parties Effect Deployment

namespace Agents

/-- Agents that answer all calls, and an archive of each version of the code. -/
def obliging (urls : String → List String) : Agents := ⟨fun _ => true, fun version => .ok (urls version)⟩

/-- A hook that makes some calls, all of which are answered, and nothing else. -/
def Makes (x : Hook Unit) (calls : List AgentCall) : Prop := ∀ s, x s = .ok () (s.toldAll calls)

/-- The calls that push the code to a node. -/
def pushCalls (kind : WebKind) (config : CodeConfiguration) (node : WebServiceNode) : List AgentCall :=
  match config.codeVersions.get? config.currentCodeVersion with
  | some version => (codeOps kind config version node).map node.call
  | none => []

/-- The calls of `_start_scalaris`. -/
def scalarisCalls (knownHosts : String) : Bool → List ServiceNode → List AgentCall
  | _, [] => []
  | firstStart, node :: rest => node.call (.createScalaris firstStart knownHosts) :: scalarisCalls knownHosts false rest

section

variable {urls : String → List String} {kind : WebKind} {config : CodeConfiguration} {nodes : List WebServiceNode} {x y : Hook Unit}
  {first second : List AgentCall}

theorem Makes.bind (makes : Makes x first) (continues : Makes y second) : Makes (do x; y) (first ++ second) := by
  intro s
  rw [bind_of_ok (makes s), continues, toldAll_append]

theorem makes_pure : Makes (pure ()) [] := by
  intro s
  rw [toldAll_nil]
  rfl

theorem makes_tell (op : AgentOp) (node : ServiceNode) : Makes ((obliging urls).tell op node) [node.call op] :=
  fun _ => tell_ok.mpr ⟨rfl, rfl⟩

theorem makes_tellEach (op : AgentOp) (nodes : List WebServiceNode) : Makes ((obliging urls).tellEach op nodes) (callsTo op nodes) :=
  fun _ => tellEach_ok.mpr ⟨fun _ _ => rfl, rfl⟩

theorem makes_forEach {α : Type} {f : α → Hook Unit} {calls : α → List AgentCall} {list : List α} (each : ∀ a ∈ list, Makes (f a) (calls a)) :
    Makes (forEach f list) (list.flatMap calls) := by
  induction list with
  | nil => exact makes_pure
  | cons a rest ih =>
    obtain ⟨here, later⟩ := List.forall_mem_cons.mp each
    rw [forEach, List.flatMap_cons]
    exact here.bind (ih later)

theorem makes_createScalaris (knownHosts : String) (firstStart : Bool) (nodes : List ServiceNode) :
    Makes ((obliging urls).createScalaris knownHosts firstStart nodes) (scalarisCalls knownHosts firstStart nodes) := by
  induction nodes generalizing firstStart with
  | nil => exact makes_pure
  | cons node rest ih => exact (makes_tell _ node).bind (ih false)

/-- The calls of a kind of service when it starts Scalaris. -/
def scalarisOf (kind : WebKind) (config : CodeConfiguration) (nodes : List ServiceNode) (firstStart : Bool) : List AgentCall :=
  match kind with
  | .php => scalarisCalls (renderScalarisHosts config.serviceNodes.rows) firstStart nodes
  | .java => []

theorem makes_startScalaris (nodes : List ServiceNode) (firstStart : Bool) :
    Makes ((obliging urls).startScalaris kind config nodes firstStart) (scalarisOf kind config nodes firstStart) := by
  cases kind with
  | php => exact makes_createScalaris _ _ _
  | java => exact makes_pure

theorem makes_push {version : CodeVersion} (known : config.codeVersions.get? config.currentCodeVersion = some version) (node : WebServiceNode) :
    Makes ((obliging urls).push kind config node) (pushCalls kind config node) := by
  have found : ∀ s, currentVersion config s = .ok version s := by
    intro s
    rw [currentVersion, known]
    rfl
  have told : Makes (forEach (fun op => (obliging urls).tell op node.toServiceNode) (codeOps kind config version node))
      ((codeOps kind config version node).flatMap fun op => [node.call op]) :=
    makes_forEach fun op _ => makes_tell op node.toServiceNode
  intro s
  rw [push, bind_of_ok (found s), told s, ← List.map_eq_flatMap, pushCalls, known]

theorem makes_updateTomcats (known : Known config nodes) :
    Makes ((obliging urls).updateTomcats config nodes) (nodes.flatMap (pushCalls .java config)) := by
  induction nodes with
  | nil => exact makes_pure
  | cons node rest ih =>
    obtain ⟨version, found⟩ := known (List.cons_ne_nil _ _)
    intro s
    have pushed : (obliging urls).push .java config node s = .ok () (s.toldAll (pushCalls .java config node)) := makes_push found node s
    have later := ih fun _ => ⟨version, found⟩
    simp only [updateTomcats, pushed, List.flatMap_cons, later _, toldAll_append]

theorem makes_updateCode (known : Known config nodes) :
    Makes ((obliging urls).updateCode kind config nodes) (nodes.flatMap (pushCalls kind config)) := by
  cases kind with
  | php =>
    refine makes_forEach fun node member => ?_
    obtain ⟨version, found⟩ := known (List.ne_nil_of_mem member)
    exact makes_push found node
  | java => exact makes_updateTomcats known

theorem makes_startProxy (nodes : List WebServiceNode) : Makes ((obliging urls).startProxy kind config nodes)
    (callsTo ((obliging urls).createProxyOp kind config) nodes) :=
  fun _ => startProxy_ok.mpr ⟨fun _ => ⟨_, rfl⟩, fun _ _ => rfl, rfl⟩

theorem makes_updateProxy (nodes : List WebServiceNode) : Makes ((obliging urls).updateProxy kind config nodes)
    (callsTo ((obliging urls).updateProxyOp kind config) nodes) :=
  fun _ => updateProxy_ok.mpr ⟨fun _ => ⟨_, rfl⟩, fun _ _ => rfl, rfl⟩

end

section

variable (urls : String → List String) (kind : WebKind) (config : CodeConfiguration)

/-- The calls of a start. -/
def startCalls (nodes : List ServiceNode) : List AgentCall :=
  scalarisOf kind config nodes true ++ (callsTo (createBackend kind) config.getBackendServiceNodes ++
    (config.serviceNodes.rows.flatMap (pushCalls kind config) ++ (callsTo (.createWebServer config.webVersions) config.getWebServiceNodes ++
      callsTo ((obliging urls).createProxyOp kind config) config.getProxyServiceNodes)))

/-- The calls of a stop. -/
def haltCalls : List AgentCall :=
  callsTo .stopHttpProxy config.getProxyServiceNodes ++ (callsTo .stopWebServer config.getWebServiceNodes ++
    callsTo (stopBackendOp kind) config.getBackendServiceNodes)

/-- The proxies that are told of new nodes. -/
def proxiesTold (nodes : List ServiceNode) : List WebServiceNode :=
  if ((newNodes nodes).any fun node => node.isRunningWeb || node.isRunningBackend) = true then olderProxies config nodes else []

/-- The calls when nodes are added. -/
def addCalls (nodes : List ServiceNode) (webNodesKill backendNodesKill : List WebServiceNode) : List AgentCall :=
  scalarisOf kind config nodes false ++ (callsTo (createBackend kind) ((newNodes nodes).filter WebServiceNode.isRunningBackend) ++
    ((newNodes nodes).flatMap (pushCalls kind config) ++
      (callsTo (.createWebServer config.webVersions) ((newNodes nodes).filter WebServiceNode.isRunningWeb) ++
        (callsTo ((obliging urls).createProxyOp kind config) ((newNodes nodes).filter WebServiceNode.isRunningProxy) ++
          (callsTo ((obliging urls).updateProxyOp kind config) (proxiesTold config nodes) ++
            (callsTo (stopBackendOp kind) backendNodesKill ++ callsTo .stopWebServer webNodesKill))))))

/-- The calls when duties move to the packing node. -/
def packCalls (packBackend packWeb : Bool) (packingNode : WebServiceNode) (relieved : Bool) (proxies : List WebServiceNode) : List AgentCall :=
  (if packBackend then packingNode.call (createBackend kind) :: pushCalls kind config packingNode else []) ++
    ((if packWeb then [packingNode.call (.createWebServer config.webVersions)] else []) ++
      if relieved then callsTo ((obliging urls).updateProxyOp kind config) proxies else [])

/-- The calls to nodes that lose a duty. -/
def stopCalls (kills : Tier → List WebServiceNode) : List AgentCall :=
  callsTo (stopBackendOp kind) (kills .backend) ++ (callsTo .stopWebServer (kills .web) ++ callsTo .stopHttpProxy (kills .proxy))

/-- The calls when the code is another one. -/
def switchCalls : List AgentCall :=
  config.serviceNodes.rows.flatMap (pushCalls kind config) ++ (callsTo (.updateWebServer config.webVersions) config.getWebServiceNodes ++
    callsTo ((obliging urls).updateProxyOp kind config) config.getProxyServiceNodes)

variable {urls kind config}

theorem makes_startDuties (nodes : List ServiceNode) (known : Known config config.serviceNodes.rows) :
    Makes ((obliging urls).startDuties kind config nodes) (startCalls urls kind config nodes) :=
  (makes_startScalaris nodes true).bind ((makes_tellEach _ _).bind ((makes_updateCode known).bind
    ((makes_tellEach _ _).bind (makes_startProxy _))))

theorem makes_haltDuties : Makes ((obliging urls).haltDuties kind config) (haltCalls kind config) :=
  (makes_tellEach _ _).bind ((makes_tellEach _ _).bind (makes_tellEach _ _))

theorem makes_updateOlderProxies (nodes : List ServiceNode) : Makes ((obliging urls).updateOlderProxies kind config nodes)
    (callsTo ((obliging urls).updateProxyOp kind config) (proxiesTold config nodes)) := by
  unfold updateOlderProxies proxiesTold
  split
  · exact makes_updateProxy _
  · exact makes_pure

theorem makes_addDuties (nodes : List ServiceNode) (webNodesKill backendNodesKill : List WebServiceNode) (known : Known config (newNodes nodes)) :
    Makes ((obliging urls).addDuties kind config nodes webNodesKill backendNodesKill)
      (addCalls urls kind config nodes webNodesKill backendNodesKill) :=
  (makes_startScalaris nodes false).bind ((makes_tellEach _ _).bind ((makes_updateCode known).bind ((makes_tellEach _ _).bind
    ((makes_startProxy _).bind ((makes_updateOlderProxies nodes).bind ((makes_tellEach _ _).bind (makes_tellEach _ _)))))))

theorem makes_packDuties {packingNode : WebServiceNode} (known : Known config [packingNode]) (packBackend packWeb relieved : Bool)
    (proxies : List WebServiceNode) : Makes ((obliging urls).packDuties kind config packBackend packWeb packingNode relieved proxies)
      (packCalls urls kind config packBackend packWeb packingNode relieved proxies) := by
  have code : Makes ((obliging urls).updateCode kind config [packingNode]) (pushCalls kind config packingNode) := by
    have all : Makes ((obliging urls).updateCode kind config [packingNode]) ([packingNode].flatMap (pushCalls kind config)) :=
      makes_updateCode known
    rwa [List.flatMap_singleton] at all
  have update : Makes (if relieved = true then (obliging urls).updateProxy kind config proxies else pure ())
      (if relieved then callsTo ((obliging urls).updateProxyOp kind config) proxies else []) := by
    cases relieved with
    | true => exact makes_updateProxy proxies
    | false => exact makes_pure
  have web : Makes (do
      if packWeb then (obliging urls).startWeb config [packingNode]
      if relieved then (obliging urls).updateProxy kind config proxies)
      ((if packWeb then [packingNode.call (.createWebServer config.webVersions)] else []) ++
        if relieved then callsTo ((obliging urls).updateProxyOp kind config) proxies else []) := by
    cases packWeb with
    | true => exact (makes_tellEach _ [packingNode]).bind update
    | false => exact update
  cases packBackend with
  | true =>
    have all : Makes ((obliging urls).packDuties kind config true packWeb packingNode relieved proxies)
        (callsTo (createBackend kind) [packingNode] ++ (pushCalls kind config packingNode ++ _)) :=
      (makes_tellEach _ _).bind (code.bind web)
    exact all
  | false => exact web

theorem makes_stopDuties (kills : Tier → List WebServiceNode) : Makes ((obliging urls).stopDuties kind kills) (stopCalls kind kills) :=
  (makes_tellEach _ _).bind ((makes_tellEach _ _).bind (makes_tellEach _ _))

theorem makes_switchDuties (known : Known config config.serviceNodes.rows) :
    Makes ((obliging urls).switchDuties kind config) (switchCalls urls kind config) :=
  (makes_updateCode known).bind ((makes_tellEach _ _).bind (makes_updateProxy _))

end

end Agents

end ConPaaS
