import ConPaaS.Lib.Effect
import ConPaaS.Manager.CodeVersions
import ConPaaS.Webservers.Starting

namespace ConPaaS

open Keyed Effect

/-- The web services, by what runs their backends. -/
inductive WebKind
  | php
  | java
  deriving DecidableEq, Repr

/-- The deployment of a web service with its code. -/
structure CodeConfiguration extends ServiceConfiguration where
  codeVersions : CodeVersions
  currentCodeVersion : String
  prevCodeVersion : Option String
  deriving DecidableEq

/-- What an agent is asked to do. The code is given by its version, its type and
the file it is in. -/
inductive AgentOp
  | createScalaris (firstStart : Bool) (knownHosts : String)
  | createHttpProxy (codeVersion : String) (webList backendList : List Endpoint) (servlets : List String)
  | updateHttpProxy (codeVersion : String) (webList backendList : List Endpoint) (servlets : List String)
  | stopHttpProxy
  | createWebServer (codeVersions : List String)
  | updateWebServer (codeVersions : List String)
  | stopWebServer
  | createPHP
  | updatePHP
  | stopPHP
  | createTomcat
  | stopTomcat
  | updatePHPCode (codeVersion type file : String)
  | updateTomcatCode (codeVersion type file : String)
  deriving DecidableEq, Repr

/-- The agent of a node is reached at the address of the node. -/
structure AgentCall where
  id : String
  ip : String
  op : AgentOp
  deriving DecidableEq, Repr

/-- Who answers: the agents by the call, and the archives in the repository of
the code by the version in them. -/
structure Agents where
  answers : AgentCall → Bool
  servletUrls : String → Except String (List String)

/-- An exception. Those of the agents are handled apart from the others. -/
inductive Raised
  | agentException
  | other (text : String)
  deriving DecidableEq, Repr

/-- A web service during an operation, with the calls the operation has made of
the agents and whether they were answered. -/
structure Deployment where
  config : CodeConfiguration
  state : ManagerState
  calls : List (AgentCall × Bool)

/-- What a hook of a manager does. Whatever it has changed stays changed when it
raises an exception. -/
abbrev Hook := EStateM Raised Deployment

def ServiceNode.call (node : ServiceNode) (op : AgentOp) : AgentCall := ⟨node.id, node.ip, op⟩

namespace Deployment

variable (s : Deployment)

/-- A call that was answered. -/
def told (call : AgentCall) : Deployment := { s with calls := s.calls ++ [(call, true)] }

/-- A call that was refused, of which the state tells. -/
def refused (call : AgentCall) : Deployment := { s with calls := s.calls ++ [(call, false)], state := .error }

end Deployment

namespace CodeConfiguration

variable (config : CodeConfiguration)

/-- The versions a web server is configured for. -/
def webVersions : List String :=
  match config.prevCodeVersion with
  | none => [config.currentCodeVersion]
  | some previous => [config.currentCodeVersion, previous]

/-- The parameters of the code in a call of the agents. -/
def codeFile (version : CodeVersion) : String :=
  if version.type = "git" then version.filename else config.currentCodeVersion

/-- A change of the deployment. -/
def deploy (change : ServiceConfiguration) : CodeConfiguration := { config with toServiceConfiguration := change }

end CodeConfiguration

namespace Agents

variable (agents : Agents) (kind : WebKind)

/-- One call of an agent in the loops over the nodes. An exception sets the
state and is raised again. -/
def tell (op : AgentOp) (node : ServiceNode) : Hook Unit := fun s =>
  if agents.answers (node.call op) then .ok () (s.told (node.call op))
  else .error .agentException (s.refused (node.call op))

/-- The loop over the nodes of a duty. -/
def tellEach (op : AgentOp) (nodes : List WebServiceNode) : Hook Unit :=
  forEach (agents.tell op) (nodes.map WebServiceNode.toServiceNode)

def renderScalarisNode (node : WebServiceNode) : String :=
  "\x7b\x7b" ++ String.ofList (node.ip.toList.map fun c => if c = '.' then ',' else c) ++ "\x7d,14195,service_per_vm\x7d"

def renderScalarisHosts (nodes : List WebServiceNode) : String :=
  "[" ++ ", ".intercalate (nodes.map renderScalarisNode) ++ "]"

/-- The loop of `_start_scalaris`. -/
def createScalaris (knownHosts : String) : Bool → List ServiceNode → Hook Unit
  | _, [] => pure ()
  | firstStart, node :: rest => do
    agents.tell (.createScalaris firstStart knownHosts) node
    createScalaris knownHosts false rest

/-- `_start_scalaris`, which only PHP has. -/
def startScalaris (config : CodeConfiguration) (nodes : List ServiceNode) (firstStart : Bool) : Hook Unit :=
  match kind with
  | .php => agents.createScalaris (renderScalarisHosts config.serviceNodes.rows) firstStart nodes
  | .java => pure ()

/-- `config.codeVersions[config.currentCodeVersion]`. -/
def currentVersion (config : CodeConfiguration) : Hook CodeVersion :=
  match config.codeVersions.get? config.currentCodeVersion with
  | some version => pure version
  | none => throw (.other config.currentCodeVersion)

/-- What the agent of a node is told of the code. -/
def codeOps (config : CodeConfiguration) (version : CodeVersion) (node : WebServiceNode) : List AgentOp :=
  match kind with
  | .php => [.updatePHPCode config.currentCodeVersion version.type (config.codeFile version)]
  | .java =>
    (if node.isRunningBackend then [.updateTomcatCode config.currentCodeVersion version.type (config.codeFile version)] else []) ++
      if node.isRunningProxy || node.isRunningWeb then
        [.updatePHPCode config.currentCodeVersion version.type (config.codeFile version)]
      else []

/-- The code is pushed to a node. -/
def push (config : CodeConfiguration) (node : WebServiceNode) : Hook Unit := do
  let version ← currentVersion config
  forEach (fun op => agents.tell op node.toServiceNode) (codeOps kind config version node)

/-- The loop of `_update_code` of Java. An exception of an agent sets the state
and ends the loop without being raised again. -/
def updateTomcats (config : CodeConfiguration) : List WebServiceNode → Hook Unit
  | [] => pure ()
  | node :: rest => fun s =>
    match agents.push .java config node s with
    | .ok _ t => updateTomcats config rest t
    | .error .agentException t => .ok () t
    | .error (.other text) t => .error (.other text) t

/-- `_update_code`. -/
def updateCode (config : CodeConfiguration) (nodes : List WebServiceNode) : Hook Unit :=
  match kind with
  | .php => forEach (agents.push .php config) nodes
  | .java => agents.updateTomcats config nodes

/-- `_get_servlet_urls`, which only Java asks for. -/
def getServletUrls (config : CodeConfiguration) : Hook (List String) :=
  match kind with
  | .php => pure []
  | .java =>
    match agents.servletUrls config.currentCodeVersion with
    | .ok urls => pure urls
    | .error text => throw (.other text)

/-- `_start_proxy`. -/
def startProxy (config : CodeConfiguration) (nodes : List WebServiceNode) : Hook Unit := do
  let servlets ← agents.getServletUrls kind config
  agents.tellEach (.createHttpProxy config.currentCodeVersion config.getWebTuples config.getBackendTuples servlets) nodes

/-- `_update_proxy`. -/
def updateProxy (config : CodeConfiguration) (nodes : List WebServiceNode) : Hook Unit := do
  let servlets ← agents.getServletUrls kind config
  agents.tellEach (.updateHttpProxy config.currentCodeVersion config.getWebTuples config.getBackendTuples servlets) nodes

/-- `_stop_proxy`. -/
def stopProxy (nodes : List WebServiceNode) : Hook Unit := agents.tellEach .stopHttpProxy nodes

/-- `_start_web`. -/
def startWeb (config : CodeConfiguration) (nodes : List WebServiceNode) : Hook Unit :=
  agents.tellEach (.createWebServer config.webVersions) nodes

/-- `_update_web`. -/
def updateWeb (config : CodeConfiguration) (nodes : List WebServiceNode) : Hook Unit :=
  agents.tellEach (.updateWebServer config.webVersions) nodes

/-- `_stop_web`. -/
def stopWeb (nodes : List WebServiceNode) : Hook Unit := agents.tellEach .stopWebServer nodes

def createBackend : WebKind → AgentOp
  | .php => .createPHP
  | .java => .createTomcat

def stopBackendOp : WebKind → AgentOp
  | .php => .stopPHP
  | .java => .stopTomcat

/-- `_start_backend`. -/
def startBackend (nodes : List WebServiceNode) : Hook Unit := agents.tellEach (createBackend kind) nodes

/-- `_update_backend`, which only PHP has. -/
def updateBackend (nodes : List WebServiceNode) : Hook Unit := agents.tellEach .updatePHP nodes

/-- `_stop_backend`. -/
def stopBackend (nodes : List WebServiceNode) : Hook Unit := agents.tellEach (stopBackendOp kind) nodes

def setConfig (config : CodeConfiguration) : Hook Unit := fun s => .ok () { s with config }

def setState (state : ManagerState) : Hook Unit := fun s => .ok () { s with state }

/-- The nodes in a reply of the director. -/
def entryNodes (entries : List Entry) : List ServiceNode :=
  entries.filterMap fun entry =>
    match entry with
    | .node node => some node
    | .key _ => none

/-- The orders to the agents when a service starts. -/
def startDuties (config : CodeConfiguration) (nodes : List ServiceNode) : Hook Unit := do
  agents.startScalaris kind config nodes true
  agents.startBackend kind config.getBackendServiceNodes
  agents.updateCode kind config config.serviceNodes.rows
  agents.startWeb config config.getWebServiceNodes
  agents.startProxy kind config config.getProxyServiceNodes

/-- `on_start`. -/
def onStart (entries : List Entry) : Hook Unit := do
  let config := (← get).config
  let (nodes, complete) := config.toServiceConfiguration.onStart entries
  setConfig (config.deploy nodes)
  if complete then agents.startDuties kind (config.deploy nodes) (entryNodes entries)
  else throw (.other "UnboundLocalError")

/-- The orders to the agents when a service stops. -/
def haltDuties (config : CodeConfiguration) : Hook Unit := do
  agents.stopProxy config.getProxyServiceNodes
  agents.stopWeb config.getWebServiceNodes
  agents.stopBackend kind config.getBackendServiceNodes

/-- `on_stop`. -/
def onStop : Hook (List WebServiceNode) := do
  let config := (← get).config
  agents.haltDuties kind config
  let (stopped, nodes) := config.toServiceConfiguration.onStop
  setConfig (config.deploy stopped)
  return nodes

/-- The new nodes of `on_add_nodes`, in the order in which the duties are handed out. -/
def newNodes (nodes : List ServiceNode) : List WebServiceNode :=
  (nodes.zip (ServiceConfiguration.newDuties nodes)).map fun (node, tier) =>
    .create node ServiceConfiguration.defaultNodeWeight ServiceConfiguration.defaultNodeWeight tier

/-- The proxies that are told of the new nodes. -/
def olderProxies (config : CodeConfiguration) (nodes : List ServiceNode) : List WebServiceNode :=
  config.getProxyServiceNodes.filter fun node => !(newNodes nodes).any fun new => node.same new.toServiceNode

/-- The other proxies learn of new web servers and backends. -/
def updateOlderProxies (config : CodeConfiguration) (nodes : List ServiceNode) : Hook Unit :=
  if (newNodes nodes).any fun node => node.isRunningWeb || node.isRunningBackend then
    agents.updateProxy kind config (olderProxies config nodes)
  else pure ()

/-- The orders to the agents when nodes are added. The code goes to all new
nodes, since no node is among the ids of the others. -/
def addDuties (config : CodeConfiguration) (nodes : List ServiceNode) (webNodesKill backendNodesKill : List WebServiceNode) :
    Hook Unit := do
  let added := newNodes nodes
  agents.startScalaris kind config nodes false
  agents.startBackend kind (added.filter WebServiceNode.isRunningBackend)
  agents.updateCode kind config added
  agents.startWeb config (added.filter WebServiceNode.isRunningWeb)
  agents.startProxy kind config (added.filter WebServiceNode.isRunningProxy)
  agents.updateOlderProxies kind config nodes
  agents.stopBackend kind backendNodesKill
  agents.stopWeb webNodesKill

/-- The deployment when the new nodes have their duties. -/
def enlarged (config : ServiceConfiguration) (nodes : List ServiceNode) (webNodesKill backendNodesKill : List WebServiceNode) :
    ServiceConfiguration :=
  ((config.stopWebAndBackend webNodesKill backendNodesKill).enterNodes
    (nodes.zip (ServiceConfiguration.newDuties nodes))).updateMappings.updateRoles

/-- A result that may be an error of Python. -/
def lift {α : Type} : Except String α → Hook α
  | .ok a => pure a
  | .error text => throw (.other text)

/-- `on_add_nodes`. -/
def onAddNodes (nodes : List ServiceNode) : Hook Unit := do
  let config := (← get).config
  let backendNodesKill ← lift (config.unpacked .backend (ServiceConfiguration.supplied nodes .backend))
  let webNodesKill ← lift (config.unpacked .web (ServiceConfiguration.supplied nodes .web))
  let config := config.deploy (enlarged config.toServiceConfiguration nodes webNodesKill backendNodesKill)
  setConfig config
  agents.addDuties kind config nodes webNodesKill backendNodesKill
  setConfig (config.deploy config.recount)

/-- The orders to the agents when duties move to the packing node. -/
def packDuties (config : CodeConfiguration) (packBackend packWeb : Bool) (packingNode : WebServiceNode) (relieved : Bool)
    (proxies : List WebServiceNode) : Hook Unit := do
  if packBackend then
    agents.startBackend kind [packingNode]
    agents.updateCode kind config [packingNode]
  if packWeb then agents.startWeb config [packingNode]
  if relieved then agents.updateProxy kind config proxies

/-- The orders to the agents of the nodes that lose a duty. -/
def stopDuties (kills : Tier → List WebServiceNode) : Hook Unit := do
  agents.stopBackend kind (kills .backend)
  agents.stopWeb (kills .web)
  agents.stopProxy (kills .proxy)

/-- The deployment when duties have moved and the nodes to be relieved lost
theirs, and the node that packs. -/
def shrunk (config : ServiceConfiguration) (nodeRoles : ServiceConfiguration.NodeRoles) (packingNode : WebServiceNode) :
    ServiceConfiguration :=
  let kill tier := config.nodesKill tier (nodeRoles tier.role)
  let stopped := (config.stopWebAndBackend (kill .web) (kill .backend)).setRunning .proxy false (kill .proxy)
  ((stopped.packOn .backend (config.packs .backend (nodeRoles Tier.backend.role)) packingNode).packOn .web
    (config.packs .web (nodeRoles Tier.web.role)) packingNode).updateMappings.updateRoles

/-- The node that packs, as it is afterwards. -/
def packed (config : ServiceConfiguration) (packingNode : WebServiceNode) : WebServiceNode :=
  (config.serviceNodes.get? packingNode.id).getD packingNode

/-- `on_remove_nodes`. All exceptions while roles are stopped are caught, and
the list of nodes to return has not been set then. -/
def onRemoveNodes (nodeRoles : ServiceConfiguration.NodeRoles) : Hook (List WebServiceNode) := do
  let config := (← get).config
  let kill tier := config.nodesKill tier (nodeRoles tier.role)
  let packingNode ← lift (ServiceConfiguration.firstNode config.getProxyServiceNodes)
  let packs tier := config.packs tier (nodeRoles tier.role)
  let after := config.deploy (shrunk config.toServiceConfiguration nodeRoles packingNode)
  setConfig after
  agents.packDuties kind after (packs .backend) (packs .web) (packed after.toServiceConfiguration packingNode)
    (!(kill .web).isEmpty || !(kill .backend).isEmpty) after.getProxyServiceNodes
  let delNodes ← tryCatch (do
      agents.stopDuties kind kill
      let (used, delNodes) := after.deleteUnused
      setConfig (after.deploy used.recount)
      return some delNodes) fun _ => pure none
  setState .running
  match delNodes with
  | some delNodes => return delNodes
  | none => throw (.other "UnboundLocalError")

/-- The beginning of `do_update_configuration` of PHP. -/
def updatePhpConf (phpconf : Bool) : Hook Unit := do
  let config := (← get).config
  if kind = .php ∧ phpconf = true then agents.updateBackend config.getBackendServiceNodes

/-- The configuration with another version of the code. PHP keeps the version
before where nothing reads it. -/
def switched (config : CodeConfiguration) (codeVersionId : String) : CodeConfiguration :=
  { config with
    prevCodeVersion := if kind = .java then some config.currentCodeVersion else config.prevCodeVersion
    currentCodeVersion := codeVersionId }

/-- The orders to the agents when the code is another one. -/
def switchDuties (config : CodeConfiguration) : Hook Unit := do
  agents.updateCode kind config config.serviceNodes.rows
  agents.updateWeb config config.getWebServiceNodes
  agents.updateProxy kind config config.getProxyServiceNodes

def switchCode (codeVersionId : String) : Hook Unit := do
  let config := switched kind (← get).config codeVersionId
  setConfig config
  agents.switchDuties kind config

/-- `do_update_configuration`. -/
def doUpdateConfiguration (codeVersionId : Option String) (phpconf : Bool) : Hook Unit := do
  agents.updatePhpConf kind phpconf
  match codeVersionId with
  | none => pure ()
  | some codeVersionId => agents.switchCode kind codeVersionId
  setState .running

end Agents

end ConPaaS
