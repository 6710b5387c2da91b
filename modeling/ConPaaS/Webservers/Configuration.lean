import ConPaaS.Core.Node
import ConPaaS.Lib.Table

namespace ConPaaS

open Keyed

/-- The duties a node of a web service can run. -/
inductive Tier
  | proxy | web | backend
  deriving DecidableEq, Repr

/-- The name of a role that stands for one duty. -/
def Tier.role : Tier → String
  | .proxy => "proxy"
  | .web => "web"
  | .backend => "backend"

structure WebServiceNode extends ServiceNode where
  weightWeb : Int
  weightBackend : Int
  isRunningProxy : Bool
  isRunningWeb : Bool
  isRunningBackend : Bool
  deriving DecidableEq, Repr

namespace WebServiceNode

def id (node : WebServiceNode) : String := node.toServiceNode.id

/-- The constructor of the class, for a node that is to run one duty. Volumes
are not taken over. -/
def create (node : ServiceNode) (weightWeb weightBackend : Int) (tier : Tier) : WebServiceNode where
  toServiceNode := { node with weightNode := weightBackend, volumes := [] }
  weightWeb := weightWeb
  weightBackend := weightBackend
  isRunningProxy := tier = .proxy
  isRunningWeb := tier = .web
  isRunningBackend := tier = .backend

def runs (node : WebServiceNode) : Tier → Bool
  | .proxy => node.isRunningProxy
  | .web => node.isRunningWeb
  | .backend => node.isRunningBackend

def setRuns (node : WebServiceNode) (running : Bool) : Tier → WebServiceNode
  | .proxy => { node with isRunningProxy := running }
  | .web => { node with isRunningWeb := running }
  | .backend => { node with isRunningBackend := running }

/-- The role a node with these duties has. Without any duty it keeps its role. -/
def updateRole (node : WebServiceNode) : WebServiceNode :=
  if node.isRunningProxy && node.isRunningWeb && node.isRunningBackend then { node with role := "proxybackendweb" }
  else if node.isRunningProxy && node.isRunningBackend then { node with role := "proxybackend" }
  else if node.isRunningProxy && node.isRunningWeb then { node with role := "proxyweb" }
  else if node.isRunningBackend then { node with role := "backend" }
  else if node.isRunningProxy then { node with role := "proxy" }
  else if node.isRunningWeb then { node with role := "web" }
  else node

def isUsed (node : WebServiceNode) : Bool := node.isRunningBackend || node.isRunningWeb || node.isRunningProxy

end WebServiceNode

/-- An entry of the list of backends or web servers that is sent to agents. -/
structure Endpoint where
  ip : String
  port : Int
  weight : Option Int
  deriving DecidableEq, Repr

/-- The deployment of a web service. -/
structure ServiceConfiguration where
  proxyCount : Int
  webCount : Int
  backendCount : Int
  serviceNodes : Table WebServiceNode.id
  backends : List Endpoint
  webBackends : List Endpoint
  deriving DecidableEq

namespace ServiceConfiguration

def getServiceNodes (config : ServiceConfiguration) (tier : Tier) : List WebServiceNode :=
  config.serviceNodes.rows.filter fun node => node.runs tier

def getProxyServiceNodes (config : ServiceConfiguration) : List WebServiceNode := config.getServiceNodes .proxy

def getWebServiceNodes (config : ServiceConfiguration) : List WebServiceNode := config.getServiceNodes .web

def getBackendServiceNodes (config : ServiceConfiguration) : List WebServiceNode := config.getServiceNodes .backend

def getBackendTuples (config : ServiceConfiguration) : List Endpoint :=
  config.getBackendServiceNodes.map fun node => ⟨node.ip, 9000, some node.weightBackend⟩

def getWebTuples (config : ServiceConfiguration) : List Endpoint :=
  config.getWebServiceNodes.map fun node => ⟨node.ip, 8080, none⟩

def updateMappings (config : ServiceConfiguration) : ServiceConfiguration :=
  { config with backends := config.getBackendTuples, webBackends := config.getWebTuples }

/-- `_update_roles` for all nodes. -/
def updateRoles (config : ServiceConfiguration) : ServiceConfiguration :=
  { config with
    serviceNodes := config.serviceNodes.map WebServiceNode.updateRole fun node => by
      unfold WebServiceNode.updateRole
      split_ifs <;> rfl }

def count (config : ServiceConfiguration) : Tier → Int
  | .proxy => config.proxyCount
  | .web => config.webCount
  | .backend => config.backendCount

/-- The counter of the web servers or backends: a duty packed on a proxy
counts as zero. -/
def countPacked (config : ServiceConfiguration) (tier : Tier) : Int :=
  match config.getServiceNodes tier with
  | [node] => if config.getProxyServiceNodes.any fun proxy => proxy.same node.toServiceNode then 0 else 1
  | nodes => nodes.length

/-- The end of `on_add_nodes` and `on_remove_nodes`. -/
def recount (config : ServiceConfiguration) : ServiceConfiguration :=
  { config with
    proxyCount := config.getProxyServiceNodes.length
    backendCount := config.countPacked .backend
    webCount := config.countPacked .web }

/-- The nodes of a list start or stop a duty. -/
def setRunning (config : ServiceConfiguration) (tier : Tier) (running : Bool) (nodes : List WebServiceNode) :
    ServiceConfiguration :=
  { config with
    serviceNodes := config.serviceNodes.map
      (fun node => if node.id ∈ nodes.map WebServiceNode.id then node.setRuns running tier else node) fun node => by
        split
        · cases tier <;> rfl
        · rfl }

/-- Reading the first element of a list. -/
def firstNode : List WebServiceNode → Except String WebServiceNode
  | [] => .error "list index out of range"
  | node :: _ => .ok node

/-- The slice `nodes[-n:]` for a positive `n`. -/
def lastNodes (nodes : List WebServiceNode) (n : Nat) : List WebServiceNode := nodes.drop (nodes.length - n)

def defaultNodeWeight : Int := 100

/-- The new nodes are entered in the order in which the director returned
them, for as many duties as were requested. -/
def enterNodes (config : ServiceConfiguration) : List (ServiceNode × Tier) → ServiceConfiguration
  | [] => config
  | (node, tier) :: rest =>
    enterNodes { config with
      serviceNodes := config.serviceNodes.put (.create node defaultNodeWeight defaultNodeWeight tier) } rest

/-- The number of nodes requested in a role. -/
abbrev NodeRoles := String → Nat

/-- `check_add_nodes`. -/
def checkAddNodes (config : ServiceConfiguration) (nodeRoles : NodeRoles) : Except String Unit :=
  let backend := nodeRoles Tier.backend.role
  let web := nodeRoles Tier.web.role
  let proxy := nodeRoles Tier.proxy.role
  if proxy + config.proxyCount > 1 ∧ (web + config.webCount = 0 ∨ backend + config.backendCount = 0) then
    .error "Cannot add more proxy servers without at least one stand-alone 'web' node and one stand-alone 'backend' node"
  else .ok ()

/-- The node that is relieved of a packed duty. -/
def unpacked (config : ServiceConfiguration) (tier : Tier) (requested : Nat) : Except String (List WebServiceNode) :=
  if 0 < requested ∧ config.count tier = 0 then
    match firstNode (config.getServiceNodes tier) with
    | .error e => .error e
    | .ok node => .ok [node]
  else .ok []

/-- The number of supplied nodes in the role of a duty. -/
def supplied (nodes : List ServiceNode) (tier : Tier) : Nat := (nodes.filter fun node => node.role = tier.role).length

/-- The duties of the new nodes, in the order in which they are handed out. -/
def newDuties (nodes : List ServiceNode) : List Tier :=
  List.replicate (supplied nodes .proxy) .proxy ++ List.replicate (supplied nodes .web) .web ++
    List.replicate (supplied nodes .backend) .backend

/-- The nodes of two lists stop running web server and backend. -/
def stopWebAndBackend (config : ServiceConfiguration) (webNodesKill backendNodesKill : List WebServiceNode) :
    ServiceConfiguration :=
  (config.setRunning .web false webNodesKill).setRunning .backend false backendNodesKill

/-- `on_add_nodes`, with all agents answering. -/
def onAddNodes (config : ServiceConfiguration) (nodes : List ServiceNode) : Except String ServiceConfiguration :=
  match config.unpacked .backend (supplied nodes .backend) with
  | .error e => .error e
  | .ok backendNodesKill =>
    match config.unpacked .web (supplied nodes .web) with
    | .error e => .error e
    | .ok webNodesKill =>
      let config := (config.stopWebAndBackend webNodesKill backendNodesKill).enterNodes (nodes.zip (newDuties nodes))
      .ok config.updateMappings.updateRoles.recount

/-- `check_remove_nodes`. -/
def checkRemoveNodes (config : ServiceConfiguration) (nodeRoles : NodeRoles) : Except String Unit :=
  let backend := nodeRoles Tier.backend.role
  let web := nodeRoles Tier.web.role
  let proxy := nodeRoles Tier.proxy.role
  if config.proxyCount - proxy < 1 then .error "Not enough 'proxy' nodes will be left"
  else if config.webCount - web < 1 ∧ config.proxyCount - proxy > 1 then .error "Not enough 'web' nodes will be left"
  else if config.webCount - web < 0 then .error "Not enough 'web' nodes will be left"
  else if config.backendCount - backend < 1 ∧ config.proxyCount - proxy > 1 then
    .error "Not enough 'backend' nodes will be left"
  else if config.backendCount - backend < 0 then .error "Not enough 'backend' nodes will be left"
  else .ok ()

/-- The nodes that lose a duty. -/
def nodesKill (config : ServiceConfiguration) (tier : Tier) (requested : Nat) : List WebServiceNode :=
  if 0 < requested then lastNodes (config.getServiceNodes tier) requested else []

/-- Whether a duty loses the last node of its own. -/
def packs (config : ServiceConfiguration) (tier : Tier) (requested : Nat) : Bool :=
  0 < requested && config.count tier - requested = 0

/-- The packing node takes over a duty. -/
def packOn (config : ServiceConfiguration) (tier : Tier) (packing : Bool) (packingNode : WebServiceNode) :
    ServiceConfiguration :=
  if packing then config.setRunning tier true [packingNode] else config

/-- Nodes without a duty are taken out. -/
def deleteUnused (config : ServiceConfiguration) : ServiceConfiguration × List WebServiceNode :=
  ({ config with serviceNodes := config.serviceNodes.filter WebServiceNode.isUsed },
    config.serviceNodes.rows.filter fun node => !node.isUsed)

/-- `on_remove_nodes`, with all agents answering. The state of the service is
set to running after it. -/
def onRemoveNodes (config : ServiceConfiguration) (nodeRoles : NodeRoles) :
    Except String (ServiceConfiguration × List WebServiceNode) :=
  let backend := nodeRoles Tier.backend.role
  let web := nodeRoles Tier.web.role
  let proxy := nodeRoles Tier.proxy.role
  match firstNode config.getProxyServiceNodes with
  | .error e => .error e
  | .ok packingNode =>
    let stopped := (config.stopWebAndBackend (config.nodesKill .web web)
      (config.nodesKill .backend backend)).setRunning .proxy false (config.nodesKill .proxy proxy)
    let packed := (stopped.packOn .backend (config.packs .backend backend) packingNode).packOn .web
      (config.packs .web web) packingNode
    let deleted := packed.updateMappings.updateRoles.deleteUnused
    .ok (deleted.1.recount, deleted.2)

end ServiceConfiguration

end ConPaaS
