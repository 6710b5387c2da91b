import ConPaaS.Core.Node
import ConPaaS.Director.Application

namespace ConPaaS

/-- A volume at a cloud. -/
structure CloudVolume where
  volumeId : String
  cloud : String
  deriving DecidableEq, Repr

/-- An entry of `nodes_info`: a machine that is asked for. -/
structure NodeInfo where
  cloud : Option String
  instType : Option String
  volumes : List ServiceVolume
  deriving DecidableEq, Repr

/-- What an `AgentController` is made with. -/
structure AgentOrder where
  userId : Int
  appId : Option String
  serviceId : Option String
  serviceType : Option String
  managerIp : Option String
  context : List (String × String)
  startupScript : Option String
  deriving DecidableEq, Repr

/-- What the director finds outside: the clouds in its configuration, what each
of them does when it is called, and the number an integer column of the
database keeps of a text. A call that starts machines also tells the volumes it
has made for them, one that kills a machine the volumes that went with it and
whether it is gone. -/
structure Outside where
  deploymentName : String
  available : List String
  contextFile : AgentOrder → String → Except String String
  newInstances : String → String → String → List NodeInfo → List CloudVolume × Except String (List ServiceNode)
  checkNode : ServiceNode → Except String Bool
  killInstance : Vm → List CloudVolume × Bool
  createVolume : Int → String → String → String → Except String String
  attachVolume : String → String → String → String → Except String Bool
  detachVolume : String → String → Except String Bool
  destroyVolume : String → String → Except String Bool
  column : Option String → Option Int

/-- What a request does to rows, machines and volumes. A machine it has started
itself has no row yet, but the application in its name. -/
inductive Act
  | rowCreated (res : Resource)
  | rowDeleted (res : Resource)
  | vmDestroyed (vm : Vm)
  | newVmDestroyed (appId : Option Int) (vm : Vm)
  | newVolume (appId : Option Int) (volume : CloudVolume)
  | volumeCreated (vmId : String) (volume : CloudVolume)
  | volumeAttached (volume : CloudVolume)
  | volumeDetached (volume : CloudVolume)
  | volumeDestroyed (volume : CloudVolume)
  deriving DecidableEq, Repr

/-- A machine named in a request or by a row. -/
structure NodeEntry where
  vmid : String
  cloudName : Option String
  deriving DecidableEq, Repr

def ServiceNode.entry (node : ServiceNode) : NodeEntry := ⟨node.vmid, some node.cloudName⟩

/-- The machine a node stands for. -/
def ServiceNode.vm (node : ServiceNode) : Vm := ⟨node.vmid, node.cloudName⟩

def Resource.entry (res : Resource) : NodeEntry := ⟨res.vmid, some res.cloud⟩

namespace Outside

variable (outside : Outside)

/-- `Controller.get_cloud_by_name`. -/
def getCloudByName (cloudName : Option String) : Except String String :=
  let name := match cloudName with
    | none => "iaas"
    | some name => if name = "default" ∨ name = "None" then "iaas" else name
  if name ∈ outside.available then .ok name else .error ("Unknown cloud: " ++ name)

/-- `cloud.kill_instance`, with what is known of the machine it kills. -/
def kill (destroyed : Vm → Act) (vm : Vm) : List Act :=
  (outside.killInstance vm).1.map .volumeDestroyed ++ if (outside.killInstance vm).2 then [destroyed vm] else []

/-- `Controller.delete_nodes`. What goes wrong at a cloud is logged and
forgotten, but an unknown cloud ends the loop. -/
def deleteNodes (destroyed : Vm → Act) : List NodeEntry → List Act × Except String Unit
  | [] => ([], .ok ())
  | node :: rest =>
    match outside.getCloudByName node.cloudName with
    | .error error => ([], .error error)
    | .ok cloud =>
      let later := deleteNodes destroyed rest
      (outside.kill destroyed ⟨node.vmid, cloud⟩ ++ later.1, later.2)

/-- `Controller.generate_context`: a context for each cloud. -/
def generateContext (order : AgentOrder) : List String → Except String (List (String × String))
  | [] => .ok []
  | cloudName :: rest => do
    let cloud ← outside.getCloudByName (some cloudName)
    let context ← outside.contextFile order cloud
    let later ← generateContext order rest
    return (cloudName, context) :: later

/-- The loop of `Controller.create_nodes`: each cloud is asked for the machines
it is to start, and if one fails the others are forgotten. -/
def requestNodes (name : String) (infos : List NodeInfo) :
    List (String × String) → List CloudVolume × Except String (List ServiceNode)
  | [] => ([], .ok [])
  | (cloud, context) :: rest =>
    let answer := outside.newInstances cloud name context (infos.filter fun info => info.cloud = some cloud)
    match answer.2 with
    | .error error => (answer.1, .error error)
    | .ok nodes =>
      let later := requestNodes name infos rest
      (answer.1 ++ later.1, later.2.map (nodes ++ ·))

/-- `Controller._wait_for_nodes`: the machines that start, and those that do
not. -/
def waitForNodes : List ServiceNode → Except String (List ServiceNode × List ServiceNode)
  | [] => .ok ([], [])
  | node :: rest => do
    let started ← outside.checkNode node
    let (ready, failed) ← waitForNodes rest
    return if started then (node :: ready, failed) else (ready, node :: failed)

end Outside

/-- `_get_cloud_list`, the part that changes its argument. -/
def NodeInfo.withDefault (info : NodeInfo) : NodeInfo :=
  if info.cloud ∈ [none, some "", some "default", some "None"] then { info with cloud := some "iaas" } else info

def getCloudList (infos : List NodeInfo) : List String := (infos.filterMap NodeInfo.cloud).dedup

/-- `%s` of a form value. -/
def formatted (text : Option String) : String := text.getD "None"

/-- The name `Controller._create_nodes` gives the machines. -/
def AgentOrder.name (deploymentName : String) (order : AgentOrder) : String :=
  deploymentName ++ "-u" ++ toString order.userId ++ "-a" ++ formatted order.appId ++ "-s" ++
    formatted order.serviceId ++ "-" ++ formatted order.serviceType

/-- What comes of starting machines: the volumes made for them, the machines
that did not start, and those that did. -/
structure Launch where
  volumes : List CloudVolume
  failed : List ServiceNode
  ready : Except String (List ServiceNode)

/-- `Controller.create_nodes` up to the point where the machines that did not
start are deleted. -/
def Outside.launch (outside : Outside) (order : AgentOrder) (infos : List NodeInfo) : Launch :=
  match outside.generateContext order (getCloudList infos) with
  | .error error => ⟨[], [], .error error⟩
  | .ok contexts =>
    let answer := outside.requestNodes (order.name outside.deploymentName) infos contexts
    match answer.2.bind outside.waitForNodes with
    | .error error => ⟨answer.1, [], .error error⟩
    | .ok (ready, failed) => ⟨answer.1, failed, .ok ready⟩

end ConPaaS
