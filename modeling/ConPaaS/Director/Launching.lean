import ConPaaS.Core.Node
import ConPaaS.Director.Application

namespace ConPaaS.Iaas

/-- A machine as a driver returns it. -/
structure Instance where
  id : String
  publicIps : List String
  privateIps : List String
  deriving DecidableEq, Repr

/-- A size of machines a cloud has. -/
structure Size where
  id : String
  name : String
  deriving DecidableEq, Repr

/-- An entry of `nodes_info`. A missing key is `none`. -/
structure InstanceInfo where
  cloud : String
  instType : Option String
  role : Option String
  volumes : Option (List ServiceVolume)
  deriving DecidableEq, Repr

/-- An entry of `nodes_info` after its machine is made. -/
structure MadeInfo where
  id : String
  role : Option String
  volumes : Option (List ServiceVolume)
  deriving DecidableEq, Repr

/-- How a cloud takes an attempt to attach a floating address. -/
inductive Attempt
  | attached
  | httpError
  | raised (error : String)
  deriving DecidableEq, Repr

/-- What a driver does during one call of `new_instances`: the answers for the
machines in their order, for the volumes of each of them, and to the attempts
to attach addresses. `attach_volume` keeps its exceptions to itself and its
result is not used. -/
structure Driver where
  connect : Except String Unit
  listSizes : Nat → Except String (List Size)
  createNode : Nat → Except String Instance
  volumeName : Nat → Nat → Except String String
  createVolume : Nat → Nat → Except String String
  attachAddress : Nat → Attempt

/-- The kinds of clouds `get_cloud_instance` makes, with what of their
configuration decides how machines are made. -/
inductive CloudType
  | openstack (size : Size) (autoAssignFloating : Bool)
  | ec2 (sizeId : String)
  | opennebula (instType : String)
  | dummy
  deriving DecidableEq, Repr

structure Cloud where
  name : String
  type : CloudType
  deriving DecidableEq, Repr

/-- What comes of asking a cloud for machines: those it has launched, and the
nodes made of them unless an exception is raised. -/
abbrev Requested := List Vm × Except String (List ServiceNode)

/-- `get_by_id_or_name`. -/
def getByIdOrName (label idOrName : String) (sizes : List Size) : Except String Size :=
  match sizes.find? (fun size => size.id = idOrName), sizes.find? (fun size => size.name = idOrName) with
  | some size, _ => .ok size
  | none, some size => .ok size
  | none, none => .error (idOrName ++ " is not a valid value for " ++ label)

def sizeNotFound (instType : String) (known : List String) : String :=
  "Requested size not found. '" ++ instType ++ "' not in [" ++
    ", ".intercalate (known.map fun name => "'" ++ name ++ "'") ++ "]"

namespace Driver

variable (driver : Driver)

/-- The size of a machine on OpenStack. -/
def openstackSize (size : Size) (i : Nat) (info : InstanceInfo) : Except String Size :=
  match info.instType with
  | none => .ok size
  | some instType => (driver.listSizes i).bind (getByIdOrName "SIZE_ID" instType)

/-- The size of a machine on EC2. -/
def ec2Size (sizeId : String) (i : Nat) (info : InstanceInfo) : Except String Size :=
  let instType := info.instType.getD sizeId
  (driver.listSizes i).bind fun sizes =>
    match sizes.find? fun size => size.id = instType with
    | some size => .ok size
    | none => .error (sizeNotFound instType (sizes.map Size.id))

/-- The loop over the volumes of a machine. -/
def makeVolumes (i : Nat) (vmId : String) : Nat → List ServiceVolume → Except String (List ServiceVolume)
  | _, [] => .ok []
  | j, vol :: rest => do
    let volName ← driver.volumeName i j
    let volId ← driver.createVolume i j
    let later ← makeVolumes i vmId (j + 1) rest
    return { vol with volName, volId := some volId, vmId := some vmId } :: later

def makeInfo (i : Nat) (instance_ : Instance) (info : InstanceInfo) : Except String MadeInfo :=
  match info.volumes with
  | none => .ok ⟨instance_.id, info.role, none⟩
  | some volumes => (driver.makeVolumes i instance_.id 0 volumes).map fun made => ⟨instance_.id, info.role, some made⟩

/-- The loop of `new_instances`: a machine is made, then its volumes. What has
been made is lost to the caller when anything raises. -/
def makeInstances (size : Nat → InstanceInfo → Except String Size) :
    Nat → List InstanceInfo → List Instance × Except String (List (Instance × MadeInfo))
  | _, [] => ([], .ok [])
  | i, info :: rest =>
    match (size i info).bind fun _ => driver.createNode i with
    | .error error => ([], .error error)
    | .ok instance_ =>
      match driver.makeInfo i instance_ info with
      | .error error => ([instance_], .error error)
      | .ok made =>
        let later := makeInstances size (i + 1) rest
        (instance_ :: later.1, later.2.map ((instance_, made) :: ·))

/-- The attempts for one machine. The numbers of attempts left and made go
through the whole loop. -/
def associateOne : Nat → Nat → Except String (Nat × Nat)
  | 0, call => .ok (0, call)
  | left + 1, call =>
    match driver.attachAddress call with
    | .attached => .ok (left + 1, call + 1)
    | .httpError => associateOne left (call + 1)
    | .raised error => .error error

def associateLoop : List Instance → Nat → Nat → Except String Nat
  | [], left, _ => .ok left
  | _ :: rest, left, call => (driver.associateOne left call).bind fun (left, call) => associateLoop rest left call

/-- `associate_floating_ips`. -/
def associateFloatingIps (instances : List Instance) : Except String Unit :=
  (driver.associateLoop instances (3 * instances.length) 0).bind fun left =>
    if left = 0 then .error "Error assigning floating IPs" else .ok ()

end Driver

def createOneServiceNode (cloudName : String) (instance_ : Instance) (volumes : List ServiceVolume) (role : String) :
    ServiceNode where
  vmid := instance_.id
  ip := instance_.publicIps.head?.getD ""
  privateIp := instance_.privateIps.head?.getD ""
  cloudName
  weightNode := 100
  role
  volumes

/-- `_create_service_nodes`. An entry without volumes gets those of the entry
before. -/
def createServiceNodes (cloudName : String) (infos : List MadeInfo) :
    List Instance → List ServiceVolume → Except String (List ServiceNode)
  | [], _ => .ok []
  | instance_ :: rest, volumes =>
    match infos.find? fun info => info.id = instance_.id with
    | none => .error "IndexError"
    | some info =>
      let volumes := info.volumes.getD volumes
      (createServiceNodes cloudName infos rest volumes).map
        (createOneServiceNode cloudName instance_ volumes (info.role.getD "node") :: ·)

/-- The machines of a cloud. -/
def Cloud.vm (cloud : Cloud) (instance_ : Instance) : Vm := ⟨instance_.id, cloud.name⟩

/-- `new_instances` once the size of a machine and the last step before the
nodes are given. -/
def Cloud.makeNodes (cloud : Cloud) (driver : Driver) (size : Nat → InstanceInfo → Except String Size)
    (finish : List Instance → Except String Unit) (infos : List InstanceInfo) : Requested :=
  let made := driver.makeInstances size 0 infos
  (made.1.map cloud.vm, made.2.bind fun made =>
    (finish (made.map Prod.fst)).bind fun _ =>
      createServiceNodes cloud.name (made.map Prod.snd) (made.map Prod.fst) [])

/-- `new_instances` of the kinds of clouds. OpenNebula and the dummy take a
number of machines, and raise an error when they are given a list. -/
def Cloud.newInstances (cloud : Cloud) (driver : Driver) (infos : List InstanceInfo) : Requested :=
  match driver.connect with
  | .error error => ([], .error error)
  | .ok () =>
    match cloud.type with
    | .openstack size autoAssignFloating =>
      cloud.makeNodes driver (driver.openstackSize size)
        (fun instances => if autoAssignFloating then .ok () else driver.associateFloatingIps instances) infos
    | .ec2 sizeId => cloud.makeNodes driver (driver.ec2Size sizeId) (fun _ => .ok ()) infos
    | .opennebula instType =>
      ([], (driver.listSizes 0).bind fun sizes =>
        if instType ∈ sizes.map Size.name then .error "TypeError" else .error (sizeNotFound instType (sizes.map Size.name)))
    | .dummy => ([], .error "TypeError")

/-- What a machine answers when it is polled. -/
inductive Probe
  | answered
  | socketError
  | raised (error : String)
  deriving DecidableEq, Repr

/-- The clouds of a controller and a pattern of outcomes: what the drivers do
at each call of `new_instances`, and what is found in each round of polling. -/
structure Outcomes where
  clouds : List Cloud
  driver : Nat → Driver
  checkProcess : Nat → ServiceNode → Probe
  listVms : Nat → ServiceNode → Except String (List ServiceNode)

/-- The default cloud is called `iaas`. -/
def cloudKey (cloudName : String) : String :=
  if cloudName = "default" ∨ cloudName = "None" then "iaas" else cloudName

namespace Outcomes

variable (outcomes : Outcomes)

/-- `get_cloud_by_name`. -/
def getCloudByName (cloudName : String) : Except String Cloud :=
  match outcomes.clouds.find? fun cloud => cloud.name = cloudKey cloudName with
  | some cloud => .ok cloud
  | none => .error ("Unknown cloud: " ++ cloudKey cloudName)

/-- One round of the loop of `create_nodes`. -/
def requestCloud (infos : List InstanceInfo) (i : Nat) (cloudName : String) : Requested :=
  match outcomes.getCloudByName cloudName with
  | .error error => ([], .error error)
  | .ok cloud => cloud.newInstances (outcomes.driver i) (infos.filter fun info => info.cloud = cloudName)

/-- The loop of `create_nodes`. -/
def requestClouds (infos : List InstanceInfo) : Nat → List String → Requested
  | _, [] => ([], .ok [])
  | i, cloudName :: rest =>
    let answer := outcomes.requestCloud infos i cloudName
    match answer.2 with
    | .error error => (answer.1, .error error)
    | .ok nodes =>
      let later := requestClouds infos (i + 1) rest
      (answer.1 ++ later.1, later.2.map (nodes ++ ·))

/-- `_check_node`. -/
def checkNode (round : Nat) (node : ServiceNode) : Except String Bool :=
  if node.ip = "" ∨ node.privateIp = "" then .ok false
  else
    match outcomes.checkProcess round node with
    | .answered => .ok true
    | .socketError => .ok false
    | .raised error => .error error

def checkNodes (round : Nat) : List ServiceNode → Except String (List ServiceNode)
  | [] => .ok []
  | node :: rest => do
    let started ← outcomes.checkNode round node
    let later ← checkNodes round rest
    return if started then node :: later else later

/-- A node takes the addresses of the machine that is listed under its id. -/
def refreshed (node : ServiceNode) (listed : List ServiceNode) : ServiceNode :=
  match listed.reverse.find? fun other => other.id = node.id with
  | some other => { node with ip := other.ip, privateIp := other.privateIp }
  | none => node

def refreshNode (round : Nat) (node : ServiceNode) : Except String ServiceNode :=
  if node.ip = "" ∨ node.privateIp = "" then
    (outcomes.getCloudByName node.cloudName).bind fun _ => (outcomes.listVms round node).map (refreshed node)
  else .ok node

def refreshNodes (round : Nat) : List ServiceNode → Except String (List ServiceNode)
  | [] => .ok []
  | node :: rest => do
    let node ← outcomes.refreshNode round node
    let later ← refreshNodes round rest
    return node :: later

/-- The nodes that are not among the started ones. -/
def waiting (started nodes : List ServiceNode) : List ServiceNode := nodes.filter fun node => !started.any node.same

/-- `_wait_for_nodes`, with the number of rounds that may still follow: the
nodes are polled until five minutes are past. -/
def waitForNodes : Nat → List ServiceNode → List ServiceNode → Except String (List ServiceNode × List ServiceNode)
  | _, done, [] => .ok (done, [])
  | 0, done, nodes => do
    let started ← outcomes.checkNodes 0 nodes
    return (done ++ started, waiting (done ++ started) nodes)
  | left + 1, done, nodes => do
    let started ← outcomes.checkNodes (left + 1) nodes
    let rest ← outcomes.refreshNodes left (waiting (done ++ started) nodes)
    waitForNodes left (done ++ started) rest

/-- The rounds of `_wait_for_nodes` after the first: one every five seconds
for five minutes. -/
def pollRounds : Nat := 300 / 5

/-- `delete_nodes`: the machines handed to `kill_instance`, whose exceptions are
forgotten. -/
def deleteNodes : List ServiceNode → List Vm × Except String Unit
  | [] => ([], .ok ())
  | node :: rest =>
    match outcomes.getCloudByName node.cloudName with
    | .error error => ([], .error error)
    | .ok cloud =>
      let later := deleteNodes rest
      (⟨node.vmid, cloud.name⟩ :: later.1, later.2)

end Outcomes

/-- A call of `create_nodes`: the machines launched during it, those handed to
`kill_instance`, and how it ends. -/
structure Creation where
  launched : List Vm
  killed : List Vm
  result : Except String (List ServiceNode)

/-- `Controller.create_nodes`. -/
def Outcomes.createNodes (outcomes : Outcomes) (infos : List InstanceInfo) (clouds : List String) : Creation :=
  let requested := outcomes.requestClouds infos 0 clouds
  match requested.2.bind (outcomes.waitForNodes Outcomes.pollRounds []) with
  | .error error => ⟨requested.1, [], .error error⟩
  | .ok (ready, failed) =>
    let deleted := outcomes.deleteNodes failed
    ⟨requested.1, deleted.1, deleted.2.map fun _ => ready⟩

end ConPaaS.Iaas
