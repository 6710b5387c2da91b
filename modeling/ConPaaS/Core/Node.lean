namespace ConPaaS

/-- A volume attached to a node. -/
structure ServiceVolume where
  volName : String
  volSize : Int
  volId : Option String
  vmId : Option String
  devName : Option String
  cloud : Option String
  deriving DecidableEq, Repr

/-- A virtual machine of a service. The services name the roles of their
nodes, and `weightNode` is the attribute `weight_backend`. -/
structure ServiceNode where
  vmid : String
  ip : String
  privateIp : String
  cloudName : String
  weightNode : Int
  role : String
  volumes : List ServiceVolume
  deriving DecidableEq, Repr

/-- `ServiceNode.id`. -/
def ServiceNode.id (node : ServiceNode) : String := node.cloudName ++ node.vmid

/-- `ServiceNode.__cmp__` finds two nodes equal. -/
def ServiceNode.same (node other : ServiceNode) : Bool := node.id = other.id && node.cloudName = other.cloudName

end ConPaaS
