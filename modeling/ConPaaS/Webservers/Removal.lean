import ConPaaS.Webservers.Deploying

namespace ConPaaS

open Keyed Effect Deployment

/-- Whether an agent is told to stop a duty. -/
def AgentOp.isStop : AgentOp → Bool
  | .stopHttpProxy | .stopWebServer | .stopPHP | .stopTomcat => true
  | _ => false

/-- The counters are those of the nodes, with a packed duty counted as zero. -/
structure ServiceConfiguration.Recounted (config : ServiceConfiguration) : Prop where
  proxy : config.proxyCount = config.getProxyServiceNodes.length
  web : config.webCount = config.countPacked .web
  backend : config.backendCount = config.countPacked .backend

theorem ServiceConfiguration.recount_recounted (config : ServiceConfiguration) : config.recount.Recounted := ⟨rfl, rfl, rfl⟩

namespace Agents

variable {agents : Agents} {kind : WebKind} {config : CodeConfiguration} {s t : Deployment} {nodes : List WebServiceNode}
  {nodeRoles : ServiceConfiguration.NodeRoles}

/-- A removal returns a list of nodes, and leaves the service in the state of an
error, or with counters that are right and without the nodes that lost their
last duty, which are those of the list. -/
def Removed (agents : Agents) (kind : WebKind) (nodeRoles : ServiceConfiguration.NodeRoles) (s : Deployment) : Prop :=
  match agents.onRemoveNodes kind nodeRoles s with
  | .ok nodes t => t.state = .error ∨ (t.config.Recounted ∧
      ServiceConfiguration.Released s.config.toServiceConfiguration t.config.toServiceConfiguration nodes)
  | .error _ _ => False

theorem shrunk_ids (config : ServiceConfiguration) (packingNode : WebServiceNode) :
    (shrunk config nodeRoles packingNode).ids = config.ids :=
  (ServiceConfiguration.updateRoles_ids _).trans ((ServiceConfiguration.packOn_ids ..).trans
    ((ServiceConfiguration.packOn_ids ..).trans
      ((ServiceConfiguration.setRunning_ids ..).trans (ServiceConfiguration.stopWebAndBackend_ids ..))))

/-- The nodes a request relieves of a duty. -/
def kills (config : ServiceConfiguration) (nodeRoles : ServiceConfiguration.NodeRoles) (tier : Tier) : List WebServiceNode :=
  config.nodesKill tier (nodeRoles tier.role)

/-- The orders that come before those to stop. -/
def packOrders (agents : Agents) (kind : WebKind) (config : CodeConfiguration) (nodeRoles : ServiceConfiguration.NodeRoles)
    (packingNode : WebServiceNode) : Hook Unit :=
  let after := config.deploy (shrunk config.toServiceConfiguration nodeRoles packingNode)
  agents.packDuties kind after (config.packs .backend (nodeRoles Tier.backend.role)) (config.packs .web (nodeRoles Tier.web.role))
    (packed after.toServiceConfiguration packingNode)
    (!(kills config.toServiceConfiguration nodeRoles .web).isEmpty || !(kills config.toServiceConfiguration nodeRoles .backend).isEmpty)
    after.getProxyServiceNodes

/-- What a removal leaves when all its orders were answered. -/
def removed (config : CodeConfiguration) (nodeRoles : ServiceConfiguration.NodeRoles) (packingNode : WebServiceNode) : CodeConfiguration :=
  config.deploy (shrunk config.toServiceConfiguration nodeRoles packingNode).deleteUnused.1.recount

/-- The end of a removal: what is left when an order to stop was refused, and
when all were answered. -/
def settle (agents : Agents) (kind : WebKind) (kill : Tier → List WebServiceNode) (after : CodeConfiguration) :
    Hook (List WebServiceNode) := do
  let delNodes ← tryCatch (do
      agents.stopDuties kind kill
      let (used, delNodes) := after.deleteUnused
      setConfig (after.deploy used.recount)
      return some delNodes) fun _ => pure none
  setState .running
  match delNodes with
  | some delNodes => return delNodes
  | none => throw (.other "UnboundLocalError")

theorem settle_ok {kill : Tier → List WebServiceNode} {after : CodeConfiguration} :
    agents.settle kind kill after s = .ok nodes t ↔ ∃ u, agents.stopDuties kind kill s = .ok () u ∧
      nodes = after.deleteUnused.2 ∧ t = { u with config := after.deploy after.deleteUnused.1.recount, state := .running } := by
  cases run : agents.stopDuties kind kill s with
  | ok a u =>
    have done : agents.settle kind kill after s = .ok after.deleteUnused.2
        { u with config := after.deploy after.deleteUnused.1.recount, state := .running } := by
      refine bind_of_ok (a := some after.deleteUnused.2) (t := { u with config := after.deploy after.deleteUnused.1.recount }) ?_
      refine tryCatch_of_ok ?_
      rw [bind_of_ok run]
      rfl
    rw [done]
    simp [eq_comm]
  | error exception u =>
    have raised : agents.settle kind kill after s = .error (.other "UnboundLocalError") { u with state := .running } := by
      exact bind_of_ok (a := none) (t := u) (tryCatch_of_error (bind_of_error run))
    rw [raised]
    simp

/-- A removal returns when the orders to pack and those to stop were answered. -/
theorem onRemoveNodes_ok : agents.onRemoveNodes kind nodeRoles s = .ok nodes t ↔
    ∃ packingNode, ServiceConfiguration.firstNode s.config.getProxyServiceNodes = .ok packingNode ∧
      nodes = (shrunk s.config.toServiceConfiguration nodeRoles packingNode).deleteUnused.2 ∧
      ∃ u v, packOrders agents kind s.config nodeRoles packingNode
          { s with config := s.config.deploy (shrunk s.config.toServiceConfiguration nodeRoles packingNode) } = .ok () u ∧
        agents.stopDuties kind (kills s.config.toServiceConfiguration nodeRoles) u = .ok () v ∧
          t = { v with config := removed s.config nodeRoles packingNode, state := .running } := by
  cases first : ServiceConfiguration.firstNode s.config.getProxyServiceNodes with
  | error text =>
    have lifted : lift (ServiceConfiguration.firstNode s.config.getProxyServiceNodes) s = .error (.other text) s := by
      rw [first]
      rfl
    have raised : agents.onRemoveNodes kind nodeRoles s = .error (.other text) s :=
      (bind_of_ok (x := get) rfl).trans (bind_of_error lifted)
    simp [raised]
  | ok packingNode =>
    have lifted := lift_ok (s := s).mpr ⟨first, rfl⟩
    have begun : agents.onRemoveNodes kind nodeRoles s = (packOrders agents kind s.config nodeRoles packingNode >>= fun _ =>
        agents.settle kind (kills s.config.toServiceConfiguration nodeRoles)
          (s.config.deploy (shrunk s.config.toServiceConfiguration nodeRoles packingNode)))
          { s with config := s.config.deploy (shrunk s.config.toServiceConfiguration nodeRoles packingNode) } :=
      (bind_of_ok (x := get) rfl).trans (bind_of_ok lifted)
    rw [begun, bind_ok]
    constructor
    · rintro ⟨_, u, packed, settled⟩
      obtain ⟨v, stopped, rfl, rfl⟩ := settle_ok.mp settled
      exact ⟨packingNode, rfl, rfl, u, v, packed, stopped, rfl⟩
    · rintro ⟨_, same, rfl, u, v, packed, stopped, rfl⟩
      cases same
      exact ⟨(), u, packed, settle_ok.mpr ⟨v, stopped, rfl, rfl⟩⟩

/-- With all agents answering this is what a removal does to the nodes. -/
theorem onRemoveNodes_refines (ended : agents.onRemoveNodes kind nodeRoles s = .ok nodes t) :
    s.config.onRemoveNodes nodeRoles = .ok (t.config.toServiceConfiguration, nodes) ∧ t.state = .running := by
  obtain ⟨packingNode, first, rfl, u, v, _, _, rfl⟩ := onRemoveNodes_ok.mp ended
  refine ⟨?_, rfl⟩
  simp only [ServiceConfiguration.onRemoveNodes, first]
  rfl

/-- A removal that returns leaves what it should. -/
theorem onRemoveNodes_released (ended : agents.onRemoveNodes kind nodeRoles s = .ok nodes t) :
    t.config.Recounted ∧ ServiceConfiguration.Released s.config.toServiceConfiguration t.config.toServiceConfiguration nodes := by
  obtain ⟨packingNode, _, rfl, u, v, _, _, rfl⟩ := onRemoveNodes_ok.mp ended
  exact ⟨ServiceConfiguration.recount_recounted _, ServiceConfiguration.deleteUnused_released (shrunk_ids _ packingNode)⟩

theorem removed_iff_ok : agents.Removed kind nodeRoles s ↔ ∃ nodes t, agents.onRemoveNodes kind nodeRoles s = .ok nodes t := by
  unfold Removed
  cases ended : agents.onRemoveNodes kind nodeRoles s with
  | ok nodes t => exact iff_of_true (.inr (onRemoveNodes_released ended)) ⟨nodes, t, rfl⟩
  | error exception t => simp

/-- The orders of a duty. -/
theorem succeeds_tellEach (agents : Agents) (op : AgentOp) (nodes : List WebServiceNode) :
    Succeeds (agents.tellEach op nodes) (agents.AllAnswer op nodes) :=
  (returns_tellEach agents op nodes).succeeds

theorem succeeds_tell (agents : Agents) (node : ServiceNode) (op : AgentOp) :
    Succeeds (agents.tell op node) (agents.answers (node.call op) = true) := by
  intro s
  constructor
  · rintro ⟨_, t, run⟩
    exact (tell_ok.mp run).1
  · exact fun answered => ⟨(), _, tell_ok.mpr ⟨answered, rfl⟩⟩

theorem succeeds_stopDuties (agents : Agents) (kind : WebKind) (kill : Tier → List WebServiceNode) :
    Succeeds (agents.stopDuties kind kill) (agents.AllAnswer (stopBackendOp kind) (kill .backend) ∧
      agents.AllAnswer .stopWebServer (kill .web) ∧ agents.AllAnswer .stopHttpProxy (kill .proxy)) :=
  (succeeds_tellEach agents (stopBackendOp kind) (kill .backend)).bind fun _ =>
    (succeeds_tellEach agents .stopWebServer (kill .web)).bind fun _ => succeeds_tellEach agents .stopHttpProxy (kill .proxy)

/-- All orders but those to stop are answered. -/
def OnlyStopsFail (agents : Agents) : Prop := ∀ call : AgentCall, call.op.isStop = false → agents.answers call = true

theorem OnlyStopsFail.all (others : agents.OnlyStopsFail) {op : AgentOp} (still : op.isStop = false) (nodes : List WebServiceNode) :
    agents.AllAnswer op nodes := fun node _ => others (node.call op) still

theorem OnlyStopsFail.tellEach (others : agents.OnlyStopsFail) {op : AgentOp} (still : op.isStop = false) (nodes : List WebServiceNode) :
    Succeeds (agents.tellEach op nodes) True :=
  (succeeds_tellEach agents op nodes).congr (iff_true_intro (others.all still nodes))

theorem isStop_of_isCode {op : AgentOp} (code : op.isCode = true) : op.isStop = false := by
  cases op with
  | updatePHPCode | updateTomcatCode => rfl
  | _ => cases code

theorem OnlyStopsFail.push (others : agents.OnlyStopsFail) (kind : WebKind) (config : CodeConfiguration) (node : WebServiceNode) :
    Succeeds (agents.push kind config node) (∃ version, config.codeVersions.get? config.currentCodeVersion = some version) := by
  have told (version : CodeVersion) :
      Succeeds (forEach (fun op => agents.tell op node.toServiceNode) (codeOps kind config version node)) True :=
    (Succeeds.forEach (fun op => succeeds_tell agents node.toServiceNode op) _).congr (iff_true_intro fun op member =>
      others _ (isStop_of_isCode (codeOps_isCode version node op member)))
  have found : Succeeds (currentVersion config) (∃ version, config.codeVersions.get? config.currentCodeVersion = some version) := by
    intro s
    unfold currentVersion
    cases config.codeVersions.get? config.currentCodeVersion with
    | some version => exact iff_of_true ⟨version, s, rfl⟩ ⟨version, rfl⟩
    | none => simp [throw_run]
  exact (found.bind told).congr (and_iff_left trivial)

/-- The code of a node that packs. -/
theorem OnlyStopsFail.updateCode (others : agents.OnlyStopsFail) (kind : WebKind) (config : CodeConfiguration) (node : WebServiceNode) :
    Succeeds (agents.updateCode kind config [node])
      (∃ version, config.codeVersions.get? config.currentCodeVersion = some version) := by
  cases kind with
  | php => exact (Succeeds.forEach (others.push .php config) [node]).congr (by simp)
  | java => exact (returns_updateCode agents config [node]).succeeds.congr (by simp [Known])

theorem OnlyStopsFail.startWeb (others : agents.OnlyStopsFail) (config : CodeConfiguration) (nodes : List WebServiceNode) :
    Succeeds (agents.startWeb config nodes) True :=
  others.tellEach rfl nodes

theorem OnlyStopsFail.updateProxy (others : agents.OnlyStopsFail) (kind : WebKind) (config : CodeConfiguration)
    (nodes : List WebServiceNode) : Succeeds (agents.updateProxy kind config nodes) (agents.Readable kind config) := by
  have told : agents.AllAnswer (agents.updateProxyOp kind config) nodes := others.all rfl nodes
  intro s
  constructor
  · rintro ⟨_, t, run⟩
    exact (updateProxy_ok.mp run).1
  · exact fun readable => ⟨(), _, updateProxy_ok.mpr ⟨readable, told, rfl⟩⟩

/-- The orders to pack are carried out where the code is known and, for the
proxies that are told, readable. -/
theorem OnlyStopsFail.packDuties (others : agents.OnlyStopsFail) (kind : WebKind) (config : CodeConfiguration)
    (packBackend packWeb : Bool) (packingNode : WebServiceNode) (relieved : Bool) (proxies : List WebServiceNode) :
    Succeeds (agents.packDuties kind config packBackend packWeb packingNode relieved proxies)
      ((packBackend = true → ∃ version, config.codeVersions.get? config.currentCodeVersion = some version) ∧
        (relieved = true → agents.Readable kind config)) := by
  have update : Succeeds (if relieved = true then agents.updateProxy kind config proxies else pure ())
      (relieved = true → agents.Readable kind config) := by
    cases relieved with
    | true => exact (others.updateProxy kind config proxies).congr (by simp)
    | false => exact (Succeeds.pure ()).congr (by simp)
  have web : Succeeds (do
      if packWeb then agents.startWeb config [packingNode]
      if relieved then agents.updateProxy kind config proxies) (relieved = true → agents.Readable kind config) := by
    cases packWeb with
    | true => exact ((others.startWeb config [packingNode]).bind fun _ => update).congr (and_iff_right trivial)
    | false => exact update
  have started : Succeeds (agents.startBackend kind [packingNode]) True := others.tellEach (by cases kind <;> rfl) [packingNode]
  cases packBackend with
  | true =>
    exact (started.bind fun _ => (others.updateCode kind config packingNode).bind fun _ => web).congr (by simp)
  | false => exact web.congr (by simp)

/-- What a removal needs beside the orders to stop: a proxy, the version that is
current where the backends move to the proxy, and its servlets where the proxies
are told of other nodes. -/
structure Removable (agents : Agents) (kind : WebKind) (config : CodeConfiguration) (nodeRoles : ServiceConfiguration.NodeRoles) :
    Prop where
  hosted : config.getProxyServiceNodes ≠ []
  known : config.packs .backend (nodeRoles Tier.backend.role) = true →
    ∃ version, config.codeVersions.get? config.currentCodeVersion = some version
  readable : (kills config.toServiceConfiguration nodeRoles .web ≠ [] ∨ kills config.toServiceConfiguration nodeRoles .backend ≠ []) →
    agents.Readable kind config

/-- The nodes that lose a duty stop it. -/
structure StopsAnswered (agents : Agents) (kind : WebKind) (config : CodeConfiguration) (nodeRoles : ServiceConfiguration.NodeRoles) :
    Prop where
  backend : agents.AllAnswer (stopBackendOp kind) (kills config.toServiceConfiguration nodeRoles .backend)
  web : agents.AllAnswer .stopWebServer (kills config.toServiceConfiguration nodeRoles .web)
  proxy : agents.AllAnswer .stopHttpProxy (kills config.toServiceConfiguration nodeRoles .proxy)

theorem OnlyStopsFail.packOrders (others : agents.OnlyStopsFail) (kind : WebKind) (config : CodeConfiguration)
    (nodeRoles : ServiceConfiguration.NodeRoles) (packingNode : WebServiceNode) :
    Succeeds (agents.packOrders kind config nodeRoles packingNode)
      ((config.packs .backend (nodeRoles Tier.backend.role) = true →
          ∃ version, config.codeVersions.get? config.currentCodeVersion = some version) ∧
        (kills config.toServiceConfiguration nodeRoles .web ≠ [] ∨ kills config.toServiceConfiguration nodeRoles .backend ≠ [] →
          agents.Readable kind config)) := by
  refine (others.packDuties _ _ _ _ _ _ _).congr (and_congr Iff.rfl ?_)
  simp [CodeConfiguration.deploy, Readable]

/-- A removal does what it should where the orders to stop are answered. -/
theorem removal_iff (agents : Agents) (kind : WebKind) (nodeRoles : ServiceConfiguration.NodeRoles) (s : Deployment)
    (others : agents.OnlyStopsFail) : agents.Removed kind nodeRoles s ↔
      agents.Removable kind s.config nodeRoles ∧ agents.StopsAnswered kind s.config nodeRoles := by
  rw [removed_iff_ok]
  constructor
  · rintro ⟨nodes, t, ended⟩
    obtain ⟨packingNode, first, _, u, v, packed, stopped, _⟩ := onRemoveNodes_ok.mp ended
    obtain ⟨known, readable⟩ := (others.packOrders kind s.config nodeRoles packingNode _).mp ⟨(), u, packed⟩
    obtain ⟨backend, web, proxy⟩ := (succeeds_stopDuties agents kind _ u).mp ⟨(), v, stopped⟩
    refine ⟨⟨?_, known, readable⟩, ⟨backend, web, proxy⟩⟩
    intro none
    rw [none] at first
    cases first
  · rintro ⟨removable, answered⟩
    cases first : s.config.getProxyServiceNodes with
    | nil => exact absurd first removable.hosted
    | cons packingNode rest =>
      obtain ⟨_, u, packed⟩ := (others.packOrders kind s.config nodeRoles packingNode _).mpr ⟨removable.known, removable.readable⟩
      obtain ⟨_, v, stopped⟩ := (succeeds_stopDuties agents kind _ u).mpr ⟨answered.backend, answered.web, answered.proxy⟩
      exact ⟨_, _, onRemoveNodes_ok.mpr ⟨packingNode, by rw [first]; rfl, rfl, u, v, packed, stopped, rfl⟩⟩

end Agents

namespace CodeWebManager

open Agents Transition

/-- A web node that was requested. -/
def webNode : RoleCounts := ⟨[("web", 1)], List.nodup_singleton "web"⟩

/-- A service gets a web node, and is to give it back. -/
def shrinking : List CodeWebEvent :=
  started ++ [.request (.service (.addNodes webNode true)), .advance 0 (.created [serverOf "2" "web"]) answering,
    .request (.service (.removeNodes webNode))]

/-- The agents do everything but to stop. -/
def stubborn : Agents := ⟨fun call => !call.op.isStop, fun _ => .ok []⟩

theorem shrinking_removes : ∃ m, play handle (created .php) shrinking = some m ∧ m.inFlight = [.service (.removing webNode)] ∧
    answering.Removed .php webNode.requested m.deployment := by
  have ready : ((play handle (created .php) shrinking).map fun m => decide (m.inFlight = [.service (.removing webNode)] ∧
      m.deployment.config.getProxyServiceNodes ≠ [] ∧
        m.deployment.config.packs .backend (webNode.requested Tier.backend.role) = false)) = some true := by
    decide +kernel
  obtain ⟨m, played, ready⟩ := Option.map_eq_some_iff.mp ready
  obtain ⟨inFlight, hosted, alone⟩ := of_decide_eq_true ready
  refine ⟨m, played, inFlight, (removal_iff answering .php webNode.requested m.deployment fun _ _ => rfl).mpr ⟨⟨hosted, ?_, ?_⟩, ?_⟩⟩
  · intro packs
    cases alone.symm.trans packs
  · intro _ java
    cases java
  · exact ⟨fun _ _ => rfl, fun _ _ => rfl, fun _ _ => rfl⟩

/-- A request to give back a web node is accepted, its web server does not stop,
and no list of nodes is returned. -/
theorem stubborn_not_removed : ¬ ∀ (events : List CodeWebEvent) (m : CodeWebManager) (nodeRoles : RoleCounts) (agents : Agents),
    Run Step (created .php) events m → .service (.removing nodeRoles) ∈ m.inFlight → agents.OnlyStopsFail →
      agents.Removed m.kind nodeRoles.requested m.deployment := by
  intro claim
  have found : ((play handle (created .php) shrinking).map fun m => decide (.service (.removing webNode) ∈ m.inFlight) &&
      match stubborn.onRemoveNodes m.kind webNode.requested m.deployment with
      | .ok _ _ => false
      | .error _ _ => true) = some true := by
    decide +kernel
  obtain ⟨m, played, found⟩ := Option.map_eq_some_iff.mp found
  obtain ⟨requested, raised⟩ := Bool.and_eq_true_iff.mp found
  have others : stubborn.OnlyStopsFail := fun call still => by simp [stubborn, still]
  obtain ⟨nodes, t, ended⟩ := removed_iff_ok.mp (claim _ m webNode stubborn (Run.play played) (of_decide_eq_true requested) others)
  rw [ended] at raised
  cases raised

end CodeWebManager

end ConPaaS
