import ConPaaS.Webservers.Agents

namespace ConPaaS

open Keyed Effect

/-- Whether an agent is told of the code. -/
def AgentOp.isCode : AgentOp → Bool
  | .updatePHPCode _ _ _ | .updateTomcatCode _ _ _ => true
  | _ => false

namespace Deployment

variable {s t u : Deployment} {allowed : AgentOp → Prop}

/-- The service after calls that were all answered. -/
def toldAll (s : Deployment) (calls : List AgentCall) : Deployment :=
  { s with calls := s.calls ++ calls.map fun call => (call, true) }

theorem toldAll_nil (s : Deployment) : s.toldAll [] = s := by
  simp [toldAll]

theorem toldAll_append (s : Deployment) (first second : List AgentCall) :
    (s.toldAll first).toldAll second = s.toldAll (first ++ second) := by
  simp [toldAll]

/-- What orders to the agents leave alone, the configuration and that the
service is not running, and what they add to the calls. -/
structure Ordered (allowed : AgentOp → Prop) (s t : Deployment) : Prop where
  config : t.config = s.config
  calls : ∃ new, t.calls = s.calls ++ new ∧ ∀ entry ∈ new, allowed entry.1.op
  state : s.state ≠ .running → t.state ≠ .running

theorem Ordered.refl (s : Deployment) : Ordered allowed s s where
  config := rfl
  calls := ⟨[], (List.append_nil _).symm, fun entry member => by cases member⟩
  state := id

theorem Ordered.trans (first : Ordered allowed s t) (second : Ordered allowed t u) : Ordered allowed s u where
  config := second.config.trans first.config
  calls := by
    obtain ⟨new, calls, said⟩ := first.calls
    obtain ⟨later, calls', said'⟩ := second.calls
    refine ⟨new ++ later, by rw [calls', calls, List.append_assoc], fun entry member => ?_⟩
    rcases List.mem_append.mp member with member | member
    · exact said entry member
    · exact said' entry member
  state := fun still => second.state (first.state still)

theorem quiet_told {call : AgentCall} (said : allowed call.op) (s : Deployment) : Ordered allowed s (s.told call) where
  config := rfl
  calls := ⟨[(call, true)], rfl, fun entry member => by cases List.mem_singleton.mp member; exact said⟩
  state := id

theorem quiet_refused {call : AgentCall} (said : allowed call.op) (s : Deployment) : Ordered allowed s (s.refused call) where
  config := rfl
  calls := ⟨[(call, false)], rfl, fun entry member => by cases List.mem_singleton.mp member; exact said⟩
  state := fun _ => by simp [refused]

end Deployment

namespace Agents

open Deployment

variable {agents : Agents} {kind : WebKind} {s t : Deployment} {config : CodeConfiguration} {op : AgentOp}
  {nodes : List WebServiceNode} {allowed : AgentOp → Prop}

section Quiet

theorem quiet_tell (said : allowed op) (node : ServiceNode) : Keeps (Ordered allowed) (agents.tell op node) := by
  intro s
  by_cases answered : agents.answers (node.call op) = true
  · rw [left_ok (a := ()) (t := s.told (node.call op)) (by simp [tell, answered])]
    exact quiet_told said s
  · rw [left_error (e := .agentException) (t := s.refused (node.call op)) (by simp [tell, answered])]
    exact quiet_refused said s

theorem quiet_bind {α β : Type} {x : Hook α} {f : α → Hook β} (first : Keeps (Ordered allowed) x)
    (later : ∀ a, Keeps (Ordered allowed) (f a)) : Keeps (Ordered allowed) (x >>= f) :=
  Keeps.bind Ordered.trans first later

theorem quiet_pure {α : Type} (a : α) : Keeps (Ordered allowed) (pure a : Hook α) := Keeps.pure Ordered.refl a

theorem quiet_throw {α : Type} (raised : Raised) : Keeps (Ordered allowed) (throw raised : Hook α) :=
  Keeps.throw Ordered.refl raised

theorem quiet_tellEach (said : allowed op) (nodes : List WebServiceNode) : Keeps (Ordered allowed) (agents.tellEach op nodes) :=
  Keeps.forEach Ordered.refl Ordered.trans (quiet_tell said) _

theorem quiet_startScalaris (said : ∀ first hosts, allowed (.createScalaris first hosts)) (nodes : List ServiceNode) (first : Bool) :
    Keeps (Ordered allowed) (agents.startScalaris kind config nodes first) := by
  cases kind with
  | java => exact quiet_pure ()
  | php =>
    simp only [startScalaris]
    induction nodes generalizing first with
    | nil => exact quiet_pure ()
    | cons node rest ih => exact quiet_bind (quiet_tell (said _ _) node) fun _ => ih false

theorem quiet_push (agents : Agents) (said : ∀ version node, ∀ op ∈ codeOps kind config version node, allowed op) (node : WebServiceNode) :
    Keeps (Ordered allowed) (agents.push kind config node) := by
  refine quiet_bind ?_ fun version => ?_
  · unfold currentVersion
    cases config.codeVersions.get? config.currentCodeVersion with
    | none => exact quiet_throw _
    | some version => exact quiet_pure version
  · have each := said version node
    generalize codeOps kind config version node = ops at each
    induction ops with
    | nil => exact quiet_pure ()
    | cons op rest ih =>
      exact quiet_bind (quiet_tell (each op List.mem_cons_self) _) fun _ =>
        ih fun op member => each op (List.mem_cons_of_mem _ member)

theorem quiet_updateTomcats (said : ∀ version node, ∀ op ∈ codeOps .java config version node, allowed op)
    (nodes : List WebServiceNode) : Keeps (Ordered allowed) (agents.updateTomcats config nodes) := by
  induction nodes with
  | nil => exact quiet_pure ()
  | cons node rest ih =>
    intro s
    have here := quiet_push agents said node s
    simp only [left, updateTomcats] at here ⊢
    cases run : agents.push .java config node s with
    | ok a t =>
      simp only [run] at here ⊢
      exact here.trans (ih t)
    | error raised t =>
      simp only [run] at here ⊢
      cases raised <;> exact here

theorem quiet_updateCode (said : ∀ version node, ∀ op ∈ codeOps kind config version node, allowed op)
    (nodes : List WebServiceNode) : Keeps (Ordered allowed) (agents.updateCode kind config nodes) := by
  cases kind with
  | php => exact Keeps.forEach Ordered.refl Ordered.trans (quiet_push agents said) nodes
  | java => exact quiet_updateTomcats said nodes

theorem quiet_getServletUrls : Keeps (Ordered allowed) (agents.getServletUrls kind config) := by
  cases kind with
  | php => exact quiet_pure []
  | java =>
    simp only [getServletUrls]
    cases agents.servletUrls config.currentCodeVersion with
    | ok urls => exact quiet_pure urls
    | error text => exact quiet_throw _

theorem quiet_startProxy (said : ∀ version webs backends servlets, allowed (.createHttpProxy version webs backends servlets))
    (nodes : List WebServiceNode) : Keeps (Ordered allowed) (agents.startProxy kind config nodes) :=
  quiet_bind quiet_getServletUrls fun _ => quiet_tellEach (said _ _ _ _) nodes

theorem quiet_updateProxy (said : ∀ version webs backends servlets, allowed (.updateHttpProxy version webs backends servlets))
    (nodes : List WebServiceNode) : Keeps (Ordered allowed) (agents.updateProxy kind config nodes) :=
  quiet_bind quiet_getServletUrls fun _ => quiet_tellEach (said _ _ _ _) nodes

/-- A call that leaves a web server configured for some versions, or for none. -/
def webServer : AgentOp → Option (Option (List String))
  | .createWebServer codeVersions | .updateWebServer codeVersions => some (some codeVersions)
  | .stopWebServer => some none
  | _ => none

/-- The versions a web server is told are those of a configuration. -/
def ListsVersions (config : CodeConfiguration) (op : AgentOp) : Prop :=
  ∀ codeVersions, webServer op = some (some codeVersions) → codeVersions = config.webVersions

theorem lists_other {op : AgentOp} (other : webServer op = none) : ListsVersions config op :=
  fun _ told => by cases other.symm.trans told

theorem lists_stopWeb : ListsVersions config .stopWebServer := fun _ told => by cases told

theorem codeOps_isCode (version : CodeVersion) (node : WebServiceNode) : ∀ op ∈ codeOps kind config version node, op.isCode = true := by
  intro op member
  cases kind with
  | php =>
    cases List.mem_singleton.mp member
    rfl
  | java =>
    rcases List.mem_append.mp member with member | member
    · split at member
      · cases List.mem_singleton.mp member
        rfl
      · cases member
    · split at member
      · cases List.mem_singleton.mp member
        rfl
      · cases member

theorem lists_codeOps (version : CodeVersion) (node : WebServiceNode) : ∀ op ∈ codeOps kind config version node, ListsVersions config op := by
  intro op member
  have code := codeOps_isCode version node op member
  cases op with
  | updatePHPCode | updateTomcatCode => exact lists_other rfl
  | _ => cases code

theorem lists_createBackend (kind : WebKind) : ListsVersions config (createBackend kind) := by
  cases kind <;> exact lists_other rfl

theorem lists_stopBackend (kind : WebKind) : ListsVersions config (stopBackendOp kind) := by
  cases kind <;> exact lists_other rfl

theorem quiet_stopBackend (nodes : List WebServiceNode) : Keeps (Ordered (ListsVersions config)) (agents.stopBackend kind nodes) :=
  quiet_tellEach (lists_stopBackend kind) nodes

theorem quiet_startWeb (nodes : List WebServiceNode) : Keeps (Ordered (ListsVersions config)) (agents.startWeb config nodes) :=
  quiet_tellEach (fun _ told => (Option.some.inj (Option.some.inj told)).symm) nodes

theorem quiet_updateWeb (nodes : List WebServiceNode) : Keeps (Ordered (ListsVersions config)) (agents.updateWeb config nodes) :=
  quiet_tellEach (fun _ told => (Option.some.inj (Option.some.inj told)).symm) nodes

theorem quiet_startDuties (nodes : List ServiceNode) : Keeps (Ordered (ListsVersions config)) (agents.startDuties kind config nodes) :=
  quiet_bind (quiet_startScalaris (fun _ _ => lists_other rfl) nodes true) fun _ =>
    quiet_bind (quiet_tellEach (lists_createBackend kind) _) fun _ =>
      quiet_bind (quiet_updateCode lists_codeOps _) fun _ =>
        quiet_bind (quiet_startWeb _) fun _ => quiet_startProxy (fun _ _ _ _ => lists_other rfl) _

theorem quiet_addDuties (nodes : List ServiceNode) (webNodesKill backendNodesKill : List WebServiceNode) :
    Keeps (Ordered (ListsVersions config)) (agents.addDuties kind config nodes webNodesKill backendNodesKill) := by
  refine quiet_bind (quiet_startScalaris (fun _ _ => lists_other rfl) nodes false) fun _ => ?_
  refine quiet_bind (quiet_tellEach (lists_createBackend kind) _) fun _ => ?_
  refine quiet_bind (quiet_updateCode lists_codeOps _) fun _ => ?_
  refine quiet_bind (quiet_startWeb _) fun _ => ?_
  refine quiet_bind (quiet_startProxy (fun _ _ _ _ => lists_other rfl) _) fun _ => ?_
  refine quiet_bind ?_ fun _ => quiet_bind (quiet_stopBackend _) fun _ => quiet_tellEach lists_stopWeb _
  unfold updateOlderProxies
  split
  · exact quiet_updateProxy (fun _ _ _ _ => lists_other rfl) _
  · exact quiet_pure ()

theorem quiet_haltDuties : Keeps (Ordered (ListsVersions config)) (agents.haltDuties kind config) :=
  quiet_bind (quiet_tellEach (lists_other rfl) _) fun _ =>
    quiet_bind (quiet_tellEach lists_stopWeb _) fun _ => quiet_stopBackend _

theorem quiet_stopDuties (kills : Tier → List WebServiceNode) : Keeps (Ordered (ListsVersions config)) (agents.stopDuties kind kills) :=
  quiet_bind (quiet_stopBackend _) fun _ =>
    quiet_bind (quiet_tellEach lists_stopWeb _) fun _ => quiet_tellEach (lists_other rfl) _

theorem quiet_switchDuties : Keeps (Ordered (ListsVersions config)) (agents.switchDuties kind config) :=
  quiet_bind (quiet_updateCode lists_codeOps _) fun _ =>
    quiet_bind (quiet_updateWeb _) fun _ => quiet_updateProxy (fun _ _ _ _ => lists_other rfl) _

theorem quiet_packDuties (packBackend packWeb : Bool) (packingNode : WebServiceNode) (relieved : Bool)
    (proxies : List WebServiceNode) :
    Keeps (Ordered (ListsVersions config)) (agents.packDuties kind config packBackend packWeb packingNode relieved proxies) := by
  have update : Keeps (Ordered (ListsVersions config)) (if relieved = true then agents.updateProxy kind config proxies else pure ()) := by
    split
    · exact quiet_updateProxy (fun _ _ _ _ => lists_other rfl) _
    · exact quiet_pure ()
  have web : Keeps (Ordered (ListsVersions config)) (do
      if packWeb then agents.startWeb config [packingNode]
      if relieved then agents.updateProxy kind config proxies) := by
    cases packWeb with
    | true => exact quiet_bind (quiet_startWeb _) fun _ => update
    | false => exact update
  cases packBackend with
  | true =>
    exact quiet_bind (quiet_tellEach (lists_createBackend kind) _) fun _ =>
      quiet_bind (quiet_updateCode lists_codeOps _) fun _ => web
  | false => exact web

end Quiet

theorem lift_ok {α : Type} {x : Except String α} {a : α} : lift x s = .ok a t ↔ x = .ok a ∧ t = s := by
  cases x with
  | ok b => simp [lift, pure_ok, eq_comm]
  | error text => simp [lift, throw_run]

theorem lift_error {α : Type} {x : Except String α} {raised : Raised} (run : lift x s = .error raised t) : t = s := by
  cases x with
  | ok b => cases run
  | error text =>
    cases run
    rfl

/-- Nodes are added where the packed duties can move, or the hook raises. -/
theorem onAddNodes_eq (agents : Agents) (kind : WebKind) {nodes : List ServiceNode} {webNodesKill backendNodesKill : List WebServiceNode}
    (backend : config.unpacked .backend (ServiceConfiguration.supplied nodes .backend) = .ok backendNodesKill)
    (web : config.unpacked .web (ServiceConfiguration.supplied nodes .web) = .ok webNodesKill) (state : ManagerState)
    (calls : List (AgentCall × Bool)) : agents.onAddNodes kind nodes ⟨config, state, calls⟩ =
      (do agents.addDuties kind (config.deploy (enlarged config.toServiceConfiguration nodes webNodesKill backendNodesKill)) nodes
            webNodesKill backendNodesKill
          setConfig (config.deploy (enlarged config.toServiceConfiguration nodes webNodesKill backendNodesKill).recount) : Hook Unit)
        ⟨config.deploy (enlarged config.toServiceConfiguration nodes webNodesKill backendNodesKill), state, calls⟩ := by
  have lifted := lift_ok (s := ⟨config, state, calls⟩).mpr ⟨backend, rfl⟩
  have lifted' := lift_ok (s := ⟨config, state, calls⟩).mpr ⟨web, rfl⟩
  exact (bind_of_ok lifted).trans (bind_of_ok lifted')

/-- Where they cannot, nothing changes. -/
theorem onAddNodes_left (agents : Agents) (kind : WebKind) {nodes : List ServiceNode} {tier : Tier} (own : tier = .backend ∨ tier = .web)
    {text : String} (error : s.config.unpacked tier (ServiceConfiguration.supplied nodes tier) = .error text) :
    left (agents.onAddNodes kind nodes) s = s := by
  have raised {x : Except String (List WebServiceNode)} {text : String} (error : x = .error text) : lift x s = .error (.other text) s := by
    rw [error]
    rfl
  cases backend : s.config.unpacked .backend (ServiceConfiguration.supplied nodes .backend) with
  | error text => exact left_error ((bind_of_ok (x := get) rfl).trans (bind_of_error (raised backend)))
  | ok backendNodesKill =>
    rcases own with rfl | rfl
    · cases backend.symm.trans error
    · have lifted := (lift_ok (s := s)).mpr ⟨backend, rfl⟩
      exact left_error ((bind_of_ok (x := get) rfl).trans ((bind_of_ok lifted).trans (bind_of_error (raised error))))

/-- The calls of a loop over the nodes. -/
def callsTo (op : AgentOp) (nodes : List WebServiceNode) : List AgentCall := nodes.map fun node => node.call op

theorem tell_ok {node : ServiceNode} : agents.tell op node s = .ok () t ↔
    agents.answers (node.call op) = true ∧ t = s.toldAll [node.call op] := by
  unfold tell
  split
  · rename_i answered
    simp [answered, told, toldAll, eq_comm]
  · rename_i refused
    simp [refused]

theorem foldl_toldAll {α : Type} (calls : α → List AgentCall) (list : List α) (s : Deployment) :
    list.foldl (fun s a => s.toldAll (calls a)) s = s.toldAll (list.flatMap calls) := by
  induction list generalizing s with
  | nil => simp [toldAll_nil]
  | cons a rest ih => rw [List.foldl_cons, ih, toldAll_append, List.flatMap_cons]

/-- The loop over the nodes returns when all agents answer. -/
theorem tellEach_ok : agents.tellEach op nodes s = .ok () t ↔
    (∀ node ∈ nodes, agents.answers (node.call op) = true) ∧ t = s.toldAll (callsTo op nodes) := by
  unfold tellEach
  have each (node : ServiceNode) (s t : Deployment) : agents.tell op node s = .ok () t ↔
      agents.answers (node.call op) = true ∧ t = s.toldAll [node.call op] := tell_ok
  rw [forEach_ok each, foldl_toldAll]
  rw [List.forall_mem_map, List.flatMap_map, callsTo, List.map_eq_flatMap]

/-- Where the servlets of the current version can be read. -/
def Readable (agents : Agents) (kind : WebKind) (config : CodeConfiguration) : Prop :=
  kind = .java → ∃ urls, agents.servletUrls config.currentCodeVersion = .ok urls

/-- The servlets of the current version. -/
def servlets (agents : Agents) (kind : WebKind) (config : CodeConfiguration) : List String :=
  match kind with
  | .php => []
  | .java => (agents.servletUrls config.currentCodeVersion).toOption.getD []

theorem getServletUrls_ok {urls : List String} : agents.getServletUrls kind config s = .ok urls t ↔
    agents.Readable kind config ∧ urls = agents.servlets kind config ∧ t = s := by
  cases kind with
  | php => simp [getServletUrls, Readable, servlets, pure_ok, eq_comm]
  | java =>
    unfold getServletUrls Readable servlets
    cases agents.servletUrls config.currentCodeVersion with
    | ok found => simp [pure_ok, Except.toOption, eq_comm]
    | error text => simp [throw_run]

/-- What the proxies are told when they start. -/
def createProxyOp (agents : Agents) (kind : WebKind) (config : CodeConfiguration) : AgentOp :=
  .createHttpProxy config.currentCodeVersion config.getWebTuples config.getBackendTuples (agents.servlets kind config)

/-- What the proxies are told of a change. -/
def updateProxyOp (agents : Agents) (kind : WebKind) (config : CodeConfiguration) : AgentOp :=
  .updateHttpProxy config.currentCodeVersion config.getWebTuples config.getBackendTuples (agents.servlets kind config)

theorem startProxy_ok : agents.startProxy kind config nodes s = .ok () t ↔ agents.Readable kind config ∧
    (∀ node ∈ nodes, agents.answers (node.call (agents.createProxyOp kind config)) = true) ∧
      t = s.toldAll (callsTo (agents.createProxyOp kind config) nodes) := by
  unfold startProxy
  rw [bind_ok]
  simp only [getServletUrls_ok, tellEach_ok]
  constructor
  · rintro ⟨_, _, ⟨readable, rfl, rfl⟩, told⟩
    exact ⟨readable, told⟩
  · rintro ⟨readable, told⟩
    exact ⟨_, _, ⟨readable, rfl, rfl⟩, told⟩

theorem updateProxy_ok : agents.updateProxy kind config nodes s = .ok () t ↔ agents.Readable kind config ∧
    (∀ node ∈ nodes, agents.answers (node.call (agents.updateProxyOp kind config)) = true) ∧
      t = s.toldAll (callsTo (agents.updateProxyOp kind config) nodes) := by
  unfold updateProxy
  rw [bind_ok]
  simp only [getServletUrls_ok, tellEach_ok]
  constructor
  · rintro ⟨_, _, ⟨readable, rfl, rfl⟩, told⟩
    exact ⟨readable, told⟩
  · rintro ⟨readable, told⟩
    exact ⟨_, _, ⟨readable, rfl, rfl⟩, told⟩

end Agents

end ConPaaS
