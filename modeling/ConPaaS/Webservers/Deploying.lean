import ConPaaS.Webservers.CodeRuns

namespace ConPaaS

open Keyed Effect Deployment Agents

/-- The operations of a Java service that push its code. -/
inductive JavaOperation
  | start (entries : List Entry)
  | add (nodes : List ServiceNode)
  | update (codeVersionId : String)

namespace JavaOperation

variable (agents : Agents) (config : CodeConfiguration)

/-- The state the request sets. -/
def requested : JavaOperation → ManagerState
  | .start _ => .prologue
  | .add _ | .update _ => .adapting

/-- `_do_start_service` and `_do_add_nodes` after the reply of the director, and
`do_update_configuration`. -/
def hook : JavaOperation → Hook Unit
  | .start entries => do
    agents.onStart .java entries
    setState .running
  | .add nodes => do
    agents.onAddNodes .java nodes
    setState .running
  | .update codeVersionId => agents.doUpdateConfiguration .java (some codeVersionId) false

/-- What an operation leaves, with the calls it has made. -/
def performed (operation : JavaOperation) : Deployment :=
  left (operation.hook agents) ⟨config, operation.requested, []⟩

/-- The configuration whose code is pushed. -/
def target : JavaOperation → CodeConfiguration
  | .start entries => config.deploy (config.onStart entries).1
  | .add nodes =>
    match config.unpacked .backend (ServiceConfiguration.supplied nodes .backend),
      config.unpacked .web (ServiceConfiguration.supplied nodes .web) with
    | .ok backendNodesKill, .ok webNodesKill =>
      config.deploy (enlarged config.toServiceConfiguration nodes webNodesKill backendNodesKill)
    | _, _ => config
  | .update codeVersionId => switched .java config codeVersionId

/-- The nodes whose code is updated. -/
def updated : JavaOperation → List WebServiceNode
  | .start entries => (config.onStart entries).1.serviceNodes.rows
  | .add nodes => newNodes nodes
  | .update _ => config.serviceNodes.rows

end JavaOperation

namespace Agents

variable {agents : Agents} {config : CodeConfiguration} {s t : Deployment} {nodes : List WebServiceNode}

/-- The calls that push the code to a node. -/
def codeCalls (config : CodeConfiguration) (node : WebServiceNode) : List AgentCall :=
  match config.codeVersions.get? config.currentCodeVersion with
  | some version => (codeOps .java config version node).map node.call
  | none => []

/-- Calls one after the other until one is refused. -/
def outcome (agents : Agents) : List AgentCall → List (AgentCall × Bool)
  | [] => []
  | call :: rest => if agents.answers call then (call, true) :: outcome agents rest else [(call, false)]

theorem outcome_accepted {calls : List AgentCall} (accepted : ∀ call ∈ calls, agents.answers call = true) :
    agents.outcome calls = calls.map fun call => (call, true) := by
  induction calls with
  | nil => rfl
  | cons call rest ih =>
    rw [outcome, if_pos (accepted call List.mem_cons_self), ih fun call member => accepted call (List.mem_cons_of_mem _ member),
      List.map_cons]

theorem answers_of_outcome {calls : List AgentCall} {call : AgentCall} (told : (call, true) ∈ agents.outcome calls) :
    agents.answers call = true := by
  induction calls with
  | nil => cases told
  | cons first rest ih =>
    rw [outcome] at told
    split at told
    · rename_i answered
      rcases List.mem_cons.mp told with same | told
      · cases same
        exact answered
      · exact ih told
    · cases List.mem_singleton.mp told

/-- A service after calls up to the first that is refused. -/
def tried (agents : Agents) (calls : List AgentCall) (s : Deployment) : Deployment :=
  { s with
    calls := s.calls ++ agents.outcome calls
    state := if ∀ call ∈ calls, agents.answers call = true then s.state else .error }

theorem tried_nil (s : Deployment) : agents.tried [] s = s := by
  simp [tried, outcome]

theorem tried_append {first : List AgentCall} (answered : ∀ call ∈ first, agents.answers call = true) (second : List AgentCall) :
    agents.tried second (agents.tried first s) = agents.tried (first ++ second) s := by
  have all : (∀ call ∈ first ++ second, agents.answers call = true) ↔ ∀ call ∈ second, agents.answers call = true := by
    rw [List.forall_mem_append]
    exact ⟨And.right, fun later => ⟨answered, later⟩⟩
  have told : agents.outcome (first ++ second) = agents.outcome first ++ agents.outcome second := by
    induction first with
    | nil => rfl
    | cons call rest ih =>
      obtain ⟨here, later⟩ := List.forall_mem_cons.mp answered
      simp only [List.cons_append, outcome, here, if_true]
      rw [ih later]
      rw [List.forall_mem_append]
      exact ⟨And.right, fun second => ⟨later, second⟩⟩
  simp only [tried, told, all, if_pos answered, List.append_assoc]

theorem tried_refused {first : List AgentCall} (refused : ¬∀ call ∈ first, agents.answers call = true) (second : List AgentCall) :
    agents.tried first s = agents.tried (first ++ second) s := by
  have all : ¬∀ call ∈ first ++ second, agents.answers call = true := fun all =>
    refused fun call member => all call (List.mem_append_left second member)
  have told : agents.outcome (first ++ second) = agents.outcome first := by
    clear all
    induction first with
    | nil => exact absurd (fun call member => by cases member) refused
    | cons call rest ih =>
      simp only [List.cons_append, outcome]
      split
      · rename_i here
        rw [ih fun later => refused (List.forall_mem_cons.mpr ⟨here, later⟩)]
      · rfl
  simp only [tried, told, if_neg refused, if_neg all]

/-- The orders to one agent. -/
theorem tellOps_eq (ops : List AgentOp) (node : ServiceNode) (s : Deployment) :
    forEach (fun op => agents.tell op node) ops s =
      if ∀ call ∈ ops.map node.call, agents.answers call = true then .ok () (agents.tried (ops.map node.call) s)
      else .error .agentException (agents.tried (ops.map node.call) s) := by
  induction ops generalizing s with
  | nil => simp [forEach, tried_nil, pure, EStateM.pure]
  | cons op rest ih =>
    have one : [node.call op] ++ rest.map node.call = (op :: rest).map node.call := rfl
    rw [forEach]
    by_cases answered : agents.answers (node.call op) = true
    · have first : ∀ call ∈ [node.call op], agents.answers call = true := by simpa using answered
      have told : agents.tell op node s = .ok () (agents.tried [node.call op] s) := by
        simp [tell, answered, tried, outcome, Deployment.told]
      rw [bind_of_ok told, ih, tried_append first, one]
      simp only [List.map_cons, List.forall_mem_cons, answered, true_and]
    · have first : ¬∀ call ∈ [node.call op], agents.answers call = true := by simpa using answered
      have told : agents.tell op node s = .error .agentException (agents.tried [node.call op] s) := by
        simp [tell, answered, tried, outcome, Deployment.refused]
      rw [bind_of_error told, tried_refused first (rest.map node.call), one, if_neg]
      exact fun all => answered (all _ List.mem_cons_self)

/-- The version that is to be pushed is there, where there is a node. -/
def Known (config : CodeConfiguration) (nodes : List WebServiceNode) : Prop :=
  nodes ≠ [] → ∃ version, config.codeVersions.get? config.currentCodeVersion = some version

theorem push_eq (agents : Agents) {version : CodeVersion} (known : config.codeVersions.get? config.currentCodeVersion = some version)
    (node : WebServiceNode) (s : Deployment) : agents.push .java config node s =
      if ∀ call ∈ codeCalls config node, agents.answers call = true then .ok () (agents.tried (codeCalls config node) s)
      else .error .agentException (agents.tried (codeCalls config node) s) := by
  have found : currentVersion config s = .ok version s := by simp [currentVersion, known, pure, EStateM.pure]
  rw [push, bind_of_ok found, tellOps_eq]
  simp only [codeCalls, known]

/-- A refused call ends the loop, and the loop returns. -/
theorem updateTomcats_eq {version : CodeVersion} (known : config.codeVersions.get? config.currentCodeVersion = some version)
    (nodes : List WebServiceNode) (s : Deployment) :
    agents.updateTomcats config nodes s = .ok () (agents.tried (nodes.flatMap (codeCalls config)) s) := by
  induction nodes generalizing s with
  | nil =>
    rw [List.flatMap_nil, tried_nil]
    rfl
  | cons node rest ih =>
    have pushed := push_eq agents known node s
    rw [List.flatMap_cons]
    by_cases answered : ∀ call ∈ codeCalls config node, agents.answers call = true
    · rw [if_pos answered] at pushed
      simp only [updateTomcats, pushed, ih, tried_append answered]
    · rw [if_neg answered] at pushed
      simp only [updateTomcats, pushed, ← tried_refused answered]

theorem updateTomcats_ok : agents.updateTomcats config nodes s = .ok () t ↔
    Known config nodes ∧ t = agents.tried (nodes.flatMap (codeCalls config)) s := by
  cases known : config.codeVersions.get? config.currentCodeVersion with
  | some version => simp [updateTomcats_eq known, Known, known, eq_comm]
  | none =>
    cases nodes with
    | nil =>
      rw [List.flatMap_nil, tried_nil]
      simp [updateTomcats, pure_ok, Known, eq_comm]
    | cons node rest =>
      have missing : agents.push .java config node s = .error (.other config.currentCodeVersion) s := by
        refine bind_of_error ?_
        simp [currentVersion, known, throw_run]
      simp [updateTomcats, missing, Known, known]

/-- The agents of all nodes of a list answer an order. -/
def AllAnswer (agents : Agents) (op : AgentOp) (nodes : List WebServiceNode) : Prop :=
  ∀ node ∈ nodes, agents.answers (node.call op) = true

/-- Nothing cuts short the orders to the agents when a service starts. -/
def StartReady (agents : Agents) (config : CodeConfiguration) : Prop :=
  agents.AllAnswer .createTomcat config.getBackendServiceNodes ∧ Known config config.serviceNodes.rows ∧
    agents.AllAnswer (.createWebServer config.webVersions) config.getWebServiceNodes ∧
    agents.Readable .java config ∧ agents.AllAnswer (agents.createProxyOp .java config) config.getProxyServiceNodes

/-- Nothing cuts short the orders to the agents when the code is another one. -/
def SwitchReady (agents : Agents) (config : CodeConfiguration) : Prop :=
  Known config config.serviceNodes.rows ∧ agents.AllAnswer (.updateWebServer config.webVersions) config.getWebServiceNodes ∧
    agents.Readable .java config ∧ agents.AllAnswer (agents.updateProxyOp .java config) config.getProxyServiceNodes

/-- Nothing cuts short the orders to the agents when nodes are added. -/
def AddReady (agents : Agents) (config : CodeConfiguration) (nodes : List ServiceNode)
    (webNodesKill backendNodesKill : List WebServiceNode) : Prop :=
  agents.AllAnswer .createTomcat ((newNodes nodes).filter WebServiceNode.isRunningBackend) ∧ Known config (newNodes nodes) ∧
    agents.AllAnswer (.createWebServer config.webVersions) ((newNodes nodes).filter WebServiceNode.isRunningWeb) ∧
    agents.Readable .java config ∧
    agents.AllAnswer (agents.createProxyOp .java config) ((newNodes nodes).filter WebServiceNode.isRunningProxy) ∧
    (((newNodes nodes).any fun node => node.isRunningWeb || node.isRunningBackend) = true →
      agents.AllAnswer (agents.updateProxyOp .java config) (olderProxies config nodes)) ∧
    agents.AllAnswer .stopTomcat backendNodesKill ∧ agents.AllAnswer .stopWebServer webNodesKill

theorem returns_tellEach (agents : Agents) (op : AgentOp) (nodes : List WebServiceNode) :
    Returns (agents.tellEach op nodes) (agents.AllAnswer op nodes) fun s => s.toldAll (callsTo op nodes) :=
  fun _ _ => tellEach_ok

theorem returns_startProxy (agents : Agents) (config : CodeConfiguration) (nodes : List WebServiceNode) :
    Returns (agents.startProxy .java config nodes)
    (agents.Readable .java config ∧ agents.AllAnswer (agents.createProxyOp .java config) nodes)
    fun s => s.toldAll (callsTo (agents.createProxyOp .java config) nodes) :=
  fun _ _ => startProxy_ok.trans and_assoc.symm

theorem returns_updateProxy (agents : Agents) (config : CodeConfiguration) (nodes : List WebServiceNode) :
    Returns (agents.updateProxy .java config nodes)
    (agents.Readable .java config ∧ agents.AllAnswer (agents.updateProxyOp .java config) nodes)
    fun s => s.toldAll (callsTo (agents.updateProxyOp .java config) nodes) :=
  fun _ _ => updateProxy_ok.trans and_assoc.symm

theorem returns_updateCode (agents : Agents) (config : CodeConfiguration) (nodes : List WebServiceNode) :
    Returns (agents.updateCode .java config nodes) (Known config nodes)
    (agents.tried (nodes.flatMap (codeCalls config))) :=
  fun _ _ => updateTomcats_ok

/-- An operation has pushed the code to some nodes, with other orders before
and after it. -/
structure Pushes (agents : Agents) (config : CodeConfiguration) (nodes : List WebServiceNode) (s t : Deployment) : Prop where
  calls : ∃ before after : List AgentCall, (∀ call ∈ before ++ after, call.op.isCode = false) ∧
    t.calls = s.calls ++ before.map (fun call => (call, true)) ++ agents.outcome (nodes.flatMap (codeCalls config)) ++
      after.map fun call => (call, true)

theorem callsTo_op {op : AgentOp} {call : AgentCall} (member : call ∈ callsTo op nodes) : call.op = op := by
  obtain ⟨node, _, rfl⟩ := List.mem_map.mp member
  rfl

theorem callsTo_quiet {op : AgentOp} (quiet : op.isCode = false) (nodes : List WebServiceNode) :
    ∀ call ∈ callsTo op nodes, call.op.isCode = false :=
  fun _ member => callsTo_op member ▸ quiet

theorem createProxy_quiet (nodes : List WebServiceNode) :
    ∀ call ∈ callsTo (agents.createProxyOp .java config) nodes, call.op.isCode = false :=
  callsTo_quiet rfl nodes

theorem updateProxy_quiet (nodes : List WebServiceNode) :
    ∀ call ∈ callsTo (agents.updateProxyOp .java config) nodes, call.op.isCode = false :=
  callsTo_quiet rfl nodes

/-- The orders when a service starts. -/
theorem returns_startDuties (agents : Agents) (config : CodeConfiguration) (nodes : List ServiceNode) :
    ∃ step, Returns (agents.startDuties .java config nodes) (agents.StartReady config) step ∧
      ∀ s, agents.Pushes config config.serviceNodes.rows s (step s) := by
  have runs := (returns_tellEach agents .createTomcat config.getBackendServiceNodes).bind
    ((returns_updateCode agents config config.serviceNodes.rows).bind
      ((returns_tellEach agents (.createWebServer config.webVersions) config.getWebServiceNodes).bind
        (returns_startProxy agents config config.getProxyServiceNodes)))
  refine ⟨_, runs, fun s => ⟨callsTo .createTomcat config.getBackendServiceNodes,
    callsTo (.createWebServer config.webVersions) config.getWebServiceNodes ++
      callsTo (agents.createProxyOp .java config) config.getProxyServiceNodes, ?_, by simp [toldAll, tried]⟩⟩
  simp only [List.forall_mem_append]
  exact ⟨callsTo_quiet rfl _, callsTo_quiet rfl _, createProxy_quiet _⟩

/-- The orders when the code is another one. -/
theorem returns_switchDuties (agents : Agents) (config : CodeConfiguration) :
    ∃ step, Returns (agents.switchDuties .java config) (agents.SwitchReady config) step ∧
      ∀ s, agents.Pushes config config.serviceNodes.rows s (step s) := by
  have runs := (returns_updateCode agents config config.serviceNodes.rows).bind
    ((returns_tellEach agents (.updateWebServer config.webVersions) config.getWebServiceNodes).bind
      (returns_updateProxy agents config config.getProxyServiceNodes))
  refine ⟨_, runs, fun s => ⟨[], callsTo (.updateWebServer config.webVersions) config.getWebServiceNodes ++
      callsTo (agents.updateProxyOp .java config) config.getProxyServiceNodes, ?_, by simp [toldAll, tried]⟩⟩
  simp only [List.nil_append, List.forall_mem_append]
  exact ⟨callsTo_quiet rfl _, updateProxy_quiet _⟩

theorem returns_updateOlderProxies (agents : Agents) (config : CodeConfiguration) (nodes : List ServiceNode) :
    Returns (agents.updateOlderProxies .java config nodes)
      (((newNodes nodes).any fun node => node.isRunningWeb || node.isRunningBackend) = true →
        agents.Readable .java config ∧ agents.AllAnswer (agents.updateProxyOp .java config) (olderProxies config nodes))
      fun s => s.toldAll (if ((newNodes nodes).any fun node => node.isRunningWeb || node.isRunningBackend) = true then
        callsTo (agents.updateProxyOp .java config) (olderProxies config nodes) else []) := by
  unfold updateOlderProxies
  split
  · rename_i some
    exact (returns_updateProxy agents config (olderProxies config nodes)).congr ⟨fun ready _ => ready, fun ready => ready some⟩
  · rename_i none
    intro s t
    simp only [pure_ok, toldAll_nil]
    exact ⟨fun same => ⟨fun some => absurd some none, same.2.symm⟩, fun same => ⟨trivial, same.2.symm⟩⟩

/-- The orders when nodes are added. -/
theorem returns_addDuties (agents : Agents) (config : CodeConfiguration) (nodes : List ServiceNode)
    (webNodesKill backendNodesKill : List WebServiceNode) :
    ∃ step, Returns (agents.addDuties .java config nodes webNodesKill backendNodesKill)
        (agents.AddReady config nodes webNodesKill backendNodesKill) step ∧
      ∀ s, agents.Pushes config (newNodes nodes) s (step s) := by
  have runs := (returns_tellEach agents .createTomcat ((newNodes nodes).filter WebServiceNode.isRunningBackend)).bind
    ((returns_updateCode agents config (newNodes nodes)).bind
      ((returns_tellEach agents (.createWebServer config.webVersions) ((newNodes nodes).filter WebServiceNode.isRunningWeb)).bind
        ((returns_startProxy agents config ((newNodes nodes).filter WebServiceNode.isRunningProxy)).bind
          ((returns_updateOlderProxies agents config nodes).bind
            ((returns_tellEach agents .stopTomcat backendNodesKill).bind (returns_tellEach agents .stopWebServer webNodesKill))))))
  refine ⟨_, runs.congr ?_, fun s => ⟨callsTo .createTomcat ((newNodes nodes).filter WebServiceNode.isRunningBackend),
    callsTo (.createWebServer config.webVersions) ((newNodes nodes).filter WebServiceNode.isRunningWeb) ++
    (callsTo (agents.createProxyOp .java config) ((newNodes nodes).filter WebServiceNode.isRunningProxy) ++ ((if ((newNodes nodes).any fun node =>
      node.isRunningWeb || node.isRunningBackend) = true then
        callsTo (agents.updateProxyOp .java config) (olderProxies config nodes) else []) ++
      (callsTo .stopTomcat backendNodesKill ++ callsTo .stopWebServer webNodesKill))), ?_, by simp only [toldAll, tried, List.append_assoc, List.map_append]⟩⟩
  · unfold AddReady
    tauto
  · simp only [List.forall_mem_append]
    refine ⟨callsTo_quiet rfl _, callsTo_quiet rfl _, createProxy_quiet _, ?_, callsTo_quiet rfl _, callsTo_quiet rfl _⟩
    split
    · exact updateProxy_quiet _
    · exact fun call member => by cases member

/-- How an operation ends whose orders may be cut short. -/
structure Ends (agents : Agents) (ready : Prop) (target : CodeConfiguration) (nodes : List WebServiceNode) (x : Hook Unit)
    (s : Deployment) : Prop where
  returned : ready → ∃ t, x s = .ok () t ∧ t.state = .running ∧ agents.Pushes target nodes s t
  raised : ¬ready → ∃ exception t, x s = .error exception t ∧ t.state ≠ .running

theorem Ends.of_eq {ready ready' : Prop} {target : CodeConfiguration} {x y : Hook Unit} {u : Deployment}
    (ends : agents.Ends ready target nodes y u) (same : x s = y u) (holds : ready' ↔ ready) (calls : u.calls = s.calls) :
    agents.Ends ready' target nodes x s where
  returned := by
    intro condition
    obtain ⟨t, run, running, before, after, others, told⟩ := ends.returned (holds.mp condition)
    exact ⟨t, same.trans run, running, before, after, others, calls ▸ told⟩
  raised := by
    intro disturbed
    obtain ⟨exception, t, run, still⟩ := ends.raised fun condition => disturbed (holds.mpr condition)
    exact ⟨exception, t, same.trans run, still⟩

/-- Orders to the agents, and then the service is running. -/
theorem ends_of_duties {duties finish : Hook Unit} {ready : Prop} {target : CodeConfiguration} {step last : Deployment → Deployment}
    {allowed : AgentOp → Prop} (runs : Returns duties ready step) (finishes : Returns finish True last)
    (quiet : Keeps (Ordered allowed) duties) (pushes : ∀ s, agents.Pushes target nodes s (step s))
    (running : ∀ s, (last s).state = .running) (calls : ∀ s, (last s).calls = s.calls) (still : s.state ≠ .running) :
    agents.Ends ready target nodes (do duties; finish) s where
  returned := by
    intro holds
    have run := (runs.bind finishes s (last (step s))).mpr ⟨⟨holds, trivial⟩, rfl⟩
    obtain ⟨before, after, others, told⟩ := (pushes s).calls
    exact ⟨_, run, running _, ⟨before, after, others, (calls _).trans told⟩⟩
  raised := by
    intro fails
    cases run : duties s with
    | ok a t => exact absurd ((runs s t).mp run).1 fails
    | error exception t => exact ⟨exception, t, bind_of_error run, (quiet.of_error run).state still⟩

theorem returns_setState (state : ManagerState) : Returns (setState state) True fun s => { s with state } :=
  fun s t => by simp [setState, eq_comm]

theorem returns_setConfig (config : CodeConfiguration) : Returns (setConfig config) True fun s => { s with config } :=
  fun s t => by simp [setConfig, eq_comm]

end Agents

namespace JavaOperation

open Agents

variable (agents : Agents) (config : CodeConfiguration)

/-- Nothing but a code update cuts the operation short. -/
def Undisturbed (operation : JavaOperation) : Prop :=
  match operation with
  | .start entries => (config.onStart entries).2 = true ∧ agents.StartReady (operation.target config)
  | .add nodes => ∃ webNodesKill backendNodesKill,
      config.unpacked .backend (ServiceConfiguration.supplied nodes .backend) = .ok backendNodesKill ∧
        config.unpacked .web (ServiceConfiguration.supplied nodes .web) = .ok webNodesKill ∧
          agents.AddReady (operation.target config) nodes webNodesKill backendNodesKill
  | .update _ => agents.SwitchReady (operation.target config)

/-- A service that is running has pushed the code, and where a push was refused
it is not running. -/
structure Deployed (target : CodeConfiguration) (nodes : List WebServiceNode) (t : Deployment) : Prop where
  accepted : t.state = .running → ∀ node ∈ nodes, ∃ version,
    target.codeVersions.get? target.currentCodeVersion = some version ∧
      ∀ op ∈ codeOps .java target version node, (node.call op, true) ∈ t.calls
  refused : (∃ entry ∈ t.calls, entry.2 = false ∧ entry.1.op.isCode = true) → t.state ≠ .running

variable {agents config}

theorem requested_not_running (operation : JavaOperation) : operation.requested ≠ .running := by
  cases operation <;> exact nofun

/-- A service starts with its nodes deployed, or the hook raises. -/
theorem onStart_eq (entries : List Entry) (s : Deployment) : agents.onStart .java entries s =
    (if (s.config.onStart entries).2 then agents.startDuties .java (s.config.deploy (s.config.onStart entries).1) (entryNodes entries)
      else throw (.other "UnboundLocalError")) { s with config := s.config.deploy (s.config.onStart entries).1 } := rfl

theorem start_ends (entries : List Entry) :
    agents.Ends ((start entries).Undisturbed agents config) ((start entries).target config) ((start entries).updated config)
      ((start entries).hook agents) ⟨config, (start entries).requested, []⟩ := by
  obtain ⟨step, runs, pushes⟩ := returns_startDuties agents (config.deploy (config.onStart entries).1) (entryNodes entries)
  have ends := ends_of_duties (s := ⟨config.deploy (config.onStart entries).1, .prologue, []⟩) runs (returns_setState .running)
    (quiet_startDuties _) pushes (fun _ => rfl) (fun _ => rfl) nofun
  have hook : (start entries).hook agents ⟨config, .prologue, []⟩ =
      ((if (config.onStart entries).2 then
          agents.startDuties .java (config.deploy (config.onStart entries).1) (entryNodes entries)
        else throw (.other "UnboundLocalError")) >>= fun _ => setState .running)
          ⟨config.deploy (config.onStart entries).1, .prologue, []⟩ := rfl
  cases complete : (config.onStart entries).2 with
  | true =>
    rw [complete, if_pos rfl] at hook
    exact ends.of_eq hook ⟨And.right, fun ready => ⟨complete, ready⟩⟩ rfl
  | false =>
    rw [complete, if_neg Bool.false_ne_true] at hook
    exact ⟨fun ready => absurd (complete.symm.trans ready.1) nofun, fun _ => ⟨_, _, hook, nofun⟩⟩

theorem update_ends (codeVersionId : String) :
    agents.Ends ((update codeVersionId).Undisturbed agents config) ((update codeVersionId).target config)
      ((update codeVersionId).updated config) ((update codeVersionId).hook agents)
      ⟨config, (update codeVersionId).requested, []⟩ := by
  obtain ⟨step, runs, pushes⟩ := returns_switchDuties agents (switched .java config codeVersionId)
  have ends := ends_of_duties (s := ⟨switched .java config codeVersionId, .adapting, []⟩) runs (returns_setState .running)
    quiet_switchDuties pushes (fun _ => rfl) (fun _ => rfl) nofun
  have conf : agents.updatePhpConf .java false ⟨config, .adapting, []⟩ = .ok () ⟨config, .adapting, []⟩ := by
    simp [updatePhpConf, get_bind, pure, EStateM.pure]
  have hook : (update codeVersionId).hook agents ⟨config, .adapting, []⟩ =
      (agents.switchDuties .java (switched .java config codeVersionId) >>= fun _ => setState .running)
        ⟨switched .java config codeVersionId, .adapting, []⟩ :=
    bind_of_ok conf
  exact ends.of_eq hook Iff.rfl rfl

theorem add_ends (nodes : List ServiceNode) :
    agents.Ends ((add nodes).Undisturbed agents config) ((add nodes).target config) ((add nodes).updated config)
      ((add nodes).hook agents) ⟨config, (add nodes).requested, []⟩ := by
  cases backend : config.unpacked .backend (ServiceConfiguration.supplied nodes .backend) with
  | error text =>
    have lifted : lift (config.unpacked .backend (ServiceConfiguration.supplied nodes .backend)) ⟨config, .adapting, []⟩ =
        .error (.other text) ⟨config, .adapting, []⟩ := by
      rw [backend]
      rfl
    have run : agents.onAddNodes .java nodes ⟨config, .adapting, []⟩ = .error (.other text) ⟨config, .adapting, []⟩ :=
      (bind_of_ok (x := get) rfl).trans (bind_of_error lifted)
    refine ⟨?_, fun _ => ⟨_, _, bind_of_error run, nofun⟩⟩
    rintro ⟨_, _, ok, _⟩
    cases backend.symm.trans ok
  | ok backendNodesKill =>
    cases web : config.unpacked .web (ServiceConfiguration.supplied nodes .web) with
    | error text =>
      have first := lift_ok (s := ⟨config, .adapting, []⟩).mpr ⟨backend, rfl⟩
      have second : lift (config.unpacked .web (ServiceConfiguration.supplied nodes .web)) ⟨config, .adapting, []⟩ =
          .error (.other text) ⟨config, .adapting, []⟩ := by
        rw [web]
        rfl
      have run : agents.onAddNodes .java nodes ⟨config, .adapting, []⟩ = .error (.other text) ⟨config, .adapting, []⟩ :=
        (bind_of_ok first).trans (bind_of_error second)
      refine ⟨?_, fun _ => ⟨_, _, bind_of_error run, nofun⟩⟩
      rintro ⟨_, _, _, ok, _⟩
      cases web.symm.trans ok
    | ok webNodesKill =>
      have target : (add nodes).target config =
          config.deploy (enlarged config.toServiceConfiguration nodes webNodesKill backendNodesKill) := by
        simp only [JavaOperation.target, backend, web]
      have ready : (add nodes).Undisturbed agents config ↔ agents.AddReady ((add nodes).target config) nodes webNodesKill
          backendNodesKill := by
        constructor
        · rintro ⟨_, _, ok, ok', ready⟩
          cases backend.symm.trans ok
          cases web.symm.trans ok'
          exact ready
        · exact fun ready => ⟨_, _, backend, web, ready⟩
      obtain ⟨step, runs, pushes⟩ := returns_addDuties agents ((add nodes).target config) nodes webNodesKill backendNodesKill
      rw [target] at runs pushes ready ⊢
      have finishes := (returns_setConfig (config.deploy (enlarged config.toServiceConfiguration nodes webNodesKill
        backendNodesKill).recount)).bind (returns_setState .running)
      have ends := ends_of_duties
        (s := ⟨config.deploy (enlarged config.toServiceConfiguration nodes webNodesKill backendNodesKill), .adapting, []⟩)
        runs (finishes.congr (and_self_iff)) (quiet_addDuties _ _ _) pushes (fun _ => rfl) (fun _ => rfl) nofun
      have hook := bind_of_eq (f := fun _ => setState .running) (onAddNodes_eq agents .java backend web .adapting [])
      rw [bind_assoc] at hook
      exact ends.of_eq hook ready rfl

theorem ends (operation : JavaOperation) :
    agents.Ends (operation.Undisturbed agents config) (operation.target config) (operation.updated config)
      (operation.hook agents) ⟨config, operation.requested, []⟩ := by
  cases operation with
  | start entries => exact start_ends entries
  | add nodes => exact add_ends nodes
  | update codeVersionId => exact update_ends codeVersionId

theorem mem_codeCalls {target : CodeConfiguration} {node : WebServiceNode} {version : CodeVersion} {call : AgentCall}
    (found : target.codeVersions.get? target.currentCodeVersion = some version) :
    call ∈ codeCalls target node ↔ ∃ op ∈ codeOps .java target version node, node.call op = call := by
  simp only [codeCalls, found, List.mem_map]

theorem codeCalls_isCode {target : CodeConfiguration} {node : WebServiceNode} {call : AgentCall}
    (member : call ∈ codeCalls target node) : call.op.isCode = true := by
  unfold codeCalls at member
  split at member
  · rename_i version found
    obtain ⟨op, told, rfl⟩ := List.mem_map.mp member
    exact codeOps_isCode version node op told
  · cases member

theorem Undisturbed.known {operation : JavaOperation} (undisturbed : operation.Undisturbed agents config) :
    Known (operation.target config) (operation.updated config) := by
  cases operation with
  | start entries => exact undisturbed.2.2.1
  | add nodes =>
    obtain ⟨_, _, _, _, ready⟩ := undisturbed
    exact ready.2.1
  | update codeVersionId => exact undisturbed.1

section Pushed

variable {target : CodeConfiguration} {nodes : List WebServiceNode} {s t : Deployment}

/-- Where the calls began with none, those of the code are the outcome of the
pushes. -/
theorem mem_pushed (pushes : agents.Pushes target nodes s t) (none : s.calls = []) {entry : AgentCall × Bool}
    (code : entry.1.op.isCode = true) : entry ∈ t.calls ↔ entry ∈ agents.outcome (nodes.flatMap (codeCalls target)) := by
  obtain ⟨before, after, others, calls⟩ := pushes.calls
  have other {list : List AgentCall} (quiet : ∀ call ∈ list, call.op.isCode = false) :
      entry ∉ list.map fun call => (call, true) := by
    intro member
    obtain ⟨call, told, rfl⟩ := List.mem_map.mp member
    exact Bool.false_ne_true ((quiet call told).symm.trans code)
  rw [List.forall_mem_append] at others
  simp [calls, none, other others.1, other others.2]

/-- A service whose orders were not cut short has deployed its code where all
agents answer. -/
theorem deployed_of_pushes (pushes : agents.Pushes target nodes s t) (none : s.calls = []) (running : t.state = .running)
    (known : Known target nodes) :
    Deployed target nodes t ↔ ∀ node ∈ nodes, ∀ call ∈ codeCalls target node, agents.answers call = true := by
  constructor
  · intro deployed node member call told
    obtain ⟨version, found, accepted⟩ := deployed.accepted running node member
    obtain ⟨op, asked, rfl⟩ := (mem_codeCalls found).mp told
    exact answers_of_outcome ((mem_pushed pushes none (codeCalls_isCode told)).mp (accepted op asked))
  · intro answered
    have all : ∀ call ∈ nodes.flatMap (codeCalls target), agents.answers call = true := by
      intro call told
      obtain ⟨node, member, told⟩ := List.mem_flatMap.mp told
      exact answered node member call told
    constructor
    · intro _ node member
      obtain ⟨version, found⟩ := known (List.ne_nil_of_mem member)
      refine ⟨version, found, fun op asked => ?_⟩
      have told := (mem_codeCalls found).mpr ⟨op, asked, rfl⟩
      rw [mem_pushed pushes none (codeCalls_isCode told), outcome_accepted all]
      exact List.mem_map_of_mem (List.mem_flatMap.mpr ⟨node, member, told⟩)
    · rintro ⟨⟨call, answer⟩, member, refused, code⟩
      rw [mem_pushed pushes none code, outcome_accepted all] at member
      obtain ⟨_, _, same⟩ := List.mem_map.mp member
      cases same
      cases refused

end Pushed

/-- A Java service that runs has its code on the nodes it updated, and none of
them refused it, unless a refused code update is all that goes wrong. -/
theorem deployed_iff (agents : Agents) (config : CodeConfiguration) (operation : JavaOperation) :
    Deployed (operation.target config) (operation.updated config) (operation.performed agents config) ↔
      (∀ node ∈ operation.updated config, ∀ call ∈ codeCalls (operation.target config) node, agents.answers call = true) ∨
        ¬operation.Undisturbed agents config := by
  by_cases undisturbed : operation.Undisturbed agents config
  · obtain ⟨t, run, running, pushes⟩ := (ends operation).returned undisturbed
    rw [or_iff_left (not_not_intro undisturbed), performed, left_ok run]
    exact deployed_of_pushes pushes rfl running undisturbed.known
  · obtain ⟨exception, t, run, still⟩ := (ends operation).raised undisturbed
    rw [performed, left_error run]
    exact ⟨fun _ => .inr undisturbed, fun _ => ⟨fun running => absurd running still, fun _ => still⟩⟩

/-- Agents that do not take the code. -/
def refusing : Agents := ⟨fun call => !call.op.isCode, fun _ => .ok []⟩

/-- A service starts, its node refuses the code, and the service runs. -/
theorem refused_running : ¬ ∀ (agents : Agents) (config : CodeConfiguration) (operation : JavaOperation),
    Deployed (operation.target config) (operation.updated config) (operation.performed agents config) := by
  intro claim
  have deployed := claim refusing (CodeWebManager.created .java).deployment.config (.start [.node (serverOf "1" "proxybackendweb")])
  exact deployed.refused (by decide +kernel) (by decide +kernel)

end JavaOperation

end ConPaaS
