import ConPaaS.Webservers.Coverage
import ConPaaS.Webservers.Orders

namespace ConPaaS

open Keyed Transition Fallible Effect Agents

/-- What a background thread of a web service still has to do. -/
inductive CodeWebWork
  | service (work : Work)
  | updating (codeVersionId : Option String) (phpconf : Bool)
  deriving DecidableEq

/-- The requests to a web service: those about its nodes, and those about its
code. -/
inductive CodeWebRequest
  | service (request : WebRequest)
  | uploadCodeVersion (version : CodeVersion) (archive : Except String Unit)
  | onGitPush (revision description : String)
  | updatePhpConfiguration (codeVersionId : Option String) (phpconf : PhpConf)
  | updateJavaConfiguration (codeVersionId : Option String)
  | deleteCodeVersion (codeVersionId : String)

/-- What happens next: a request comes in, or a thread goes on, with the reply
of the director if it has been waiting for one and with the agents' answers. -/
inductive CodeWebEvent
  | request (request : CodeWebRequest)
  | advance (position : Nat) (reply : NodesReply) (agents : Agents)

/-- The manager of a PHP or Java service with its background threads in the
order in which they were started, and with all calls it has made of the agents.
The versions the updates have made current, the latest first, are not in the
program. -/
structure CodeWebManager where
  kind : WebKind
  deployment : Deployment
  codeRepo : List String
  inFlight : List CodeWebWork
  updates : List String

namespace CodeWebManager

variable (m : CodeWebManager)

/-- The versions there are. -/
def known : List String := m.deployment.config.codeVersions.rows.map CodeVersion.id

/-- `_create_initial_configuration`. -/
def created (kind : WebKind) : CodeWebManager where
  kind
  deployment := {
    config := {
      toServiceConfiguration := WebserversManager.created.config
      codeVersions := ⟨[⟨"code-default", if kind = .php then "code-default.tar" else "code-default.war",
        if kind = .php then "tar" else "zip", "Initial version"⟩], List.nodup_singleton _⟩
      currentCodeVersion := "code-default"
      prevCodeVersion := none }
    state := .init
    calls := [] }
  codeRepo := ["code-default"]
  inFlight := []
  updates := []

/-- The same manager without its code. -/
def nodesManager : WebserversManager := ⟨m.deployment.state, m.deployment.config.toServiceConfiguration, []⟩

def withVersions (codeVersions : CodeVersions) (codeRepo : List String) : CodeWebManager :=
  { m with deployment := { m.deployment with config := { m.deployment.config with codeVersions } }, codeRepo }

/-- A thread is started and the state is set. -/
def starts (state : ManagerState) (work : CodeWebWork) : CodeWebManager :=
  { m with deployment := { m.deployment with state }, inFlight := m.inFlight ++ [work] }

/-- The version of a request becomes the current one at once, or in a thread
where the service is running. -/
def update (codeVersionId : Option String) (phpconf : Bool) : CodeWebManager :=
  if m.deployment.state = .running then m.starts .adapting (.updating codeVersionId phpconf)
  else
    match codeVersionId with
    | none => m
    | some codeVersionId =>
      if codeVersionId = "" then m
      else { m with
        deployment := { m.deployment with config := { m.deployment.config with currentCodeVersion := codeVersionId } }
        updates := codeVersionId :: m.updates }

/-- `update_java_configuration`. -/
def updateJavaConfiguration (codeVersionId : Option String) : Except String CodeWebManager :=
  match codeVersionId with
  | none => .error "Missing the mandatory parameter 'codeVersionId'."
  | some codeVersionId => do
    m.deployment.config.codeVersions.isInList codeVersionId
    BaseManager.checkState m.deployment.state updateStates
    .ok (m.update (some codeVersionId) false)

/-- The answer to a request: an error, or what has become of the manager. -/
def answer : CodeWebRequest → Except String CodeWebManager
  | .service request => (m.nodesManager.request request).map fun (state, work) => m.starts state (.service work)
  | .uploadCodeVersion version archive =>
    archive.map fun _ => m.withVersions (m.deployment.config.codeVersions.put version) (version.id :: m.codeRepo)
  | .onGitPush revision description =>
    .ok (m.withVersions (m.deployment.config.codeVersions.put ⟨"git-" ++ revision, revision, "git", description⟩) m.codeRepo)
  | .updatePhpConfiguration codeVersionId phpconf =>
    (m.deployment.config.codeVersions.checkPhpConfiguration m.deployment.state codeVersionId phpconf).map (m.update codeVersionId)
  | .updateJavaConfiguration codeVersionId => m.updateJavaConfiguration codeVersionId
  | .deleteCodeVersion codeVersionId =>
    (m.deployment.config.codeVersions.checkDelete m.deployment.config.currentCodeVersion m.codeRepo codeVersionId).map fun _ =>
      m.withVersions (m.deployment.config.codeVersions.erase codeVersionId) (m.codeRepo.erase codeVersionId)

/-- The thread at a position has ended. -/
def ended (position : Nat) (deployment : Deployment) : CodeWebManager :=
  { m with deployment, inFlight := m.inFlight.eraseIdx position }

/-- The part of a thread of the service after it has the nodes it waits for. -/
def hook (agents : Agents) (reply : NodesReply) : Work → Hook Unit
  | .starting => pure ()
  | .creating _ =>
    match createNodes reply with
    | none => throw (.other "TypeError")
    | some nodes => do
      agents.onStart m.kind nodes.entries
      setState .running
  | .stopping => do
    if m.deployment.state ≠ .init then
      let _ ← agents.onStop m.kind
    setState .stopped
  | .adding _ =>
    match WebserversManager.repliedNodes reply with
    | none => throw (.other "TypeError")
    | some nodes => do
      agents.onAddNodes m.kind nodes
      setState .running
  | .removing nodeRoles => do
    let _ ← agents.onRemoveNodes m.kind nodeRoles.requested

/-- What a thread does next. -/
def carryOut (position : Nat) (reply : NodesReply) (agents : Agents) : CodeWebWork → CodeWebManager
  | .service .starting =>
    let (config, nodeRoles) := m.deployment.config.getStartingNodes
    { m with
      deployment := { m.deployment with config := m.deployment.config.deploy config }
      inFlight := m.inFlight.set position (.service (.creating (getSninfo nodeRoles))) }
  | .service work => m.ended position (left (m.hook agents reply work) m.deployment)
  | .updating codeVersionId phpconf =>
    { m.ended position (left (agents.doUpdateConfiguration m.kind codeVersionId phpconf) m.deployment) with
      updates :=
        match codeVersionId, agents.updatePhpConf m.kind phpconf m.deployment with
        | some codeVersionId, .ok _ _ => codeVersionId :: m.updates
        | _, _ => m.updates }

/-- A service has the requests of its own kind. -/
def Serves : CodeWebRequest → Prop
  | .updatePhpConfiguration _ _ => m.kind = .php
  | .updateJavaConfiguration _ => m.kind = .java
  | .service _ | .uploadCodeVersion _ _ | .onGitPush _ _ | .deleteCodeVersion _ => True

instance : (request : CodeWebRequest) → Decidable (m.Serves request)
  | .updatePhpConfiguration _ _ | .updateJavaConfiguration _ => inferInstanceAs (Decidable (_ = _))
  | .service _ | .uploadCodeVersion _ _ | .onGitPush _ _ | .deleteCodeVersion _ => .isTrue trivial

def handle : CodeWebEvent → Option CodeWebManager
  | .request request =>
    if m.Serves request then
      match m.answer request with
      | .error _ => some m
      | .ok after => some after
    else none
  | .advance position reply agents => (m.inFlight[position]?).map (m.carryOut position reply agents)

def Step (before : CodeWebManager) (event : CodeWebEvent) (after : CodeWebManager) : Prop := before.handle event = some after

/-- What a call leaves of the versions the web server of a node is configured for. -/
def reconfigure (id : String) (codeVersions : Option (List String)) (entry : AgentCall × Bool) : Option (List String) :=
  if entry.2 = true ∧ entry.1.id = id then (webServer entry.1.op).getD codeVersions else codeVersions

/-- The versions the web server of a node is configured for after some calls. -/
def configured (calls : List (AgentCall × Bool)) (id : String) : Option (List String) := calls.foldl (reconfigure id) none

/-- A thread gets through with an update to a version. -/
def Updates (m : CodeWebManager) (event : CodeWebEvent) (codeVersionId : String) : Prop :=
  ∃ position reply agents phpconf t, event = .advance position reply agents ∧
    m.inFlight[position]? = some (.updating (some codeVersionId) phpconf) ∧
    agents.doUpdateConfiguration m.kind (some codeVersionId) phpconf m.deployment = .ok () t

/-- After an update that is not the first, every web node is configured for its
version and that of the update before, and all versions that a web server is
told are there. -/
structure Announced (m : CodeWebManager) (event : CodeWebEvent) (after : CodeWebManager) : Prop where
  updated : ∀ codeVersionId previous rest, m.Updates event codeVersionId → m.updates = previous :: rest →
    ∀ node ∈ after.deployment.config.getWebServiceNodes,
      configured after.deployment.calls node.id = some [codeVersionId, previous]
  known : ∃ new, after.deployment.calls = m.deployment.calls ++ new ∧ ∀ entry ∈ new, ∀ codeVersions,
    webServer entry.1.op = some (some codeVersions) → ∀ version ∈ codeVersions, version ∈ after.known

/-- PHP has no second update while it has web nodes. -/
def First (m : CodeWebManager) : CodeWebWork → Prop
  | .updating (some _) _ => m.kind = .php → m.updates = [] ∨ m.deployment.config.getWebServiceNodes = []
  | .updating none _ | .service _ => True

/-- No version is deleted that the configuration remembers as the one before, or
that a thread is going to make the current one, and PHP has no second update
while it has web nodes. -/
def Careful (m : CodeWebManager) : CodeWebEvent → Prop
  | .request (.deleteCodeVersion codeVersionId) =>
    m.deployment.config.prevCodeVersion ≠ some codeVersionId ∧ ∀ phpconf, .updating (some codeVersionId) phpconf ∉ m.inFlight
  | .request _ => True
  | .advance position _ _ => ∀ work ∈ m.inFlight[position]?, m.First work

end CodeWebManager

namespace Agents

open Deployment

variable {agents : Agents} {kind : WebKind} {s t u : Deployment}

/-- What an operation of the service leaves of its code, and the versions it
tells the web servers. -/
structure Announces (s t : Deployment) : Prop where
  codeVersions : t.config.codeVersions = s.config.codeVersions
  current : t.config.currentCodeVersion = s.config.currentCodeVersion
  previous : t.config.prevCodeVersion = s.config.prevCodeVersion
  calls : ∃ new, t.calls = s.calls ++ new ∧ ∀ entry ∈ new, ListsVersions s.config entry.1.op

theorem Announces.lists (announces : Announces s t) {op : AgentOp} (lists : ListsVersions t.config op) : ListsVersions s.config op := by
  intro codeVersions told
  rw [lists codeVersions told]
  simp only [CodeConfiguration.webVersions, announces.current, announces.previous]

theorem Announces.refl (s : Deployment) : Announces s s where
  codeVersions := rfl
  current := rfl
  previous := rfl
  calls := ⟨[], (List.append_nil _).symm, fun entry member => by cases member⟩

theorem Announces.trans (first : Announces s t) (second : Announces t u) : Announces s u where
  codeVersions := second.codeVersions.trans first.codeVersions
  current := second.current.trans first.current
  previous := second.previous.trans first.previous
  calls := by
    obtain ⟨new, calls, lists⟩ := first.calls
    obtain ⟨later, calls', lists'⟩ := second.calls
    refine ⟨new ++ later, by rw [calls', calls, List.append_assoc], fun entry member => ?_⟩
    rcases List.mem_append.mp member with member | member
    · exact lists entry member
    · exact first.lists (lists' entry member)

theorem Announces.of_quiet (quiet : Ordered (ListsVersions s.config) s t) : Announces s t where
  codeVersions := by rw [quiet.config]
  current := by rw [quiet.config]
  previous := by rw [quiet.config]
  calls := quiet.calls

/-- The nodes and the state of the service change at the end of an operation. -/
theorem Announces.deploy (announces : Announces s t) (nodes : ServiceConfiguration) (state : ManagerState) :
    Announces s { t with config := s.config.deploy nodes, state } :=
  ⟨rfl, rfl, rfl, announces.calls⟩

theorem Announces.setState (announces : Announces s t) (state : ManagerState) : Announces s { t with state } :=
  ⟨announces.codeVersions, announces.current, announces.previous, announces.calls⟩

/-- The nodes change at the beginning of an operation, which goes on after the
orders to the agents. -/
theorem announces_changed {α : Type} {nodes : ServiceConfiguration} {x : Hook Unit} {f : Hook α}
    (quiet : Keeps (Ordered (ListsVersions (s.config.deploy nodes))) x) (later : ∀ t, Announces s t → Announces s (left f t)) :
    Announces s (left (do setConfig (s.config.deploy nodes); x; f) s) := by
  refine left_bind (fun _ _ set => by cases set) fun _ t set => ?_
  cases set
  have told : Announces s (left x { s with config := s.config.deploy nodes }) :=
    ((Announces.refl s).deploy nodes s.state).trans (.of_quiet (quiet _))
  exact left_bind (fun _ t run => left_error run ▸ told) fun _ t run => later t (left_ok run ▸ told)

theorem announces_setState {α : Type} {x : Hook α} (announces : Announces s (left x s)) (state : ManagerState) :
    Announces s (left (x >>= fun _ => setState state) s) :=
  left_bind (fun _ _ run => left_error run ▸ announces) fun _ _ run => (left_ok run ▸ announces).setState state

theorem announces_onStart (agents : Agents) (kind : WebKind) (entries : List Entry) : Keeps Announces (agents.onStart kind entries) := by
  intro s
  rw [onStart, left_get]
  dsimp only
  generalize s.config.toServiceConfiguration.onStart entries = result
  obtain ⟨nodes, complete⟩ := result
  cases complete with
  | true => exact ((Announces.refl s).deploy nodes s.state).trans (.of_quiet (quiet_startDuties (entryNodes entries) _))
  | false => exact (Announces.refl s).deploy nodes s.state

theorem announces_onStop (agents : Agents) (kind : WebKind) : Keeps Announces (agents.onStop kind) := by
  intro s
  rw [onStop, left_get]
  have halted : Ordered (ListsVersions s.config) s (left (agents.haltDuties kind s.config) s) := quiet_haltDuties s
  refine left_bind (fun _ t run => .of_quiet (left_error run ▸ halted)) fun _ t run => ?_
  exact (Announces.of_quiet (left_ok run ▸ halted)).deploy _ t.state

theorem announces_onAddNodes (agents : Agents) (kind : WebKind) (nodes : List ServiceNode) :
    Keeps Announces (agents.onAddNodes kind nodes) := by
  intro s
  rw [onAddNodes, left_get]
  refine left_bind (fun _ t run => lift_error run ▸ Announces.refl s) fun backendNodesKill t run => ?_
  obtain ⟨_, rfl⟩ := lift_ok.mp run
  refine left_bind (fun _ u run => lift_error run ▸ Announces.refl t) fun webNodesKill u run => ?_
  obtain ⟨_, rfl⟩ := lift_ok.mp run
  exact announces_changed (quiet_addDuties nodes webNodesKill backendNodesKill) fun t announces => announces.deploy _ t.state

theorem announces_onRemoveNodes (agents : Agents) (kind : WebKind) (nodeRoles : ServiceConfiguration.NodeRoles) :
    Keeps Announces (agents.onRemoveNodes kind nodeRoles) := by
  intro s
  rw [onRemoveNodes, left_get]
  refine left_bind (fun _ t run => lift_error run ▸ Announces.refl s) fun packingNode t run => ?_
  obtain ⟨_, rfl⟩ := lift_ok.mp run
  refine announces_changed (quiet_packDuties _ _ _ _ _) fun u announces => ?_
  have stopped : ∀ kills, Ordered (ListsVersions u.config) u (left (agents.stopDuties kind kills) u) := fun kills => quiet_stopDuties kills u
  have caught : ∀ (kills : Tier → List WebServiceNode) (nodes : ServiceConfiguration) (delNodes : List WebServiceNode),
      Announces t (left (tryCatch (do
        agents.stopDuties kind kills
        setConfig (t.config.deploy nodes)
        return some delNodes) fun _ => pure none) u) := by
    intro kills nodes delNodes
    rw [left_tryCatch]
    refine left_bind (fun _ v run => announces.trans (.of_quiet (left_error run ▸ stopped kills))) fun _ v run => ?_
    exact (announces.trans (.of_quiet (left_ok run ▸ stopped kills))).deploy nodes v.state
  refine left_bind (fun _ v run => left_error run ▸ caught _ _ _) fun delNodes v run => ?_
  have finished : Announces t { v with state := .running } := (left_ok run ▸ caught _ _ _).setState .running
  cases delNodes <;> exact finished

theorem quiet_updatePhpConf (config : CodeConfiguration) (phpconf : Bool) :
    Keeps (Ordered (ListsVersions config)) (agents.updatePhpConf kind phpconf) := by
  intro s
  rw [updatePhpConf, left_get]
  split
  · exact quiet_tellEach (lists_other rfl) _ s
  · exact Ordered.refl s

theorem announces_updatePhpConf (agents : Agents) (kind : WebKind) (phpconf : Bool) :
    Keeps Announces (agents.updatePhpConf kind phpconf) :=
  fun s => .of_quiet (quiet_updatePhpConf s.config phpconf s)

/-- An update to a version: what comes before it, and the orders to the agents
with the other version. -/
theorem switchCode_left (agents : Agents) (kind : WebKind) (codeVersionId : String) (s : Deployment) :
    Ordered (ListsVersions (switched kind s.config codeVersionId)) { s with config := switched kind s.config codeVersionId }
      (left (agents.switchCode kind codeVersionId) s) := by
  rw [switchCode, left_get]
  refine left_bind (fun _ _ set => by cases set) fun _ t set => ?_
  cases set
  exact quiet_switchDuties _

end Agents

namespace CodeWebManager

open Deployment

variable {m after : CodeWebManager} {agents : Agents}

theorem announces_hook (agents : Agents) (reply : NodesReply) (work : Work) :
    Announces m.deployment (left (m.hook agents reply work) m.deployment) := by
  cases work with
  | starting => exact Announces.refl _
  | creating sninfo =>
    simp only [hook]
    cases createNodes reply with
    | none => exact Announces.refl _
    | some nodes =>
      exact announces_setState (announces_onStart agents m.kind nodes.entries m.deployment) .running
  | stopping =>
    simp only [hook]
    split
    · exact announces_setState (announces_onStop agents m.kind m.deployment) .stopped
    · exact (Announces.refl _).setState .stopped
  | adding nodeRoles =>
    simp only [hook]
    cases WebserversManager.repliedNodes reply with
    | none => exact Announces.refl _
    | some nodes =>
      exact announces_setState (announces_onAddNodes agents m.kind nodes m.deployment) .running
  | removing nodeRoles =>
    have removed := announces_onRemoveNodes agents m.kind nodeRoles.requested m.deployment
    exact left_bind (fun _ t run => left_error run ▸ removed) fun _ t run => left_ok run ▸ removed

/-- The versions that matter are there, and the latest update has made its
version current. -/
structure Sound (m : CodeWebManager) : Prop where
  current : m.deployment.config.currentCodeVersion ∈ m.known
  previous : ∀ codeVersionId ∈ m.deployment.config.prevCodeVersion, codeVersionId ∈ m.known
  pending : ∀ codeVersionId phpconf, .updating (some codeVersionId) phpconf ∈ m.inFlight → codeVersionId ∈ m.known
  latest : ∀ codeVersionId rest, m.updates = codeVersionId :: rest → m.deployment.config.currentCodeVersion = codeVersionId

theorem created_sound (kind : WebKind) : (created kind).Sound where
  current := List.mem_singleton.mpr rfl
  previous := fun _ member => by cases member
  pending := fun _ _ member => by cases member
  latest := fun _ _ updates => by cases updates

theorem Sound.webVersions (sound : m.Sound) : ∀ version ∈ m.deployment.config.webVersions, version ∈ m.known := by
  intro version member
  unfold CodeConfiguration.webVersions at member
  cases previous : m.deployment.config.prevCodeVersion with
  | none =>
    rw [previous] at member
    exact List.mem_singleton.mp member ▸ sound.current
  | some codeVersionId =>
    rw [previous] at member
    rcases List.mem_cons.mp member with rfl | member
    · exact sound.current
    · exact List.mem_singleton.mp member ▸ sound.previous codeVersionId previous

/-- An operation that leaves the code alone. -/
theorem Sound.announces (sound : m.Sound) {deployment : Deployment} (announces : Announces m.deployment deployment)
    {inFlight : List CodeWebWork} (fewer : ∀ codeVersionId phpconf, .updating (some codeVersionId) phpconf ∈ inFlight →
      .updating (some codeVersionId) phpconf ∈ m.inFlight) : Sound { m with deployment, inFlight } := by
  have known : known { m with deployment, inFlight } = m.known := by
    simp only [CodeWebManager.known, announces.codeVersions]
  refine ⟨?_, ?_, fun version phpconf member => ?_, fun version rest updates => ?_⟩
  · rw [known, announces.current]
    exact sound.current
  · rw [known, announces.previous]
    exact sound.previous
  · rw [known]
    exact sound.pending version phpconf (fewer version phpconf member)
  · rw [announces.current]
    exact sound.latest version rest updates

theorem fewer_eraseIdx (position : Nat) : ∀ codeVersionId phpconf,
    CodeWebWork.updating (some codeVersionId) phpconf ∈ m.inFlight.eraseIdx position →
      .updating (some codeVersionId) phpconf ∈ m.inFlight :=
  fun _ _ member => List.mem_of_mem_eraseIdx member

/-- A version becomes the current one, and the one it replaces or the one before
that is remembered. -/
theorem Sound.switched (sound : m.Sound) {codeVersionId : String} (chosen : codeVersionId ∈ m.known)
    {deployment : Deployment} (versions : deployment.config.codeVersions = m.deployment.config.codeVersions)
    (current : deployment.config.currentCodeVersion = codeVersionId)
    (previous : deployment.config.prevCodeVersion = some m.deployment.config.currentCodeVersion ∨
      deployment.config.prevCodeVersion = m.deployment.config.prevCodeVersion)
    {inFlight : List CodeWebWork} (fewer : ∀ codeVersionId phpconf, .updating (some codeVersionId) phpconf ∈ inFlight →
      .updating (some codeVersionId) phpconf ∈ m.inFlight) :
    Sound { m with deployment, inFlight, updates := codeVersionId :: m.updates } := by
  have known : CodeWebManager.known { m with deployment, inFlight, updates := codeVersionId :: m.updates } = m.known := by
    simp only [CodeWebManager.known, versions]
  refine ⟨?_, fun version remembered => ?_, fun version phpconf member => ?_, fun version rest updates => ?_⟩
  · rw [known, current]
    exact chosen
  · rw [known]
    rcases previous with previous | previous
    · rw [previous] at remembered
      exact Option.some.inj remembered ▸ sound.current
    · rw [previous] at remembered
      exact sound.previous version remembered
  · rw [known]
    exact sound.pending version phpconf (fewer version phpconf member)
  · rw [current]
    exact (List.cons.inj updates).1

theorem Sound.withVersions (sound : m.Sound) {codeVersions : CodeVersions} (codeRepo : List String)
    (stays : ∀ version ∈ m.known, version = m.deployment.config.currentCodeVersion ∨
      version ∈ m.deployment.config.prevCodeVersion ∨ (∃ phpconf, .updating (some version) phpconf ∈ m.inFlight) →
        version ∈ codeVersions.rows.map CodeVersion.id) : (m.withVersions codeVersions codeRepo).Sound where
  current := stays _ sound.current (.inl rfl)
  previous := fun version remembered => stays _ (sound.previous version remembered) (.inr (.inl remembered))
  pending := fun version phpconf member => stays _ (sound.pending version phpconf member) (.inr (.inr ⟨phpconf, member⟩))
  latest := sound.latest

theorem Sound.starts (sound : m.Sound) (state : ManagerState) {work : CodeWebWork}
    (chosen : ∀ version phpconf, work = .updating (some version) phpconf → version ∈ m.known) : (m.starts state work).Sound where
  current := sound.current
  previous := sound.previous
  pending := by
    intro version phpconf member
    rcases List.mem_append.mp member with member | member
    · exact sound.pending version phpconf member
    · exact chosen version phpconf (List.mem_singleton.mp member).symm
  latest := sound.latest

theorem Sound.update (sound : m.Sound) {codeVersionId : Option String} (phpconf : Bool)
    (chosen : ∀ version ∈ codeVersionId, version ∈ m.known) : (m.update codeVersionId phpconf).Sound := by
  unfold CodeWebManager.update
  split
  · refine sound.starts .adapting fun version conf same => ?_
    cases same
    exact chosen version rfl
  · split
    · exact sound
    · rename_i version
      split
      · exact sound
      · exact sound.switched (chosen version rfl) (by rfl) (by rfl) (.inr (by rfl)) fun _ _ member => member

theorem Sound.answer (sound : m.Sound) {request : CodeWebRequest} (careful : m.Careful (.request request))
    (answered : m.answer request = .ok after) : after.Sound := by
  cases request with
  | service request =>
    obtain ⟨⟨state, work⟩, _, rfl⟩ := map_ok.mp answered
    exact sound.starts state fun _ _ same => by cases same
  | uploadCodeVersion version archive =>
    obtain ⟨_, _, rfl⟩ := map_ok.mp answered
    exact sound.withVersions _ fun _ known _ => CodeVersions.known_put version known
  | onGitPush revision description =>
    cases answered
    exact sound.withVersions _ fun _ known _ => CodeVersions.known_put _ known
  | updatePhpConfiguration codeVersionId phpconf =>
    obtain ⟨configures, checked, rfl⟩ := map_ok.mp answered
    exact sound.update configures (CodeVersions.checkPhpConfiguration_ok checked)
  | updateJavaConfiguration codeVersionId =>
    cases codeVersionId with
    | none => cases answered
    | some codeVersionId =>
      obtain ⟨_, chosen, answered⟩ := bind_ok.mp answered
      obtain ⟨_, _, answered⟩ := bind_ok.mp answered
      cases answered
      exact sound.update false fun version same => Option.some.inj same ▸ CodeVersions.isInList_ok chosen
  | deleteCodeVersion codeVersionId =>
    obtain ⟨_, checked, rfl⟩ := map_ok.mp answered
    have other := CodeVersions.checkDelete_ok checked
    refine sound.withVersions _ fun version known needed => CodeVersions.known_erase known ?_
    rintro rfl
    rcases needed with current | remembered | ⟨phpconf, pending⟩
    · exact other current
    · exact careful.1 remembered
    · exact careful.2 phpconf pending

/-- What a thread leaves that updates the service to a version: either it was cut
short before, or the version is the current one. -/
theorem update_cases (agents : Agents) (m : CodeWebManager) (codeVersionId : String) (phpconf : Bool) :
    ((∃ raised t, agents.updatePhpConf m.kind phpconf m.deployment = .error raised t ∧
        left (agents.doUpdateConfiguration m.kind (some codeVersionId) phpconf) m.deployment = t) ∧
      Announces m.deployment (left (agents.doUpdateConfiguration m.kind (some codeVersionId) phpconf) m.deployment)) ∨
    ∃ t u state, agents.updatePhpConf m.kind phpconf m.deployment = .ok () t ∧ Announces m.deployment t ∧
      Ordered (ListsVersions (switched m.kind t.config codeVersionId)) { t with config := switched m.kind t.config codeVersionId } u ∧
      left (agents.doUpdateConfiguration m.kind (some codeVersionId) phpconf) m.deployment = { u with state } := by
  have before := announces_updatePhpConf agents m.kind phpconf m.deployment
  cases run : agents.updatePhpConf m.kind phpconf m.deployment with
  | error raised t =>
    refine .inl ⟨⟨raised, t, rfl, ?_⟩, ?_⟩
    · rw [doUpdateConfiguration, left_error (bind_of_error run)]
    · rw [doUpdateConfiguration, left_error (bind_of_error run)]
      exact left_error run ▸ before
  | ok _ t =>
    have switch := switchCode_left agents m.kind codeVersionId t
    have after := bind_of_ok (f := fun _ : Unit => do agents.switchCode m.kind codeVersionId; setState .running) run
    refine .inr ⟨t, left (agents.switchCode m.kind codeVersionId) t, ?_⟩
    cases finished : agents.switchCode m.kind codeVersionId t with
    | ok _ u =>
      refine ⟨.running, rfl, left_ok run ▸ before, switch, ?_⟩
      rw [left_ok finished]
      exact left_ok ((bind_of_ok run).trans (bind_of_ok finished))
    | error raised u =>
      refine ⟨u.state, rfl, left_ok run ▸ before, switch, ?_⟩
      rw [left_error finished]
      exact left_error ((bind_of_ok run).trans (bind_of_error finished))

/-- An update of the configuration of PHP alone. -/
theorem announces_configure (agents : Agents) (m : CodeWebManager) (phpconf : Bool) :
    Announces m.deployment (left (agents.doUpdateConfiguration m.kind none phpconf) m.deployment) := by
  have before := announces_updatePhpConf agents m.kind phpconf m.deployment
  exact left_bind (fun _ t run => left_error run ▸ before) fun _ t run => (left_ok run ▸ before).setState .running

theorem Sound.carryOut (sound : m.Sound) {position : Nat} {work : CodeWebWork} (reply : NodesReply) (agents : Agents)
    (running : m.inFlight[position]? = some work) : (m.carryOut position reply agents work).Sound := by
  cases work with
  | service work =>
    cases work with
    | starting =>
      refine sound.announces ((Announces.refl _).deploy _ m.deployment.state) fun version phpconf member => ?_
      rcases List.mem_or_eq_of_mem_set member with member | same
      · exact member
      · cases same
    | creating sninfo => exact sound.announces (announces_hook agents reply _) (fewer_eraseIdx position)
    | stopping => exact sound.announces (announces_hook agents reply _) (fewer_eraseIdx position)
    | adding nodeRoles => exact sound.announces (announces_hook agents reply _) (fewer_eraseIdx position)
    | removing nodeRoles => exact sound.announces (announces_hook agents reply _) (fewer_eraseIdx position)
  | updating codeVersionId phpconf =>
    cases codeVersionId with
    | none => exact sound.announces (announces_configure agents m phpconf) (fewer_eraseIdx position)
    | some codeVersionId =>
      have chosen := sound.pending codeVersionId phpconf (List.mem_of_getElem? running)
      simp only [CodeWebManager.carryOut]
      rcases update_cases agents m codeVersionId phpconf with ⟨⟨raised, t, run, _⟩, announces⟩ | ⟨t, u, state, run, before, switch, ended⟩
      · simp only [run]
        exact sound.announces announces (fewer_eraseIdx position)
      · simp only [run, ended]
        refine sound.switched chosen ?_ ?_ ?_ (fewer_eraseIdx position)
        · exact (congrArg CodeConfiguration.codeVersions switch.config).trans before.codeVersions
        · exact congrArg CodeConfiguration.currentCodeVersion switch.config
        · have previous := congrArg CodeConfiguration.prevCodeVersion switch.config
          simp only [Agents.switched, before.current, before.previous] at previous
          split at previous
          · exact .inl previous
          · exact .inr previous

theorem Sound.step (sound : m.Sound) {event : CodeWebEvent} (careful : m.Careful event) (step : m.Step event after) :
    after.Sound := by
  cases event with
  | request request =>
    simp only [Step, handle] at step
    split at step
    · split at step
      · cases step
        exact sound
      · rename_i answered
        cases step
        exact sound.answer careful answered
    · cases step
  | advance position reply agents =>
    obtain ⟨work, running, rfl⟩ := Option.map_eq_some_iff.mp step
    exact sound.carryOut reply agents running

theorem answer_calls {request : CodeWebRequest} (answered : m.answer request = .ok after) :
    after.deployment.calls = m.deployment.calls := by
  have update : ∀ codeVersionId phpconf, (m.update codeVersionId phpconf).deployment.calls = m.deployment.calls := by
    intro codeVersionId phpconf
    unfold CodeWebManager.update
    split_ifs
    · rfl
    · cases codeVersionId with
      | none => rfl
      | some codeVersionId => dsimp only; split_ifs <;> rfl
  cases request with
  | service request =>
    obtain ⟨_, _, rfl⟩ := map_ok.mp answered
    rfl
  | uploadCodeVersion version archive =>
    obtain ⟨_, _, rfl⟩ := map_ok.mp answered
    rfl
  | onGitPush revision description =>
    cases answered
    rfl
  | updatePhpConfiguration codeVersionId phpconf =>
    obtain ⟨configures, _, rfl⟩ := map_ok.mp answered
    exact update codeVersionId configures
  | updateJavaConfiguration codeVersionId =>
    cases codeVersionId with
    | none => cases answered
    | some codeVersionId =>
      obtain ⟨_, _, answered⟩ := bind_ok.mp answered
      obtain ⟨_, _, answered⟩ := bind_ok.mp answered
      cases answered
      exact update (some codeVersionId) false
  | deleteCodeVersion codeVersionId =>
    obtain ⟨_, _, rfl⟩ := map_ok.mp answered
    rfl

/-- The versions in the calls of an operation are there after it. -/
theorem Sound.announced (sound : m.Sound) {deployment : Deployment} (announces : Announces m.deployment deployment) :
    ∃ new, deployment.calls = m.deployment.calls ++ new ∧ ∀ entry ∈ new, ∀ codeVersions,
      webServer entry.1.op = some (some codeVersions) → ∀ version ∈ codeVersions,
        version ∈ deployment.config.codeVersions.rows.map CodeVersion.id := by
  obtain ⟨new, calls, lists⟩ := announces.calls
  refine ⟨new, calls, fun entry member codeVersions told version inside => ?_⟩
  rw [lists entry member codeVersions told] at inside
  rw [announces.codeVersions]
  exact sound.webVersions version inside

theorem Sound.known_step (sound : m.Sound) {event : CodeWebEvent} (careful : m.Careful event) (step : m.Step event after) :
    ∃ new, after.deployment.calls = m.deployment.calls ++ new ∧ ∀ entry ∈ new, ∀ codeVersions,
      webServer entry.1.op = some (some codeVersions) → ∀ version ∈ codeVersions, version ∈ after.known := by
  have quiet : ∀ {t : Deployment}, t.calls = m.deployment.calls → ∃ new, t.calls = m.deployment.calls ++ new ∧
      ∀ entry ∈ new, ∀ codeVersions, webServer entry.1.op = some (some codeVersions) → ∀ version ∈ codeVersions, version ∈ after.known :=
    fun same => ⟨[], same.trans (List.append_nil _).symm, fun entry member => by cases member⟩
  have later := sound.step careful step
  cases event with
  | request request =>
    simp only [Step, handle] at step
    split at step
    · split at step
      · cases step
        exact quiet rfl
      · rename_i answered
        cases step
        exact quiet (answer_calls answered)
    · cases step
  | advance position reply agents =>
    obtain ⟨work, running, rfl⟩ := Option.map_eq_some_iff.mp step
    cases work with
    | service work =>
      cases work with
      | starting => exact quiet rfl
      | creating sninfo => exact sound.announced (announces_hook agents reply _)
      | stopping => exact sound.announced (announces_hook agents reply _)
      | adding nodeRoles => exact sound.announced (announces_hook agents reply _)
      | removing nodeRoles => exact sound.announced (announces_hook agents reply _)
    | updating codeVersionId phpconf =>
      cases codeVersionId with
      | none => exact sound.announced (announces_configure agents m phpconf)
      | some codeVersionId =>
        rcases update_cases agents m codeVersionId phpconf with ⟨_, announces⟩ | ⟨t, u, state, run, before, switch, ended⟩
        · exact sound.announced announces
        · obtain ⟨new, calls, told⟩ := sound.announced before
          obtain ⟨newer, calls', lists⟩ := switch.calls
          have deployed : (m.carryOut position reply agents (.updating (some codeVersionId) phpconf)).deployment = { u with state } :=
            ended
          have config : u.config = Agents.switched m.kind t.config codeVersionId := switch.config
          have versions : u.config.codeVersions = t.config.codeVersions := by rw [config]; rfl
          have webVersions := later.webVersions
          simp only [CodeWebManager.known, deployed] at webVersions ⊢
          refine ⟨new ++ newer, ?_, fun entry member codeVersions told' version inside => ?_⟩
          · rw [calls', ← List.append_assoc, ← calls]
          · rcases List.mem_append.mp member with member | member
            · rw [versions]
              exact told entry member codeVersions told' version inside
            · rw [lists entry member codeVersions told', ← config] at inside
              exact webVersions version inside

theorem configured_append (calls new : List (AgentCall × Bool)) (id : String) :
    configured (calls ++ new) id = new.foldl (reconfigure id) (configured calls id) :=
  List.foldl_append

/-- Calls of other kinds leave the web servers alone. -/
theorem reconfigure_other {op : AgentOp} (other : webServer op = none) (nodes : List WebServiceNode) (id : String)
    (codeVersions : Option (List String)) :
    ((callsTo op nodes).map fun call => (call, true)).foldl (reconfigure id) codeVersions = codeVersions := by
  induction nodes with
  | nil => rfl
  | cons node rest ih =>
    have here : reconfigure id codeVersions (node.call op, true) = codeVersions := by
      simp [reconfigure, ServiceNode.call, other]
    simp only [callsTo, List.map_cons, List.foldl_cons, here]
    exact ih

/-- A loop over web nodes leaves each of them with the versions it was told. -/
theorem reconfigure_told {op : AgentOp} {versions : List String} (told : webServer op = some (some versions))
    (nodes : List WebServiceNode) (id : String) (codeVersions : Option (List String))
    (reached : codeVersions = some versions ∨ ∃ node ∈ nodes, node.id = id) :
    ((callsTo op nodes).map fun call => (call, true)).foldl (reconfigure id) codeVersions = some versions := by
  induction nodes generalizing codeVersions with
  | nil =>
    rcases reached with rfl | ⟨node, member, _⟩
    · rfl
    · cases member
  | cons node rest ih =>
    have here : reconfigure id codeVersions (node.call op, true) =
        if node.toServiceNode.id = id then some versions else codeVersions := by
      simp [reconfigure, ServiceNode.call, told]
    simp only [callsTo, List.map_cons, List.foldl_cons, here]
    refine ih _ ?_
    split
    · exact .inl rfl
    · rename_i other
      rcases reached with same | ⟨found, member, named⟩
      · exact .inl same
      · rcases List.mem_cons.mp member with rfl | member
        · exact absurd named other
        · exact .inr ⟨found, member, named⟩

/-- An update that gets through leaves every web node with the versions of the
new configuration. -/
theorem switchCode_ok {kind : WebKind} {codeVersionId : String} {s t : Deployment}
    (run : agents.switchCode kind codeVersionId s = .ok () t) : t.config = switched kind s.config codeVersionId ∧
      ∀ node ∈ t.config.getWebServiceNodes, configured t.calls node.id = some t.config.webVersions := by
  obtain ⟨_, _, set, run⟩ := bind_ok.mp (show (setConfig (switched kind s.config codeVersionId) >>= fun _ =>
    agents.switchDuties kind (switched kind s.config codeVersionId)) s = .ok () t from run)
  cases set
  have config := (Keeps.of_ok quiet_switchDuties run).config
  refine ⟨config, fun node member => ?_⟩
  obtain ⟨_, u, _, run⟩ := bind_ok.mp run
  obtain ⟨_, v, web, proxy⟩ := bind_ok.mp run
  obtain ⟨_, rfl⟩ := tellEach_ok.mp web
  obtain ⟨_, _, rfl⟩ := updateProxy_ok.mp proxy
  rw [config] at member ⊢
  simp only [Deployment.toldAll, configured_append]
  rw [reconfigure_other rfl]
  exact reconfigure_told rfl _ _ _ (.inr ⟨node, member, rfl⟩)

theorem doUpdate_ok {codeVersionId : String} {phpconf : Bool} {t : Deployment}
    (run : agents.doUpdateConfiguration m.kind (some codeVersionId) phpconf m.deployment = .ok () t) :
    t.config = switched m.kind m.deployment.config codeVersionId ∧
      ∀ node ∈ t.config.getWebServiceNodes, configured t.calls node.id = some t.config.webVersions := by
  obtain ⟨_, u, before, run⟩ := bind_ok.mp run
  obtain ⟨_, v, switch, run⟩ := bind_ok.mp run
  have same : u.config = m.deployment.config := ((quiet_updatePhpConf m.deployment.config phpconf).of_ok before).config
  cases run
  obtain ⟨config, told⟩ := switchCode_ok switch
  exact ⟨same ▸ config, told⟩

/-- One step of a careful run. -/
theorem Sound.announced_step (sound : m.Sound) {event : CodeWebEvent} (careful : m.Careful event) (step : m.Step event after) :
    Announced m event after where
  updated := by
    rintro codeVersionId previous rest ⟨position, reply, agents, phpconf, t, rfl, running, finished⟩ updates node member
    have deployment : after.deployment = t := by
      simp only [Step, handle, running, Option.map_some] at step
      cases step
      exact left_ok finished
    obtain ⟨config, told⟩ := doUpdate_ok finished
    rw [deployment] at member ⊢
    rw [told node member, config]
    have nodes : t.config.getWebServiceNodes = m.deployment.config.getWebServiceNodes := by rw [config]; rfl
    cases kind : m.kind with
    | php =>
      rcases careful _ running kind with none | none
      · cases none.symm.trans updates
      · rw [nodes, none] at member
        cases member
    | java =>
      have latest := sound.latest previous rest updates
      simp [CodeConfiguration.webVersions, Agents.switched, latest]
  known := sound.known_step careful step

/-- The versions announced to the web servers, in every step of a run in which
the service stays careful. -/
theorem versions_announced {kind : WebKind} {events : List CodeWebEvent} {event : CodeWebEvent}
    (run : Run (Guarded Careful Step) (created kind) events m) (careful : m.Careful event) (step : m.Step event after) :
    Announced m event after :=
  (run.guarded_invariant (created_sound kind) fun sound careful step => sound.step careful step).announced_step careful step

instance (m : CodeWebManager) : (work : CodeWebWork) → Decidable (m.First work)
  | .updating (some _) _ => inferInstanceAs (Decidable (_ → _))
  | .updating none _ | .service _ => .isTrue trivial

instance (m : CodeWebManager) : (event : CodeWebEvent) → Decidable (m.Careful event)
  | .request (.deleteCodeVersion codeVersionId) =>
    inferInstanceAs (Decidable (m.deployment.config.prevCodeVersion ≠ some codeVersionId ∧
      ∀ phpconf, .updating (some codeVersionId) phpconf ∉ m.inFlight))
  | .advance position _ _ => inferInstanceAs (Decidable (∀ work ∈ m.inFlight[position]?, m.First work))
  | .request (.service _) | .request (.uploadCodeVersion _ _) | .request (.onGitPush _ _)
  | .request (.updatePhpConfiguration _ _) | .request (.updateJavaConfiguration _) => .isTrue trivial

/-- All agents answer, and no servlets are in the archives. -/
def answering : Agents := ⟨fun _ => true, fun _ => .ok []⟩

/-- A service starts on one node. -/
def started : List CodeWebEvent :=
  [.request (.service (.startService true)), .advance 0 .failed answering,
    .advance 0 (.created [serverOf "1" "proxybackendweb"]) answering]

/-- Two versions are pushed to a Java service, which is updated to the first and
is about to be updated to the second, and the version of the beginning is deleted. -/
def updatedTwice : List CodeWebEvent :=
  started ++ [.request (.onGitPush "a" ""), .request (.updateJavaConfiguration (some "git-a")), .advance 0 .failed answering,
    .request (.onGitPush "b" ""), .request (.updateJavaConfiguration (some "git-b"))]

theorem updatedTwice_announced : ∃ m after, Run (Guarded Careful Step) (created .java) updatedTwice m ∧
    m.updates = ["git-a"] ∧ after.deployment.state = .running ∧ Announced m (.advance 0 .failed answering) after := by
  have ended : ((play (fun m event => if m.Careful event then handle m event else none) (created .java) updatedTwice).bind fun m =>
      (handle m (.advance 0 .failed answering)).map fun after =>
        decide (m.updates = ["git-a"] ∧ after.deployment.state = .running ∧ m.Careful (.advance 0 .failed answering))) = some true := by
    decide +kernel
  obtain ⟨m, played, ended⟩ := Option.bind_eq_some_iff.mp ended
  obtain ⟨after, step, ended⟩ := Option.map_eq_some_iff.mp ended
  obtain ⟨updates, running, careful⟩ := of_decide_eq_true ended
  have run := Run.play_guarded played
  exact ⟨m, after, run, updates, running, versions_announced run careful step⟩

/-- A PHP service that is about to be updated for the second time. -/
def updatedPhp : List CodeWebEvent :=
  started ++ [.request (.onGitPush "a" ""), .request (.updatePhpConfiguration (some "git-a") .absent), .advance 0 .failed answering,
    .request (.onGitPush "b" ""), .request (.updatePhpConfiguration (some "git-b") .absent)]

/-- A Java service that is about to get a web node after the version before the
update was deleted. -/
def enlargedJava : List CodeWebEvent :=
  started ++ [.request (.onGitPush "a" ""), .request (.updateJavaConfiguration (some "git-a")), .advance 0 .failed answering,
    .request (.deleteCodeVersion "code-default"), .request (.service (.addNodes ⟨[("web", 1)], List.nodup_singleton _⟩ true))]

/-- Each step of each run announces the versions. -/
def AlwaysAnnounced (kind : WebKind) : Prop :=
  ∀ (events : List CodeWebEvent) (m : CodeWebManager) (event : CodeWebEvent) (after : CodeWebManager),
    Run Step (created kind) events m → m.Step event after → Announced m event after

/-- The web node of PHP has no version before, and that of Java one that is not there. -/
theorem versions_not_announced : ¬AlwaysAnnounced .php ∧ ¬AlwaysAnnounced .java := by
  constructor
  · intro claim
    have found : ((play handle (created .php) updatedPhp).bind fun m =>
        (handle m (.advance 0 .failed answering)).bind fun after =>
          (returned (answering.doUpdateConfiguration m.kind (some "git-b") false) m.deployment).map fun _ =>
            decide (m.inFlight[0]? = some (.updating (some "git-b") false) ∧ m.updates = ["git-a"] ∧
              ∃ node ∈ after.deployment.config.getWebServiceNodes,
                configured after.deployment.calls node.id ≠ some ["git-b", "git-a"])) = some true := by
      decide +kernel
    obtain ⟨m, played, found⟩ := Option.bind_eq_some_iff.mp found
    obtain ⟨after, step, found⟩ := Option.bind_eq_some_iff.mp found
    obtain ⟨⟨_, t⟩, finished, found⟩ := Option.map_eq_some_iff.mp found
    obtain ⟨running, updates, node, member, other⟩ := of_decide_eq_true found
    exact other ((claim _ m _ after (Run.play played) step).updated "git-b" "git-a" []
      ⟨0, .failed, answering, false, t, rfl, running, returned_some.mp finished⟩ updates node member)
  · intro claim
    have found : ((play handle (created .java) enlargedJava).bind fun m =>
        (handle m (.advance 0 (.created [serverOf "2" "web"]) answering)).map fun after =>
          decide (∃ entry ∈ after.deployment.calls.drop m.deployment.calls.length,
            webServer entry.1.op = some (some ["git-a", "code-default"]) ∧ "code-default" ∉ after.known)) = some true := by
      decide +kernel
    obtain ⟨m, played, found⟩ := Option.bind_eq_some_iff.mp found
    obtain ⟨after, step, found⟩ := Option.map_eq_some_iff.mp found
    obtain ⟨entry, member, told, missing⟩ := of_decide_eq_true found
    obtain ⟨new, calls, known⟩ := (claim _ m _ after (Run.play played) step).known
    rw [calls, List.drop_left] at member
    exact missing (known entry member _ told "code-default" (by simp))

end CodeWebManager

end ConPaaS
