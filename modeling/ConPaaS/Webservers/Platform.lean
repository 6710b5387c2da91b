import ConPaaS.Webservers.FleetChanges

namespace ConPaaS

open Keyed Transition Fallible Effect Deployment Agents WebServersAgent

/-- A web service with the agents of its nodes. -/
structure Platform where
  manager : CodeWebManager
  fleet : Fleet

/-- What happens next: a request comes in, or a thread goes on, with the reply
of the director if it has been waiting for one. The agents answer for themselves. -/
inductive PlatformEvent
  | request (request : CodeWebRequest)
  | advance (position : Nat) (reply : NodesReply)

namespace Platform

variable (urls : String → List String) (p : Platform)

/-- The event at the manager, as long as no agent refuses an order. -/
def seen : PlatformEvent → CodeWebEvent
  | .request request => .request request
  | .advance position reply => .advance position reply (obliging urls)

/-- The nodes a thread gets, which come with agents that run nothing. -/
def gained : PlatformEvent → List ServiceNode
  | .request _ => []
  | .advance position reply =>
    match p.manager.inFlight[position]?, reply with
    | some (.service (.creating _)), .created nodes | some (.service (.adding _)), .created nodes => nodes
    | _, _ => []

/-- The agents with those of new nodes. -/
def booted (event : PlatformEvent) : Fleet := fun ip => if ip ∈ (p.gained event).map ServiceNode.ip then .fresh else p.fleet ip

/-- The calls of a manager since it was another one. -/
def newCalls (before after : CodeWebManager) : List AgentCall :=
  (after.deployment.calls.drop before.deployment.calls.length).map Prod.fst

/-- The manager goes on and the agents carry out its calls. There is no next
state when one of them refuses. -/
def handle (event : PlatformEvent) : Option Platform :=
  (p.manager.handle (seen urls event)).bind fun after =>
    (Fleet.carryOut (newCalls p.manager after) (p.booted event)).map fun fleet => ⟨after, fleet⟩

def Step (before : Platform) (event : PlatformEvent) (after : Platform) : Prop := before.handle urls event = some after

/-- A service that was added to an application. -/
def created (kind : WebKind) : Platform := ⟨.created kind, fun _ => .fresh⟩

/-- The nodes a thread gets are those it has asked for, at addresses of their
own that no node of the service has. -/
def Gets (nodes : List ServiceNode) : CodeWebWork → Prop
  | .service work => p.manager.nodesManager.Gets nodes work ∧ (nodes.map ServiceNode.ip).Nodup ∧
    ∀ ip ∈ nodes.map ServiceNode.ip, ip ∉ p.manager.deployment.config.serviceNodes.rows.map fun node => node.ip
  | .updating _ _ => True

instance (nodes : List ServiceNode) : (work : CodeWebWork) → Decidable (p.Gets nodes work)
  | .service _ => inferInstanceAs (Decidable (_ ∧ _))
  | .updating _ _ => .isTrue trivial

/-- The director replies with what it was asked for, or with no nodes. -/
def Supplied (position : Nat) : NodesReply → Prop
  | .created nodes => ∀ work ∈ p.manager.inFlight[position]?, p.Gets nodes work
  | .failed | .error _ => True

instance (position : Nat) : (reply : NodesReply) → Decidable (p.Supplied position reply)
  | .created nodes => inferInstanceAs (Decidable (∀ work ∈ p.manager.inFlight[position]?, p.Gets nodes work))
  | .failed | .error _ => .isTrue trivial

/-- The condition on what happens. Only a stop is accepted while other
operations are in flight, and only while these are stops. No service is started
whose backend is packed beside web servers of their own. The director replies
with what it was asked for. The code that comes in can be deployed, and no
version is deleted that is still needed. -/
def Orderly : PlatformEvent → Prop
  | .request (.service request) => ∀ accepted ∈ (p.manager.nodesManager.request request).toOption, ∀ other ∈ p.manager.inFlight,
    accepted.2 = .stopping ∧ other = .service .stopping
  | .request (.uploadCodeVersion version _) => Deployable version
  | .request (.onGitPush revision _) => revision ≠ ""
  | .request (.deleteCodeVersion codeVersionId) => p.manager.Careful (.request (.deleteCodeVersion codeVersionId))
  | .request _ => True
  | .advance position reply => (p.manager.inFlight[position]? = some (.service .starting) → ¬ p.manager.deployment.config.BackendPacked) ∧
    p.Supplied position reply

instance : (event : PlatformEvent) → Decidable (p.Orderly event)
  | .request (.service _) => inferInstanceAs (Decidable (∀ accepted ∈ Except.toOption _, _))
  | .request (.uploadCodeVersion version _) => inferInstanceAs (Decidable (Deployable version))
  | .request (.onGitPush _ _) => inferInstanceAs (Decidable (_ ≠ _))
  | .request (.deleteCodeVersion _) => inferInstanceAs (Decidable (_ ∧ ∀ _ : Bool, _ ∉ _))
  | .request (.updatePhpConfiguration _ _) | .request (.updateJavaConfiguration _) => .isTrue trivial
  | .advance _ _ => inferInstanceAs (Decidable (_ ∧ _))

/-- What a thread in flight alone relies on. -/
def Ready : CodeWebWork → Prop
  | .service .starting => p.manager.deployment.config.serviceNodes.rows = []
  | .service (.creating sninfo) => p.manager.nodesManager.Ready (.creating sninfo) ∧ p.manager.deployment.config.serviceNodes.rows = []
  | .service (.adding nodeRoles) => p.manager.nodesManager.Ready (.adding nodeRoles) ∧ ∀ role ∈ getSninfo nodeRoles, ∃ tier : Tier, role = tier.role
  | .service (.removing nodeRoles) => p.manager.nodesManager.Ready (.removing nodeRoles)
  | .service .stopping => True
  | .updating _ _ => p.manager.deployment.config.Balanced

/-- The invariant of orderly runs. The agents run what the configuration says at
all times, also while operations are in flight. -/
structure Steady (p : Platform) : Prop where
  code : p.manager.Sound
  counted : p.manager.deployment.config.Counted
  balanced : p.manager.deployment.state = .running → p.manager.deployment.config.Balanced
  resting : p.manager.deployment.state = .init ∨ p.manager.deployment.state = .stopped → p.manager.deployment.config.serviceNodes.rows = []
  busy : p.manager.inFlight ≠ [] → p.manager.deployment.state ≠ .running
  alone : (∀ work ∈ p.manager.inFlight, work = .service .stopping) ∨ ∃ work, p.manager.inFlight = [work] ∧ p.Ready work
  deployable : ∀ version ∈ p.manager.deployment.config.codeVersions.rows, Deployable version
  matched : Fleet.Matches urls p.manager.kind p.manager.deployment.config p.fleet

theorem created_steady (kind : WebKind) : Steady urls (created kind) where
  code := CodeWebManager.created_sound kind
  counted := WebserversManager.created_sound.counted
  balanced := nofun
  resting := fun _ => rfl
  busy := fun some => absurd rfl some
  alone := .inl nofun
  deployable := by
    cases kind <;> decide
  matched := ⟨List.nodup_nil, nofun⟩

variable {urls p} {after : CodeWebManager}

/-- What a web service says of the roles of its nodes. -/
def webRoles : ServiceRoles := ⟨WebserversManager.getServiceType, WebserversManager.getNodeRoles, WebserversManager.getDefaultRole⟩

theorem checkRoles_eq (nodeRoles : RoleCounts) (rest : List (String × Int)) :
    WebserversManager.checkRoles nodeRoles rest = BaseManager.checkRoles webRoles nodeRoles rest := by
  induction rest generalizing nodeRoles with
  | nil => rfl
  | cons entry rest ih =>
    obtain ⟨role, count⟩ := entry
    rw [WebserversManager.checkRoles, BaseManager.checkRoles, ih, ih]
    rfl

/-- The roles of nodes that pass the check stand for one duty each. -/
theorem checkNodeRoles_roles {nodeRoles checked : RoleCounts} (passed : WebserversManager.checkNodeRoles nodeRoles = .ok checked) :
    ∀ role ∈ getSninfo checked, ∃ tier : Tier, role = tier.role := by
  have base : BaseManager.checkNodeRoles webRoles nodeRoles = .ok checked := by
    rw [← passed, BaseManager.checkNodeRoles, WebserversManager.checkNodeRoles, checkRoles_eq]
  have fits := BaseManager.checkNodeRoles_ok (by decide) base
  intro role member
  obtain ⟨entry, inside, asked⟩ := List.mem_flatMap.mp member
  obtain rfl := List.eq_of_mem_replicate asked
  have known : entry.1 ∈ ["backend", "web", "proxy"] := (fits entry inside).1
  rcases List.mem_cons.mp known with backend | known
  · exact ⟨.backend, backend⟩
  rcases List.mem_cons.mp known with web | known
  · exact ⟨.web, web⟩
  · exact ⟨.proxy, List.mem_singleton.mp known⟩

/-- A request about the nodes that is accepted starts a thread that can rely on
the service. -/
theorem Steady.accepted {request : WebRequest} {state : ManagerState} {work : Work} (steady : Steady urls p)
    (accepted : p.manager.nodesManager.request request = .ok (state, work)) :
    state ∉ [ManagerState.init, .stopped, .running] ∧ p.Ready (.service work) := by
  have sound : p.manager.nodesManager.Sound := .rest steady.counted steady.balanced rfl
  have ready := (WebserversManager.request_ok sound accepted).2
  cases request with
  | startService credit =>
    obtain ⟨_, -, accepted⟩ := bind_ok.mp accepted
    obtain ⟨_, resting, accepted⟩ := bind_ok.mp accepted
    cases accepted
    have state := WebserversManager.checkState_ok resting
    exact ⟨by decide, steady.resting ((List.mem_cons.mp state).imp_right List.mem_singleton.mp)⟩
  | stopService =>
    cases accepted
    exact ⟨by decide, trivial⟩
  | addNodes nodeRoles credit =>
    obtain ⟨_, -, accepted⟩ := bind_ok.mp accepted
    obtain ⟨_, roles, accepted⟩ := bind_ok.mp accepted
    obtain ⟨_, -, accepted⟩ := bind_ok.mp accepted
    obtain ⟨_, -, accepted⟩ := bind_ok.mp accepted
    cases accepted
    exact ⟨by decide, ready, checkNodeRoles_roles roles⟩
  | removeNodes nodeRoles =>
    obtain ⟨_, -, accepted⟩ := bind_ok.mp accepted
    obtain ⟨_, -, accepted⟩ := bind_ok.mp accepted
    obtain ⟨_, -, accepted⟩ := bind_ok.mp accepted
    cases accepted
    exact ⟨by decide, ready⟩

/-- The versions of the code change, and none that matters goes away. -/
theorem Steady.withVersions (steady : Steady urls p) {codeVersions : CodeVersions} {codeRepo : List String}
    (code : (p.manager.withVersions codeVersions codeRepo).Sound) (deployable : ∀ version ∈ codeVersions.rows, Deployable version) :
    Steady urls ⟨p.manager.withVersions codeVersions codeRepo, p.fleet⟩ where
  code := code
  counted := steady.counted
  balanced := steady.balanced
  resting := steady.resting
  busy := steady.busy
  alone := steady.alone.imp_right fun ⟨work, only, ready⟩ => ⟨work, only, by
    cases work with
    | service work => cases work <;> exact ready
    | updating _ _ => exact ready⟩
  deployable := deployable
  matched := steady.matched.congr rfl rfl rfl

/-- A version becomes current while the service runs, or at once while it has no
nodes. -/
theorem Steady.update (steady : Steady urls p) {codeVersionId : Option String} {phpconf : Bool}
    (code : (p.manager.update codeVersionId phpconf).Sound) (state : p.manager.deployment.state ∈ updateStates) :
    Steady urls ⟨p.manager.update codeVersionId phpconf, p.fleet⟩ := by
  unfold CodeWebManager.update at code ⊢
  split at code
  · rename_i running
    rw [if_pos running]
    have idle : p.manager.inFlight = [] := by
      by_contra some
      exact steady.busy some running
    have adapting : (p.manager.starts .adapting (.updating codeVersionId phpconf)).deployment.state ≠ .running := by
      simp [CodeWebManager.starts]
    refine ⟨code, steady.counted, fun running => absurd running adapting, fun rest => ?_, fun _ => adapting, .inr ⟨.updating codeVersionId phpconf, ?_, steady.balanced running⟩, steady.deployable, steady.matched⟩
    · rcases rest with init | stopped
      · cases init
      · cases stopped
    · exact congrArg (· ++ [_]) idle
  · rename_i still
    rw [if_neg still]
    have rest : p.manager.deployment.state = .init ∨ p.manager.deployment.state = .stopped := by
      rcases List.mem_cons.mp state with init | state
      · exact .inl init
      rcases List.mem_cons.mp state with stopped | state
      · exact .inr stopped
      · exact absurd (List.mem_singleton.mp state) still
    cases codeVersionId with
    | none => exact steady
    | some codeVersionId =>
      dsimp only at code ⊢
      split at code
      · rename_i empty
        rw [if_pos empty]
        exact steady
      · rename_i chosen
        rw [if_neg chosen]
        refine ⟨code, steady.counted, steady.balanced, steady.resting, steady.busy, ?_, steady.deployable, .of_empty (steady.resting rest)⟩
        refine steady.alone.imp_right fun ⟨work, only, ready⟩ => ⟨work, only, ?_⟩
        cases work with
        | service work => cases work <;> exact ready
        | updating _ _ => exact ready

/-- A request keeps what the threads and the agents rely on. -/
theorem Steady.request (steady : Steady urls p) {request : CodeWebRequest} (orderly : p.Orderly (.request request))
    (answered : p.manager.answer request = .ok after) : Steady urls ⟨after, p.fleet⟩ := by
  have careful : p.manager.Careful (.request request) := by
    cases request with
    | deleteCodeVersion codeVersionId => exact orderly
    | _ => trivial
  have code := steady.code.answer careful answered
  cases request with
  | service request =>
    obtain ⟨⟨state, work⟩, accepted, rfl⟩ := map_ok.mp answered
    obtain ⟨other, ready⟩ := steady.accepted accepted
    have stops := orderly (state, work) (by rw [accepted]; rfl)
    simp only [List.mem_cons, List.not_mem_nil, or_false, not_or] at other
    obtain ⟨notInit, notStopped, notRunning⟩ := other
    refine ⟨code, steady.counted, fun running => absurd running notRunning, fun rest => rest.elim (absurd · notInit) (absurd · notStopped),
      fun _ => notRunning, ?_, steady.deployable, steady.matched⟩
    cases others : p.manager.inFlight with
    | nil =>
      refine .inr ⟨.service work, congrArg (· ++ [CodeWebWork.service work]) others, ?_⟩
      cases work <;> exact ready
    | cons other rest =>
      refine .inl fun work' member => ?_
      rcases List.mem_append.mp member with old | new
      · exact (stops work' old).2
      · rw [List.mem_singleton.mp new]
        exact congrArg CodeWebWork.service (stops other (others ▸ List.mem_cons_self)).1
  | uploadCodeVersion version archive =>
    obtain ⟨_, _, rfl⟩ := map_ok.mp answered
    refine steady.withVersions code fun other member => ?_
    rcases Table.mem_put.mp member with rfl | ⟨old, -⟩
    · exact orderly
    · exact steady.deployable other old
  | onGitPush revision description =>
    cases answered
    refine steady.withVersions code fun other member => ?_
    rcases Table.mem_put.mp member with rfl | ⟨old, -⟩
    · exact ⟨show "git" ∈ validFiletypes by decide, fun _ => orderly⟩
    · exact steady.deployable other old
  | updatePhpConfiguration codeVersionId phpconf =>
    obtain ⟨configures, checked, rfl⟩ := map_ok.mp answered
    obtain ⟨_, -, checked⟩ := bind_ok.mp checked
    obtain ⟨_, state, -⟩ := bind_ok.mp checked
    exact steady.update code (BaseManager.checkState_ok state)
  | updateJavaConfiguration codeVersionId =>
    cases codeVersionId with
    | none => cases answered
    | some codeVersionId =>
      obtain ⟨_, -, answered⟩ := bind_ok.mp answered
      obtain ⟨_, state, answered⟩ := bind_ok.mp answered
      cases answered
      exact steady.update code (BaseManager.checkState_ok state)
  | deleteCodeVersion codeVersionId =>
    obtain ⟨_, _, rfl⟩ := map_ok.mp answered
    exact steady.withVersions code fun other member => steady.deployable other (Table.mem_erase.mp member).1

end Platform

end ConPaaS
