import ConPaaS.Webservers.Platform

namespace ConPaaS

open Keyed Transition Fallible Effect Deployment Agents WebServersAgent

namespace ServiceConfiguration

variable {config after : ServiceConfiguration} {nodes : List ServiceNode}

/-- The nodes of a start, the last one first, before those there were. -/
theorem startNodes_ips {kwargs : Option (List Tier)} (distinct : (nodes.map ServiceNode.id).Nodup) (fresh : ∀ node ∈ nodes, node.id ∉ config.ids)
    (run : config.startNodes kwargs (nodes.map .node) = (after, true)) : after.serviceNodes.rows.map (fun node => node.ip) =
      (nodes.map ServiceNode.ip).reverse ++ config.serviceNodes.rows.map fun node => node.ip := by
  induction nodes generalizing config kwargs with
  | nil =>
    cases run
    rfl
  | cons node rest ih =>
    obtain ⟨apart, distinct⟩ := List.nodup_cons.mp distinct
    rw [List.map_cons, startNodes] at run
    split at run
    · cases run
    · rename_i duties _
      have new : (WebServiceNode.started node defaultWeight defaultWeight duties).id ∉ config.ids := fresh node List.mem_cons_self
      rw [ih distinct ?_ run, put_rows new, List.map_cons, List.map_cons, List.reverse_cons, List.append_assoc]
      · rfl
      · intro later member inside
        rw [put_ids new] at inside
        rcases Finset.mem_insert.mp inside with same | old
        · exact apart (List.mem_map.mpr ⟨later, member, same⟩)
        · exact fresh later (List.mem_cons_of_mem _ member) old

theorem onStart_ips (config : ServiceConfiguration) (distinct : (nodes.map ServiceNode.id).Nodup)
    (run : config.onStart (nodes.map .node) = (after, true)) :
    after.serviceNodes.rows.map (fun node => node.ip) = (nodes.map ServiceNode.ip).reverse := by
  unfold onStart at run
  split at run
  · rename_i started nodes
    cases run
    have ips := startNodes_ips distinct (fun _ _ => by simp [ids]) nodes
    rwa [Table.empty, List.map_nil, List.append_nil] at ips
  · cases run

/-- As many duties are handed out as there are nodes, if each has the role of one. -/
theorem newDuties_all (roles : ∀ node ∈ nodes, ∃ tier : Tier, node.role = tier.role) : (newDuties nodes).length = nodes.length := by
  have all : supplied nodes .proxy + supplied nodes .web + supplied nodes .backend = nodes.length := by
    induction nodes with
    | nil => rfl
    | cons node rest ih =>
      obtain ⟨⟨tier, role⟩, later⟩ := List.forall_mem_cons.mp roles
      have one : (if node.role = Tier.proxy.role then 1 else 0) + (if node.role = Tier.web.role then 1 else 0) +
          (if node.role = Tier.backend.role then 1 else 0) = 1 := by
        rw [role]
        cases tier <;> decide
      have others := ih later
      simp only [supplied_cons, List.length_cons]
      omega
  simp only [newDuties, List.length_append, List.length_replicate]
  exact all

theorem webTuples_of_balanced (balance : config.Balanced) : config.getWebTuples ≠ [] := by
  obtain ⟨node, member, runs⟩ := balance.packed.covered .web
  refine List.ne_nil_of_mem (List.mem_map_of_mem (a := node) (List.mem_filter.mpr ⟨member, runs⟩))

/-- What is left when nodes have been added. -/
theorem enlarged_balanced (balance : config.Balanced) {nodeRoles : NodeRoles} (checked : config.checkAddNodes nodeRoles = .ok ())
    (roles : ∀ tier : Tier, supplied nodes tier = nodeRoles tier.role) (distinct : (nodes.map ServiceNode.id).Nodup)
    (fresh : ∀ node ∈ nodes, node.id ∉ config.ids) : ∃ webKill backendKill, config.unpacked .backend (supplied nodes .backend) = .ok backendKill ∧
      config.unpacked .web (supplied nodes .web) = .ok webKill ∧ (Agents.enlarged config nodes webKill backendKill).recount.Balanced := by
  obtain ⟨backendKill, backend, -⟩ := balance.unpacked (show Tier.backend ≠ .proxy by decide) (supplied nodes .backend)
  obtain ⟨webKill, web, -⟩ := balance.unpacked (show Tier.web ≠ .proxy by decide) (supplied nodes .web)
  obtain ⟨after, run, balanced, -⟩ := balance.onAddNodes checked roles distinct fresh
  simp only [onAddNodes, backend, web] at run
  exact ⟨webKill, backendKill, backend, web, Except.ok.inj run ▸ balanced⟩

/-- What is left when nodes have been given back. -/
theorem smaller_balanced (balance : config.Balanced) {nodeRoles : NodeRoles} (checked : config.checkRemoveNodes nodeRoles = .ok ()) :
    ∃ packingNode, firstNode config.getProxyServiceNodes = .ok packingNode ∧
      (shrunk config nodeRoles packingNode).deleteUnused.1.recount.Balanced ∧
        Released config (shrunk config nodeRoles packingNode).deleteUnused.1.recount (shrunk config nodeRoles packingNode).deleteUnused.2 := by
  obtain ⟨after, nodes, run, balanced, -, released⟩ := balance.onRemoveNodes checked
  cases first : firstNode config.getProxyServiceNodes with
  | error text =>
    rw [onRemoveNodes, first] at run
    cases run
  | ok packingNode =>
    rw [onRemoveNodes, first] at run
    obtain ⟨rfl, rfl⟩ := Prod.mk.inj (Except.ok.inj run)
    exact ⟨packingNode, rfl, balanced, released⟩

end ServiceConfiguration

namespace Agents

variable {urls : String → List String} {kind : WebKind} {s : Deployment}

theorem onStart_obliging {entries : List Entry} {changed : ServiceConfiguration} (run : s.config.onStart entries = (changed, true))
    (known : Known (s.config.deploy changed) changed.serviceNodes.rows) : (obliging urls).onStart kind entries s =
      .ok () ({ s with config := s.config.deploy changed }.toldAll (startCalls urls kind (s.config.deploy changed) (entryNodes entries))) := by
  have duties : Makes ((obliging urls).startDuties kind (s.config.deploy changed) (entryNodes entries)) _ := makes_startDuties _ known
  rw [onStart, get_bind]
  simp only [run, if_true]
  exact duties _

theorem onStop_obliging : (obliging urls).onStop kind s =
    .ok s.config.serviceNodes.rows { s.toldAll (haltCalls kind s.config) with config := s.config.deploy s.config.onStop.1 } := by
  have duties : Makes ((obliging urls).haltDuties kind s.config) _ := makes_haltDuties
  rw [onStop, get_bind, bind_of_ok (duties s)]
  rfl

theorem onAddNodes_obliging {nodes : List ServiceNode} {webKill backendKill : List WebServiceNode} {changed : CodeConfiguration}
    (backend : s.config.unpacked .backend (ServiceConfiguration.supplied nodes .backend) = .ok backendKill)
    (web : s.config.unpacked .web (ServiceConfiguration.supplied nodes .web) = .ok webKill)
    (enlarged : s.config.deploy (enlarged s.config.toServiceConfiguration nodes webKill backendKill) = changed)
    (known : Known changed (newNodes nodes)) : (obliging urls).onAddNodes kind nodes s =
      .ok () { s.toldAll (addCalls urls kind changed nodes webKill backendKill) with config := changed.deploy changed.recount } := by
  have duties : Makes ((obliging urls).addDuties kind changed nodes webKill backendKill) _ := makes_addDuties nodes webKill backendKill known
  obtain ⟨config, state, calls⟩ := s
  subst enlarged
  rw [onAddNodes_eq _ _ backend web, bind_of_ok (duties _)]
  rfl

theorem onRemoveNodes_obliging {nodeRoles : ServiceConfiguration.NodeRoles} {packingNode : WebServiceNode}
    (first : ServiceConfiguration.firstNode s.config.getProxyServiceNodes = .ok packingNode)
    (known : ∃ version, s.config.codeVersions.get? s.config.currentCodeVersion = some version) : ∃ nodes,
      (obliging urls).onRemoveNodes kind nodeRoles s = .ok nodes { s.toldAll (Fleet.removeCalls urls kind s.config nodeRoles packingNode) with
        config := removed s.config nodeRoles packingNode, state := .running } := by
  have there : Known (Fleet.smaller s.config nodeRoles packingNode)
      [packed (Fleet.smaller s.config nodeRoles packingNode).toServiceConfiguration packingNode] := fun _ => known
  have packs : Makes (packOrders (obliging urls) kind s.config nodeRoles packingNode) _ := makes_packDuties there _ _ _ _
  have stops : Makes ((obliging urls).stopDuties kind (kills s.config.toServiceConfiguration nodeRoles)) _ := makes_stopDuties _
  refine ⟨_, onRemoveNodes_ok.mpr ⟨packingNode, first, rfl, _, _, packs _, stops _, ?_⟩⟩
  simp only [Fleet.removeCalls, toldAll_append]
  rfl

theorem doUpdateConfiguration_obliging (codeVersionId : Option String) (phpconf : Bool)
    (known : ∀ id ∈ codeVersionId, ∃ version, s.config.codeVersions.get? id = some version) :
    (obliging urls).doUpdateConfiguration kind codeVersionId phpconf s =
      .ok () { s.toldAll (Fleet.updateCalls urls kind s.config codeVersionId phpconf) with
        config := Fleet.updated kind s.config codeVersionId, state := .running } := by
  have settings : (obliging urls).updatePhpConf kind phpconf s =
      .ok () (s.toldAll (if kind = .php ∧ phpconf = true then callsTo .updatePHP s.config.getBackendServiceNodes else [])) := by
    rw [updatePhpConf, get_bind]
    split
    · exact makes_tellEach _ _ s
    · rw [toldAll_nil]
      rfl
  rw [doUpdateConfiguration, bind_of_ok settings]
  cases codeVersionId with
  | none =>
    rw [Fleet.updateCalls, Option.elim_none, List.append_nil]
    rfl
  | some id =>
    have duties : Makes ((obliging urls).switchDuties kind (switched kind s.config id)) _ := makes_switchDuties fun _ => known id rfl
    have switch (t : Deployment) (same : t.config = s.config) : (obliging urls).switchCode kind id t =
        .ok () ({ t with config := switched kind s.config id }.toldAll (switchCalls urls kind (switched kind s.config id))) := by
      rw [switchCode, get_bind, same]
      exact (bind_of_ok rfl).trans (duties _)
    rw [Fleet.updateCalls, Option.elim_some, ← toldAll_append]
    exact bind_of_ok (switch (s.toldAll _) rfl)

end Agents

namespace Platform

variable {urls : String → List String} {p : Platform} {position : Nat} {reply : NodesReply}

/-- A node that is not in the configuration any more is left without processes of
the duties. -/
def Vacated (before after : Platform) : Prop :=
  ∀ node ∈ before.manager.deployment.config.serviceNodes.rows, node.id ∉ after.manager.deployment.config.ids →
    Fleet.Idle before.manager.kind (after.fleet node.ip)

/-- No agent refuses the orders of a thread, and what is relied on is kept. -/
def Proceeds (urls : String → List String) (p : Platform) (position : Nat) (reply : NodesReply) (after : CodeWebManager) : Prop :=
  ∃ fleet, p.handle urls (.advance position reply) = some ⟨after, fleet⟩ ∧ Steady urls ⟨after, fleet⟩ ∧ Vacated p ⟨after, fleet⟩

theorem Vacated.of_kept {q : Platform} (kept : p.manager.deployment.config.ids ⊆ q.manager.deployment.config.ids) : Vacated p q :=
  fun node member gone => absurd (kept (ServiceConfiguration.mem_ids.mpr ⟨node, member, rfl⟩)) gone

theorem Vacated.of_empty {q : Platform} (idle : p.manager.deployment.config.serviceNodes.rows = []) : Vacated p q :=
  fun _ member => absurd (idle ▸ member) List.not_mem_nil

theorem proceeds (calls : List AgentCall) {work : CodeWebWork} {after : CodeWebManager} {fleet : Fleet}
    (here : p.manager.inFlight[position]? = some work) (moved : p.manager.carryOut position reply (obliging urls) work = after)
    (told : after.deployment.calls = p.manager.deployment.calls ++ calls.map fun call => (call, true))
    (carried : Fleet.carryOut calls (p.booted (.advance position reply)) = some fleet) (steady : Steady urls ⟨after, fleet⟩)
    (vacated : Vacated p ⟨after, fleet⟩) : Proceeds urls p position reply after := by
  refine ⟨fleet, ?_, steady, vacated⟩
  have taken : p.manager.handle (seen urls (.advance position reply)) = some after := by
    simp only [seen, CodeWebManager.handle, here, Option.map_some, moved]
  have calls : newCalls p.manager after = calls := by
    rw [newCalls, told, List.drop_left, List.map_map]
    exact List.map_id _
  rw [handle, taken, Option.bind_some, calls, carried, Option.map_some]

/-- A service that ends its last operation. -/
theorem Steady.rest {m : CodeWebManager} {fleet : Fleet} (code : m.Sound) (counted : m.deployment.config.Counted)
    (balanced : m.deployment.state = .running → m.deployment.config.Balanced)
    (resting : m.deployment.state = .init ∨ m.deployment.state = .stopped → m.deployment.config.serviceNodes.rows = [])
    (idle : m.inFlight = []) (deployable : ∀ version ∈ m.deployment.config.codeVersions.rows, Deployable version)
    (matched : Fleet.Matches urls m.kind m.deployment.config fleet) : Steady urls ⟨m, fleet⟩ where
  code := code
  counted := counted
  balanced := balanced
  resting := resting
  busy := fun some => absurd idle some
  alone := .inl (by
    intro work member
    rw [idle] at member
    cases member)
  deployable := deployable
  matched := matched

theorem Steady.canDeploy (steady : Steady urls p) : Fleet.CanDeploy p.manager.deployment.config := by
  obtain ⟨version, member, same⟩ := List.mem_map.mp steady.code.current
  exact ⟨version, same ▸ Table.get?_of_mem member, steady.deployable version member⟩

/-- A thread that gets no nodes does not change the agents. -/
theorem booted_none {event : PlatformEvent} (none : p.gained event = []) : p.booted event = p.fleet := by
  funext ip
  simp [booted, none]

section Alone

variable (steady : Steady urls p)

include steady

theorem Steady.starting (alone : p.manager.inFlight = [.service .starting]) (idle : p.manager.deployment.config.serviceNodes.rows = [])
    (apart : ¬ p.manager.deployment.config.BackendPacked) :
    Proceeds urls p 0 reply (p.manager.carryOut 0 reply (obliging urls) (.service .starting)) := by
  have here : p.manager.inFlight[0]? = some (.service .starting) := by rw [alone]; rfl
  have same := steady.counted.getStartingNodes
  have gained : p.gained (.advance 0 reply) = [] := by simp only [Platform.gained, here]
  have code := steady.code.carryOut reply (obliging urls) here
  have moved : p.manager.carryOut 0 reply (obliging urls) (.service .starting) = { p.manager with
      deployment := { p.manager.deployment with config := p.manager.deployment.config.deploy p.manager.deployment.config.toServiceConfiguration }
      inFlight := [.service (.creating (getSninfo p.manager.deployment.config.getStartingNodes.2))] } := by
    simp only [CodeWebManager.carryOut, same, alone, List.set_cons_zero]
  rw [moved] at code ⊢
  refine proceeds [] here moved (List.append_nil _).symm rfl ?_ (.of_empty idle)
  rw [booted_none gained]
  have resting := steady.busy (by rw [alone]; exact List.cons_ne_nil _ _)
  exact ⟨code, steady.counted, steady.balanced, steady.resting, fun _ => resting, .inr ⟨_, rfl, ⟨rfl, apart⟩, idle⟩, steady.deployable, steady.matched⟩

/-- An operation ends in which nothing was asked of the agents. -/
theorem Steady.quiet (nodes : ServiceConfiguration) {work : Work} (alone : p.manager.inFlight = [.service work]) (sleeps : work ≠ .starting)
    (gained : p.gained (.advance 0 reply) = [] ∨ p.manager.deployment.config.serviceNodes.rows = [])
    (kept : nodes.serviceNodes = p.manager.deployment.config.serviceNodes ∨
      (p.manager.deployment.config.serviceNodes.rows = [] ∧ nodes.serviceNodes.rows = []))
    (counted : nodes.Counted)
    (unchanged : left (p.manager.hook (obliging urls) reply work) p.manager.deployment =
      { p.manager.deployment with config := p.manager.deployment.config.deploy nodes }) :
    Proceeds urls p 0 reply (p.manager.carryOut 0 reply (obliging urls) (.service work)) := by
  have here : p.manager.inFlight[0]? = some (.service work) := by rw [alone]; rfl
  have idle : p.manager.inFlight.eraseIdx 0 = [] := by rw [alone]; rfl
  have still := steady.busy (by rw [alone]; exact List.cons_ne_nil _ _)
  have code := steady.code.carryOut reply (obliging urls) here
  have moved : p.manager.carryOut 0 reply (obliging urls) (.service work) =
      p.manager.ended 0 { p.manager.deployment with config := p.manager.deployment.config.deploy nodes } := by
    cases work with
    | starting => exact absurd rfl sleeps
    | _ => exact congrArg (p.manager.ended 0) unchanged
  rw [moved] at code ⊢
  have empty : p.manager.deployment.config.serviceNodes.rows = [] → nodes.serviceNodes.rows = [] := fun none =>
    kept.elim (fun same => same ▸ none) And.right
  have matched : Fleet.Matches urls p.manager.kind (p.manager.deployment.config.deploy nodes) (p.booted (.advance 0 reply)) := by
    rcases gained with none | none
    · rw [booted_none none]
      rcases kept with same | ⟨-, none⟩
      · exact steady.matched.congr same rfl rfl
      · exact .of_empty none
    · exact .of_empty (empty none)
  refine proceeds [] here moved (List.append_nil _).symm rfl (.rest code counted (fun running => absurd running still)
    (fun rest => empty (steady.resting rest)) idle steady.deployable matched) ?_
  rcases kept with same | ⟨none, -⟩
  · exact .of_kept (by
      intro id member
      have ids : nodes.ids = p.manager.deployment.config.ids := by rw [ServiceConfiguration.ids, same, ServiceConfiguration.ids]
      exact ids ▸ member)
  · exact .of_empty none

/-- An operation ends after which the service runs. -/
theorem Steady.ends {work : Work} (alone : p.manager.inFlight = [.service work]) (sleeps : work ≠ .starting) {calls : List AgentCall}
    {changed : CodeConfiguration} {fleet : Fleet}
    (performed : left (p.manager.hook (obliging urls) reply work) p.manager.deployment =
      ⟨changed, .running, (p.manager.deployment.toldAll calls).calls⟩)
    (carried : Fleet.carryOut calls (p.booted (.advance 0 reply)) = some fleet)
    (versions : changed.codeVersions = p.manager.deployment.config.codeVersions) (balance : changed.Balanced)
    (matched : Fleet.Matches urls p.manager.kind changed fleet)
    (vacated : ∀ node ∈ p.manager.deployment.config.serviceNodes.rows, node.id ∉ changed.ids → Fleet.Idle p.manager.kind (fleet node.ip)) :
    Proceeds urls p 0 reply (p.manager.carryOut 0 reply (obliging urls) (.service work)) := by
  have here : p.manager.inFlight[0]? = some (.service work) := by rw [alone]; rfl
  have idle : p.manager.inFlight.eraseIdx 0 = [] := by rw [alone]; rfl
  have code := steady.code.carryOut reply (obliging urls) here
  have moved : p.manager.carryOut 0 reply (obliging urls) (.service work) =
      p.manager.ended 0 ⟨changed, .running, (p.manager.deployment.toldAll calls).calls⟩ := by
    cases work with
    | starting => exact absurd rfl sleeps
    | _ => exact congrArg (p.manager.ended 0) performed
  rw [moved] at code ⊢
  refine proceeds calls here moved rfl carried (.rest code balance.counted (fun _ => balance) (fun rest => ?_) idle
    (versions ▸ steady.deployable) matched) vacated
  rcases rest with init | stopped
  · cases init
  · cases stopped

/-- The nodes of a start get their duties. -/
theorem Steady.creating {sninfo : List String} (alone : p.manager.inFlight = [.service (.creating sninfo)])
    (ready : p.Ready (.service (.creating sninfo))) (supplied : p.Supplied 0 reply) :
    Proceeds urls p 0 reply (p.manager.carryOut 0 reply (obliging urls) (.service (.creating sninfo))) := by
  have here : p.manager.inFlight[0]? = some (.service (.creating sninfo)) := by rw [alone]; rfl
  obtain ⟨⟨rfl, apart⟩, idle⟩ := ready
  cases created : createNodes reply with
  | none =>
    refine steady.quiet p.manager.deployment.config.toServiceConfiguration alone (by simp) (.inr idle) (.inl rfl) steady.counted ?_
    simp only [CodeWebManager.hook, created]
    rfl
  | some nodes =>
    rcases WebserversManager.createNodes_some created with ⟨rest, entries⟩ | ⟨sent, rfl, entries⟩
    · refine steady.quiet { p.manager.deployment.config with serviceNodes := .empty } alone (by simp) (.inr idle) (.inr ⟨idle, rfl⟩)
        (steady.counted.replace _) ?_
      simp only [CodeWebManager.hook, created, entries]
      rfl
    · obtain ⟨delivered, distinct, -⟩ : p.Gets sent (.service (.creating _)) := supplied _ here
      obtain ⟨config, run, balance, -⟩ := steady.counted.onStart apart delivered
      rw [← entries] at run
      generalize started : p.manager.deployment.config.deploy config = changed at *
      have nodesOf : entryNodes nodes.entries = sent := by
        rw [entries, entryNodes, List.filterMap_map]
        exact List.filterMap_some
      have deployable : Fleet.CanDeploy changed := started ▸ steady.canDeploy
      have known : Known (p.manager.deployment.config.deploy config) config.serviceNodes.rows := fun _ => by
        obtain ⟨version, found, -⟩ := steady.canDeploy
        exact ⟨version, found⟩
      have gained : p.gained (.advance 0 (.created sent)) = sent := by simp only [Platform.gained, here]
      have ips : changed.serviceNodes.rows.map (fun node => node.ip) = (sent.map ServiceNode.ip).reverse := by
        rw [← started]
        exact ServiceConfiguration.onStart_ips _ delivered.2 (entries ▸ run)
      obtain ⟨fleet, carried, matched⟩ := @Fleet.start_accepted (p.booted (.advance 0 (.created sent))) urls p.manager.kind changed sent
        (by rw [ips]; exact List.nodup_reverse.mpr distinct) distinct (fun ip => by rw [ips, List.mem_reverse])
        (fun node member => by
          have inside : node.ip ∈ sent.map ServiceNode.ip := by
            rw [← List.mem_reverse, ← ips]
            exact List.mem_map_of_mem (f := fun node => node.ip) member
          rw [Platform.booted, gained, if_pos inside])
        deployable (started ▸ ServiceConfiguration.webTuples_of_balanced balance)
      have begun : (obliging urls).onStart p.manager.kind nodes.entries p.manager.deployment = .ok () _ := onStart_obliging run known
      rw [nodesOf, started] at begun
      have performed : left (p.manager.hook (obliging urls) (.created sent) (.creating (getSninfo p.manager.deployment.config.getStartingNodes.2)))
          p.manager.deployment =
          ⟨changed, .running, (p.manager.deployment.toldAll (startCalls urls p.manager.kind changed sent)).calls⟩ := by
        simp only [CodeWebManager.hook, created]
        exact left_ok ((bind_of_ok begun).trans rfl)
      refine steady.ends alone (by simp) performed carried (started ▸ rfl) (started ▸ balance) matched fun node member => ?_
      rw [idle] at member
      cases member

/-- The nodes that were added get their duties. -/
theorem Steady.adding {nodeRoles : RoleCounts} (alone : p.manager.inFlight = [.service (.adding nodeRoles)])
    (ready : p.Ready (.service (.adding nodeRoles))) (supplied : p.Supplied 0 reply) :
    Proceeds urls p 0 reply (p.manager.carryOut 0 reply (obliging urls) (.service (.adding nodeRoles))) := by
  have here : p.manager.inFlight[0]? = some (.service (.adding nodeRoles)) := by rw [alone]; rfl
  obtain ⟨⟨balance, checked⟩, roles⟩ := ready
  cases replied : WebserversManager.repliedNodes reply with
  | none =>
    have gained : p.gained (.advance 0 reply) = [] := by
      cases reply with
      | failed => simp only [Platform.gained, here]
      | error rest => simp only [Platform.gained, here]
      | created nodes =>
        cases nodes with
        | nil => simp only [Platform.gained, here]
        | cons node rest =>
          have some : WebserversManager.repliedNodes (.created (node :: rest)) = some (node :: rest) :=
            WebserversManager.nodesOf_nodes (node :: rest)
          cases some.symm.trans replied
    refine steady.quiet p.manager.deployment.config.toServiceConfiguration alone (by simp) (.inl gained) (.inl rfl) steady.counted ?_
    simp only [CodeWebManager.hook, replied]
    rfl
  | some nodes =>
    obtain rfl := WebserversManager.repliedNodes_some replied
    obtain ⟨⟨delivered, fresh⟩, distinct, unused⟩ : p.Gets nodes (.service (.adding nodeRoles)) := supplied _ here
    have gained : p.gained (.advance 0 (.created nodes)) = nodes := by simp only [Platform.gained, here]
    have unknown : ∀ node ∈ nodes, node.id ∉ p.manager.deployment.config.ids := by
      intro node member old
      obtain ⟨known, stored, same⟩ := ServiceConfiguration.mem_ids.mp old
      exact fresh node member known stored same
    obtain ⟨webKill, backendKill, backend, web, balanced⟩ := ServiceConfiguration.enlarged_balanced balance checked
      (WebserversManager.supplied_requested delivered) delivered.2 unknown
    generalize grown : p.manager.deployment.config.deploy (enlarged p.manager.deployment.config.toServiceConfiguration nodes webKill backendKill) =
      changed
    have joining : Fleet.Joining p.manager.deployment.config changed nodes webKill backendKill :=
      ⟨delivered.2, unknown, distinct, unused, ServiceConfiguration.newDuties_all fun node member =>
        roles node.role (delivered.1.mem_iff.mp (List.mem_map_of_mem member)), backend, web, grown⟩
    have apart : ∀ ip ∈ p.manager.deployment.config.serviceNodes.rows.map (fun node => node.ip), p.booted (.advance 0 (.created nodes)) ip = p.fleet ip :=
      fun ip known => by rw [Platform.booted, gained, if_neg fun new => unused ip new known]
    have matched : Fleet.Matches urls p.manager.kind p.manager.deployment.config (p.booted (.advance 0 (.created nodes))) :=
      ⟨steady.matched.apart, fun node member => apart node.ip (List.mem_map_of_mem (f := fun node => node.ip) member) ▸ steady.matched.runs node member⟩
    have balanced : (changed.deploy changed.recount).Balanced := grown ▸ balanced
    have webs : (changed.deploy changed.recount).getWebTuples ≠ [] := ServiceConfiguration.webTuples_of_balanced balanced
    obtain ⟨fleet, carried, after⟩ := Fleet.add_accepted matched joining (fun ip new => by rw [Platform.booted, gained, if_pos new])
      steady.canDeploy webs
    have known : Known changed (newNodes nodes) := fun _ => by
      obtain ⟨version, found, -⟩ := steady.canDeploy
      exact ⟨version, grown ▸ found⟩
    have performed : left (p.manager.hook (obliging urls) (.created nodes) (.adding nodeRoles)) p.manager.deployment =
        ⟨changed.deploy changed.recount, .running, (p.manager.deployment.toldAll (addCalls urls p.manager.kind changed nodes webKill backendKill)).calls⟩ := by
      simp only [CodeWebManager.hook, replied]
      exact left_ok ((bind_of_ok (onAddNodes_obliging backend web grown known)).trans rfl)
    refine steady.ends alone (by simp) performed carried (grown ▸ rfl) balanced (after.congr rfl rfl rfl) fun node member gone => absurd ?_ gone
    have here : node.relieved webKill backendKill ∈ changed.serviceNodes.rows := by
      rw [joining.rows]
      exact List.mem_append_right _ (List.mem_map_of_mem member)
    exact ServiceConfiguration.mem_ids.mpr ⟨_, here, (node.sameMachine_relieved webKill backendKill).id⟩

/-- The nodes that stay take over what the others lose. -/
theorem Steady.removing {nodeRoles : RoleCounts} (alone : p.manager.inFlight = [.service (.removing nodeRoles)])
    (ready : p.Ready (.service (.removing nodeRoles))) :
    Proceeds urls p 0 reply (p.manager.carryOut 0 reply (obliging urls) (.service (.removing nodeRoles))) := by
  have here : p.manager.inFlight[0]? = some (.service (.removing nodeRoles)) := by rw [alone]; rfl
  obtain ⟨balance, checked⟩ : p.manager.deployment.config.Balanced ∧
    p.manager.deployment.config.checkRemoveNodes nodeRoles.requested = .ok () := ready
  have gained : p.gained (.advance 0 reply) = [] := by simp only [Platform.gained, here]
  obtain ⟨packingNode, first, balanced, released⟩ := ServiceConfiguration.smaller_balanced balance checked
  have leaving : Fleet.Leaving p.manager.deployment.config nodeRoles.requested packingNode := ⟨balance, checked, first⟩
  have webs : (removed p.manager.deployment.config nodeRoles.requested packingNode).getWebTuples ≠ [] :=
    ServiceConfiguration.webTuples_of_balanced balanced
  obtain ⟨fleet, carried, after, idle⟩ := Fleet.remove_accepted steady.matched leaving steady.canDeploy
    (by rwa [Fleet.removed_webTuples] at webs)
  rw [← booted_none gained] at carried
  obtain ⟨nodes, run⟩ : ∃ nodes, (obliging urls).onRemoveNodes p.manager.kind nodeRoles.requested p.manager.deployment = .ok nodes _ :=
    onRemoveNodes_obliging first (steady.canDeploy.imp fun _ => And.left)
  have performed := left_ok (bind_of_ok (f := fun _ => pure ()) run)
  refine steady.ends alone (by simp) performed carried rfl balanced after fun node member gone => ?_
  have back : node.id ∈ (Fleet.smaller p.manager.deployment.config nodeRoles.requested packingNode).deleteUnused.2.map WebServiceNode.id := by
    by_contra stays
    exact gone ((released.kept node.id).mpr ⟨ServiceConfiguration.mem_ids.mpr ⟨node, member, rfl⟩, stays⟩)
  obtain ⟨other, deleted, same⟩ := List.mem_map.mp back
  have itself := (Fleet.smaller p.manager.deployment.config nodeRoles.requested packingNode).serviceNodes.unique (List.mem_of_mem_filter deleted)
    (Fleet.remaining_mem nodeRoles.requested packingNode member)
    (same.trans (node.sameMachine_remaining p.manager.deployment.config.toServiceConfiguration nodeRoles.requested packingNode).id.symm)
  have place : other.ip = node.ip := itself ▸ (node.sameMachine_remaining _ nodeRoles.requested packingNode).ip
  exact place ▸ idle other deleted

/-- A service changes its code or the settings of PHP. -/
theorem Steady.updating {codeVersionId : Option String} {phpconf : Bool} (alone : p.manager.inFlight = [.updating codeVersionId phpconf])
    (balance : p.manager.deployment.config.Balanced) :
    Proceeds urls p 0 reply (p.manager.carryOut 0 reply (obliging urls) (.updating codeVersionId phpconf)) := by
  have here : p.manager.inFlight[0]? = some (.updating codeVersionId phpconf) := by rw [alone]; rfl
  have idle : p.manager.inFlight.eraseIdx 0 = [] := by rw [alone]; rfl
  have gained : p.gained (.advance 0 reply) = [] := by simp only [Platform.gained, here]
  have code := steady.code.carryOut reply (obliging urls) here
  have known : ∀ id ∈ codeVersionId, ∃ version, p.manager.deployment.config.codeVersions.get? id = some version ∧ Deployable version := by
    rintro id rfl
    obtain ⟨version, member, same⟩ := List.mem_map.mp (steady.code.pending id phpconf (alone ▸ List.mem_cons_self))
    exact ⟨version, same ▸ Table.get?_of_mem member, steady.deployable version member⟩
  obtain ⟨fleet, carried, matched⟩ := Fleet.update_accepted steady.matched codeVersionId phpconf known
    (ServiceConfiguration.webTuples_of_balanced balance)
  rw [← booted_none gained] at carried
  have run : (obliging urls).doUpdateConfiguration p.manager.kind codeVersionId phpconf p.manager.deployment = .ok () _ :=
    doUpdateConfiguration_obliging codeVersionId phpconf fun id chosen => (known id chosen).imp fun _ => And.left
  have balanced : (Fleet.updated p.manager.kind p.manager.deployment.config codeVersionId).Balanced := by
    cases codeVersionId <;> exact balance
  have versions : (Fleet.updated p.manager.kind p.manager.deployment.config codeVersionId).codeVersions = p.manager.deployment.config.codeVersions := by
    cases codeVersionId <;> rfl
  have moved : ∃ updates, p.manager.carryOut 0 reply (obliging urls) (.updating codeVersionId phpconf) = { p.manager.ended 0
      ⟨Fleet.updated p.manager.kind p.manager.deployment.config codeVersionId, .running,
        (p.manager.deployment.toldAll (Fleet.updateCalls urls p.manager.kind p.manager.deployment.config codeVersionId phpconf)).calls⟩ with
      updates := updates } := by
    simp only [CodeWebManager.carryOut, left_ok run]
    exact ⟨_, rfl⟩
  obtain ⟨updates, moved⟩ := moved
  rw [moved] at code ⊢
  refine proceeds _ here moved rfl carried (.rest code balanced.counted (fun _ => balanced) (fun rest => ?_) idle
    (versions ▸ steady.deployable) matched) (.of_kept ?_)
  · rcases rest with init | stopped
    · cases init
    · cases stopped
  · cases codeVersionId <;> exact Finset.Subset.refl _

end Alone

/-- A service stops, and its agents with it. -/
theorem Steady.stopping (steady : Steady urls p) (here : p.manager.inFlight[position]? = some (.service .stopping))
    (others : ∀ work ∈ p.manager.inFlight, work = .service .stopping) :
    Proceeds urls p position reply (p.manager.carryOut position reply (obliging urls) (.service .stopping)) := by
  have left : ∀ work ∈ p.manager.inFlight.eraseIdx position, work = .service .stopping := fun work member =>
    others work (List.mem_of_mem_eraseIdx member)
  have halted : ManagerState.stopped ≠ .running := by decide
  have gained : p.gained (.advance position reply) = [] := by simp only [Platform.gained, here]
  have code := steady.code.carryOut reply (obliging urls) here
  by_cases init : p.manager.deployment.state = .init
  · have idle := steady.resting (.inl init)
    have moved : p.manager.carryOut position reply (obliging urls) (.service .stopping) =
        p.manager.ended position { p.manager.deployment with state := .stopped } := by
      simp only [CodeWebManager.carryOut, CodeWebManager.hook, init, ne_eq, not_true_eq_false, if_false]
      rfl
    rw [moved] at code ⊢
    refine proceeds [] here moved (List.append_nil _).symm rfl ?_ (.of_empty idle)
    exact ⟨code, steady.counted, fun running => absurd running halted, fun _ => idle, fun _ => halted, .inl left, steady.deployable, .of_empty idle⟩
  · obtain ⟨fleet, carried, idle⟩ := Fleet.stop_accepted steady.matched
    rw [← booted_none gained] at carried
    have moved : p.manager.carryOut position reply (obliging urls) (.service .stopping) = p.manager.ended position
        ⟨p.manager.deployment.config.deploy p.manager.deployment.config.onStop.1, .stopped,
          (p.manager.deployment.toldAll (haltCalls p.manager.kind p.manager.deployment.config)).calls⟩ := by
      have run : (obliging urls).onStop p.manager.kind p.manager.deployment = .ok _ _ := onStop_obliging
      refine congrArg (p.manager.ended position) (left_ok (a := ()) ?_)
      simp only [CodeWebManager.hook, init, ne_eq, not_false_eq_true, if_true]
      exact (bind_of_ok run).trans rfl
    rw [moved] at code ⊢
    refine proceeds _ here moved rfl carried ?_ fun node member _ => idle node member
    exact ⟨code, steady.counted.replace _, fun running => absurd running halted, fun _ => rfl, fun _ => halted, .inl left, steady.deployable, .of_empty rfl⟩

/-- A request does not change the nodes at once. -/
theorem answer_nodes {m after : CodeWebManager} {request : CodeWebRequest} (answered : m.answer request = .ok after) :
    after.deployment.config.serviceNodes = m.deployment.config.serviceNodes := by
  have update : ∀ codeVersionId phpconf, (m.update codeVersionId phpconf).deployment.config.serviceNodes = m.deployment.config.serviceNodes := by
    intro codeVersionId phpconf
    unfold CodeWebManager.update
    split_ifs
    · rfl
    · cases codeVersionId with
      | none => rfl
      | some codeVersionId => dsimp only; split_ifs <;> rfl
  cases request with
  | service request | uploadCodeVersion version archive | deleteCodeVersion codeVersionId =>
    obtain ⟨_, _, rfl⟩ := map_ok.mp answered
    rfl
  | onGitPush revision description =>
    cases answered
    rfl
  | updatePhpConfiguration codeVersionId phpconf =>
    obtain ⟨configures, _, rfl⟩ := map_ok.mp answered
    exact update codeVersionId configures
  | updateJavaConfiguration codeVersionId =>
    cases codeVersionId with
    | none => cases answered
    | some codeVersionId =>
      obtain ⟨_, _, answered⟩ := bind_ok.mp answered
      obtain ⟨_, _, answered⟩ := bind_ok.mp answered
      cases answered
      exact update (some codeVersionId) false

/-- What a manager does, its agents do. -/
theorem Steady.step (steady : Steady urls p) {event : PlatformEvent} (orderly : p.Orderly event) {after : CodeWebManager}
    (taken : p.manager.handle (seen urls event) = some after) :
    ∃ fleet, p.handle urls event = some ⟨after, fleet⟩ ∧ Steady urls ⟨after, fleet⟩ ∧ Vacated p ⟨after, fleet⟩ := by
  cases event with
  | request request =>
    have quiet : ∀ {m : CodeWebManager}, m.deployment.calls = p.manager.deployment.calls → newCalls p.manager m = [] := fun same => by
      rw [newCalls, same, List.drop_length, List.map_nil]
    have handled (m : CodeWebManager) (step : p.manager.handle (seen urls (.request request)) = some m)
        (calls : m.deployment.calls = p.manager.deployment.calls) : p.handle urls (.request request) = some ⟨m, p.fleet⟩ := by
      rw [handle, step, Option.bind_some, quiet calls, booted_none rfl]
      rfl
    have step := taken
    simp only [seen, CodeWebManager.handle] at step
    split at step
    · cases answered : p.manager.answer request with
      | error text =>
        rw [answered] at step
        cases step
        exact ⟨p.fleet, handled _ taken rfl, steady, .of_kept (Finset.Subset.refl _)⟩
      | ok m =>
        rw [answered] at step
        cases step
        have ids : after.deployment.config.ids = p.manager.deployment.config.ids := by
          rw [ServiceConfiguration.ids, answer_nodes answered, ServiceConfiguration.ids]
        exact ⟨p.fleet, handled _ taken (CodeWebManager.answer_calls answered), steady.request orderly answered, .of_kept ids.ge⟩
    · cases step
  | advance position reply =>
    obtain ⟨work, here, rfl⟩ := Option.map_eq_some_iff.mp taken
    obtain ⟨apart, supplied⟩ := orderly
    rcases steady.alone with stops | ⟨single, alone, ready⟩
    · obtain rfl := stops work (List.mem_of_getElem? here)
      exact steady.stopping here stops
    · have first : position = 0 ∧ single = work := by
        rw [alone] at here
        cases position with
        | zero => exact ⟨rfl, Option.some.inj here⟩
        | succ position => cases here
      obtain ⟨rfl, rfl⟩ := first
      cases single with
      | updating codeVersionId phpconf => exact steady.updating alone ready
      | service work =>
        cases work with
        | starting => exact steady.starting alone ready (apart here)
        | creating sninfo => exact steady.creating alone ready supplied
        | stopping => exact steady.stopping here fun work member => List.mem_singleton.mp (alone ▸ member)
        | adding nodeRoles => exact steady.adding alone ready supplied
        | removing nodeRoles => exact steady.removing alone ready

section Runs

variable {kind : WebKind} {events : List PlatformEvent}

theorem Steady.of_run (run : Run (Guarded Orderly (Step urls)) (created kind) events p) : Steady urls p :=
  run.guarded_invariant (created_steady urls kind) fun {before event after} steady orderly step => by
    obtain ⟨manager, taken, carried⟩ := Option.bind_eq_some_iff.mp (show before.handle urls event = some after from step)
    obtain ⟨fleet, handled, steady, -⟩ := steady.step orderly taken
    cases handled.symm.trans step
    exact steady

/-- Whatever the manager of a service does next in an orderly run, none of the
agents of its nodes refuses an order. -/
theorem orders_accepted (run : Run (Guarded Orderly (Step urls)) (created kind) events p) {event : PlatformEvent} (orderly : p.Orderly event)
    {after : CodeWebManager} (taken : p.manager.handle (seen urls event) = some after) :
    ∃ fleet, p.handle urls event = some ⟨after, fleet⟩ := by
  obtain ⟨fleet, handled, -, -⟩ := (Steady.of_run run).step orderly taken
  exact ⟨fleet, handled⟩

/-- In every state of an orderly run, the agent of each node keeps exactly the
processes of the duties that the configuration gives the node, with the current
settings, and has the code that they serve. -/
theorem agents_match (run : Run (Guarded Orderly (Step urls)) (created kind) events p) :
    Fleet.Matches urls p.manager.kind p.manager.deployment.config p.fleet :=
  (Steady.of_run run).matched

/-- A node that a step of an orderly run takes out of the configuration is left
without processes. -/
theorem left_idle (run : Run (Guarded Orderly (Step urls)) (created kind) events p) {event : PlatformEvent} {q : Platform}
    (orderly : p.Orderly event) (step : p.Step urls event q) : Vacated p q := by
  obtain ⟨manager, taken, carried⟩ := Option.bind_eq_some_iff.mp (show p.handle urls event = some q from step)
  obtain ⟨fleet, handled, -, vacated⟩ := (Steady.of_run run).step orderly taken
  cases handled.symm.trans step
  exact vacated

end Runs

/-- A service starts on one node, gets a web node, and is to give it back. -/
def resized : List PlatformEvent :=
  [.request (.service (.startService true)), .advance 0 .failed, .advance 0 (.created [serverOf "1" "proxybackendweb"]),
    .request (.service (.addNodes CodeWebManager.webNode true)), .advance 0 (.created [serverOf "2" "web"]),
    .request (.service (.removeNodes CodeWebManager.webNode))]

def handleOrderly (urls : String → List String) (p : Platform) (event : PlatformEvent) : Option Platform :=
  if p.Orderly event then p.handle urls event else none

/-- The last step of that, with what it has to start from. -/
theorem resized_run : ∃ p q : Platform, Run (Guarded Orderly (Step fun _ => [])) (created .php) resized p ∧ p.Orderly (.advance 0 .failed) ∧
    p.Step (fun _ => []) (.advance 0 .failed) q ∧
      (∃ node ∈ p.manager.deployment.config.serviceNodes.rows, node.ip = "10.0.0.2" ∧ node.id ∉ q.manager.deployment.config.ids) := by
  have played : ((play (handleOrderly fun _ => []) (created .php) resized).bind fun p => (p.handle (fun _ => []) (.advance 0 .failed)).map fun q =>
      decide (p.Orderly (.advance 0 .failed)) && decide (∃ node ∈ p.manager.deployment.config.serviceNodes.rows, node.ip = "10.0.0.2" ∧
        node.id ∉ q.manager.deployment.config.ids)) = some true := by
    decide +kernel
  obtain ⟨p, run, played⟩ := Option.bind_eq_some_iff.mp played
  obtain ⟨q, step, holds⟩ := Option.map_eq_some_iff.mp played
  obtain ⟨orderly, node⟩ := Bool.and_eq_true_iff.mp holds
  exact ⟨p, q, Run.play_guarded run, of_decide_eq_true orderly, step, of_decide_eq_true node⟩

theorem orders_accepted_resized : ∃ (p : Platform) (after : CodeWebManager) (fleet : Fleet),
    Run (Guarded Orderly (Step fun _ => [])) (created .php) resized p ∧ p.handle (fun _ => []) (.advance 0 .failed) = some ⟨after, fleet⟩ := by
  obtain ⟨p, q, run, orderly, step, -⟩ := resized_run
  obtain ⟨after, taken, -⟩ := Option.bind_eq_some_iff.mp step
  obtain ⟨fleet, handled⟩ := orders_accepted run orderly taken
  exact ⟨p, after, fleet, run, handled⟩

theorem agents_match_resized : ∃ (p : Platform) (node : WebServiceNode), Run (Guarded Orderly (Step fun _ => [])) (created .php) resized p ∧
    node ∈ p.manager.deployment.config.serviceNodes.rows ∧ node.ip = "10.0.0.2" ∧
      Fleet.Runs (fun _ => []) p.manager.kind p.manager.deployment.config node (p.fleet node.ip) := by
  obtain ⟨p, q, run, -, -, node, member, place, -⟩ := resized_run
  exact ⟨p, node, run, member, place, (agents_match run).runs node member⟩

theorem left_idle_resized : ∃ (p q : Platform) (node : WebServiceNode), p.Step (fun _ => []) (.advance 0 .failed) q ∧
    node ∈ p.manager.deployment.config.serviceNodes.rows ∧ node.id ∉ q.manager.deployment.config.ids ∧
      Fleet.Idle p.manager.kind (q.fleet node.ip) := by
  obtain ⟨p, q, run, orderly, step, node, member, -, gone⟩ := resized_run
  exact ⟨p, q, node, step, member, gone, left_idle run orderly step node member gone⟩

end Platform

end ConPaaS
