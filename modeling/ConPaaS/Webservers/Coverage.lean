import ConPaaS.Lib.Fallible
import ConPaaS.Lib.Transition
import ConPaaS.Webservers.Starting

namespace ConPaaS

open Keyed Transition Fallible

/-- What a background thread of a web service still has to do. -/
inductive Work
  | starting
  | creating (sninfo : List String)
  | stopping
  | adding (nodeRoles : RoleCounts)
  | removing (nodeRoles : RoleCounts)
  deriving DecidableEq

/-- The requests to a web service. `credit` says that the director has credit
left for it. -/
inductive WebRequest
  | startService (credit : Bool)
  | stopService
  | addNodes (nodeRoles : RoleCounts) (credit : Bool)
  | removeNodes (nodeRoles : RoleCounts)

/-- What happens next: a request comes in, or a thread goes on, with the reply
of the director if it has been waiting for one. -/
inductive WebEvent
  | request (request : WebRequest)
  | advance (position : Nat) (reply : NodesReply)

/-- The manager of a web service with its background threads, in the order in
which they were started. -/
structure WebserversManager where
  state : ManagerState
  config : ServiceConfiguration
  inFlight : List Work

/-- A node of a cloud in a role, for runs on fixed inputs. -/
def serverOf (vmid role : String) : ServiceNode := ⟨vmid, "10.0.0." ++ vmid, "", "iaas", 100, role, []⟩

namespace WebserversManager

variable {m after : WebserversManager}

def roleDefault : String := "count"

def getNodeRoles : List String := ["backend", "web", "proxy"]

def getDefaultRole : String := "backend"

def getServiceType : String := "web"

/-- The loop of `check_node_roles`. A role that was not specified is replaced
with the default one. -/
def checkRoles (nodeRoles : RoleCounts) : List (String × Int) → Except String RoleCounts
  | [] => .ok nodeRoles
  | (role, count) :: rest =>
    if count < 0 then .error ("Invalid number of nodes " ++ toString count)
    else if role ∈ getNodeRoles then checkRoles nodeRoles rest
    else if role = roleDefault then checkRoles ((nodeRoles.erase role).put (getDefaultRole, count)) rest
    else .error ("Wrong node type '" ++ role ++ "' for service type '" ++ getServiceType ++ "'.")

/-- `check_node_roles`. -/
def checkNodeRoles (nodeRoles : RoleCounts) : Except String RoleCounts :=
  if (nodeRoles.rows.map Prod.snd).sum = 0 then .error "Need a positive value for at least one role"
  else checkRoles nodeRoles nodeRoles.rows

def checkCredits (credit : Bool) : Except String Unit :=
  if credit then .ok () else .error "Insufficient credits"

def checkState (m : WebserversManager) (expected : List ManagerState) : Except String Unit :=
  if m.state ∈ expected then .ok ()
  else .error ("Wrong service state: was expecting one of ['" ++ "', '".intercalate (expected.map ManagerState.text) ++
    "'] but current state is '" ++ m.state.text ++ "'")

/-- The state a request sets and the thread it starts. -/
def request (m : WebserversManager) : WebRequest → Except String (ManagerState × Work)
  | .startService credit => do
    checkCredits credit
    m.checkState [.init, .stopped]
    .ok (.prologue, .starting)
  | .stopService => .ok (.epilogue, .stopping)
  | .addNodes nodeRoles credit => do
    checkCredits credit
    let nodeRoles ← checkNodeRoles nodeRoles
    m.checkState [.running]
    m.config.checkAddNodes nodeRoles.requested
    .ok (.adapting, .adding nodeRoles)
  | .removeNodes nodeRoles => do
    let nodeRoles ← checkNodeRoles nodeRoles
    m.checkState [.running]
    m.config.checkRemoveNodes nodeRoles.requested
    .ok (.adapting, .removing nodeRoles)

/-- The nodes of a list, all of which have to have roles. -/
def nodesOf : List Entry → Option (List ServiceNode)
  | [] => some []
  | .key _ :: _ => none
  | .node node :: rest => (nodesOf rest).map (node :: ·)

/-- The nodes in a reply of the director. -/
def repliedNodes (reply : NodesReply) : Option (List ServiceNode) :=
  (createNodes reply).bind fun nodes => nodesOf nodes.entries

/-- The thread at a position has ended. -/
def ended (m : WebserversManager) (position : Nat) : WebserversManager :=
  { m with inFlight := m.inFlight.eraseIdx position }

/-- What a thread does next. A thread that raises ends and leaves the state. -/
def carryOut (m : WebserversManager) (position : Nat) (reply : NodesReply) : Work → WebserversManager
  | .starting =>
    let (config, nodeRoles) := m.config.getStartingNodes
    { m with config, inFlight := m.inFlight.set position (.creating (getSninfo nodeRoles)) }
  | .creating _ =>
    match createNodes reply with
    | none => m.ended position
    | some nodes =>
      match m.config.onStart nodes.entries with
      | (config, true) => { m.ended position with config, state := .running }
      | (config, false) => { m.ended position with config }
  | .stopping =>
    if m.state ≠ .init then { m.ended position with config := m.config.onStop.1, state := .stopped }
    else { m.ended position with state := .stopped }
  | .adding _ =>
    match repliedNodes reply with
    | none => m.ended position
    | some nodes =>
      match m.config.onAddNodes nodes with
      | .error _ => m.ended position
      | .ok config => { m.ended position with config, state := .running }
  | .removing nodeRoles =>
    match m.config.onRemoveNodes nodeRoles.requested with
    | .error _ => m.ended position
    | .ok (config, _) => { m.ended position with config, state := .running }

def handle (m : WebserversManager) : WebEvent → Option WebserversManager
  | .request request =>
    match m.request request with
    | .error _ => some m
    | .ok (state, work) => some { m with state, inFlight := m.inFlight ++ [work] }
  | .advance position reply => (m.inFlight[position]?).map (m.carryOut position reply)

/-- The nodes a thread gets are those it has asked for, and none that are added
is one of the service already. -/
def Gets (m : WebserversManager) (nodes : List ServiceNode) : Work → Prop
  | .creating sninfo => Delivered sninfo nodes
  | .adding nodeRoles => Delivered (getSninfo nodeRoles) nodes ∧
    ∀ node ∈ nodes, ∀ known ∈ m.config.serviceNodes.rows, known.id ≠ node.id
  | .starting | .stopping | .removing _ => True

instance (m : WebserversManager) (nodes : List ServiceNode) : (work : Work) → Decidable (m.Gets nodes work)
  | .creating sninfo => inferInstanceAs (Decidable (Delivered sninfo nodes))
  | .adding _ => inferInstanceAs (Decidable (_ ∧ _))
  | .starting | .stopping | .removing _ => .isTrue trivial

/-- The director replies with what it was asked for, or with no nodes. -/
def Supplied (m : WebserversManager) : WebEvent → Prop
  | .advance position (.created nodes) => ∀ work ∈ m.inFlight[position]?, m.Gets nodes work
  | .advance _ .failed | .advance _ (.error _) | .request _ => True

instance (m : WebserversManager) : (event : WebEvent) → Decidable (m.Supplied event)
  | .advance position (.created nodes) =>
    inferInstanceAs (Decidable (∀ work ∈ m.inFlight[position]?, m.Gets nodes work))
  | .advance _ .failed | .advance _ (.error _) | .request _ => .isTrue trivial

/-- One step of a web service whose agents answer. What a thread does with its
service after a reply is one step. -/
def Step (before : WebserversManager) (event : WebEvent) (after : WebserversManager) : Prop :=
  before.Supplied event ∧ before.handle event = some after

/-- A web service that was added to an application. -/
def created : WebserversManager where
  state := .init
  config := ⟨1, 0, 0, .empty, [], []⟩
  inFlight := []

/-- Some node runs each duty. -/
def Covered (m : WebserversManager) : Prop := ∀ tier, ∃ node ∈ m.config.serviceNodes.rows, node.runs tier = true

/-- The condition on the requests that are accepted and on the starts: only a
stop is accepted while other operations are in flight, and only while these are
stops, and no service is started whose backend is packed beside web servers of
their own. -/
def Orderly (m : WebserversManager) : WebEvent → Prop
  | .request request => ∀ accepted ∈ (m.request request).toOption, ∀ other ∈ m.inFlight,
    accepted.2 = .stopping ∧ other = .stopping
  | .advance position _ => m.inFlight[position]? = some .starting → ¬ m.config.BackendPacked

instance (m : WebserversManager) : (event : WebEvent) → Decidable (m.Orderly event)
  | .request request => inferInstanceAs (Decidable (∀ accepted ∈ (m.request request).toOption, _))
  | .advance _ _ => inferInstanceAs (Decidable (_ → _))

/-- What a thread in flight alone relies on. -/
def Ready (m : WebserversManager) : Work → Prop
  | .starting | .stopping => True
  | .creating sninfo => sninfo = getSninfo m.config.getStartingNodes.2 ∧ ¬ m.config.BackendPacked
  | .adding nodeRoles => m.config.Balanced ∧ m.config.checkAddNodes nodeRoles.requested = .ok ()
  | .removing nodeRoles => m.config.Balanced ∧ m.config.checkRemoveNodes nodeRoles.requested = .ok ()

/-- The counters could start the service again, and while it runs they fit its
nodes. An operation that is not a stop is in flight alone. -/
structure Sound (m : WebserversManager) : Prop where
  counted : m.config.Counted
  balanced : m.state = .running → m.config.Balanced
  busy : m.inFlight ≠ [] → m.state ≠ .running
  alone : (∀ work ∈ m.inFlight, work = .stopping) ∨ ∃ work, m.inFlight = [work] ∧ m.Ready work

theorem created_sound : created.Sound where
  counted := ⟨le_rfl, le_rfl, le_rfl, nofun⟩
  balanced := nofun
  busy := fun some => absurd rfl some
  alone := Or.inl nofun

theorem checkState_ok {expected : List ManagerState} (checked : m.checkState expected = .ok ()) : m.state ∈ expected := by
  unfold checkState at checked
  split at checked
  · assumption
  · cases checked

theorem request_ok {request : WebRequest} {state : ManagerState} {work : Work} (sound : m.Sound)
    (accepted : m.request request = .ok (state, work)) : state ≠ .running ∧ m.Ready work := by
  have resting (checked : m.checkState [.running] = .ok ()) : m.config.Balanced :=
    sound.balanced (List.mem_singleton.mp (checkState_ok checked))
  cases request with
  | startService credit =>
    obtain ⟨_, -, accepted⟩ := bind_ok.mp accepted
    obtain ⟨_, -, accepted⟩ := bind_ok.mp accepted
    cases accepted
    exact ⟨nofun, trivial⟩
  | stopService =>
    cases accepted
    exact ⟨nofun, trivial⟩
  | addNodes nodeRoles credit =>
    obtain ⟨_, -, accepted⟩ := bind_ok.mp accepted
    obtain ⟨_, -, accepted⟩ := bind_ok.mp accepted
    obtain ⟨_, running, accepted⟩ := bind_ok.mp accepted
    obtain ⟨_, checked, accepted⟩ := bind_ok.mp accepted
    cases accepted
    exact ⟨nofun, resting running, checked⟩
  | removeNodes nodeRoles =>
    obtain ⟨_, -, accepted⟩ := bind_ok.mp accepted
    obtain ⟨_, running, accepted⟩ := bind_ok.mp accepted
    obtain ⟨_, checked, accepted⟩ := bind_ok.mp accepted
    cases accepted
    exact ⟨nofun, resting running, checked⟩

theorem Sound.request {request : WebRequest} (sound : m.Sound) (orderly : m.Orderly (.request request))
    (step : m.handle (.request request) = some after) : after.Sound := by
  unfold handle at step
  simp only at step
  split at step
  · cases step
    exact sound
  · rename_i state work accepted
    obtain ⟨resting, ready⟩ := request_ok sound accepted
    have stops := orderly (state, work) (by rw [accepted]; rfl)
    cases step
    refine ⟨sound.counted, fun running => absurd running resting, fun _ => resting, ?_⟩
    cases others : m.inFlight with
    | nil => exact Or.inr ⟨work, rfl, ready⟩
    | cons other rest =>
      refine Or.inl fun work' member => ?_
      rw [← others] at member
      rcases List.mem_append.mp member with old | new
      · exact (stops work' old).2
      · rw [List.mem_singleton.mp new]
        exact (stops other (others ▸ List.mem_cons_self ..)).1

/-- A service that ends its last operation. -/
theorem Sound.rest {m : WebserversManager} (counted : m.config.Counted) (balanced : m.state = .running → m.config.Balanced)
    (idle : m.inFlight = []) : m.Sound where
  counted := counted
  balanced := balanced
  busy := fun some => absurd idle some
  alone := Or.inl (by rw [idle]; exact nofun)

theorem nodesOf_nodes (nodes : List ServiceNode) : nodesOf (nodes.map .node) = some nodes := by
  induction nodes with
  | nil => rfl
  | cons node rest ih => rw [List.map_cons, nodesOf, ih, Option.map_some]

theorem createNodes_some {reply : NodesReply} {nodes : Nodes} (replied : createNodes reply = some nodes) :
    (∃ rest, nodes.entries = .key "error" :: rest) ∨
      ∃ created, reply = .created created ∧ nodes.entries = created.map .node := by
  cases reply with
  | failed => cases replied
  | error rest =>
    cases replied
    exact Or.inl ⟨rest.map .key, rfl⟩
  | created nodes =>
    cases nodes with
    | nil => cases replied
    | cons node rest =>
      cases replied
      exact Or.inr ⟨node :: rest, rfl, rfl⟩

theorem repliedNodes_some {reply : NodesReply} {nodes : List ServiceNode} (replied : repliedNodes reply = some nodes) :
    reply = .created nodes := by
  obtain ⟨held, created, read⟩ := Option.bind_eq_some_iff.mp replied
  rcases createNodes_some created with ⟨rest, entries⟩ | ⟨sent, rfl, entries⟩
  · rw [entries] at read
    cases read
  · rw [entries, nodesOf_nodes] at read
    cases read
    rfl

theorem getSninfo_count (nodeRoles : RoleCounts) (role : String) :
    (getSninfo nodeRoles).count role = nodeRoles.requested role := by
  have others (rows : List (String × Int)) (apart : ∀ entry ∈ rows, entry.1 ≠ role) :
      (rows.flatMap fun entry => List.replicate entry.2.toNat entry.1).count role = 0 := by
    refine List.count_eq_zero.mpr fun member => ?_
    obtain ⟨entry, inside, asked⟩ := List.mem_flatMap.mp member
    exact apart entry inside (List.eq_of_mem_replicate asked).symm
  unfold RoleCounts.requested
  cases found : nodeRoles.get? role with
  | none => exact others _ (Table.get?_none_iff.mp found)
  | some entry =>
    obtain ⟨name, count⟩ := entry
    obtain rfl : name = role := Table.get?_key found
    have split := (Table.rows_perm found).flatMap_right fun entry => List.replicate entry.2.toNat entry.1
    refine (split.count_eq name).trans ?_
    rw [List.flatMap_cons, List.count_append, List.count_replicate_self,
      others _ fun entry inside => (Table.mem_erase.mp inside).2]
    rfl

/-- Nodes are delivered in the numbers in which they were requested. -/
theorem supplied_requested {nodeRoles : RoleCounts} {nodes : List ServiceNode}
    (delivered : Delivered (getSninfo nodeRoles) nodes) (tier : Tier) :
    ServiceConfiguration.supplied nodes tier = nodeRoles.requested tier.role := by
  rw [← getSninfo_count, ← delivered.1.count_eq, List.count, List.countP_map, List.countP_eq_length_filter]
  unfold ServiceConfiguration.supplied
  congr 1

theorem Sound.creating {sninfo : List String} {reply : NodesReply} (sound : m.Sound)
    (alone : m.inFlight = [.creating sninfo]) (ready : m.Ready (.creating sninfo))
    (supplied : m.Supplied (.advance 0 reply)) : (m.carryOut 0 reply (.creating sninfo)).Sound := by
  have resting : m.state ≠ .running := sound.busy (by rw [alone]; exact nofun)
  have idle : m.inFlight.eraseIdx 0 = [] := by rw [alone]; rfl
  unfold carryOut
  simp only
  split
  · exact .rest sound.counted (fun running => absurd running resting) idle
  · rename_i nodes replied
    rcases createNodes_some replied with ⟨rest, entries⟩ | ⟨sent, rfl, entries⟩
    · rw [entries, ServiceConfiguration.onStart_error]
      exact .rest (sound.counted.replace _) (fun running => absurd running resting) idle
    · have delivered : Delivered sninfo sent := supplied (.creating sninfo) (by rw [alone]; rfl)
      obtain ⟨rfl, apart⟩ := ready
      obtain ⟨after, run, balance, -⟩ := sound.counted.onStart apart delivered
      rw [entries, run]
      exact .rest balance.counted (fun _ => balance) idle

theorem Sound.adding {nodeRoles : RoleCounts} {reply : NodesReply} (sound : m.Sound)
    (alone : m.inFlight = [.adding nodeRoles]) (ready : m.Ready (.adding nodeRoles))
    (supplied : m.Supplied (.advance 0 reply)) : (m.carryOut 0 reply (.adding nodeRoles)).Sound := by
  have resting : m.state ≠ .running := sound.busy (by rw [alone]; exact nofun)
  have idle : m.inFlight.eraseIdx 0 = [] := by rw [alone]; rfl
  unfold carryOut
  simp only
  split
  · exact .rest sound.counted (fun running => absurd running resting) idle
  · rename_i nodes replied
    obtain rfl := repliedNodes_some replied
    obtain ⟨delivered, fresh⟩ : Delivered (getSninfo nodeRoles) nodes ∧
        ∀ node ∈ nodes, ∀ known ∈ m.config.serviceNodes.rows, known.id ≠ node.id :=
      supplied (.adding nodeRoles) (by rw [alone]; rfl)
    obtain ⟨after, run, packed, -⟩ := (ServiceConfiguration.packing_kept ready.1.packed).1 nodeRoles.requested nodes ready.2
      (supplied_requested delivered) delivered.2 fresh
    rw [run]
    exact .rest packed.balanced.counted (fun _ => packed.balanced) idle

theorem Sound.removing {nodeRoles : RoleCounts} {reply : NodesReply} (alone : m.inFlight = [.removing nodeRoles]) (ready : m.Ready (.removing nodeRoles)) :
    (m.carryOut 0 reply (.removing nodeRoles)).Sound := by
  have idle : m.inFlight.eraseIdx 0 = [] := by rw [alone]; rfl
  obtain ⟨after, nodes, run, packed, -, -⟩ :=
    (ServiceConfiguration.packing_kept ready.1.packed).2 nodeRoles.requested ready.2
  simp only [carryOut, run]
  exact .rest packed.balanced.counted (fun _ => packed.balanced) idle

theorem Sound.starting {reply : NodesReply} (sound : m.Sound) (alone : m.inFlight = [.starting])
    (apart : ¬ m.config.BackendPacked) : (m.carryOut 0 reply .starting).Sound := by
  have same := sound.counted.getStartingNodes
  have resting : m.state ≠ .running := sound.busy (by rw [alone]; exact nofun)
  unfold carryOut
  simp only [same, alone, List.set_cons_zero]
  refine ⟨sound.counted, fun running => absurd running resting, fun _ => resting, Or.inr ⟨_, rfl, rfl, apart⟩⟩

theorem Sound.stopping {position : Nat} {reply : NodesReply} (sound : m.Sound)
    (others : ∀ work ∈ m.inFlight, work = .stopping) : (m.carryOut position reply .stopping).Sound := by
  have left : ∀ work ∈ m.inFlight.eraseIdx position, work = .stopping := fun work member =>
    others work (List.mem_of_mem_eraseIdx member)
  simp only [carryOut]
  split
  · exact ⟨sound.counted.replace _, nofun, fun _ => nofun, Or.inl left⟩
  · exact ⟨sound.counted, nofun, fun _ => nofun, Or.inl left⟩

/-- One step of an orderly run, by what the thread still has to do. -/
theorem Sound.step {event : WebEvent} (sound : m.Sound) (orderly : m.Orderly event) (step : m.Step event after) :
    after.Sound := by
  obtain ⟨supplied, step⟩ := step
  cases event with
  | request request => exact sound.request orderly step
  | advance position reply =>
    obtain ⟨work, here, rfl⟩ := Option.map_eq_some_iff.mp step
    rcases sound.alone with stops | ⟨single, alone, ready⟩
    · obtain rfl := stops work (List.mem_of_getElem? here)
      exact sound.stopping stops
    · have first : position = 0 ∧ single = work := by
        rw [alone] at here
        cases position with
        | zero => exact ⟨rfl, Option.some.inj here⟩
        | succ position => cases here
      obtain ⟨rfl, rfl⟩ := first
      cases single with
      | starting => exact sound.starting alone (orderly here)
      | creating sninfo => exact sound.creating alone ready supplied
      | stopping => exact sound.stopping fun work member => List.mem_singleton.mp (alone ▸ member)
      | adding nodeRoles => exact sound.adding alone ready supplied
      | removing nodeRoles => exact .removing alone ready

/-- Role coverage. In every state of an orderly run in which the service is
running, some node runs the proxy, some the web server and some the backend. -/
theorem roles_covered {events : List WebEvent} (run : Run (Guarded Orderly Step) created events m)
    (running : m.state = .running) : m.Covered := by
  have sound := run.guarded_invariant created_sound fun held orderly step => Sound.step held orderly step
  exact (sound.balanced running).packed.covered

/-- A start that finds the backend packed beside web servers of their own leaves
the service running without a backend once its nodes are there. -/
theorem packedStart_uncovered {events : List WebEvent} (run : Run (Guarded Orderly Step) created events m)
    (starting : m.inFlight = [.starting]) (packed : m.config.BackendPacked) {nodes : List ServiceNode}
    (delivered : Delivered (getSninfo m.config.getStartingNodes.2) nodes) :
    ∃ waiting after, m.Step (.advance 0 .failed) waiting ∧ waiting.Step (.advance 0 (.created nodes)) after ∧
      after.state = .running ∧ ¬ after.Covered := by
  have sound := run.guarded_invariant created_sound fun held orderly step => Sound.step held orderly step
  obtain ⟨config, started, none⟩ := sound.counted.noBackend packed delivered
  obtain ⟨node, rest, rfl⟩ : ∃ node rest, nodes = node :: rest := by
    refine List.exists_cons_of_ne_nil ?_
    rintro rfl
    obtain ⟨proxy, web, backend⟩ := packed
    rcases sound.counted.cases with ⟨_, none, _⟩ | ⟨_, none, _⟩ | ⟨_, asked⟩ | ⟨_, some, _⟩
    · omega
    · omega
    · rw [asked] at delivered
      exact absurd delivered.1.length_eq (by simp)
    · omega
  have waits : m.carryOut 0 .failed .starting =
      { m with inFlight := [.creating (getSninfo m.config.getStartingNodes.2)] } := by
    simp only [carryOut, sound.counted.getStartingNodes, starting, List.set_cons_zero]
  refine ⟨_, { state := .running, config, inFlight := [] }, ⟨trivial, by simp only [handle, starting]; rfl⟩, ⟨?_, ?_⟩, rfl, ?_⟩
  · rw [waits]
    rintro _ ⟨⟩
    exact delivered
  · rw [waits]
    simp only [handle, carryOut, createNodes, List.getElem?_cons_zero, Option.map_some, Nodes.entries, started]
    rfl
  · intro covered
    obtain ⟨node, member, runs⟩ := covered .backend
    have inside := (ServiceConfiguration.runs_iff member).mp runs
    rw [none] at inside
    cases inside

/-- A service is started, gets a backend of its own, is stopped and started
again. -/
def restart : List WebEvent :=
  [.request (.startService true), .advance 0 .failed, .advance 0 (.created [serverOf "1" "proxybackendweb"]),
    .request (.addNodes ⟨[("backend", 1)], by decide⟩ true), .advance 0 (.created [serverOf "2" "backend"]),
    .request .stopService, .advance 0 .failed, .request (.startService true), .advance 0 .failed,
    .advance 0 (.created [serverOf "3" "backend", serverOf "4" "proxyweb"])]

/-- A step of a run on fixed inputs. -/
def handleSupplied (m : WebserversManager) (event : WebEvent) : Option WebserversManager :=
  if m.Supplied event then m.handle event else none

theorem step_of_handleSupplied {before after : WebserversManager} {event : WebEvent}
    (step : before.handleSupplied event = some after) : Step before event after := by
  unfold handleSupplied at step
  split at step
  · exact ⟨‹_›, step⟩
  · cases step

/-- A step of an orderly run on fixed inputs. -/
def handleOrderly (m : WebserversManager) (event : WebEvent) : Option WebserversManager :=
  if m.Orderly event then m.handleSupplied event else none

theorem guarded_of_handleOrderly {before after : WebserversManager} {event : WebEvent}
    (step : before.handleOrderly event = some after) : Guarded Orderly Step before event after := by
  unfold handleOrderly at step
  split at step
  · exact ⟨‹_›, step_of_handleSupplied step⟩
  · cases step

theorem restart_covered : ∃ m, Run (Guarded Orderly Step) created restart m ∧ m.state = .running ∧ m.Covered := by
  obtain ⟨m, played, running⟩ : ∃ m, play handleOrderly created restart = some m ∧ m.state = .running := ⟨_, rfl, rfl⟩
  have run := (Run.play played).mono guarded_of_handleOrderly
  exact ⟨m, run, running, roles_covered run running⟩

/-- The same with a web server of its own in place of the backend. -/
def restartWeb : List WebEvent :=
  [.request (.startService true), .advance 0 .failed, .advance 0 (.created [serverOf "1" "proxybackendweb"]),
    .request (.addNodes ⟨[("web", 1)], by decide⟩ true), .advance 0 (.created [serverOf "2" "web"]),
    .request .stopService, .advance 0 .failed, .request (.startService true), .advance 0 .failed,
    .advance 0 (.created [serverOf "3" "web", serverOf "4" "proxyweb"])]

/-- The service runs without a backend after its second start. -/
theorem restartWeb_uncovered : ¬ ∀ (events : List WebEvent) (m : WebserversManager), Run Step created events m →
    m.state = .running → m.Covered := by
  intro law
  obtain ⟨m, played, running, none⟩ : ∃ m, play handleSupplied created restartWeb = some m ∧ m.state = .running ∧
      m.config.serviceNodes.rows.all (fun node => !node.runs .backend) = true := ⟨_, rfl, rfl, rfl⟩
  obtain ⟨node, member, runs⟩ := law _ m ((Run.play played).mono step_of_handleSupplied) running .backend
  have idle := List.all_eq_true.mp none node member
  rw [runs] at idle
  cases idle

end WebserversManager

end ConPaaS
