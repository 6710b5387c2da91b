import ConPaaS.Autoscaling.Averages
import ConPaaS.Director.Authentication
import ConPaaS.Lib.Json
import ConPaaS.Webservers.CodeRuns
import Mathlib.Data.List.TakeWhile

namespace ConPaaS

open Keyed Effect Deployment

/-- A weight as a request gives it. A float that is not finite has no value. -/
abbrev WeightValue := Json.Doc String (Option Rat)

/-- `int` of a value, where it does not raise. -/
def intOf : WeightValue → Option Int
  | .int value => some value
  | .bool value => some (if value then 1 else 0)
  | .float value => value.map truncated
  | .str text => pythonInt text
  | _ => none

/-- The number that a value stands for. -/
def numberOf : WeightValue → Option Rat
  | .float value => value
  | value => (intOf value).map fun weight : Int => (weight : Rat)

/-- The weights of nodes in a request, by the ids of the nodes. -/
abbrev WeightMap := Table (Prod.fst : String × WeightValue → String)

/-- The weights of a node. -/
inductive WeightField
  | web
  | backend
  deriving DecidableEq

namespace WeightField

/-- The answer to a node that is not known. -/
def missing : WeightField → String
  | .web => "The web node ID does not exist"
  | .backend => "The backend node ID does not exist"

def weightOf (node : WebServiceNode) : WeightField → Int
  | .web => node.weightWeb
  | .backend => node.weightBackend

def setWeight (node : WebServiceNode) (weight : Int) : WeightField → WebServiceNode
  | .web => { node with weightWeb := weight }
  | .backend => { node with weightBackend := weight }

theorem id_setWeight (field : WeightField) (node : WebServiceNode) (weight : Int) : (field.setWeight node weight).id = node.id := by
  cases field <;> rfl

end WeightField

/-- The weights of all nodes. -/
def CodeConfiguration.weights (config : CodeConfiguration) : List (String × Int × Int) :=
  config.serviceNodes.rows.map fun node => (node.id, node.weightWeb, node.weightBackend)

/-- The configuration with a weight of a node. -/
def CodeConfiguration.withWeight (config : CodeConfiguration) (field : WeightField) (id : String) (weight : Int) : CodeConfiguration :=
  { config with serviceNodes := config.serviceNodes.modify id (field.setWeight · weight) fun node => field.id_setWeight node weight }

namespace Agents

/-- The checks in the loops over the weights. -/
def weightFor (field : WeightField) (entry : String × WeightValue) : Hook Int := do
  match (← get).config.serviceNodes.get? entry.1 with
  | none => throw (.other field.missing)
  | some _ =>
    match intOf entry.2 with
    | none => throw (.other "int")
    | some weight => return weight

/-- The body of the loops that set the weights. The configuration is the one of
the service. -/
def updateWeight (field : WeightField) (entry : String × WeightValue) : Hook Unit := do
  let weight ← weightFor field entry
  setConfig ((← get).config.withWeight field entry.1 weight)

/-- What `check_state` answers. -/
def wrongState (state : ManagerState) : String :=
  "Wrong service state: was expecting one of ['" ++ ManagerState.running.text ++ "'] but current state is '" ++ state.text ++ "'"

/-- `update_nodes_weight`. The last loop sets the attribute `webWeight`, which
nothing reads. -/
def updateNodesWeight (agents : Agents) (kind : WebKind) (webWeights backendWeights : WeightMap) : Hook Unit := do
  let state := (← get).state
  if state ≠ .running then throw (.other (wrongState state))
  forEach (updateWeight .web) webWeights.rows
  forEach (updateWeight .backend) backendWeights.rows
  forEach (fun entry => do let _ ← weightFor .web entry) webWeights.rows
  let config := (← get).config
  let config := config.deploy config.updateMappings
  setConfig config
  agents.updateProxy kind config config.getProxyServiceNodes

end Agents

/-- A request to update the weights of nodes. -/
structure WeightUpdate where
  agents : Agents
  kind : WebKind
  before : Deployment
  webWeights : WeightMap
  backendWeights : WeightMap

/-- A weight that a request gives to a node. -/
structure Assignment where
  field : WeightField
  id : String
  value : WeightValue

/-- The call tells a proxy the new weights: those of the web servers that are
listed and of all backends. -/
def Announces (config : CodeConfiguration) (webWeights : WeightMap) : AgentOp → Prop
  | .updateHttpProxy _ webList backendList _ =>
    (∀ node ∈ config.getWebServiceNodes, node.id ∈ webWeights.rows.map Prod.fst → ⟨node.ip, 8080, some node.weightWeb⟩ ∈ webList) ∧
      backendList = config.getBackendServiceNodes.map fun node => ⟨node.ip, 9000, some node.weightBackend⟩
  | _ => False

namespace WeightUpdate

variable (u : WeightUpdate)

def result : EStateM.Result Raised Deployment Unit := u.agents.updateNodesWeight u.kind u.webWeights u.backendWeights u.before

/-- The entries of the request in the order of the loops. -/
def assignments : List Assignment :=
  u.webWeights.rows.map (fun entry => ⟨.web, entry.1, entry.2⟩) ++ u.backendWeights.rows.map fun entry => ⟨.backend, entry.1, entry.2⟩

/-- An error leaves the weights of all nodes, and after a success the nodes have
the weights that were asked for, and the proxies were told. -/
def AllOrNothing : Prop :=
  match u.result with
  | .error _ after => after.config.weights = u.before.config.weights
  | .ok _ after =>
    (∀ a ∈ u.assignments, ∃ node ∈ after.config.serviceNodes.rows, node.id = a.id ∧
      numberOf a.value = some (a.field.weightOf node : Rat)) ∧
      ∀ proxy ∈ after.config.getProxyServiceNodes, ∃ op, (proxy.call op, true) ∈ after.calls.drop u.before.calls.length ∧
        Announces after.config u.webWeights op

end WeightUpdate

namespace Assignment

/-- The loops accept an entry: the node is known and `int` does not raise. -/
def Accepted (config : CodeConfiguration) (a : Assignment) : Prop :=
  (∃ node ∈ config.serviceNodes.rows, node.id = a.id) ∧ (intOf a.value).isSome = true

instance (config : CodeConfiguration) (a : Assignment) : Decidable (a.Accepted config) := inferInstanceAs (Decidable (_ ∧ _))

/-- The weight that is set where the entry is accepted. -/
def weight (a : Assignment) : Int := (intOf a.value).getD 0

/-- What an entry makes of a node. -/
def assign (node : WebServiceNode) (a : Assignment) : WebServiceNode :=
  if node.id = a.id then a.field.setWeight node a.weight else node

variable {list : List Assignment} {config : CodeConfiguration} {node : WebServiceNode} {field : WeightField} {a : Assignment}

theorem id_assignAll (list : List Assignment) (node : WebServiceNode) : (list.foldl assign node).id = node.id := by
  induction list generalizing node with
  | nil => rfl
  | cons a rest ih =>
    rw [List.foldl_cons, ih, assign]
    split
    · exact a.field.id_setWeight node a.weight
    · rfl

theorem runs_assignAll (list : List Assignment) (node : WebServiceNode) (tier : Tier) :
    (list.foldl assign node).runs tier = node.runs tier := by
  induction list generalizing node with
  | nil => rfl
  | cons a rest ih =>
    rw [List.foldl_cons, ih, assign]
    split
    · cases a.field <;> cases tier <;> rfl
    · rfl

theorem weightOf_setWeight (field other : WeightField) (node : WebServiceNode) (weight : Int) :
    field.weightOf (other.setWeight node weight) = if field = other then weight else field.weightOf node := by
  cases field <;> cases other <;> rfl

/-- Two entries are for different weights. -/
def Apart (a b : Assignment) : Prop := ¬ (a.field = b.field ∧ a.id = b.id)

theorem weightOf_assignAll_other (other : ∀ a ∈ list, ¬ (a.field = field ∧ a.id = node.id)) :
    field.weightOf (list.foldl assign node) = field.weightOf node := by
  induction list generalizing node with
  | nil => rfl
  | cons a rest ih =>
    obtain ⟨here, later⟩ := List.forall_mem_cons.mp other
    have id : (assign node a).id = node.id := id_assignAll [a] node
    rw [List.foldl_cons, ih (by rw [id]; exact later), assign]
    split
    · rename_i same
      rw [weightOf_setWeight, if_neg fun equal => here ⟨equal.symm, same.symm⟩]
    · rfl

/-- An entry gives its node its weight, since no other entry is for this weight. -/
theorem weightOf_assignAll (apart : list.Pairwise Apart) (member : a ∈ list) (same : node.id = a.id) :
    a.field.weightOf (list.foldl assign node) = a.weight := by
  induction list generalizing node with
  | nil => exact absurd member List.not_mem_nil
  | cons b rest ih =>
    obtain ⟨here, later⟩ := List.pairwise_cons.mp apart
    have id : (assign node b).id = node.id := id_assignAll [b] node
    rw [List.foldl_cons]
    rcases List.mem_cons.mp member with rfl | inside
    · rw [weightOf_assignAll_other fun c among both => here c among ⟨both.1.symm, (both.2.trans (id.trans same)).symm⟩, assign,
        if_pos same, weightOf_setWeight, if_pos rfl]
    · exact ih later inside (id.trans same)

end Assignment

namespace CodeConfiguration

variable {config : CodeConfiguration} {list : List Assignment} {a : Assignment}

/-- The configuration after some entries. -/
def assigned (config : CodeConfiguration) (list : List Assignment) : CodeConfiguration :=
  list.foldl (fun config a => config.withWeight a.field a.id a.weight) config

theorem rows_assigned (config : CodeConfiguration) (list : List Assignment) :
    (config.assigned list).serviceNodes.rows = config.serviceNodes.rows.map fun node => list.foldl Assignment.assign node := by
  induction list generalizing config with
  | nil => exact (List.map_id _).symm
  | cons a rest ih =>
    rw [assigned, List.foldl_cons, ← assigned, ih]
    exact List.map_map.symm ▸ rfl

theorem getServiceNodes_assigned (config : CodeConfiguration) (list : List Assignment) (tier : Tier) :
    (config.assigned list).getServiceNodes tier = (config.getServiceNodes tier).map fun node => list.foldl Assignment.assign node := by
  rw [ServiceConfiguration.getServiceNodes, rows_assigned, List.filter_map]
  congr 1
  exact List.filter_congr fun node _ => Assignment.runs_assignAll list node tier

theorem accepted_assigned : a.Accepted (config.assigned list) ↔ a.Accepted config := by
  unfold Assignment.Accepted
  refine and_congr_left fun _ => ?_
  simp [rows_assigned, Assignment.id_assignAll]

/-- Entries change no weight exactly if the nodes have these weights already. -/
theorem weights_assigned (apart : list.Pairwise Assignment.Apart) : (config.assigned list).weights = config.weights ↔
    ∀ a ∈ list, ∀ node ∈ config.serviceNodes.rows, node.id = a.id → a.field.weightOf node = a.weight := by
  unfold weights
  rw [rows_assigned, List.map_map, List.map_inj_left]
  constructor
  · intro same a member node inside id
    rw [← Assignment.weightOf_assignAll apart member id]
    have equal := same node inside
    simp only [Function.comp_apply, Prod.mk.injEq] at equal
    cases a.field with
    | web => exact equal.2.1.symm
    | backend => exact equal.2.2.symm
  · intro same node inside
    have kept (field : WeightField) : field.weightOf (list.foldl Assignment.assign node) = field.weightOf node := by
      by_cases listed : ∃ a ∈ list, a.field = field ∧ a.id = node.id
      · obtain ⟨a, member, rfl, id⟩ := listed
        rw [Assignment.weightOf_assignAll apart member id.symm, same a member node inside id.symm]
      · exact Assignment.weightOf_assignAll_other fun a member both => listed ⟨a, member, both⟩
    exact congr (congrArg Prod.mk (Assignment.id_assignAll list node)) (congr (congrArg Prod.mk (kept .web)) (kept .backend))

end CodeConfiguration

namespace Agents

open CodeConfiguration

variable {agents : Agents} {kind : WebKind} {s : Deployment} {list : List Assignment} {a : Assignment}

/-- The body of the loops, for an entry of either map. -/
def perform (a : Assignment) : Hook Unit := updateWeight a.field (a.id, a.value)

theorem weightFor_accepted (accepted : a.Accepted s.config) : weightFor a.field (a.id, a.value) s = .ok a.weight s := by
  obtain ⟨⟨node, member, id⟩, number⟩ := accepted
  obtain ⟨weight, value⟩ := Option.isSome_iff_exists.mp number
  have found : s.config.serviceNodes.get? a.id = some node := Table.get?_iff.mpr ⟨member, id⟩
  refine (bind_of_ok (x := get) rfl).trans ?_
  simp only [found, value, Assignment.weight, Option.getD_some]
  rfl

theorem weightFor_refused (refused : ¬ a.Accepted s.config) : ∃ raised, weightFor a.field (a.id, a.value) s = .error raised s := by
  cases found : s.config.serviceNodes.get? a.id with
  | none =>
    refine ⟨.other a.field.missing, (bind_of_ok (x := get) rfl).trans ?_⟩
    simp only [found]
    rfl
  | some node =>
    cases value : intOf a.value with
    | none =>
      refine ⟨.other "int", (bind_of_ok (x := get) rfl).trans ?_⟩
      simp only [found, value]
      rfl
    | some weight =>
      exact absurd ⟨⟨node, (Table.get?_iff.mp found)⟩, by rw [value]; rfl⟩ refused

theorem perform_accepted (accepted : a.Accepted s.config) :
    perform a s = .ok () { s with config := s.config.assigned [a] } := bind_of_ok (weightFor_accepted accepted)

theorem perform_refused (refused : ¬ a.Accepted s.config) : ∃ raised, perform a s = .error raised s :=
  (weightFor_refused refused).imp fun _ run => bind_of_error run

/-- The loops go on until an entry is not accepted. -/
theorem forEach_accepted (accepted : ∀ a ∈ list, a.Accepted s.config) :
    forEach perform list s = .ok () { s with config := s.config.assigned list } := by
  induction list generalizing s with
  | nil => rfl
  | cons a rest ih =>
    obtain ⟨here, later⟩ := List.forall_mem_cons.mp accepted
    refine (bind_of_ok (perform_accepted here)).trans (ih fun b member => accepted_assigned.mpr (later b member))

theorem forEach_refused (refused : ¬ ∀ a ∈ list, a.Accepted s.config) : ∃ raised, forEach perform list s =
    .error raised { s with config := s.config.assigned (list.takeWhile fun a => a.Accepted s.config) } := by
  induction list generalizing s with
  | nil => exact absurd nofun refused
  | cons a rest ih =>
    by_cases here : a.Accepted s.config
    · have later : ¬ ∀ b ∈ rest, b.Accepted (s.config.assigned [a]) := fun all =>
        refused (List.forall_mem_cons.mpr ⟨here, fun b member => accepted_assigned.mp (all b member)⟩)
      obtain ⟨raised, run⟩ := @ih { s with config := s.config.assigned [a] } later
      refine ⟨raised, (bind_of_ok (perform_accepted here)).trans (run.trans ?_)⟩
      rw [List.takeWhile_cons_of_pos (by simpa using here)]
      simp only [accepted_assigned]
      rfl
    · obtain ⟨raised, run⟩ := perform_refused here
      refine ⟨raised, (bind_of_error run).trans ?_⟩
      rw [List.takeWhile_cons_of_neg (by simpa using here)]
      rfl

end Agents

namespace WeightUpdate

open Agents CodeConfiguration

variable (u : WeightUpdate)

/-- The configuration with all weights of the request. -/
def target : CodeConfiguration :=
  (u.before.config.assigned u.assignments).deploy (u.before.config.assigned u.assignments).updateMappings

/-- The servlets can be read and the agents of all proxies answer. -/
def Answered : Prop :=
  u.agents.Readable u.kind u.target ∧
    ∀ proxy ∈ u.target.getProxyServiceNodes, u.agents.answers (proxy.call (u.agents.updateProxyOp u.kind u.target)) = true

variable {u : WeightUpdate}

/-- The request after the check of the state: a loop over all entries, and then
what is left to do. -/
theorem result_running (running : u.before.state = .running) : u.result = (do
      forEach perform u.assignments
      forEach (fun entry => do let _ ← weightFor .web entry) u.webWeights.rows
      let config := (← get).config
      setConfig (config.deploy config.updateMappings)
      u.agents.updateProxy u.kind (config.deploy config.updateMappings) (config.deploy config.updateMappings).getProxyServiceNodes : Hook Unit)
    u.before := by
  rw [assignments, forEach_append, forEach_map, forEach_map, bind_assoc]
  refine (bind_of_ok (x := get) rfl).trans ?_
  rw [if_neg (not_not_intro running)]
  rfl

theorem result_idle (idle : u.before.state ≠ .running) : ∃ raised, u.result = .error raised u.before := by
  refine ⟨.other (wrongState u.before.state), (bind_of_ok (x := get) rfl).trans ?_⟩
  rw [if_pos idle]
  rfl

theorem result_refused (running : u.before.state = .running) (refused : ¬ ∀ a ∈ u.assignments, a.Accepted u.before.config) :
    ∃ raised after, u.result = .error raised after ∧
      after.config = u.before.config.assigned (u.assignments.takeWhile fun a => a.Accepted u.before.config) := by
  obtain ⟨raised, run⟩ := forEach_refused refused
  exact ⟨raised, _, (result_running running).trans (bind_of_error run), rfl⟩

/-- Where all entries are accepted the proxies are told. -/
theorem result_accepted (running : u.before.state = .running) (accepted : ∀ a ∈ u.assignments, a.Accepted u.before.config) :
    u.result = u.agents.updateProxy u.kind u.target u.target.getProxyServiceNodes { u.before with config := u.target } := by
  rw [result_running running]
  have again : ∀ list : List (String × WeightValue), (∀ entry ∈ list, entry ∈ u.webWeights.rows) →
      forEach (fun entry => do let _ ← weightFor .web entry) list { u.before with config := u.before.config.assigned u.assignments } =
        .ok () { u.before with config := u.before.config.assigned u.assignments } := by
    intro list among
    induction list with
    | nil => rfl
    | cons entry rest ih =>
      obtain ⟨here, later⟩ := List.forall_mem_cons.mp among
      have member : (⟨.web, entry.1, entry.2⟩ : Assignment) ∈ u.assignments :=
        List.mem_append_left _ (List.mem_map_of_mem here)
      have looked := @weightFor_accepted { u.before with config := u.before.config.assigned u.assignments } ⟨.web, entry.1, entry.2⟩
        (accepted_assigned.mpr (accepted _ member))
      have passed : (do let _ ← weightFor .web entry : Hook Unit) { u.before with config := u.before.config.assigned u.assignments } =
          .ok () { u.before with config := u.before.config.assigned u.assignments } := bind_of_ok looked
      exact (bind_of_ok passed).trans (ih later)
  exact (bind_of_ok (forEach_accepted accepted)).trans (bind_of_ok (again _ fun _ => id))

theorem result_ok (running : u.before.state = .running) (accepted : ∀ a ∈ u.assignments, a.Accepted u.before.config)
    (answered : u.Answered) : u.result = .ok () ({ u.before with config := u.target }.toldAll
      (callsTo (u.agents.updateProxyOp u.kind u.target) u.target.getProxyServiceNodes)) :=
  (result_accepted running accepted).trans (updateProxy_ok.mpr ⟨answered.1, answered.2, rfl⟩)

theorem result_raised (running : u.before.state = .running) (accepted : ∀ a ∈ u.assignments, a.Accepted u.before.config)
    (unanswered : ¬ u.Answered) : ∃ raised after, u.result = .error raised after ∧ after.config = u.target := by
  rw [result_accepted running accepted]
  cases run : u.agents.updateProxy u.kind u.target u.target.getProxyServiceNodes { u.before with config := u.target } with
  | ok _ after =>
    obtain ⟨readable, answers, -⟩ := updateProxy_ok.mp run
    exact absurd ⟨readable, answers⟩ unanswered
  | error raised after =>
    have quiet : Keeps (Ordered fun _ => True) (u.agents.updateProxy u.kind u.target u.target.getProxyServiceNodes) :=
      quiet_updateProxy (fun _ _ _ _ => trivial) _
    exact ⟨raised, after, rfl, (quiet.of_error run).config⟩

/-- No two entries of a request are for one weight. -/
theorem apart : u.assignments.Pairwise Assignment.Apart := by
  have each (field : WeightField) (weights : WeightMap) :
      (weights.rows.map fun entry => (⟨field, entry.1, entry.2⟩ : Assignment)).Pairwise Assignment.Apart :=
    List.pairwise_map.mpr ((List.pairwise_map.mp weights.keyed).imp fun distinct both => distinct both.2)
  refine List.pairwise_append.mpr ⟨each .web _, each .backend _, ?_⟩
  intro a left b right both
  obtain ⟨_, -, rfl⟩ := List.mem_map.mp left
  obtain ⟨_, -, rfl⟩ := List.mem_map.mp right
  cases both.1

/-- The nodes have the weights of some entries already. -/
def Settled (u : WeightUpdate) (list : List Assignment) : Prop :=
  ∀ a ∈ list, ∀ node ∈ u.before.config.serviceNodes.rows, node.id = a.id → a.field.weightOf node = a.weight

/-- No entry asks for a fraction. -/
def Whole (u : WeightUpdate) : Prop := ∀ a ∈ u.assignments, ∀ number, numberOf a.value = some number → ∃ n : Int, number = n

/-- No web server that is listed is announced to a proxy. -/
def Unannounced (u : WeightUpdate) : Prop :=
  u.before.config.getProxyServiceNodes = [] ∨
    ∀ node ∈ u.before.config.getWebServiceNodes, node.id ∉ u.webWeights.rows.map Prod.fst

theorem truncated_intCast (n : Int) : truncated n = n := by
  unfold truncated
  split
  · exact Int.floor_intCast n
  · exact Int.ceil_intCast n

theorem numberOf_iff {value : WeightValue} {weight : Int} (cut : intOf value = some weight) :
    numberOf value = some (weight : Rat) ↔ ∀ number, numberOf value = some number → ∃ n : Int, number = n := by
  constructor
  · exact fun same other equal => ⟨weight, Option.some.inj (equal.symm.trans same)⟩
  · intro whole
    cases value with
    | float value =>
      obtain ⟨number, rfl, floor⟩ := Option.map_eq_some_iff.mp cut
      obtain ⟨n, rfl⟩ := whole number rfl
      rw [← floor, truncated_intCast]
      rfl
    | null | bool | int | str | arr | obj => simp only [numberOf, cut, Option.map_some]

theorem getServiceNodes_target (tier : Tier) : u.target.getServiceNodes tier =
    (u.before.config.getServiceNodes tier).map fun node => u.assignments.foldl Assignment.assign node :=
  getServiceNodes_assigned u.before.config u.assignments tier

/-- The calls of a request that goes through tell the weights of the backends,
and none of a web server. -/
theorem announces_iff : Announces u.target u.webWeights (u.agents.updateProxyOp u.kind u.target) ↔
    ∀ node ∈ u.before.config.getWebServiceNodes, node.id ∉ u.webWeights.rows.map Prod.fst := by
  have silent (node : WebServiceNode) : ⟨node.ip, 8080, some node.weightWeb⟩ ∉ u.target.getWebTuples := by
    intro member
    obtain ⟨other, -, same⟩ := List.mem_map.mp member
    cases congrArg Endpoint.weight same
  unfold Announces updateProxyOp
  refine (and_iff_left rfl).trans ?_
  rw [ServiceConfiguration.getWebServiceNodes, getServiceNodes_target, List.forall_mem_map]
  simp only [Assignment.id_assignAll, silent, imp_false]
  rfl

theorem told_iff {proxy : WebServiceNode} (member : proxy ∈ u.target.getProxyServiceNodes) :
    (∃ op, (proxy.call op, true) ∈ (callsTo (u.agents.updateProxyOp u.kind u.target) u.target.getProxyServiceNodes).map (fun call => (call, true)) ∧
      Announces u.target u.webWeights op) ↔ Announces u.target u.webWeights (u.agents.updateProxyOp u.kind u.target) := by
  constructor
  · rintro ⟨op, told, announces⟩
    obtain ⟨call, told, same⟩ := List.mem_map.mp told
    obtain ⟨_, -, rfl⟩ := List.mem_map.mp told
    obtain rfl := congrArg AgentCall.op (Prod.mk.inj same).1
    exact announces
  · exact fun announces => ⟨_, List.mem_map_of_mem (List.mem_map_of_mem member), announces⟩

end WeightUpdate

namespace WeightUpdate

open Agents

variable (u : WeightUpdate)

/-- All entries are accepted and the proxies can be told. -/
def GoesThrough : Prop := (∀ a ∈ u.assignments, a.Accepted u.before.config) ∧ u.Answered

/-- An update is all or nothing exactly if it is refused for the state, or goes
through with whole numbers and no web server to announce, or is cut short when
the entries so far are no change. -/
theorem allOrNothing_iff : u.AllOrNothing ↔ (u.before.state = .running →
    (u.GoesThrough → u.Whole ∧ u.Unannounced) ∧
      (¬ u.GoesThrough → u.Settled (u.assignments.takeWhile fun a => a.Accepted u.before.config))) := by
  unfold AllOrNothing
  by_cases running : u.before.state = .running
  swap
  · obtain ⟨raised, result⟩ := result_idle running
    rw [result]
    exact iff_of_true rfl fun same => absurd same running
  rw [forall_prop_of_true running]
  by_cases accepted : ∀ a ∈ u.assignments, a.Accepted u.before.config
  swap
  · have short : ¬ u.GoesThrough := fun through => accepted through.1
    obtain ⟨raised, after, result, config⟩ := result_refused running accepted
    rw [result, and_iff_right fun through => absurd through short, forall_prop_of_true short]
    simp only [config]
    exact CodeConfiguration.weights_assigned (apart.sublist (List.takeWhile_sublist _))
  by_cases answered : u.Answered
  swap
  · have short : ¬ u.GoesThrough := fun through => answered through.2
    obtain ⟨raised, after, result, config⟩ := result_raised running accepted answered
    rw [result, and_iff_right fun through => absurd through short, forall_prop_of_true short,
      List.takeWhile_eq_self_iff.mpr fun a member => decide_eq_true (accepted a member)]
    simp only [config]
    exact CodeConfiguration.weights_assigned apart
  have through : u.GoesThrough := ⟨accepted, answered⟩
  rw [result_ok running accepted answered, forall_prop_of_true through, and_iff_left fun short => absurd through short]
  refine and_congr ?_ ?_
  · refine forall₂_congr fun a member => ?_
    obtain ⟨⟨node, inside, id⟩, number⟩ := accepted a member
    have cut : intOf a.value = some a.weight := by
      obtain ⟨weight, value⟩ := Option.isSome_iff_exists.mp number
      rw [Assignment.weight, value, Option.getD_some]
    rw [← numberOf_iff cut]
    have rows : u.target.serviceNodes.rows = u.before.config.serviceNodes.rows.map fun node => u.assignments.foldl Assignment.assign node :=
      CodeConfiguration.rows_assigned u.before.config u.assignments
    constructor
    · rintro ⟨_, among, same, equal⟩
      obtain ⟨other, -, rfl⟩ := List.mem_map.mp (rows ▸ among)
      rwa [Assignment.weightOf_assignAll apart member ((Assignment.id_assignAll u.assignments other).symm.trans same)] at equal
    · intro equal
      refine ⟨_, rows ▸ List.mem_map_of_mem inside, (Assignment.id_assignAll u.assignments node).trans id, ?_⟩
      rw [equal, Assignment.weightOf_assignAll apart member id]
  · have calls : ({ u.before with config := u.target }.toldAll (callsTo (u.agents.updateProxyOp u.kind u.target)
        u.target.getProxyServiceNodes)).calls.drop u.before.calls.length =
        (callsTo (u.agents.updateProxyOp u.kind u.target) u.target.getProxyServiceNodes).map fun call => (call, true) := List.drop_left
    rw [calls]
    refine (forall₂_congr fun proxy member => (told_iff member).trans announces_iff).trans ?_
    have proxies : u.target.getProxyServiceNodes = [] ↔ u.before.config.getProxyServiceNodes = [] :=
      (getServiceNodes_target .proxy).congr_left.trans List.map_eq_nil_iff
    constructor
    · intro all
      by_contra none
      obtain ⟨some, announced⟩ := not_or.mp none
      obtain ⟨proxy, member⟩ := List.exists_mem_of_ne_nil _ (proxies.not.mpr some)
      exact announced (all proxy member)
    · rintro (none | unannounced) proxy member
      · rw [proxies.mpr none] at member
        exact absurd member List.not_mem_nil
      · exact unannounced

/-- A service on one node is asked for a weight of this node and for one of a node
it does not have. -/
def halfKnown : WeightUpdate where
  agents := CodeWebManager.answering
  kind := .php
  before := { left (CodeWebManager.answering.onStart .php [.node (serverOf "1" "proxybackendweb")])
    (CodeWebManager.created .php).deployment with state := .running }
  webWeights := ⟨[("iaas1", .int 50)], by decide⟩
  backendWeights := ⟨[("iaas2", .int 50)], by decide⟩

theorem halfKnown_changed : ¬ halfKnown.AllOrNothing := by
  intro all
  obtain ⟨raised, after, result, config⟩ := @result_refused halfKnown rfl (by decide +kernel)
  unfold AllOrNothing at all
  rw [result] at all
  have kept : (halfKnown.before.config.assigned (halfKnown.assignments.takeWhile fun a => a.Accepted halfKnown.before.config)).weights =
      halfKnown.before.config.weights := config ▸ all
  exact absurd kept (by decide +kernel)

end WeightUpdate

end ConPaaS
