import ConPaaS.Manager.NodeBookkeeping

namespace ConPaaS

open Keyed Transition Partition

/-- The states from which a service is started. -/
def ManagerState.asleep : ManagerState → Bool
  | .init | .stopped => true
  | _ => false

/-- The nodes a thread has taken from its service and not yet from the
application. -/
def Thread.pending (thread : Thread) : List Entry :=
  match thread.operation, thread.stage with
  | .stopService, .removing nodes | .removeService, .removing nodes => nodes
  | _, _ => []

def looseOf : Option Thread → Multiset Entry
  | none => 0
  | some thread => thread.pending

theorem looseOf_nil {thread : Thread} (loose : thread.pending = []) : looseOf (some thread) = 0 := by
  rw [looseOf, loose, Multiset.coe_nil]

/-- The points of an operation at which its service has no nodes. -/
def Thread.Bare (thread : Thread) : Prop :=
  thread.operation = .startService ∧ (thread.stage = .begin ∨ thread.stage = .creatingNodes) ∨
    (thread.operation = .stopService ∨ thread.operation = .removeService) ∧
      (thread.stage = .deregistering ∨ ∃ nodes, thread.stage = .removing nodes)

namespace ApplicationManager

variable {am after : ApplicationManager} {thread : Thread} {next : Option Thread}

/-- The thread is about to empty a service that already counts as stopped. -/
def Stopping (am : ApplicationManager) (thread : Thread) : Prop :=
  thread.stage = .hook (some .stopped) ∨
    thread.operation = .removeNodes ∧ ∃ nodes, thread.stage = .removing nodes ∧ (nodes : Multiset Entry) = am.entriesOf thread.service

/-- What a thread in flight relies on. -/
structure Serves (am : ApplicationManager) (thread : Thread) : Prop where
  placed : thread.service ≠ 0 → thread.service ∈ am.instances
  grows : thread.operation = .startService ∨ thread.operation = .addNodes →
    thread.service ≠ 0 ∧ (am.object thread.service).state.asleep = false
  bare : thread.Bare → am.entriesOf thread.service = 0
  gives : thread.operation = .removeNodes → ∀ nodes, thread.stage = .removing nodes →
    thread.service ≠ 0 ∧ (nodes : Multiset Entry) ≤ am.entriesOf thread.service
  own : thread.service = 0 → (am.object 0).state ≠ .init

/-- The managers while at most one thread is in flight. -/
structure Orderly (am : ApplicationManager) (next : Option Thread) : Prop where
  books : Books am (looseOf next)
  rests : ∀ sid ∈ am.instances, (am.object sid).state.asleep = true → am.entriesOf sid = 0 ∨
    ∃ thread, next = some thread ∧ thread.service = sid ∧ am.Stopping thread
  serves : ∀ thread, next = some thread → am.Serves thread

/-- A step that changes only the service of the thread. -/
theorem Orderly.change (orderly : Orderly am (some thread))
    (books : Books after (looseOf next))
    (instances : ∀ sid ∈ after.instances, sid ∈ am.instances)
    (others : ∀ sid, sid ≠ thread.service → sid ≠ 0 → after.object sid = am.object sid)
    (rests : thread.service ∈ after.instances → (after.object thread.service).state.asleep = true →
      after.entriesOf thread.service = 0 ∨
        ∃ thread', next = some thread' ∧ thread'.service = thread.service ∧ after.Stopping thread')
    (serves : ∀ thread', next = some thread' → after.Serves thread') : Orderly after next := by
  refine ⟨books, ?_, serves⟩
  intro sid member asleep
  by_cases here : sid = thread.service
  · rw [here] at member asleep ⊢
    exact rests member asleep
  · have away := (books.instances sid member).1
    rw [entriesOf, others sid here away] at *
    rcases orderly.rests sid (instances sid member) asleep with bare | ⟨_, ⟨⟩, same, -⟩
    · exact Or.inl bare
    · exact absurd same.symm here

/-- A step that changes no nodes. -/
theorem Orderly.still (orderly : Orderly am (some thread))
    (pending : looseOf next = thread.pending)
    (nodes : ∀ sid, (after.object sid).nodes = (am.object sid).nodes) (instances : after.instances = am.instances)
    (serviceId : after.serviceId = am.serviceId)
    (others : ∀ sid, sid ≠ thread.service → sid ≠ 0 → after.object sid = am.object sid)
    (rests : (after.object thread.service).state.asleep = true → am.entriesOf thread.service = 0 ∨
      ∃ thread', next = some thread' ∧ thread'.service = thread.service ∧ after.Stopping thread')
    (serves : ∀ thread', next = some thread' → after.Serves thread') : Orderly after next := by
  have books : Books after (thread.pending : Multiset Entry) := orderly.books.congr nodes instances serviceId.ge
  rw [← pending] at books
  refine orderly.change books (fun sid member => instances ▸ member) others (fun _ asleep => ?_) serves
  rw [entriesOf, nodes]
  exact rests asleep

/-- What the bookkeeping relies on: a reply to `create_nodes` is no error
dictionary and lists new nodes, `on_stop` returns the nodes of the service,
`on_remove_nodes` returns some of them, each once, and it only leaves a service
stopped if it returns them all. -/
def Honours (am : ApplicationManager) (operation : Operation) (sid : Nat) : Stage → Outcome → Prop
  | .creatingNodes, .nodesReply (.error _) => False
  | .creatingNodes, .nodesReply (.created nodes) =>
    (nodes.map ServiceNode.id).Nodup ∧ ∀ node ∈ nodes, node.id ∉ (am.object 0).nodes.entries.map Entry.id
  | .hook left, .gives nodes =>
    if operation = .removeNodes then
      nodes.Nodup ∧ (∀ entry ∈ nodes, entry ∈ (am.object sid).nodes.entries) ∧
        (left = some .stopped → nodes.Perm (am.object sid).nodes.entries)
    else nodes.Perm (am.object sid).nodes.entries
  | .hook left, .raises => operation = .removeNodes → left ≠ some .stopped
  | _, _ => True

/-- `HelloWorldManager.on_stop`. -/
def helloWorldOnStop (nodes : List Entry) : List Entry := nodes

/-- `HelloWorldManager.on_remove_nodes`: the last nodes are popped, and popping
from an empty list raises. -/
def helloWorldOnRemoveNodes (count : Nat) (nodes : List Entry) : Option (List Entry × ManagerState) :=
  if count ≤ nodes.length then some (nodes.reverse.take count, if count = nodes.length then .stopped else .running)
  else none

/-- These hooks are such that the books can rely on them. -/
theorem helloWorld_honours {sid count : Nat} {left : Option ManagerState} {nodes : List Entry} {state : ManagerState}
    (once : (am.object sid).nodes.entries.Nodup) :
    am.Honours .stopService sid (.hook left) (.gives (helloWorldOnStop (am.object sid).nodes.entries)) ∧
      (helloWorldOnRemoveNodes count (am.object sid).nodes.entries = some (nodes, state) →
        am.Honours .removeNodes sid (.hook (some state)) (.gives nodes)) := by
  refine ⟨List.Perm.refl _, fun popped => ?_⟩
  unfold helloWorldOnRemoveNodes at popped
  split at popped
  · cases popped
    refine ⟨(List.take_sublist _ _).nodup (List.nodup_reverse.mpr once), ?_, ?_⟩
    · exact fun entry member => List.mem_reverse.mp (List.mem_of_mem_take member)
    · intro stopped
      have all : count = (am.object sid).nodes.entries.length := by
        by_contra some
        simp [some] at stopped
      rw [List.take_of_length_le (by rw [List.length_reverse, all])]
      exact List.reverse_perm _
  · cases popped

section Steps

variable {ticket sid : Nat} {operation : Operation} {stage : Stage} {onward : Option Stage} {outcome : Outcome}

theorem setState_others {state : ManagerState} (other : Nat) (away : other ≠ sid) :
    (am.setState sid state).object other = am.object other := by
  simp [setState, away]

theorem setState_here {state : ManagerState} : ((am.setState sid state).object sid).state = state := by
  simp [setState]

theorem setState_entriesOf {state : ManagerState} (other : Nat) : (am.setState sid state).entriesOf other = am.entriesOf other := by
  rw [entriesOf, setState_nodes, entriesOf]

/-- A thread of a growing service that sets no more than its state. -/
theorem Orderly.ended (orderly : Orderly am (some thread)) (loose : thread.pending = []) {state : ManagerState}
    (awake : state.asleep = false) : Orderly (am.setState thread.service state) none := by
  have settled : looseOf none = thread.pending := by rw [loose, looseOf, Multiset.coe_nil]
  refine orderly.still settled (fun _ => setState_nodes _ _ _ _) rfl rfl (fun other away _ => setState_others other away) ?_ (fun _ next => nomatch next)
  intro asleep
  rw [setState_here, awake] at asleep
  cases asleep

/-- A thread that dies and leaves everything as it is. -/
theorem Orderly.died (orderly : Orderly am (some thread)) (loose : thread.pending = [])
    (safe : (am.object thread.service).state.asleep = true → ¬ am.Stopping thread) : Orderly am none := by
  refine ⟨?_, ?_, fun _ next => nomatch next⟩
  · have books := orderly.books
    rw [looseOf_nil loose] at books
    exact books
  · intro sid member asleep
    rcases orderly.rests sid member asleep with bare | ⟨_, ⟨⟩, rfl, stopping⟩
    · exact Or.inl bare
    · exact absurd stopping (safe asleep)

/-- A thread that goes on and leaves everything as it is. -/
theorem Orderly.moved (orderly : Orderly am (some ⟨ticket, sid, operation, stage⟩)) {stage' : Stage}
    (loose : (⟨ticket, sid, operation, stage'⟩ : Thread).pending = (⟨ticket, sid, operation, stage⟩ : Thread).pending)
    (safe : am.Stopping ⟨ticket, sid, operation, stage⟩ → am.Stopping ⟨ticket, sid, operation, stage'⟩)
    (bare : (⟨ticket, sid, operation, stage'⟩ : Thread).Bare → am.entriesOf sid = 0)
    (gives : operation = .removeNodes → ∀ nodes, stage' = .removing nodes →
      sid ≠ 0 ∧ (nodes : Multiset Entry) ≤ am.entriesOf sid) : Orderly am (some ⟨ticket, sid, operation, stage'⟩) := by
  have serves := orderly.serves _ rfl
  refine ⟨?_, ?_, ?_⟩
  · have books := orderly.books
    rwa [looseOf, ← loose] at books
  · intro other member asleep
    rcases orderly.rests other member asleep with empty | ⟨_, ⟨⟩, rfl, stopping⟩
    · exact Or.inl empty
    · exact Or.inr ⟨_, rfl, rfl, safe stopping⟩
  · rintro _ ⟨⟩
    exact ⟨serves.placed, serves.grows, bare, gives, serves.own⟩

/-- Only a thread that removes nodes has some pending. -/
theorem pending_nil (other : ∀ nodes, stage ≠ .removing nodes) : (⟨ticket, sid, operation, stage⟩ : Thread).pending = [] := by
  unfold Thread.pending
  split
  · rename_i same
    exact absurd same (other _)
  · rename_i same
    exact absurd same (other _)
  · rfl

theorem pending_hook (left : Option ManagerState) : (⟨ticket, sid, operation, .hook left⟩ : Thread).pending = [] :=
  pending_nil nofun

theorem pending_begin : (⟨ticket, sid, operation, .begin⟩ : Thread).pending = [] := pending_nil nofun

theorem pending_removing (kind : operation = .stopService ∨ operation = .removeService) (nodes : List Entry) :
    (⟨ticket, sid, operation, .removing nodes⟩ : Thread).pending = nodes := by
  rcases kind with rfl | rfl <;> rfl

theorem not_bare_hook {left : Option ManagerState} : ¬ (⟨ticket, sid, operation, .hook left⟩ : Thread).Bare := by
  rintro (⟨-, ⟨⟨⟩⟩ | ⟨⟨⟩⟩⟩ | ⟨-, ⟨⟨⟩⟩ | ⟨_, ⟨⟩⟩⟩)

/-- A hook that sets the state of its service. -/
theorem Orderly.wrote {left : Option ManagerState} (orderly : Orderly am (some ⟨ticket, sid, operation, .hook left⟩))
    {state : ManagerState} (given : giveUpState state = true)
    (grows : operation = .startService ∨ operation = .addNodes → state.asleep = false) :
    Orderly (am.setState sid state) (some ⟨ticket, sid, operation, .hook (some state)⟩) := by
  have serves := orderly.serves _ rfl
  refine orderly.still ?_ (fun _ => setState_nodes _ _ _ _) rfl rfl (fun other away _ => setState_others other away) ?_ ?_
  · rw [looseOf, pending_hook, pending_hook]
  · intro asleep
    rw [setState_here] at asleep
    have stopped : state = .stopped := by cases state <;> simp_all [giveUpState, ManagerState.asleep]
    exact Or.inr ⟨_, rfl, rfl, Or.inl (by rw [stopped])⟩
  · rintro _ ⟨⟩
    refine ⟨serves.placed, ?_, fun bare => absurd bare not_bare_hook, by rintro - _ ⟨⟩, ?_⟩
    · intro kind
      exact ⟨(serves.grows kind).1, by rw [setState_here]; exact grows kind⟩
    · rintro rfl
      rw [setState_here]
      rintro rfl
      cases given

/-- What the reply of the director holds when the books can rely on it. -/
theorem createNodes_new {reply : NodesReply} {nodes : Nodes} (honours : am.Honours operation sid .creatingNodes (.nodesReply reply))
    (replied : createNodes reply = some nodes) : ∃ new : List ServiceNode, nodes = .list (new.map .node) ∧
      (new.map ServiceNode.id).Nodup ∧ ∀ node ∈ new, node.id ∉ (am.object 0).nodes.entries.map Entry.id := by
  cases reply with
  | failed => cases replied
  | error => exact honours.elim
  | created new =>
    cases new with
    | nil => cases replied
    | cons first rest =>
      cases replied
      exact ⟨first :: rest, rfl, honours⟩

/-- `+=` on a list. -/
theorem extend_list {holder : Nat} (list : (am.object holder).nodes.isList = true) (entries : List Entry) :
    am.extend holder (.list entries) = some (am.setNodes holder (.list ((am.object holder).nodes.entries ++ entries))) := by
  unfold extend
  cases held : (am.object holder).nodes with
  | dict => simp [held, Nodes.isList] at list
  | list old => rfl

/-- New nodes reach the lists of the application and of the service, and the
hook is called. -/
theorem Orderly.grown (orderly : Orderly am (some ⟨ticket, sid, operation, .creatingNodes⟩))
    (kind : operation = .startService ∨ operation = .addNodes) {new : List ServiceNode}
    (once : (new.map ServiceNode.id).Nodup) (fresh : ∀ node ∈ new, node.id ∉ (am.object 0).nodes.entries.map Entry.id)
    (own : (after.object 0).nodes = .list ((am.object 0).nodes.entries ++ new.map .node))
    (grown : (after.object sid).nodes = .list ((am.object sid).nodes.entries ++ new.map .node))
    (shuffled : Shuffled sid am after) : Orderly after (some ⟨ticket, sid, operation, .hook none⟩) := by
  have serves := orderly.serves _ rfl
  obtain ⟨service, awake⟩ := serves.grows kind
  have books : Books am 0 := by
    have books := orderly.books
    rcases kind with rfl | rfl <;> exact books
  refine orderly.change ?_ (fun other member => shuffled.instances ▸ member) shuffled.others ?_ ?_
  · rw [looseOf, pending_hook]
    exact books.grow (serves.placed service) once fresh own grown shuffled.others shuffled.instances shuffled.serviceId
  · intro _ asleep
    rw [shuffled.states] at asleep
    exact absurd asleep (by rw [awake]; nofun)
  · rintro _ ⟨⟩
    refine ⟨fun away => shuffled.instances ▸ serves.placed away, fun _ => ⟨service, ?_⟩, fun bare => absurd bare not_bare_hook, nofun,
      fun own => absurd own service⟩
    rw [shuffled.states]
    exact awake

theorem doStartService_orderly (orderly : Orderly am (some ⟨ticket, sid, .startService, stage⟩))
    (honours : am.Honours .startService sid stage outcome)
    (step : am.doStartService sid stage outcome = some (after, onward)) :
    Orderly after (onward.map fun stage => ⟨ticket, sid, .startService, stage⟩) := by
  have serves := orderly.serves _ rfl
  obtain ⟨service, awake⟩ := serves.grows (Or.inl rfl)
  have placed := serves.placed service
  have safe : (am.object sid).state.asleep = true → ¬ am.Stopping ⟨ticket, sid, .startService, stage⟩ := by
    intro asleep
    simp [awake] at asleep
  unfold doStartService at step
  split at step
  · have registered : am.registered sid = true := by simp [registered, placed]
    simp only [registered, if_true] at step
    cases step
    refine orderly.moved rfl ?_ (fun _ => serves.bare (Or.inl ⟨rfl, Or.inl rfl⟩)) (by rintro - _ ⟨⟩)
    rintro (⟨⟨⟩⟩ | ⟨⟨⟩, -⟩)
  · rename_i reply
    split at step
    · cases step
      exact orderly.died rfl safe
    · rename_i nodes replied
      obtain ⟨new, rfl, once, fresh⟩ := createNodes_new honours replied
      rw [extend_list orderly.books.own.list] at step
      cases step
      have bare : (am.object sid).nodes.entries = [] := Multiset.coe_eq_zero _ |>.mp (serves.bare (Or.inl ⟨rfl, Or.inr rfl⟩))
      refine orderly.grown (Or.inl rfl) once fresh ?_ ?_ ?_
      · rw [setNodes_nodes, if_neg service.symm, setNodes_nodes, if_pos rfl]
      · rw [setNodes_nodes, if_pos rfl, bare, List.nil_append]
      · exact (Shuffled.setNodes (Or.inr rfl) _).trans (.setNodes (Or.inl rfl) _)
  · obtain ⟨-, same⟩ := hooked_some step
    cases same
    exact orderly.wrote rfl fun _ => rfl
  · obtain ⟨-, same⟩ := hooked_some step
    cases same
    rename_i ok
    exact orderly.ended rfl (by cases ok <;> rfl)
  · cases step
    exact orderly.died rfl safe
  · cases step

theorem doAddNodes_orderly (orderly : Orderly am (some ⟨ticket, sid, .addNodes, stage⟩))
    (honours : am.Honours .addNodes sid stage outcome) (step : am.doAddNodes sid stage outcome = some (after, onward)) :
    Orderly after (onward.map fun stage => ⟨ticket, sid, .addNodes, stage⟩) := by
  have serves := orderly.serves _ rfl
  obtain ⟨service, awake⟩ := serves.grows (Or.inr rfl)
  have placed := serves.placed service
  have safe : (am.object sid).state.asleep = true → ¬ am.Stopping ⟨ticket, sid, .addNodes, stage⟩ := by
    intro asleep
    simp [awake] at asleep
  unfold doAddNodes at step
  split at step
  · have registered : am.registered sid = true := by simp [registered, placed]
    simp only [registered, if_true] at step
    cases step
    refine orderly.moved rfl ?_ ?_ (by rintro - _ ⟨⟩)
    · rintro (⟨⟨⟩⟩ | ⟨⟨⟩, -⟩)
    · rintro (⟨⟨⟩, -⟩ | ⟨⟨⟨⟩⟩ | ⟨⟨⟩⟩, -⟩)
  · rename_i reply
    split at step
    · cases step
      exact orderly.died rfl safe
    · rename_i nodes replied
      obtain ⟨new, rfl, once, fresh⟩ := createNodes_new honours replied
      rw [extend_list orderly.books.own.list] at step
      have apart : ∀ entries, (am.setNodes 0 entries).object sid = am.object sid := fun entries => by
        simp [setNodes, service]
      have list : ((am.setNodes 0 (.list ((am.object 0).nodes.entries ++ new.map .node))).object sid).nodes.isList = true := by
        rw [apart]
        exact orderly.books.lists sid placed
      dsimp only at step
      rw [extend_list list] at step
      cases step
      refine orderly.grown (Or.inr rfl) once fresh ?_ ?_ ?_
      · rw [setNodes_nodes, if_neg service.symm, setNodes_nodes, if_pos rfl]
      · rw [setNodes_nodes, if_pos rfl, apart]
      · exact (Shuffled.setNodes (Or.inr rfl) _).trans (.setNodes (Or.inl rfl) _)
  · obtain ⟨-, same⟩ := hooked_some step
    cases same
    exact orderly.wrote rfl fun _ => rfl
  · obtain ⟨-, same⟩ := hooked_some step
    cases same
    rename_i ok
    exact orderly.ended rfl (by cases ok <;> rfl)
  · cases step
    exact orderly.died rfl safe
  · cases step

theorem doStopService_orderly {remove : Bool} (kind : operation = .stopService ∨ operation = .removeService)
    (orderly : Orderly am (some ⟨ticket, sid, operation, stage⟩))
    (honours : am.Honours operation sid stage outcome)
    (step : am.doStopService sid remove stage outcome = some (after, onward)) :
    Orderly after (onward.map fun stage => ⟨ticket, sid, operation, stage⟩) := by
  have serves := orderly.serves _ rfl
  have grows : ¬ (operation = .startService ∨ operation = .addNodes) := by rcases kind with rfl | rfl <;> simp
  have removes : operation ≠ .removeNodes := by rcases kind with rfl | rfl <;> simp
  -- Once the nodes are gone the thread ends, or takes the service off the table.
  have finish : ∀ {rest : ApplicationManager}, rest.entriesOf sid = 0 → (sid ≠ 0 → sid ∈ rest.instances) →
      (sid = 0 → (rest.object 0).state ≠ .init) → ∀ thread', (afterStop remove).map (fun stage => (⟨ticket, sid, operation, stage⟩ : Thread)) =
        some thread' → rest.Serves thread' := by
    intro rest bare placed own thread' going
    obtain ⟨stage', -, rfl⟩ := Option.map_eq_some_iff.mp going
    exact ⟨placed, fun kind => absurd kind grows, fun _ => bare, fun kind => absurd kind removes, own⟩
  have settled : looseOf ((afterStop remove).map fun stage => (⟨ticket, sid, operation, stage⟩ : Thread)) = 0 := by
    cases remove with
    | false => rfl
    | true => exact looseOf_nil (pending_nil (by rintro _ ⟨⟩))
  unfold doStopService at step
  split at step
  · split at step
    · split at step
      · cases step
        refine orderly.moved ((pending_hook _).trans pending_begin.symm) ?_ (fun bare => absurd bare not_bare_hook)
          fun kind => absurd kind removes
        rintro (⟨⟨⟩⟩ | ⟨kind, -⟩)
        exact absurd kind removes
      · rename_i init
        have asleep : (am.object sid).state.asleep = true := by rw [not_not.mp init]; rfl
        have service : sid ≠ 0 := by
          rintro rfl
          exact serves.own rfl (not_not.mp init)
        have bare : am.entriesOf sid = 0 := by
          rcases orderly.rests sid (serves.placed service) asleep with bare | ⟨_, ⟨⟩, -, ⟨⟨⟩⟩ | ⟨kind, -⟩⟩
          · exact bare
          · exact absurd kind removes
        cases step
        refine orderly.still (settled.trans (looseOf_nil pending_begin).symm) (fun _ => setState_nodes _ _ _ _) rfl rfl
          (fun other away _ => setState_others other away) (fun _ => Or.inl bare) (finish ?_ serves.placed fun own => absurd own service)
        rw [setState_entriesOf, bare]
    · cases step
      refine orderly.died pending_begin ?_
      rintro - (⟨⟨⟩⟩ | ⟨kind, -⟩)
      exact removes kind
  · split at step
    · rename_i given
      obtain ⟨-, same⟩ := hooked_some step
      cases same
      exact orderly.wrote given fun kind => absurd kind grows
    · cases step
  · rename_i left nodes
    obtain ⟨service, same⟩ := hooked_some step
    cases same
    have placed := serves.placed service
    have given : (nodes : Multiset Entry) = am.entriesOf sid := by
      have perm : nodes.Perm (am.object sid).nodes.entries := by simpa only [Honours, if_neg removes] using honours
      exact Multiset.coe_eq_coe.mpr perm
    have books : Books am 0 := by
      have books := orderly.books
      rwa [looseOf, pending_hook] at books
    have bare : ((am.setNodes sid (.list [])).setState sid .stopped).entriesOf sid = 0 := by
      rw [setState_entriesOf, entriesOf, setNodes_nodes, if_pos rfl]
      rfl
    refine orderly.change ?_ (fun _ member => member) ?_ (fun _ _ => Or.inl bare) ?_
    · rw [Option.map_some, looseOf, pending_removing kind, given]
      exact books.release placed .stopped
    · intro other away _
      rw [setState_others other away]
      simp [setNodes, show other ≠ sid from away]
    · rintro _ ⟨⟩
      exact ⟨fun _ => placed, fun kind => absurd kind grows, fun _ => bare, fun kind => absurd kind removes,
        fun own => absurd own service⟩
  · split at step
    · rename_i left raising
      cases step
      refine orderly.died (pending_hook _) ?_
      rintro - (⟨⟨⟩⟩ | ⟨kind, -⟩)
      · rcases raising with none | failed
        · cases none
        · cases failed
      · exact removes kind
    · cases step
  · rename_i nodes
    have bare : am.entriesOf sid = 0 := serves.bare (Or.inr ⟨kind, Or.inr ⟨nodes, rfl⟩⟩)
    have books : Books am (nodes : Multiset Entry) := by
      have books := orderly.books
      rwa [looseOf, pending_removing kind] at books
    obtain ⟨rest, run, books', split, apart⟩ := books.forget
    have shuffled : Shuffled sid am (forget [0] nodes am).1 := .forget sid nodes am (by simp)
    rw [run] at shuffled
    have bare' : rest.entriesOf sid = 0 := by
      by_cases own : sid = 0
      · subst own
        rw [split] at bare
        exact Multiset.le_zero.mp (bare ▸ Multiset.le_add_right _ _)
      · rw [entriesOf, apart sid own]
        exact bare
    rw [run] at step
    cases step
    refine orderly.change ?_ (fun _ member => shuffled.instances ▸ member) (fun other _ own => apart other own)
      (fun _ _ => Or.inl bare') (finish bare' (fun service => shuffled.instances ▸ serves.placed service) ?_)
    · rw [settled]
      exact books'
    · intro own
      rw [shuffled.states]
      exact serves.own own
  · cases step
    have bare : am.entriesOf sid = 0 := serves.bare (Or.inr ⟨kind, Or.inl rfl⟩)
    have books : Books am 0 := by
      have books := orderly.books
      have none : (⟨ticket, sid, operation, .deregistering⟩ : Thread).pending = [] := pending_nil (by rintro _ ⟨⟩)
      rwa [looseOf_nil none] at books
    have nodes : (am.deregister sid).entriesOf sid = 0 := by
      rwa [entriesOf, deregister_nodes]
    exact orderly.change (books.deregister bare) (fun other => deregister_instances other) deregister_effect.others
      (fun _ _ => Or.inl nodes) (by rintro _ ⟨⟩)
  · cases step

theorem doRemoveNodes_orderly (orderly : Orderly am (some ⟨ticket, sid, .removeNodes, stage⟩))
    (honours : am.Honours .removeNodes sid stage outcome)
    (step : am.doRemoveNodes sid stage outcome = some (after, onward)) :
    Orderly after (onward.map fun stage => ⟨ticket, sid, .removeNodes, stage⟩) := by
  have serves := orderly.serves _ rfl
  have not_bare : ∀ {stage : Stage}, ¬ (⟨ticket, sid, .removeNodes, stage⟩ : Thread).Bare := by
    rintro stage (⟨⟨⟩, -⟩ | ⟨⟨⟨⟩⟩ | ⟨⟨⟩⟩, -⟩)
  unfold doRemoveNodes at step
  split at step
  · cases step
    by_cases registered : am.registered sid = true
    · rw [if_pos registered]
      refine orderly.moved rfl ?_ (fun bare => absurd bare not_bare) nofun
      rintro (⟨⟨⟩⟩ | ⟨-, _, ⟨⟩, -⟩)
    · rw [if_neg registered]
      refine orderly.died rfl ?_
      rintro - (⟨⟨⟩⟩ | ⟨-, _, ⟨⟩, -⟩)
  · split at step
    · rename_i given
      obtain ⟨-, same⟩ := hooked_some step
      cases same
      exact orderly.wrote given nofun
    · cases step
  · rename_i left nodes
    obtain ⟨service, same⟩ := hooked_some step
    cases same
    obtain ⟨once, listed, all⟩ : nodes.Nodup ∧ (∀ entry ∈ nodes, entry ∈ (am.object sid).nodes.entries) ∧
        (some left = some .stopped → nodes.Perm (am.object sid).nodes.entries) := honours
    refine orderly.moved rfl ?_ (fun bare => absurd bare not_bare) ?_
    · rintro (⟨⟨⟩⟩ | ⟨-, _, ⟨⟩, -⟩)
      exact Or.inr ⟨rfl, nodes, rfl, Multiset.coe_eq_coe.mpr (all rfl)⟩
    · rintro - _ ⟨⟩
      exact ⟨service, (List.subperm_of_subset once listed)⟩
  · rename_i left
    cases step
    refine orderly.died rfl ?_
    rintro - (⟨⟨⟩⟩ | ⟨-, _, ⟨⟩, -⟩)
    exact honours rfl rfl
  · rename_i nodes
    cases step
    obtain ⟨service, listed⟩ := serves.gives rfl nodes rfl
    have placed := serves.placed service
    obtain ⟨rest, run, books, split⟩ := Books.leave (show Books am 0 from orderly.books) placed listed
    have shuffled : Shuffled sid am (forget [0, sid] nodes am).1 := .forget sid nodes am (by simp)
    rw [run] at shuffled ⊢
    refine orderly.change books (fun _ member => shuffled.instances ▸ member) shuffled.others ?_ (fun _ next => nomatch next)
    intro _ asleep
    refine Or.inl ?_
    rw [shuffled.states] at asleep
    rcases orderly.rests sid placed asleep with bare | ⟨_, ⟨⟩, -, ⟨⟨⟩⟩ | ⟨-, _, ⟨⟩, all⟩⟩
    · rw [bare] at split
      exact Multiset.le_zero.mp (split ▸ Multiset.le_add_right _ _)
    · rw [← all] at split
      exact add_eq_right.mp split.symm
  · cases step

/-- The records of the volumes are no part of the books. -/
theorem Orderly.recorded (orderly : Orderly am next) (volumes : Table Volume.volName) : Orderly { am with volumes } next where
  books := orderly.books.congr (fun _ => rfl) rfl le_rfl
  rests := orderly.rests
  serves thread going := ⟨(orderly.serves thread going).placed, (orderly.serves thread going).grows,
    (orderly.serves thread going).bare, (orderly.serves thread going).gives, (orderly.serves thread going).own⟩

theorem doCreateVolume_orderly {volName agentId : String} {volSize : Int}
    (orderly : Orderly am (some ⟨ticket, sid, .createVolume volName volSize agentId, stage⟩))
    (step : am.doCreateVolume sid volName volSize agentId stage outcome = some (after, onward)) :
    Orderly after (onward.map fun stage => ⟨ticket, sid, .createVolume volName volSize agentId, stage⟩) := by
  have not_bare : ∀ {stage : Stage}, ¬ (⟨ticket, sid, .createVolume volName volSize agentId, stage⟩ : Thread).Bare := by
    rintro stage (⟨⟨⟩, -⟩ | ⟨⟨⟨⟩⟩ | ⟨⟨⟩⟩, -⟩)
  unfold doCreateVolume at step
  split at step
  · split at step
    · cases step
      refine orderly.moved rfl ?_ (fun bare => absurd bare not_bare) nofun
      rintro (⟨⟨⟩⟩ | ⟨⟨⟩, -⟩)
    · cases step
      exact orderly.ended rfl rfl
  · dsimp only at step
    split at step
    · cases step
      refine orderly.moved rfl ?_ (fun bare => absurd bare not_bare) nofun
      rintro (⟨⟨⟩⟩ | ⟨⟨⟩, -⟩)
    · cases step
      exact orderly.ended rfl rfl
  · cases step
    refine orderly.moved rfl ?_ (fun bare => absurd bare not_bare) nofun
    rintro (⟨⟨⟩⟩ | ⟨⟨⟩, -⟩)
  · cases step
    exact (orderly.recorded _).ended rfl rfl
  · cases step
    exact orderly.ended rfl rfl
  · cases step

theorem doDeleteVolume_orderly {volume : Volume} (orderly : Orderly am (some ⟨ticket, sid, .deleteVolume volume, stage⟩))
    (step : am.doDeleteVolume sid volume stage outcome = some (after, onward)) :
    Orderly after (onward.map fun stage => ⟨ticket, sid, .deleteVolume volume, stage⟩) := by
  have not_bare : ∀ {stage : Stage}, ¬ (⟨ticket, sid, .deleteVolume volume, stage⟩ : Thread).Bare := by
    rintro stage (⟨⟨⟩, -⟩ | ⟨⟨⟨⟩⟩ | ⟨⟨⟩⟩, -⟩)
  unfold doDeleteVolume at step
  split at step
  · cases step
    refine orderly.moved rfl ?_ (fun bare => absurd bare not_bare) nofun
    rintro (⟨⟨⟩⟩ | ⟨⟨⟩, -⟩)
  · split at step
    · cases step
      exact (orderly.recorded _).ended rfl rfl
    · cases step
      refine orderly.died rfl ?_
      rintro - (⟨⟨⟩⟩ | ⟨⟨⟩, -⟩)
  · cases step

/-- A step of the only thread in flight. -/
theorem advance_orderly (orderly : Orderly am (some ⟨ticket, sid, operation, stage⟩))
    (honours : am.Honours operation sid stage outcome)
    (step : am.advance sid operation stage outcome = some (after, onward)) :
    Orderly after (onward.map fun stage => ⟨ticket, sid, operation, stage⟩) := by
  cases operation with
  | startService => exact doStartService_orderly orderly honours step
  | stopService => exact doStopService_orderly (Or.inl rfl) orderly honours step
  | removeService => exact doStopService_orderly (Or.inr rfl) orderly honours step
  | addNodes => exact doAddNodes_orderly orderly honours step
  | removeNodes => exact doRemoveNodes_orderly orderly honours step
  | createVolume => exact doCreateVolume_orderly orderly step
  | deleteVolume => exact doDeleteVolume_orderly orderly step

/-- A service is started from a state in which it sleeps. -/
theorem request_startService {request : Request} (started : am.request request = some (sid, .startService)) :
    (am.object sid).state.asleep = true := by
  have asleep : ∀ {checked : Bool}, am.startService sid checked = some (sid, .startService) →
      (am.object sid).state.asleep = true := by
    intro checked started
    unfold startService at started
    split at started
    · rename_i passed
      simp only [checkState, Bool.and_eq_true, List.mem_cons, List.not_mem_nil, or_false, decide_eq_true_eq] at passed
      rcases passed.2 with state | state
      · rw [state]
        rfl
      · rw [state]
        rfl
    · cases started
  cases request with
  | startService sid' checked =>
    have same : sid' = sid := by
      simp only [request, startService] at started
      split at started
      · cases started
        rfl
      · cases started
    subst same
    exact asleep started
  | stopService sid' =>
    simp only [request, stopService] at started
    split at started <;> cases started
  | removeService sid' =>
    simp only [request, removeService] at started
    split at started <;> cases started
  | addNodes sid' checked =>
    simp only [request, addNodes] at started
    split at started <;> cases started
  | removeNodes sid' checked =>
    simp only [request, removeNodes] at started
    split at started <;> cases started
  | createVolume volName volSize agentId checked =>
    simp only [request, createVolume] at started
    split at started
    · split at started
      · cases started
      · split at started <;> cases started
    · cases started
  | deleteVolume volName checked =>
    simp only [request, deleteVolume] at started
    split at started
    · cases started
    · split at started
      · split at started
        · cases started
        · split at started <;> cases started
      · cases started

/-- An operation that is accepted while nothing is in flight. -/
theorem Orderly.launched (orderly : Orderly am none) {request : Request}
    (started : am.request request = some (sid, operation))
    (service : sid = 0 → operation ≠ .startService ∧ operation ≠ .addNodes) :
    Orderly (am.setState (operation.marks sid) operation.mark) (some ⟨ticket, sid, operation, .begin⟩) := by
  have registered := (request_some started).1
  have awake : operation.mark.asleep = false := by cases operation <;> rfl
  have same : ∀ other, other ≠ operation.marks sid →
      (am.setState (operation.marks sid) operation.mark).object other = am.object other :=
    fun other away => setState_others other away
  refine ⟨?_, ?_, ?_⟩
  · rw [looseOf, pending_begin]
    exact orderly.books.congr (fun _ => setState_nodes _ _ _ _) rfl le_rfl
  · intro other member asleep
    by_cases here : other = operation.marks sid
    · rw [here, setState_here, awake] at asleep
      cases asleep
    · rw [same other here] at asleep
      rw [setState_entriesOf]
      rcases orderly.rests other member asleep with bare | ⟨_, ⟨⟩, -⟩
      exact Or.inl bare
  · rintro _ ⟨⟩
    refine ⟨fun away => by simpa [ApplicationManager.registered, away] using registered, ?_, ?_, ?_, ?_⟩
    · intro kind
      have away : sid ≠ 0 := by
        intro own
        rcases kind with rfl | rfl
        · exact (service own).1 rfl
        · exact (service own).2 rfl
      refine ⟨away, ?_⟩
      rcases kind with rfl | rfl
      · exact congrArg ManagerState.asleep setState_here
      · exact congrArg ManagerState.asleep setState_here
    · rintro (⟨kind, -⟩ | ⟨-, ⟨⟨⟩⟩ | ⟨_, ⟨⟩⟩⟩)
      dsimp only at kind ⊢
      subst kind
      have away : sid ≠ 0 := fun own => (service own).1 rfl
      have member : sid ∈ am.instances := by simpa [ApplicationManager.registered, away] using registered
      rw [setState_entriesOf]
      exact (orderly.rests sid member (request_startService started)).resolve_right (by rintro ⟨_, ⟨⟩, -⟩)
    · rintro - _ ⟨⟩
    · rintro rfl
      have here : operation.marks 0 = 0 := by cases operation <;> rfl
      rw [here, setState_here]
      cases operation <;> rintro ⟨⟩

/-- A new service has no nodes and waits to be started. -/
theorem Orderly.addService (orderly : Orderly am next) (construction : Construction) :
    Orderly (am.addService construction) next := by
  have object : ∀ other ∈ am.instances, (am.addService construction).object other = am.object other := fun other member =>
    addService_object construction (orderly.books.instances other member).1 (orderly.books.instances other member).2
  refine ⟨orderly.books.addService construction, ?_, ?_⟩
  · intro sid member asleep
    by_cases old : sid ∈ am.instances
    · rw [object sid old] at asleep
      rw [entriesOf, object sid old]
      refine (orderly.rests sid old asleep).imp_right ?_
      rintro ⟨thread, going, rfl, stopping⟩
      refine ⟨thread, going, rfl, stopping.imp_right ?_⟩
      rintro ⟨kind, nodes, stage, all⟩
      exact ⟨kind, nodes, stage, by rw [all, entriesOf, entriesOf, object _ old]⟩
    · cases construction with
      | made exposed =>
        have new : sid = am.serviceId + 1 := by
          rcases List.mem_append.mp member with inside | added
          · exact absurd inside old
          · exact List.mem_singleton.mp added
        subst new
        exact Or.inl (by simp [entriesOf, ApplicationManager.addService, Nodes.entries])
      | _ => exact absurd member old
  · intro thread going
    have serves := orderly.serves thread going
    have kept : ∀ other ∈ am.instances, other ∈ (am.addService construction).instances := by
      intro other member
      cases construction with
      | made => exact List.mem_append_left _ member
      | _ => exact member
    have entries : (am.addService construction).entriesOf thread.service = am.entriesOf thread.service := by
      by_cases own : thread.service = 0
      · rw [own]
        cases construction <;> simp [entriesOf, ApplicationManager.addService, setState]
      · rw [entriesOf, object _ (serves.placed own), entriesOf]
    refine ⟨fun away => kept _ (serves.placed away), ?_, ?_, ?_, ?_⟩
    · intro kind
      obtain ⟨away, awake⟩ := serves.grows kind
      exact ⟨away, by rw [object _ (serves.placed away)]; exact awake⟩
    · intro bare
      rw [entries]
      exact serves.bare bare
    · intro kind nodes stage
      rw [entries]
      exact serves.gives kind nodes stage
    · intro own
      cases construction with
      | unknownType => exact serves.own own
      | _ => simp [ApplicationManager.addService, setState]

end Steps

end ApplicationManager

namespace Process

/-- The operations come one after the other, none that needs nodes on the
application manager itself, and the books can rely on what they meet. -/
def InTurn (p : Process) : Event → Prop
  | .addService _ => True
  | .request request => p.threads.rows = [] ∧
    ∀ operation, p.manager.request request = some (0, operation) → operation ≠ .startService ∧ operation ≠ .addNodes
  | .advance ticket outcome => ∀ thread, p.threads.get? ticket = some thread →
    p.manager.Honours thread.operation thread.service thread.stage outcome

/-- At most one thread is in flight, and the managers are in order. -/
def Orderly (p : Process) : Prop :=
  p.threads.rows = [] ∧ p.manager.Orderly none ∨ ∃ thread, p.threads.rows = [thread] ∧ p.manager.Orderly (some thread)

theorem Orderly.start {p : Process} (starts : Starts p) : Orderly p := by
  obtain ⟨instances, -, nodes, -, -, threads, -⟩ := starts
  refine Or.inl ⟨by rw [threads]; rfl, ⟨⟨?_, ?_, ?_⟩, ?_, ?_, ?_, ?_⟩, ?_, fun _ next => nomatch next⟩
  · rw [nodes]
    rfl
  · simp [nodes, Nodes.entries]
  · simp [nodes, Nodes.entries]
  · simp [instances]
  · simp [Splits, instances, ApplicationManager.entriesOf, nodes, Nodes.entries, looseOf]
  · simp [instances]
  · simp [instances]
  · simp [instances]

theorem Orderly.step {before after : Process} {event : Event} (orderly : Orderly before) (inTurn : before.InTurn event)
    (step : Step before event after) : Orderly after := by
  cases event with
  | addService construction =>
    cases step
    exact orderly.imp (fun ⟨idle, still⟩ => ⟨idle, still.addService construction⟩)
      fun ⟨thread, alone, still⟩ => ⟨thread, alone, still.addService construction⟩
  | request request =>
    obtain ⟨idle, service⟩ := inTurn
    have still : before.manager.Orderly none := by
      rcases orderly with ⟨-, still⟩ | ⟨thread, alone, -⟩
      · exact still
      · rw [idle] at alone
        cases alone
    unfold Step handle at step
    dsimp only at step
    split at step
    · cases step
      exact orderly
    · rename_i sid operation started
      cases step
      refine Or.inr ⟨⟨before.accepted.length, sid, operation, .begin⟩, ?_, still.launched started ?_⟩
      · simp [launch, idle]
      · rintro rfl
        exact service operation started
  | advance ticket outcome =>
    obtain ⟨thread, manager, onward, found, rfl, advanced, rfl⟩ := step_advance.mp step
    have member := Table.get?_mem found
    rcases orderly with ⟨idle, -⟩ | ⟨other, alone, still⟩
    · rw [idle] at member
      cases member
    rw [alone] at member
    cases List.mem_singleton.mp member
    have next := ApplicationManager.advance_orderly still (inTurn thread found) advanced
    cases onward with
    | none => exact Or.inl ⟨by simp [proceed, alone], by simpa using next⟩
    | some stage => exact Or.inr ⟨{ thread with stage }, by simp [proceed, alone], by simpa using next⟩

/-- The bookkeeping of nodes. In every run of operations one after the other
whose callbacks and hooks meet what the books rely on, whether they succeed, fail
or raise, the nodes of the application are just those of its services whenever no
operation is in flight. -/
theorem nodes_balanced {first current : Process} {events : List Event} (starts : Starts first)
    (run : Run (Guarded InTurn Step) first events current) (idle : current.threads.rows = []) :
    current.manager.Balanced := by
  have kept : ∀ {before event after}, Orderly before → InTurn before event → Step before event after → Orderly after :=
    fun orderly inTurn step => orderly.step inTurn step
  rcases run.guarded_invariant (Orderly.start starts) kept with ⟨-, orderly⟩ | ⟨thread, alone, -⟩
  · exact orderly.books.balanced
  · rw [idle] at alone
    cases alone

/-- A service is started, grows by a node and shrinks again. -/
def growingService : List Event :=
  [.addService (.made [.get]), .request (.startService 1 true), .advance 0 .runs,
    .advance 0 (.nodesReply (.created [nodeOf "1"])), .advance 0 (.answers true),
    .request (.addNodes 1 true), .advance 1 .runs, .advance 1 (.nodesReply (.created [nodeOf "2"])), .advance 1 (.answers true),
    .request (.removeNodes 1 true), .advance 2 .runs, .advance 2 (.writes .running),
    .advance 2 (.gives [.node (nodeOf "2")]), .advance 2 .runs]

theorem growingService_balanced : ∃ current, Run (Guarded InTurn Step) fresh growingService current ∧
    current.manager.Balanced := by
  obtain ⟨current, run, idle⟩ : ∃ current, Run (Guarded InTurn Step) fresh growingService current ∧
      current.threads.rows = [] := by
    refine ⟨_, .cons ⟨trivial, rfl⟩ <| .cons ⟨⟨rfl, ?_⟩, rfl⟩ <| .cons ⟨?_, rfl⟩ <| .cons ⟨?_, rfl⟩ <| .cons ⟨?_, rfl⟩ <|
      .cons ⟨⟨rfl, ?_⟩, rfl⟩ <| .cons ⟨?_, rfl⟩ <| .cons ⟨?_, rfl⟩ <| .cons ⟨?_, rfl⟩ <|
      .cons ⟨⟨rfl, ?_⟩, rfl⟩ <| .cons ⟨?_, rfl⟩ <| .cons ⟨?_, rfl⟩ <| .cons ⟨?_, rfl⟩ <| .cons ⟨?_, rfl⟩ .start, rfl⟩
    · rintro operation ⟨⟩
    · rintro thread ⟨⟩
      trivial
    · rintro thread ⟨⟩
      exact ⟨by decide, by decide⟩
    · rintro thread ⟨⟩
      trivial
    · rintro operation ⟨⟩
    · rintro thread ⟨⟩
      trivial
    · rintro thread ⟨⟩
      exact ⟨by decide, by decide⟩
    · rintro thread ⟨⟩
      trivial
    · rintro operation ⟨⟩
    · rintro thread ⟨⟩
      trivial
    · rintro thread ⟨⟩
      trivial
    · rintro thread ⟨⟩
      exact ⟨by decide, by decide, nofun⟩
    · rintro thread ⟨⟩
      trivial
  exact ⟨current, run, nodes_balanced fresh_starts run idle⟩

/-- The director answers that there are no credits left, and the word error is
listed among the nodes. -/
theorem error_listed : ¬ ∀ (first current : Process) (events : List Event), Starts first → Run Step first events current →
    current.threads.rows = [] → current.manager.Balanced := by
  intro law
  obtain ⟨current, played, idle, listed⟩ : ∃ current, play handle fresh
      [.addService (.made [.get]), .request (.startService 1 true), .advance 0 .runs,
        .advance 0 (.nodesReply (.error [])), .advance 0 (.answers false)] = some current ∧
      current.threads.rows = [] ∧ .key "error" ∈ (current.manager.object 0).nodes.entries := ⟨_, rfl, rfl, by decide⟩
  exact absurd ((law _ _ _ fresh_starts (Run.play played) idle).only _ listed) (by decide)

end Process

end ConPaaS
