import ConPaaS.Autoscaling.NodeWeights
import ConPaaS.Autoscaling.RemovalCandidates
import Mathlib.Data.List.Sort

namespace ConPaaS

open Keyed

def NUM_RETRIES_SCALING_ACTION : Nat := 3

inductive ScalingOp
  | add
  | remove
  deriving DecidableEq

/-- An operation of a strategy with the type and the number of its machines. -/
structure Scaling where
  op : ScalingOp
  vmType : String
  num : Nat

/-- The order in which `sorted` puts the operations. -/
def Scaling.before (a b : Scaling) : Bool :=
  match a.op, b.op with
  | .add, .remove => true
  | .remove, .add => false
  | .add, .add | .remove, .remove => a.vmType < b.vmType || a.vmType = b.vmType && a.num ≤ b.num

/-- The decisions that `execute_actions` reads. -/
structure ScalingActions where
  addBackendNodes : Nat
  removeBackendNodes : Nat
  addWebNodes : Nat
  removeWebNodes : Nat
  nodeIpRemove : String
  vmBackendInstance : List Scaling

/-- Which calls of the manager succeed: those of each loop that adds nodes, those
for each machine that is selected, and the last one. -/
structure ManagerAnswers where
  add : Nat → Nat → Bool
  remove : Nat → Nat → Bool
  last : Bool

/-- The results of the requests of a loop `while not added_node and num_retries > 0`. -/
def addRequests (answers : Nat → Bool) : Nat → Nat → List Bool
  | 0, _ => []
  | numRetries + 1, k => if answers k then [true] else false :: addRequests answers numRetries (k + 1)

/-- The variables of the loop that removes a machine, with the results of its
requests. -/
structure RemovalLoop where
  numRetries : Nat
  balancer : DynamicLoadBalancer
  killedBackends : List String
  results : List Bool

namespace RemovalLoop

/-- What the loop does after a removal. A lookup of a missing key raises. -/
def forget (ip : String) (r : RemovalLoop) : Except RemovalLoop RemovalLoop :=
  match r.balancer.updatedBackendWeightsId.get? ip with
  | none => .error r
  | some entry =>
    let r := { r with killedBackends := r.killedBackends ++ [entry.vmid] }
    match r.balancer.updatedBackendWeights.get? entry.vmid with
    | none => .error r
    | some _ =>
      .ok { r with balancer := (r.balancer.removeUpdatedBackendWeights entry.vmid).removeUpdatedBackendWeightsId ip }

/-- The body of the loop. The flag `removed_node` is not set. -/
def attempt (ip : String) (answer : Bool) (r : RemovalLoop) : RemovalLoop :=
  let r := { r with results := r.results ++ [answer] }
  if answer then
    match r.forget ip with
    | .ok r => r
    | .error r => { r with numRetries := r.numRetries - 1 }
  else { r with numRetries := r.numRetries - 1 }

/-- `while not removed_node and num_retries > 0`, as far as some rounds go. -/
def retry (ip : String) (answers : Nat → Bool) : Nat → RemovalLoop → Option RemovalLoop
  | 0, _ => none
  | rounds + 1, r => if r.numRetries > 0 then retry ip answers rounds (r.attempt ip (answers r.results.length)) else some r

end RemovalLoop

/-- What the scaler keeps. -/
structure Scaler where
  costController : CostController
  backendMonitoring : BackendMonitoring
  balancer : DynamicLoadBalancer
  killedBackends : List String

/-- The scaler at work, with the results of the requests of each loop. -/
structure ScalerRun extends Scaler where
  added : List (List Bool)
  removals : List (String × List Bool)

namespace ScalerRun

variable (answers : ManagerAnswers)

def addNodes (s : ScalerRun) : ScalerRun :=
  { s with added := s.added ++ [addRequests (answers.add s.added.length) NUM_RETRIES_SCALING_ACTION 0] }

/-- The loop for a machine, in as many rounds as it may take. -/
def removeVm (s : ScalerRun) (ip : String) : Option ScalerRun :=
  (RemovalLoop.retry ip (answers.remove s.removals.length) (NUM_RETRIES_SCALING_ACTION + 2)
    ⟨NUM_RETRIES_SCALING_ACTION, s.balancer, s.killedBackends, []⟩).map fun r =>
      { s with balancer := r.balancer, killedBackends := r.killedBackends, removals := s.removals ++ [(ip, r.results)] }

variable (prices : PriceList) (now : Rat) (backendNodes : List String) (rounds : Nat)

/-- The loop over the strategy, where the selections end within some rounds. -/
def perform : List Scaling → ScalerRun → Option (Except ScalerRun ScalerRun)
  | [], s => some (.ok s)
  | ⟨.add, _, _⟩ :: rest, s => perform rest (s.addNodes answers)
  | ⟨.remove, vmType, num⟩ :: rest, s =>
    match removeVmesTypeCandidate prices now s.costController backendNodes s.backendMonitoring vmType num rounds with
    | none => none
    | some (.error _) => some (.error s)
    | some (.ok selected) =>
      (selected.vmesCandidate.foldlM (removeVm answers)
        { s with costController := selected.costController, backendMonitoring := selected.monitoring }).bind (perform rest)

/-- The removal of the node that the decisions name. What fails after it is
logged. -/
def removeNamed (actions : ScalingActions) (s : ScalerRun) : Except ScalerRun ScalerRun :=
  if (actions.removeBackendNodes > 0 ∨ actions.removeWebNodes > 0) ∧ actions.nodeIpRemove.length > 0 then
    if answers.last then
      if actions.removeBackendNodes > 0 then
        match RemovalLoop.forget actions.nodeIpRemove ⟨0, s.balancer, s.killedBackends, []⟩ with
        | .ok r | .error r => .ok { s with balancer := r.balancer, killedBackends := r.killedBackends }
      else .ok s
    else .error s
  else .ok s

/-- `execute_actions`. -/
def executeActions (actions : ScalingActions) (s : Scaler) : Option (Except ScalerRun ScalerRun) :=
  let s : ScalerRun := ⟨s, [], []⟩
  if actions.addBackendNodes > 0 ∧ actions.vmBackendInstance.length > 0 ∨ actions.addWebNodes > 0 then
    let strategy := if actions.addBackendNodes > 0 then actions.vmBackendInstance.insertionSort fun a b => a.before b else []
    (perform answers prices now backendNodes rounds strategy s).map fun
      | .error s => .error s
      | .ok s => removeNamed answers actions (if actions.addWebNodes > 0 then s.addNodes answers else s)
  else some (removeNamed answers actions s)

end ScalerRun

/-- The results of requests that go on until one succeeds or all are used up. -/
def UntilSuccess (numRetries : Nat) (results : List Bool) : Prop :=
  (∃ failures < numRetries, results = List.replicate failures false ++ [true]) ∨ results = List.replicate numRetries false

theorem untilSuccess_failed {numRetries : Nat} {results : List Bool} :
    UntilSuccess (numRetries + 1) (false :: results) ↔ UntilSuccess numRetries results := by
  unfold UntilSuccess
  constructor
  · rintro (⟨failures, less, same⟩ | same)
    · cases failures with
      | zero => cases same
      | succ failures => exact .inl ⟨failures, Nat.lt_of_succ_lt_succ less, (List.cons.inj same).2⟩
    · exact .inr (List.cons.inj same).2
  · rintro (⟨failures, less, rfl⟩ | rfl)
    · exact .inl ⟨failures + 1, Nat.succ_lt_succ less, rfl⟩
    · exact .inr rfl

theorem untilSuccess_succeeded {numRetries : Nat} {results : List Bool} :
    UntilSuccess (numRetries + 1) (true :: results) ↔ results = [] := by
  unfold UntilSuccess
  constructor
  · rintro (⟨failures, -, same⟩ | same)
    · cases failures with
      | zero => exact (List.cons.inj same).2
      | succ failures => cases (List.cons.inj same).1
    · cases (List.cons.inj same).1
  · rintro rfl
    exact .inl ⟨0, Nat.succ_pos numRetries, rfl⟩

/-- The weights of a machine are kept under its id. -/
def DynamicLoadBalancer.Knows (b : DynamicLoadBalancer) (ip : String) : Prop :=
  ∃ entry, b.updatedBackendWeightsId.get? ip = some entry ∧ (b.updatedBackendWeights.get? entry.vmid).isSome

/-- Of the requests that are allowed only the last one succeeds, and only where
the weights of the machine are not known. -/
def LateOrUnknown (answers : Nat → Bool) (known : Prop) (numRetries k : Nat) : Prop :=
  ∀ i < numRetries, answers (k + i) = true → i + 1 = numRetries ∧ ¬ known

theorem lateOrUnknown_succ {answers : Nat → Bool} {known : Prop} {numRetries k : Nat} :
    LateOrUnknown answers known (numRetries + 1) k ↔
      (answers k = true → numRetries = 0 ∧ ¬ known) ∧ LateOrUnknown answers known numRetries (k + 1) := by
  constructor
  · intro late
    refine ⟨fun answer => ?_, fun i less answer => ?_⟩
    · have last := late 0 (Nat.succ_pos numRetries) answer
      exact ⟨(Nat.succ.inj last.1).symm, last.2⟩
    · have last := late (i + 1) (Nat.succ_lt_succ less) (by rwa [Nat.add_right_comm] at answer)
      exact ⟨Nat.succ.inj last.1, last.2⟩
  · rintro ⟨here, later⟩ i less answer
    cases i with
    | zero => exact ⟨congrArg Nat.succ (here answer).1.symm, (here answer).2⟩
    | succ i =>
      have last := later i (Nat.lt_of_succ_lt_succ less) (by rwa [Nat.add_right_comm])
      exact ⟨congrArg Nat.succ last.1, last.2⟩

namespace RemovalLoop

variable {ip : String} {answers : Nat → Bool} {r : RemovalLoop}

theorem forget_unknown (unknown : ¬ r.balancer.Knows ip) : ∃ r', r.forget ip = .error r' ∧ r'.balancer = r.balancer ∧
    r'.numRetries = r.numRetries ∧ r'.results = r.results := by
  unfold forget
  split
  · exact ⟨r, rfl, rfl, rfl, rfl⟩
  · rename_i entry found
    cases weight : r.balancer.updatedBackendWeights.get? entry.vmid with
    | none => exact ⟨{ r with killedBackends := r.killedBackends ++ [entry.vmid] }, by simp only [weight], rfl, rfl, rfl⟩
    | some _ => exact absurd ⟨entry, found, by rw [weight]; rfl⟩ unknown

theorem forget_known (known : r.balancer.Knows ip) : ∃ r', r.forget ip = .ok r' ∧ ¬ r'.balancer.Knows ip ∧
    r'.numRetries = r.numRetries ∧ r'.results = r.results := by
  obtain ⟨entry, found, stored⟩ := known
  obtain ⟨weight, stored⟩ := Option.isSome_iff_exists.mp stored
  refine ⟨{ r with
    balancer := (r.balancer.removeUpdatedBackendWeights entry.vmid).removeUpdatedBackendWeightsId ip
    killedBackends := r.killedBackends ++ [entry.vmid] }, by simp only [forget, found, stored], ?_, rfl, rfl⟩
  rintro ⟨other, found', -⟩
  have gone : (r.balancer.updatedBackendWeightsId.erase ip).get? ip = none := Table.get?_erase_self _ ip
  cases gone.symm.trans found'

/-- A request that does not end in a complete removal uses up a retry. -/
theorem attempt_uses {answer : Bool} (unknown : answer = true → ¬ r.balancer.Knows ip) :
    (r.attempt ip answer).balancer = r.balancer ∧ (r.attempt ip answer).numRetries = r.numRetries - 1 ∧
      (r.attempt ip answer).results = r.results ++ [answer] := by
  unfold attempt
  cases answer with
  | false => exact ⟨rfl, rfl, rfl⟩
  | true =>
    obtain ⟨r', forgotten, balancer, retries, results⟩ := @forget_unknown ip { r with results := r.results ++ [true] } (unknown rfl)
    simp only [if_true, forgotten]
    exact ⟨balancer, congrArg (· - 1) retries, results⟩

/-- A complete removal uses up none, and the loop goes on. -/
theorem attempt_known (known : r.balancer.Knows ip) : ¬ (r.attempt ip true).balancer.Knows ip ∧
    (r.attempt ip true).numRetries = r.numRetries ∧ (r.attempt ip true).results = r.results ++ [true] := by
  obtain ⟨r', forgotten, unknown, retries, results⟩ := @forget_known ip { r with results := r.results ++ [true] } known
  unfold attempt
  simp only [if_true, forgotten]
  exact ⟨unknown, retries, results⟩

theorem retry_step (more : 0 < r.numRetries) (rounds : Nat) :
    retry ip answers (rounds + 1) r = retry ip answers rounds (r.attempt ip (answers r.results.length)) := if_pos more

theorem retry_done (none : r.numRetries = 0) (rounds : Nat) : retry ip answers (rounds + 1) r = some r :=
  if_neg (by omega)

/-- What the loop leaves, in how many rounds. -/
structure Retried (ip : String) (answers : Nat → Bool) (bound : Nat) (r : RemovalLoop) (new : List Bool) (after : RemovalLoop) : Prop where
  ended : ∀ rounds, bound < rounds → retry ip answers rounds r = some after
  results : after.results = r.results ++ new
  enough : r.numRetries ≤ new.length
  none : r.numRetries = 0 → new = []

theorem Retried.done (none : r.numRetries = 0) (bound : Nat) : Retried ip answers bound r [] r where
  ended rounds more := by
    cases rounds with
    | zero => exact absurd more (Nat.not_lt_zero bound)
    | succ rounds => exact retry_done none rounds
  results := (List.append_nil _).symm
  enough := none.le
  none _ := rfl

theorem Retried.step {new : List Bool} {after : RemovalLoop} {answer : Bool} {bound : Nat} (asked : answers r.results.length = answer)
    (retried : Retried ip answers bound (r.attempt ip answer) new after) (more : 0 < r.numRetries)
    (retries : r.numRetries ≤ (r.attempt ip answer).numRetries + 1) (results : (r.attempt ip answer).results = r.results ++ [answer]) :
    Retried ip answers (bound + 1) r (answer :: new) after where
  ended rounds less := by
    cases rounds with
    | zero => exact absurd less (Nat.not_lt_zero _)
    | succ rounds =>
      rw [retry_step more, asked]
      exact retried.ended rounds (Nat.lt_of_succ_lt_succ less)
  results := by rw [retried.results, results, List.append_assoc, List.singleton_append]
  enough := retries.trans (Nat.succ_le_succ retried.enough)
  none zero := absurd zero (Nat.pos_iff_ne_zero.mp more)

theorem lateOrUnknown_zero {known : Prop} (k : Nat) : LateOrUnknown answers known 0 k := fun i less => absurd less (Nat.not_lt_zero i)

/-- The results after one that used up a retry. -/
theorem untilSuccess_cons {known : Prop} {n k : Nat} {new : List Bool} (enough : n ≤ new.length) (none : n = 0 → new = [])
    (uses : answers k = true → ¬ known) (until_iff : UntilSuccess n new ↔ LateOrUnknown answers known n (k + 1)) :
    (UntilSuccess (n + 1) (answers k :: new) ↔ LateOrUnknown answers known (n + 1) k) ∧
      (UntilSuccess (n + 1) (answers k :: new) → UntilSuccess n new) := by
  rw [lateOrUnknown_succ]
  cases answer : answers k with
  | false => exact ⟨untilSuccess_failed.trans (until_iff.trans (and_iff_right nofun).symm), untilSuccess_failed.mp⟩
  | true =>
    have last : new = [] → n = 0 := by
      rintro rfl
      exact Nat.le_zero.mp enough
    rw [untilSuccess_succeeded]
    refine ⟨⟨fun empty => ⟨fun _ => ⟨last empty, uses answer⟩, last empty ▸ lateOrUnknown_zero _⟩, fun late => none (late.1 rfl).1⟩, ?_⟩
    rintro rfl
    exact .inr (last rfl ▸ rfl)

/-- Where the weights are not known every request uses up a retry. -/
theorem retried_unknown (unknown : ¬ r.balancer.Knows ip) : ∃ new after, Retried ip answers r.numRetries r new after ∧
    (UntilSuccess r.numRetries new ↔ LateOrUnknown answers (r.balancer.Knows ip) r.numRetries r.results.length) ∧
      after.balancer = r.balancer := by
  generalize count : r.numRetries = n
  induction n generalizing r with
  | zero => exact ⟨[], r, .done count 0, iff_of_true (.inr rfl) (lateOrUnknown_zero _), rfl⟩
  | succ n ih =>
    obtain ⟨balancer, retries, results⟩ := @attempt_uses ip r (answers r.results.length) fun _ => unknown
    rw [count, Nat.add_sub_cancel] at retries
    obtain ⟨new, after, retried, until_iff, kept⟩ := ih (r := r.attempt ip (answers r.results.length)) (balancer ▸ unknown) retries
    refine ⟨_, after, retried.step rfl (by omega) (by omega) results, ?_, kept.trans balancer⟩
    rw [results, List.length_append, balancer] at until_iff
    exact (untilSuccess_cons (retries ▸ retried.enough) (fun zero => retried.none (retries.trans zero)) (fun _ => unknown) until_iff).1

/-- The loop ends, and issues requests until one succeeds exactly if only the last
one succeeds, and only where the weights are not known. -/
theorem retried (ip : String) (answers : Nat → Bool) (r : RemovalLoop) : ∃ new after, Retried ip answers (r.numRetries + 1) r new after ∧
    (UntilSuccess r.numRetries new ↔ LateOrUnknown answers (r.balancer.Knows ip) r.numRetries r.results.length) ∧
      (UntilSuccess r.numRetries new → after.balancer = r.balancer) := by
  generalize count : r.numRetries = n
  induction n generalizing r with
  | zero => exact ⟨[], r, .done count 1, iff_of_true (.inr rfl) (lateOrUnknown_zero _), fun _ => rfl⟩
  | succ n ih =>
    by_cases complete : answers r.results.length = true ∧ r.balancer.Knows ip
    · -- the machine is removed, and requests for it go on
      obtain ⟨asked, known⟩ := complete
      obtain ⟨unknown, retries, results⟩ := attempt_known known
      obtain ⟨new, after, retried, -, -⟩ := @retried_unknown ip answers (r.attempt ip true) unknown
      rw [retries, count] at retried
      have wrong : ¬ UntilSuccess (n + 1) (true :: new) := by
        rw [untilSuccess_succeeded]
        rintro rfl
        have enough := retried.enough
        rw [retries, count] at enough
        exact absurd enough (Nat.not_succ_le_zero n)
      refine ⟨_, after, retried.step asked (by omega) (by omega) results, iff_of_false wrong fun late => ?_, fun until_ => absurd until_ wrong⟩
      exact ((lateOrUnknown_succ.mp late).1 asked).2 known
    · obtain ⟨balancer, retries, results⟩ := @attempt_uses ip r (answers r.results.length) fun asked known => complete ⟨asked, known⟩
      rw [count, Nat.add_sub_cancel] at retries
      obtain ⟨new, after, retried, until_iff, kept⟩ := ih (r.attempt ip (answers r.results.length)) retries
      rw [results, List.length_append, balancer] at until_iff
      have cons := untilSuccess_cons (retries ▸ retried.enough) (fun zero => retried.none (retries.trans zero))
        (fun asked known => complete ⟨asked, known⟩) until_iff
      exact ⟨_, after, retried.step rfl (by omega) (by omega) results, cons.1, fun until_ => (kept (cons.2 until_)).trans balancer⟩

end RemovalLoop

/-- The machines that the operations of a strategy select, one selection after
the other. -/
def selectedBy (prices : PriceList) (now : Rat) (backendNodes : List String) (rounds : Nat) :
    List Scaling → CostController → BackendMonitoring → Option (List String)
  | [], _, _ => some []
  | ⟨.add, _, _⟩ :: rest, c, monitoring => selectedBy prices now backendNodes rounds rest c monitoring
  | ⟨.remove, vmType, num⟩ :: rest, c, monitoring =>
    match removeVmesTypeCandidate prices now c backendNodes monitoring vmType num rounds with
    | none => none
    | some (.error _) => some []
    | some (.ok selected) =>
      (selectedBy prices now backendNodes rounds rest selected.costController selected.monitoring).map (selected.vmesCandidate ++ ·)

namespace ScalerRun

variable {answers : ManagerAnswers} {s t u : ScalerRun} {vms vms' : List String}

/-- The requests for a machine go on until one succeeds exactly under this
condition, by the number of the machine. -/
def Right (answers : ManagerAnswers) (balancer : DynamicLoadBalancer) (k : Nat) (ip : String) : Prop :=
  LateOrUnknown (answers.remove k) (balancer.Knows ip) NUM_RETRIES_SCALING_ACTION 0

/-- What the removal of some machines leaves. -/
structure Removed (answers : ManagerAnswers) (s after : ScalerRun) (vms : List String) (new : List (String × List Bool)) : Prop where
  removals : after.removals = s.removals ++ new
  machines : new.map Prod.fst = vms
  right : (∀ removal ∈ new, UntilSuccess NUM_RETRIES_SCALING_ACTION removal.2) ↔
    ∀ k ip, vms[k]? = some ip → Right answers s.balancer (s.removals.length + k) ip
  balancer : (∀ removal ∈ new, UntilSuccess NUM_RETRIES_SCALING_ACTION removal.2) → after.balancer = s.balancer

theorem Removed.none (removals : t.removals = s.removals) (balancer : t.balancer = s.balancer) : Removed answers s t [] [] where
  removals := removals.trans (List.append_nil _).symm
  machines := rfl
  right := iff_of_true nofun fun k ip found => by cases found
  balancer _ := balancer

theorem Removed.trans {new new' : List (String × List Bool)} (first : Removed answers s t vms new) (second : Removed answers t u vms' new') :
    Removed answers s u (vms ++ vms') (new ++ new') where
  removals := by rw [second.removals, first.removals, List.append_assoc]
  machines := by rw [List.map_append, first.machines, second.machines]
  right := by
    have length : new.length = vms.length := by rw [← first.machines, List.length_map]
    rw [List.forall_mem_append]
    constructor
    · rintro ⟨here, later⟩ k ip found
      rw [List.getElem?_append] at found
      split at found
      · exact first.right.mp here k ip found
      · rename_i beyond
        have right := second.right.mp later _ ip found
        rw [first.balancer here, first.removals, List.length_append, length] at right
        convert right using 1
        omega
    · intro all
      have here := first.right.mpr fun k ip found => all k ip (by rwa [List.getElem?_append_left (List.getElem?_eq_some_iff.mp found).1])
      refine ⟨here, second.right.mpr fun k ip found => ?_⟩
      have right := all (vms.length + k) ip (by rwa [List.getElem?_append_right (Nat.le_add_right _ _), Nat.add_sub_cancel_left])
      rw [first.balancer here, first.removals, List.length_append, length]
      convert right using 1
      omega
  balancer all := by
    obtain ⟨here, later⟩ := List.forall_mem_append.mp all
    exact (second.balancer later).trans (first.balancer here)

theorem removeVm_spec (answers : ManagerAnswers) (s : ScalerRun) (ip : String) : ∃ after new, s.removeVm answers ip = some after ∧
    Removed answers s after [ip] [(ip, new)] ∧ after.costController = s.costController ∧ after.backendMonitoring = s.backendMonitoring := by
  obtain ⟨new, after, retried, right, kept⟩ :=
    RemovalLoop.retried ip (answers.remove s.removals.length) ⟨NUM_RETRIES_SCALING_ACTION, s.balancer, s.killedBackends, []⟩
  have ended := retried.ended (NUM_RETRIES_SCALING_ACTION + 2) (Nat.lt_succ_self _)
  have results : after.results = new := retried.results
  refine ⟨{ s with balancer := after.balancer, killedBackends := after.killedBackends, removals := s.removals ++ [(ip, after.results)] },
    new, by rw [removeVm, ended]; rfl, ⟨by rw [results], rfl, ?_, ?_⟩, rfl, rfl⟩
  · rw [List.forall_mem_singleton]
    refine right.trans ⟨fun late k other found => ?_, fun all => all 0 ip rfl⟩
    cases k with
    | zero =>
      cases found
      exact late
    | succ k => cases found
  · exact fun all => kept (all _ List.mem_cons_self)

theorem foldlM_removeVm (answers : ManagerAnswers) (s : ScalerRun) (vms : List String) : ∃ after new,
    vms.foldlM (removeVm answers) s = some after ∧ Removed answers s after vms new ∧ after.costController = s.costController ∧
      after.backendMonitoring = s.backendMonitoring := by
  induction vms generalizing s with
  | nil => exact ⟨s, [], rfl, .none rfl rfl, rfl, rfl⟩
  | cons ip rest ih =>
    obtain ⟨t, new, run, removed, controller, monitoring⟩ := removeVm_spec answers s ip
    obtain ⟨u, new', run', removed', controller', monitoring'⟩ := ih t
    refine ⟨u, _, ?_, removed.trans removed', controller'.trans controller, monitoring'.trans monitoring⟩
    rw [List.foldlM_cons, run]
    exact run'

theorem perform_none {prices : PriceList} {now : Rat} {backendNodes : List String} {rounds : Nat} {strategy : List Scaling}
    (endless : selectedBy prices now backendNodes rounds strategy s.costController s.backendMonitoring = none) :
    perform answers prices now backendNodes rounds strategy s = none := by
  induction strategy generalizing s with
  | nil => cases endless
  | cons step rest ih =>
    obtain ⟨op, vmType, num⟩ := step
    cases op with
    | add => exact ih (s := s.addNodes answers) endless
    | remove =>
      rw [selectedBy] at endless
      rw [perform]
      cases selection : removeVmesTypeCandidate prices now s.costController backendNodes s.backendMonitoring vmType num rounds with
      | none => rfl
      | some out =>
        cases out with
        | error _ => simp [selection] at endless
        | ok selected =>
          simp only [selection, Option.map_eq_none_iff] at endless
          obtain ⟨after, _, run, -, controller, monitoring⟩ := foldlM_removeVm answers
            { s with costController := selected.costController, backendMonitoring := selected.monitoring } selected.vmesCandidate
          simp only [run, Option.bind_some]
          exact ih (by rw [controller, monitoring]; exact endless)

/-- The state in which the work ends or an exception is raised. -/
def last : Except ScalerRun ScalerRun → ScalerRun
  | .ok s | .error s => s

theorem perform_some {prices : PriceList} {now : Rat} {backendNodes : List String} {rounds : Nat} {strategy : List Scaling}
    (selected : selectedBy prices now backendNodes rounds strategy s.costController s.backendMonitoring = some vms) :
    ∃ out new, perform answers prices now backendNodes rounds strategy s = some out ∧ Removed answers s (last out) vms new := by
  induction strategy generalizing s vms with
  | nil =>
    cases selected
    exact ⟨.ok s, [], rfl, .none rfl rfl⟩
  | cons step rest ih =>
    obtain ⟨op, vmType, num⟩ := step
    cases op with
    | add =>
      obtain ⟨out, new, run, removed⟩ := ih (s := s.addNodes answers) selected
      have begun : Removed answers s (s.addNodes answers) [] [] := .none rfl rfl
      exact ⟨out, new, run, begun.trans removed⟩
    | remove =>
      rw [selectedBy] at selected
      rw [perform]
      cases selection : removeVmesTypeCandidate prices now s.costController backendNodes s.backendMonitoring vmType num rounds with
      | none => simp [selection] at selected
      | some out =>
        cases out with
        | error _ =>
          simp only [selection, Option.some.injEq] at selected
          subst selected
          exact ⟨.error s, [], rfl, .none rfl rfl⟩
        | ok chosen =>
          simp only [selection] at selected
          obtain ⟨later, tail, rfl⟩ := Option.map_eq_some_iff.mp selected
          obtain ⟨after, new, run, removed, controller, monitoring⟩ := foldlM_removeVm answers
            { s with costController := chosen.costController, backendMonitoring := chosen.monitoring } chosen.vmesCandidate
          obtain ⟨out, new', run', removed'⟩ := ih (s := after) (by rw [controller, monitoring]; exact tail)
          have begun : Removed answers s { s with costController := chosen.costController, backendMonitoring := chosen.monitoring } [] [] :=
            .none rfl rfl
          refine ⟨out, _, ?_, (begun.trans removed).trans removed'⟩
          simp only [run, Option.bind_some]
          exact run'

theorem removals_removeNamed (answers : ManagerAnswers) (actions : ScalingActions) (s : ScalerRun) :
    (last (removeNamed answers actions s)).removals = s.removals := by
  unfold removeNamed
  split
  · split
    · split
      · split <;> rfl
      · rfl
    · rfl
  · rfl

end ScalerRun

/-- The operations of the decisions, as they are carried out. -/
def ScalingActions.strategy (actions : ScalingActions) : List Scaling :=
  if actions.addBackendNodes > 0 then actions.vmBackendInstance.insertionSort fun a b => a.before b else []

/-- The actions end, and for each machine that the strategy selects requests are
issued until one succeeds or all are used up. -/
def RemovesOnce (answers : ManagerAnswers) (prices : PriceList) (now : Rat) (backendNodes : List String) (actions : ScalingActions)
    (s : Scaler) : Prop :=
  ∃ rounds out, ScalerRun.executeActions answers prices now backendNodes rounds actions s = some out ∧
    ∀ removal ∈ (ScalerRun.last out).removals, UntilSuccess NUM_RETRIES_SCALING_ACTION removal.2
namespace ScalerRun

variable {answers : ManagerAnswers} {prices : PriceList} {now : Rat} {backendNodes : List String} {rounds : Nat} {actions : ScalingActions}
  {s : Scaler}

/-- Where nothing is added the strategy is empty. -/
theorem strategy_nil (idle : ¬ (actions.addBackendNodes > 0 ∧ actions.vmBackendInstance.length > 0 ∨ actions.addWebNodes > 0)) :
    actions.strategy = [] := by
  unfold ScalingActions.strategy
  split
  · rename_i more
    have none : actions.vmBackendInstance = [] := by
      by_contra some
      exact idle (.inl ⟨more, List.length_pos_iff.mpr some⟩)
    rw [none]
    rfl
  · rfl

theorem executeActions_none
    (endless : selectedBy prices now backendNodes rounds actions.strategy s.costController s.backendMonitoring = none) :
    executeActions answers prices now backendNodes rounds actions s = none := by
  unfold executeActions
  split
  · exact Option.map_eq_none_iff.mpr (perform_none endless)
  · rename_i idle
    rw [strategy_nil idle] at endless
    cases endless

theorem executeActions_some {vms : List String}
    (selected : selectedBy prices now backendNodes rounds actions.strategy s.costController s.backendMonitoring = some vms) :
    ∃ out, executeActions answers prices now backendNodes rounds actions s = some out ∧
      ((∀ removal ∈ (last out).removals, UntilSuccess NUM_RETRIES_SCALING_ACTION removal.2) ↔
        ∀ k ip, vms[k]? = some ip → Right answers s.balancer k ip) := by
  have final {t : ScalerRun} {new : List (String × List Bool)} (removed : Removed answers ⟨s, [], []⟩ t vms new) :
      (∀ removal ∈ t.removals, UntilSuccess NUM_RETRIES_SCALING_ACTION removal.2) ↔
        ∀ k ip, vms[k]? = some ip → Right answers s.balancer k ip := by
    rw [removed.removals]
    simpa only [List.nil_append, List.length_nil, Nat.zero_add] using removed.right
  unfold executeActions
  split
  · obtain ⟨out, new, run, removed⟩ : ∃ out new, perform answers prices now backendNodes rounds actions.strategy ⟨s, [], []⟩ = some out ∧
        Removed answers ⟨s, [], []⟩ (last out) vms new := perform_some selected
    refine ⟨_, Option.map_eq_some_iff.mpr ⟨out, run, rfl⟩, ?_⟩
    rw [← final removed]
    cases out with
    | error t => rfl
    | ok t =>
      dsimp only
      rw [removals_removeNamed]
      split <;> rfl
  · rename_i idle
    rw [strategy_nil idle] at selected
    cases selected
    refine ⟨_, rfl, ?_⟩
    rw [removals_removeNamed]
    exact final (.none rfl rfl)

end ScalerRun

/-- Each selected machine is removed once exactly if all selections end and, of
the requests for each machine, only the last one may succeed, and only where the
weights of the machine are not known. -/
theorem removesOnce_iff (answers : ManagerAnswers) (prices : PriceList) (now : Rat) (backendNodes : List String) (actions : ScalingActions)
    (s : Scaler) : RemovesOnce answers prices now backendNodes actions s ↔
      ∃ rounds vms, selectedBy prices now backendNodes rounds actions.strategy s.costController s.backendMonitoring = some vms ∧
        ∀ k ip, vms[k]? = some ip → ∀ i < NUM_RETRIES_SCALING_ACTION, answers.remove k i = true →
          i + 1 = NUM_RETRIES_SCALING_ACTION ∧ ¬ s.balancer.Knows ip := by
  have early {k : Nat} {ip : String} : ScalerRun.Right answers s.balancer k ip ↔ ∀ i < NUM_RETRIES_SCALING_ACTION,
      answers.remove k i = true → i + 1 = NUM_RETRIES_SCALING_ACTION ∧ ¬ s.balancer.Knows ip := by
    simp only [ScalerRun.Right, LateOrUnknown, Nat.zero_add]
  constructor
  · rintro ⟨rounds, out, run, proper⟩
    cases selected : selectedBy prices now backendNodes rounds actions.strategy s.costController s.backendMonitoring with
    | none =>
      rw [ScalerRun.executeActions_none selected] at run
      cases run
    | some vms =>
      obtain ⟨out', run', right⟩ := ScalerRun.executeActions_some selected
      obtain rfl := Option.some.inj (run.symm.trans run')
      exact ⟨rounds, vms, selected, fun k ip found => early.mp (right.mp proper k ip found)⟩
  · rintro ⟨rounds, vms, selected, late⟩
    obtain ⟨out, run, right⟩ := ScalerRun.executeActions_some selected
    exact ⟨rounds, out, run, right.mpr fun k ip found => early.mpr (late k ip found)⟩

/-- One machine is to be removed. -/
def removeOne : ScalingActions := ⟨1, 0, 0, 0, "", [⟨.remove, "small", 1⟩]⟩

/-- The weight of the first of the nodes is known. -/
def knownNode : Scaler := ⟨busyFirst.costController, busyFirst.monitoring, ⟨⟨[⟨"iaasi-1", 200⟩], by decide⟩, ⟨[⟨"10.0.0.5", "iaasi-1"⟩], by decide⟩⟩, []⟩

/-- The first request succeeds, and three more are issued. -/
theorem removeOne_again : ¬ RemovesOnce ⟨fun _ _ => true, fun _ _ => true, true⟩ fiveCents 0 busyFirst.backendNodes removeOne knownNode := by
  rintro ⟨rounds, out, run, proper⟩
  cases selected : selectedBy fiveCents 0 busyFirst.backendNodes rounds removeOne.strategy knownNode.costController
      knownNode.backendMonitoring with
  | none =>
    rw [ScalerRun.executeActions_none selected] at run
    cases run
  | some vms =>
    obtain ⟨out', run', right⟩ := ScalerRun.executeActions_some selected
    obtain rfl := Option.some.inj (run.symm.trans run')
    have strategy : removeOne.strategy = [⟨.remove, "small", 1⟩] := rfl
    rw [strategy, selectedBy] at selected
    cases selection : removeVmesTypeCandidate fiveCents 0 knownNode.costController busyFirst.backendNodes knownNode.backendMonitoring "small" 1
        rounds with
    | none => simp [selection] at selected
    | some out =>
      obtain ⟨-, result, rfl, taken⟩ := @TypeRemoval.returned busyFirst 1 _ _ (by decide) rounds out selection
      simp only [selection, selectedBy, taken, busyFirst_order.2, Option.map_some, List.append_nil, Option.some.injEq] at selected
      have late := right.mp proper 0 "10.0.0.5" (by rw [← selected]; rfl)
      exact absurd (late 0 (by decide) rfl).1 (by decide)

end ConPaaS
