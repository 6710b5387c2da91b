import ConPaaS.Autoscaling.Costs
import ConPaaS.Lib.RunningMinima
import Mathlib.Data.List.Perm.Subperm

namespace ConPaaS

open Keyed RunningMinima

/-- The monitoring data of a backend node that the selection reads. -/
structure NodeMetrics where
  cpuUser : List Rat
  phpResponseTime : List Rat
  phpRequestRate : List Rat

/-- `backend_monitoring_data`, by addresses. -/
abbrev BackendMonitoring := String → Option NodeMetrics

def CostController.getTypeInstance (c : CostController) (ip : String) : String :=
  match c.vmesUsage.get? ip with
  | some usage => usage.instType
  | none => ""

/-- `performance_index` of the averages. -/
def performanceIndex (m : NodeMetrics) : Rat :=
  (computeWeightAverage m.cpuUser).1 * 30 + (computeWeightAverage m.phpResponseTime).1 * (1 / 2) +
    (computeWeightAverage m.phpRequestRate).1 * 100

/-- What the averages leave of the lists. -/
def NodeMetrics.filled (m : NodeMetrics) : NodeMetrics :=
  ⟨(computeWeightAverage m.cpuUser).2, (computeWeightAverage m.phpResponseTime).2, (computeWeightAverage m.phpRequestRate).2⟩

/-- The variables of `remove_vmes_type_candidate`. -/
structure Selection where
  vmesCandidate : List String
  minPerformanceIndex : Rat
  numVmesToRemove : Nat
  monitoring : BackendMonitoring

def MIN_PERFORMANCE_INDEX : Rat := 100000

namespace Selection

variable (c : CostController) (instTypeToRemove : String)

/-- The body of the loop over the nodes. The lookup of a node without data
raises. The condition on the method `cost_shutdown_constraint`, which is not
called, holds always. -/
def scanNode (s : Selection) (ip : String) : Except Selection Selection :=
  if ip ∉ s.vmesCandidate ∧ s.numVmesToRemove > 0 then
    match s.monitoring ip with
    | none => .error s
    | some metrics =>
      let monitoring := fun other => if other = ip then some metrics.filled else s.monitoring other
      if c.getTypeInstance ip = instTypeToRemove ∧ performanceIndex metrics < s.minPerformanceIndex then
        .ok ⟨s.vmesCandidate ++ [ip], performanceIndex metrics, s.numVmesToRemove - 1, monitoring⟩
      else .ok { s with monitoring := monitoring }
  else .ok s

/-- `while num_vmes_to_remove > 0`, as far as some rounds go. -/
def select (backendNodes : List String) : Nat → Selection → Option (Except Selection Selection)
  | 0, _ => none
  | rounds + 1, s =>
    if s.numVmesToRemove > 0 then
      match backendNodes.foldlM (scanNode c instTypeToRemove) { s with minPerformanceIndex := MIN_PERFORMANCE_INDEX } with
      | .error s => some (.error s)
      | .ok s => select backendNodes rounds s
    else some (.ok s)

end Selection

/-- What a call leaves: the candidates, the controller and the data. -/
structure Selected where
  vmesCandidate : List String
  costController : CostController
  monitoring : BackendMonitoring

/-- `remove_vmes_type_candidate`, for nodes that are given by their addresses,
if it ends within some rounds. The first access of an empty list raises. -/
def removeVmesTypeCandidate (prices : PriceList) (now : Rat) (c : CostController) (backendNodes : List String)
    (monitoring : BackendMonitoring) (instTypeToRemove : String) (numVmesToRemove : Nat) (rounds : Nat) :
    Option (Except Unit Selected) :=
  match backendNodes with
  | [] => some (.error ())
  | _ :: _ =>
    (Selection.select c instTypeToRemove backendNodes rounds ⟨[], MIN_PERFORMANCE_INDEX, numVmesToRemove, monitoring⟩).map fun
      | .error s => .ok ⟨s.vmesCandidate, c, s.monitoring⟩
      | .ok s => .ok ⟨s.vmesCandidate, s.vmesCandidate.foldl (CostController.removeVmUsage prices now) c, s.monitoring⟩

namespace Selection

variable {c : CostController} {instTypeToRemove : String} {nodes : List String} {s : Selection}

/-- The nodes of the type that are not chosen. -/
def left (c : CostController) (instTypeToRemove : String) (nodes : List String) (s : Selection) : List String :=
  nodes.filter fun ip => c.getTypeInstance ip = instTypeToRemove ∧ ip ∉ s.vmesCandidate

/-- The data of the nodes that are not chosen. -/
def Reads (nodes : List String) (metrics : String → NodeMetrics) (s : Selection) : Prop :=
  ∀ ip ∈ nodes, ip ∉ s.vmesCandidate → s.monitoring ip = some (metrics ip)

theorem foldlM_done (done : s.numVmesToRemove = 0) : nodes.foldlM (scanNode c instTypeToRemove) s = .ok s := by
  induction nodes with
  | nil => rfl
  | cons ip nodes ih =>
    have skipped : scanNode c instTypeToRemove s ip = .ok s := if_neg fun more => absurd more.2 (by omega)
    rw [List.foldlM_cons, skipped]
    exact ih

/-- The data after a look at a node. -/
def fill (s : Selection) (ip : String) (metrics : NodeMetrics) : Selection :=
  { s with monitoring := fun other => if other = ip then some metrics.filled else s.monitoring other }

/-- The choice of a node. -/
def choose (s : Selection) (ip : String) (metrics : NodeMetrics) : Selection :=
  ⟨s.vmesCandidate ++ [ip], performanceIndex metrics, s.numVmesToRemove - 1, (s.fill ip metrics).monitoring⟩

theorem left_choose {ip : String} {metrics : NodeMetrics} (fresh : ip ∉ nodes) :
    (s.choose ip metrics).left c instTypeToRemove nodes = s.left c instTypeToRemove nodes := by
  refine List.filter_congr fun other member => ?_
  have apart : other ≠ ip := fun same => fresh (same ▸ member)
  simp [choose, apart]

theorem Reads.fill {metrics : String → NodeMetrics} {ip : String} (reads : s.Reads (ip :: nodes) metrics) (fresh : ip ∉ nodes) :
    (s.fill ip (metrics ip)).Reads nodes metrics := by
  intro other member new
  have apart : other ≠ ip := fun same => fresh (same ▸ member)
  exact (if_neg apart).trans (reads other (List.mem_cons_of_mem ip member) new)

theorem Reads.choose {metrics : String → NodeMetrics} {ip : String} (reads : s.Reads (ip :: nodes) metrics) (fresh : ip ∉ nodes) :
    (s.choose ip (metrics ip)).Reads nodes metrics :=
  fun other member new => reads.fill fresh other member fun inside => new (List.mem_append_left _ inside)

/-- What a scan of nodes leaves: the first of the running minima are chosen, and
if there are too few of them, all data have been looked at. -/
structure Scanned (c : CostController) (instTypeToRemove : String) (nodes : List String) (metrics : String → NodeMetrics)
    (s after : Selection) : Prop where
  candidates : after.vmesCandidate = s.vmesCandidate ++
    (minima (performanceIndex ∘ metrics) s.minPerformanceIndex (s.left c instTypeToRemove nodes)).take s.numVmesToRemove
  number : after.numVmesToRemove = s.numVmesToRemove -
    (minima (performanceIndex ∘ metrics) s.minPerformanceIndex (s.left c instTypeToRemove nodes)).length
  filled : (minima (performanceIndex ∘ metrics) s.minPerformanceIndex (s.left c instTypeToRemove nodes)).length < s.numVmesToRemove →
    ∀ ip ∈ nodes, ip ∉ s.vmesCandidate → after.monitoring ip = some (metrics ip).filled
  others : ∀ ip ∉ nodes, after.monitoring ip = s.monitoring ip

/-- A node that is looked at and not chosen changes nothing else. -/
theorem Scanned.fill {metrics : String → NodeMetrics} {ip : String} {after : Selection}
    (scanned : Scanned c instTypeToRemove nodes metrics (s.fill ip (metrics ip)) after)
    (same : minima (performanceIndex ∘ metrics) s.minPerformanceIndex (s.left c instTypeToRemove (ip :: nodes)) =
      minima (performanceIndex ∘ metrics) s.minPerformanceIndex (s.left c instTypeToRemove nodes)) (fresh : ip ∉ nodes) :
    Scanned c instTypeToRemove (ip :: nodes) metrics s after := by
  refine ⟨same ▸ scanned.candidates, same ▸ scanned.number, fun more other member new => ?_, fun other absent => ?_⟩
  · rcases List.mem_cons.mp member with rfl | later
    · exact (scanned.others other fresh).trans (if_pos rfl)
    · exact scanned.filled (same ▸ more) other later new
  · obtain ⟨apart, outside⟩ := not_or.mp (List.mem_cons.not.mp absent)
    exact (scanned.others other outside).trans (if_neg apart)

/-- A scan chooses the running minima of the nodes that are left, as long as
some are to be chosen. -/
theorem foldlM_scan (distinct : nodes.Nodup) {metrics : String → NodeMetrics} (reads : s.Reads nodes metrics) :
    ∃ after, nodes.foldlM (scanNode c instTypeToRemove) s = .ok after ∧ Scanned c instTypeToRemove nodes metrics s after := by
  induction nodes generalizing s with
  | nil => exact ⟨s, rfl, by simp [left, minima], by simp [left, minima], nofun, fun ip _ => rfl⟩
  | cons ip nodes ih =>
    obtain ⟨fresh, distinct⟩ := List.nodup_cons.mp distinct
    rw [List.foldlM_cons]
    by_cases chosen : ip ∈ s.vmesCandidate
    · have skipped : scanNode c instTypeToRemove s ip = .ok s := if_neg fun more => more.1 chosen
      have same : s.left c instTypeToRemove (ip :: nodes) = s.left c instTypeToRemove nodes :=
        List.filter_cons_of_neg (by simp [chosen])
      obtain ⟨after, folded, scanned⟩ := ih distinct fun ip member => reads ip (List.mem_cons_of_mem _ member)
      rw [skipped]
      refine ⟨after, folded, same ▸ scanned.candidates, same ▸ scanned.number, fun more other member new => ?_, fun other absent => ?_⟩
      · rcases List.mem_cons.mp member with rfl | later
        · exact absurd chosen new
        · exact scanned.filled (same ▸ more) other later new
      · exact scanned.others other fun member => absent (List.mem_cons_of_mem _ member)
    by_cases done : s.numVmesToRemove = 0
    · have skipped : scanNode c instTypeToRemove s ip = .ok s := if_neg fun more => absurd more.2 (by omega)
      rw [skipped]
      refine ⟨s, foldlM_done done, ?_, ?_, fun more => ?_, fun ip _ => rfl⟩
      · rw [done, List.take_zero, List.append_nil]
      · rw [done, Nat.zero_sub]
      · exact absurd more (by omega)
    have data := reads ip List.mem_cons_self chosen
    have looked : ip ∉ s.vmesCandidate ∧ s.numVmesToRemove > 0 := ⟨chosen, Nat.pos_of_ne_zero done⟩
    by_cases suits : c.getTypeInstance ip = instTypeToRemove
    swap
    · have passed : scanNode c instTypeToRemove s ip = .ok (s.fill ip (metrics ip)) := by
        rw [scanNode, if_pos looked, data]
        exact if_neg fun both => suits both.1
      have same : s.left c instTypeToRemove (ip :: nodes) = s.left c instTypeToRemove nodes :=
        List.filter_cons_of_neg (by simp [suits])
      rw [passed]
      exact (ih distinct (reads.fill fresh)).imp fun after both => ⟨both.1, both.2.fill (by rw [same]) fresh⟩
    have more : s.left c instTypeToRemove (ip :: nodes) = ip :: s.left c instTypeToRemove nodes :=
      List.filter_cons_of_pos (by simp [suits, chosen])
    by_cases below : performanceIndex (metrics ip) < s.minPerformanceIndex
    · have taken : scanNode c instTypeToRemove s ip = .ok (s.choose ip (metrics ip)) := by
        rw [scanNode, if_pos looked, data]
        exact if_pos ⟨suits, below⟩
      have minimum : minima (performanceIndex ∘ metrics) s.minPerformanceIndex (s.left c instTypeToRemove (ip :: nodes)) =
          ip :: minima (performanceIndex ∘ metrics) (performanceIndex (metrics ip)) (s.left c instTypeToRemove nodes) := by
        rw [more]
        exact if_pos below
      have same : (s.choose ip (metrics ip)).left c instTypeToRemove nodes = s.left c instTypeToRemove nodes := left_choose fresh
      obtain ⟨number, count⟩ := Nat.exists_eq_succ_of_ne_zero done
      obtain ⟨after, folded, scanned⟩ := ih distinct (reads.choose fresh)
      have candidates := scanned.candidates
      have number' := scanned.number
      have filled := scanned.filled
      rw [same] at candidates number' filled
      rw [taken]
      refine ⟨after, folded, ?_, ?_, fun enough other member new => ?_, fun other absent => ?_⟩
      · rw [candidates, minimum, count, List.take_succ_cons]
        simp only [choose, count, Nat.succ_sub_one, List.append_assoc, List.singleton_append]
      · rw [number', minimum, List.length_cons]
        simp only [choose]
        omega
      · rw [minimum, List.length_cons] at enough
        by_cases here : other = ip
        · subst here
          exact (scanned.others other fresh).trans (if_pos rfl)
        · have new' : other ∉ (s.choose ip (metrics ip)).vmesCandidate := by simp [choose, new, here]
          exact filled (by simp only [choose]; omega) other ((List.mem_cons.mp member).resolve_left here) new'
      · obtain ⟨apart, outside⟩ := not_or.mp (List.mem_cons.not.mp absent)
        exact (scanned.others other outside).trans (if_neg apart)
    · have passed : scanNode c instTypeToRemove s ip = .ok (s.fill ip (metrics ip)) := by
        rw [scanNode, if_pos looked, data]
        exact if_neg fun both => below both.2
      have same : minima (performanceIndex ∘ metrics) s.minPerformanceIndex (s.left c instTypeToRemove (ip :: nodes)) =
          minima (performanceIndex ∘ metrics) s.minPerformanceIndex (s.left c instTypeToRemove nodes) := by
        rw [more]
        exact if_neg below
      rw [passed]
      exact (ih distinct (reads.fill fresh)).imp fun after both => ⟨both.1, both.2.fill same fresh⟩

variable (c instTypeToRemove nodes) (metrics : String → NodeMetrics) (s)

/-- What the next scan finds. -/
def least : List String := minima (performanceIndex ∘ metrics) MIN_PERFORMANCE_INDEX (s.left c instTypeToRemove nodes)

/-- The nodes that some scan may find. -/
def eligible : List String :=
  (s.left c instTypeToRemove nodes).filter fun ip => (performanceIndex ∘ metrics) ip < MIN_PERFORMANCE_INDEX

/-- What a round of the outer loop leaves. -/
structure Round (after : Selection) : Prop where
  candidates : after.vmesCandidate = s.vmesCandidate ++ (s.least c instTypeToRemove nodes metrics).take s.numVmesToRemove
  number : after.numVmesToRemove = s.numVmesToRemove - (s.least c instTypeToRemove nodes metrics).length
  reads : (s.least c instTypeToRemove nodes metrics).length < s.numVmesToRemove → after.Reads nodes (NodeMetrics.filled ∘ metrics)
  left : (s.least c instTypeToRemove nodes metrics).length < s.numVmesToRemove → after.left c instTypeToRemove nodes =
    rest (performanceIndex ∘ metrics) MIN_PERFORMANCE_INDEX (s.left c instTypeToRemove nodes)

variable {c instTypeToRemove nodes metrics s}

theorem select_done (done : s.numVmesToRemove = 0) (rounds : Nat) :
    select c instTypeToRemove nodes (rounds + 1) s = some (.ok s) := if_neg (by omega)

/-- A round of the outer loop, and the others. -/
theorem select_round (distinct : nodes.Nodup) (reads : s.Reads nodes metrics) (more : s.numVmesToRemove > 0) :
    ∃ after, (∀ rounds, select c instTypeToRemove nodes (rounds + 1) s = select c instTypeToRemove nodes rounds after) ∧
      Round c instTypeToRemove nodes s metrics after := by
  obtain ⟨after, folded, scanned⟩ : ∃ after,
      nodes.foldlM (scanNode c instTypeToRemove) { s with minPerformanceIndex := MIN_PERFORMANCE_INDEX } = .ok after ∧
        Scanned c instTypeToRemove nodes metrics { s with minPerformanceIndex := MIN_PERFORMANCE_INDEX } after :=
    foldlM_scan distinct reads
  have candidates : after.vmesCandidate = s.vmesCandidate ++ (s.least c instTypeToRemove nodes metrics).take s.numVmesToRemove :=
    scanned.candidates
  refine ⟨after, fun rounds => ?_, candidates, scanned.number, fun few ip member new => ?_, fun few => ?_⟩
  · rw [select, if_pos more, folded]
  · exact scanned.filled few ip member fun inside => new (candidates ▸ List.mem_append_left _ inside)
  · rw [List.take_of_length_le few.le] at candidates
    rw [left, rest, left, List.filter_filter, candidates]
    refine List.filter_congr fun ip _ => ?_
    simp only [List.mem_append, not_or, ← Bool.decide_and, decide_eq_decide]
    exact ⟨fun all => ⟨all.2.2, all.1, all.2.1⟩, fun all => ⟨all.2.1, all.2.2, all.1⟩⟩

/-- The number of rounds does not matter. -/
theorem select_unique {rounds rounds' : Nat} {x y : Except Selection Selection}
    (first : select c instTypeToRemove nodes rounds s = some x) (second : select c instTypeToRemove nodes rounds' s = some y) : x = y := by
  induction rounds generalizing s rounds' with
  | zero => cases first
  | succ rounds ih =>
    cases rounds' with
    | zero => cases second
    | succ rounds' =>
      rw [select] at first second
      split at first
      · rename_i more
        rw [if_pos more] at second
        split at first
        · rename_i raised
          rw [raised] at second
          exact (Option.some.inj first).symm.trans (Option.some.inj second)
        · rename_i folded
          rw [folded] at second
          exact ih first second
      · rename_i done
        rw [if_neg done] at second
        exact (Option.some.inj first).symm.trans (Option.some.inj second)

theorem filled_filled (m : NodeMetrics) : m.filled.filled = m.filled := by
  have twice (list : List Rat) : filled (filled list) = filled list :=
    List.map_map.trans (List.map_congr_left fun value _ => filledIn_valid (filledIn_nonneg value))
  unfold NodeMetrics.filled
  exact congr (congrArg₂ NodeMetrics.mk (twice _) (twice _)) (twice _)

theorem least_eq : s.least c instTypeToRemove nodes metrics =
    minima (performanceIndex ∘ metrics) MIN_PERFORMANCE_INDEX (s.eligible c instTypeToRemove nodes metrics) :=
  (minima_filter le_rfl).symm

theorem eligible_nodup (distinct : nodes.Nodup) : (s.eligible c instTypeToRemove nodes metrics).Nodup :=
  (distinct.filter _).filter _

theorem eligible_below : ∀ ip ∈ s.eligible c instTypeToRemove nodes metrics, (performanceIndex ∘ metrics) ip < MIN_PERFORMANCE_INDEX :=
  fun _ member => of_decide_eq_true (List.mem_filter.mp member).2

/-- A round leaves the eligible nodes it has not found. -/
theorem Round.eligible {after : Selection} (round : Round c instTypeToRemove nodes s metrics after)
    (few : (s.least c instTypeToRemove nodes metrics).length < s.numVmesToRemove) :
    after.eligible c instTypeToRemove nodes metrics =
      rest (performanceIndex ∘ metrics) MIN_PERFORMANCE_INDEX (s.eligible c instTypeToRemove nodes metrics) := by
  rw [Selection.eligible, round.left few, Selection.eligible, rest_filter]

theorem length_eligible (distinct : nodes.Nodup) :
    (s.least c instTypeToRemove nodes metrics).length +
      (rest (performanceIndex ∘ metrics) MIN_PERFORMANCE_INDEX (s.eligible c instTypeToRemove nodes metrics)).length =
        (s.eligible c instTypeToRemove nodes metrics).length := by
  rw [least_eq, ← List.length_append]
  exact (minima_append_rest (eligible_nodup distinct)).length_eq

/-- Once all data have been looked at, the rounds make the picks in their order. -/
theorem select_picks (distinct : nodes.Nodup) (settled : NodeMetrics.filled ∘ metrics = metrics) {k : Nat}
    (reads : s.Reads nodes metrics) (enough : (s.eligible c instTypeToRemove nodes metrics).length ≤ k)
    (many : s.numVmesToRemove ≤ (s.eligible c instTypeToRemove nodes metrics).length) :
    ∃ rounds after, select c instTypeToRemove nodes rounds s = some (.ok after) ∧
      after.vmesCandidate = s.vmesCandidate ++ (picks (performanceIndex ∘ metrics) MIN_PERFORMANCE_INDEX k
        (s.eligible c instTypeToRemove nodes metrics)).take s.numVmesToRemove := by
  induction k generalizing s with
  | zero =>
    have done : s.numVmesToRemove = 0 := by omega
    refine ⟨1, s, select_done done 0, ?_⟩
    rw [done, List.take_zero, List.append_nil]
  | succ k ih =>
    by_cases done : s.numVmesToRemove = 0
    · refine ⟨1, s, select_done done 0, ?_⟩
      rw [done, List.take_zero, List.append_nil]
    obtain ⟨after, go, round⟩ : ∃ after, (∀ rounds, select c instTypeToRemove nodes (rounds + 1) s =
      select c instTypeToRemove nodes rounds after) ∧ Round c instTypeToRemove nodes s metrics after :=
        select_round distinct reads (Nat.pos_of_ne_zero done)
    have split : (s.least c instTypeToRemove nodes metrics).length + _ = _ := length_eligible distinct
    by_cases few : (s.least c instTypeToRemove nodes metrics).length < s.numVmesToRemove
    · have found : 0 < (s.least c instTypeToRemove nodes metrics).length := by
        rw [least_eq]
        exact List.length_pos_iff.mpr (minima_ne_nil (List.length_pos_iff.mp (by omega)) eligible_below)
      have reads' : after.Reads nodes metrics := by
        have read := round.reads few
        rwa [settled] at read
      obtain ⟨rounds, last, ended, candidates⟩ := ih reads' (by rw [round.eligible few]; omega)
        (by rw [round.eligible few, round.number]; omega)
      refine ⟨rounds + 1, last, (go rounds).trans ended, ?_⟩
      rw [candidates, round.candidates, round.eligible few, round.number, picks, ← least_eq, List.take_append,
        List.take_of_length_le few.le, List.append_assoc]
    · have done' : after.numVmesToRemove = 0 := by
        rw [round.number]
        omega
      refine ⟨2, after, (go 1).trans (select_done done' 0), ?_⟩
      rw [round.candidates, picks, ← least_eq, List.take_append_of_le_length (by omega)]

/-- With too few eligible nodes the rounds do not end. -/
theorem select_none (distinct : nodes.Nodup) (settled : NodeMetrics.filled ∘ metrics = metrics) (reads : s.Reads nodes metrics)
    (few : (s.eligible c instTypeToRemove nodes metrics).length < s.numVmesToRemove) (rounds : Nat) :
    select c instTypeToRemove nodes rounds s = none := by
  induction rounds generalizing s with
  | zero => rfl
  | succ rounds ih =>
    obtain ⟨after, go, round⟩ : ∃ after, (∀ rounds, select c instTypeToRemove nodes (rounds + 1) s =
      select c instTypeToRemove nodes rounds after) ∧ Round c instTypeToRemove nodes s metrics after :=
        select_round distinct reads (by omega)
    have split : (s.least c instTypeToRemove nodes metrics).length + _ = _ := length_eligible distinct
    have more : (s.least c instTypeToRemove nodes metrics).length < s.numVmesToRemove := by omega
    have reads' : after.Reads nodes metrics := by
      have read := round.reads more
      rwa [settled] at read
    rw [go rounds]
    refine ih reads' ?_
    rw [round.eligible more, round.number]
    omega

end Selection

/-- A call for nodes with distinct addresses and monitoring data. -/
structure TypeRemoval where
  costController : CostController
  backendNodes : List String
  distinct : backendNodes.Nodup
  monitoring : BackendMonitoring
  complete : ∀ ip ∈ backendNodes, (monitoring ip).isSome
  instType : String

namespace TypeRemoval

variable (r : TypeRemoval)

def metrics (ip : String) : NodeMetrics := (r.monitoring ip).getD ⟨[], [], []⟩

theorem metrics_eq {r : TypeRemoval} {ip : String} {metrics : NodeMetrics} (found : r.monitoring ip = some metrics) :
    r.metrics ip = metrics := by
  rw [TypeRemoval.metrics, found, Option.getD_some]

def index : String → Rat := performanceIndex ∘ r.metrics

/-- The index of a node after the first look at its data, which sets missing
samples to zero. -/
def laterIndex : String → Rat := performanceIndex ∘ NodeMetrics.filled ∘ r.metrics

def ofType : List String := r.backendNodes.filter fun ip => r.costController.getTypeInstance ip = r.instType

theorem ofType_nodup : r.ofType.Nodup := r.distinct.filter _

/-- The nodes that the first scan finds: their indices are below those of the
nodes before them. -/
def First (ip : String) : Prop :=
  ip ∈ r.ofType ∧ r.index ip < MIN_PERFORMANCE_INDEX ∧ ∀ other, Earlier r.ofType other ip → r.index ip < r.index other

theorem mem_first_iff {ip : String} : ip ∈ minima r.index MIN_PERFORMANCE_INDEX r.ofType ↔ r.First ip := mem_minima r.ofType_nodup

instance (ip : String) : Decidable (r.First ip) := decidable_of_iff _ r.mem_first_iff

/-- The nodes that later scans find. -/
def others : List String := r.ofType.filter fun ip => ¬ r.First ip ∧ r.laterIndex ip < MIN_PERFORMANCE_INDEX

/-- A node that some scan finds. -/
def Found (ip : String) : Prop := r.First ip ∨ ip ∈ r.others

/-- The scans find one node before another one: the first scan finds its nodes
in their order, the later ones those first that fewer others lead to. -/
def Sooner (p q : String) : Prop :=
  r.First p ∧ (r.First q → Earlier r.ofType p q) ∨
    ¬ r.First p ∧ ¬ r.First q ∧ RunningMinima.Sooner r.laterIndex r.others p q

/-- The call ends and returns some nodes of the type with the lowest indices, if
there are so many; otherwise it ends. -/
def Removes (prices : PriceList) (now : Rat) (n : Nat) : Prop :=
  if n ≤ r.ofType.length then
    ∃ rounds result, removeVmesTypeCandidate prices now r.costController r.backendNodes r.monitoring r.instType n rounds =
        some (.ok result) ∧ result.vmesCandidate.length = n ∧ result.vmesCandidate.Nodup ∧
      ∀ ip ∈ result.vmesCandidate, ip ∈ r.ofType ∧ ∀ other ∈ r.ofType, other ∉ result.vmesCandidate → r.index ip ≤ r.index other
  else ∃ rounds, (removeVmesTypeCandidate prices now r.costController r.backendNodes r.monitoring r.instType n rounds).isSome

/-- The nodes in the order in which the scans find them. -/
def order : List String := minima r.index MIN_PERFORMANCE_INDEX r.ofType ++
  picks r.laterIndex MIN_PERFORMANCE_INDEX r.others.length r.others

variable {r}

theorem others_eq : r.others =
    (rest r.index MIN_PERFORMANCE_INDEX r.ofType).filter fun ip => r.laterIndex ip < MIN_PERFORMANCE_INDEX := by
  rw [others, rest, List.filter_filter]
  refine List.filter_congr fun ip _ => ?_
  rw [← Bool.decide_and, decide_eq_decide, r.mem_first_iff]
  exact and_comm

theorem others_nodup : r.others.Nodup := r.ofType_nodup.filter _

theorem others_below : ∀ ip ∈ r.others, r.laterIndex ip < MIN_PERFORMANCE_INDEX :=
  fun _ member => (of_decide_eq_true (List.mem_filter.mp member).2).2

theorem others_not_first {ip : String} (member : ip ∈ r.others) : ¬ r.First ip := (of_decide_eq_true (List.mem_filter.mp member).2).1

theorem picks_others_perm : (picks r.laterIndex MIN_PERFORMANCE_INDEX r.others.length r.others).Perm r.others :=
  picks_perm others_nodup others_below le_rfl

theorem mem_order_iff {ip : String} : ip ∈ r.order ↔ r.Found ip := by
  rw [order, List.mem_append, mem_first_iff, picks_others_perm.mem_iff]
  rfl

theorem Found.ofType {ip : String} (found : r.Found ip) : ip ∈ r.ofType :=
  found.elim And.left List.mem_of_mem_filter

theorem order_pairwise : r.order.Pairwise r.Sooner := by
  refine List.pairwise_append.mpr ⟨?_, ?_, ?_⟩
  · refine List.pairwise_iff_forall_sublist.mpr fun {a b} sublist => .inl ⟨?_, fun _ => sublist.trans (minima_sublist ..)⟩
    exact r.mem_first_iff.mp (sublist.subset List.mem_cons_self)
  · refine (picks_pairwise others_nodup others_below _).imp_of_mem fun {a b} inA inB sooner => ?_
    exact .inr ⟨others_not_first (picks_others_perm.subset inA), others_not_first (picks_others_perm.subset inB), sooner⟩
  · intro a inA b inB
    exact .inl ⟨r.mem_first_iff.mp inA, fun first => absurd first (others_not_first (picks_others_perm.subset inB))⟩

theorem Sooner.asymm {p q : String} (sooner : r.Sooner p q) : ¬ r.Sooner q p := by
  rintro (⟨firstQ, before⟩ | ⟨notQ, notP, later⟩)
  · rcases sooner with ⟨firstP, before'⟩ | ⟨-, notQ, -⟩
    · exact (before' firstQ).asymm r.ofType_nodup (before firstP)
    · exact notQ firstQ
  · rcases sooner with ⟨firstP, -⟩ | ⟨-, -, later'⟩
    · exact notP firstP
    · exact later'.asymm others_nodup later

theorem order_nodup : r.order.Nodup := order_pairwise.imp fun sooner same => (same ▸ sooner.asymm) (same ▸ sooner)

/-- The variables at the beginning of the loop. -/
def begin (r : TypeRemoval) (n : Nat) : Selection := ⟨[], MIN_PERFORMANCE_INDEX, n, r.monitoring⟩

variable {n : Nat}

theorem begin_reads : (r.begin n).Reads r.backendNodes r.metrics := by
  intro ip member _
  obtain ⟨metrics, found⟩ := Option.isSome_iff_exists.mp (r.complete ip member)
  exact found.trans (by rw [metrics_eq found])

theorem begin_left : (r.begin n).left r.costController r.instType r.backendNodes = r.ofType :=
  List.filter_congr fun ip _ => by simp [begin]

theorem settled : NodeMetrics.filled ∘ (NodeMetrics.filled ∘ r.metrics) = NodeMetrics.filled ∘ r.metrics :=
  funext fun ip => Selection.filled_filled (r.metrics ip)

/-- After the first round the others are eligible. -/
theorem eligible_others {after : Selection}
    (round : Selection.Round r.costController r.instType r.backendNodes (r.begin n) r.metrics after)
    (few : (minima r.index MIN_PERFORMANCE_INDEX r.ofType).length < n) :
    after.eligible r.costController r.instType r.backendNodes (NodeMetrics.filled ∘ r.metrics) = r.others := by
  have left := round.left (by rw [Selection.least, begin_left]; exact few)
  rw [begin_left] at left
  rw [Selection.eligible, left, others_eq]
  rfl

/-- The first round, where some nodes are to be chosen. -/
theorem first_round (more : 0 < n) : ∃ after,
    (∀ rounds, Selection.select r.costController r.instType r.backendNodes (rounds + 1) (r.begin n) =
      Selection.select r.costController r.instType r.backendNodes rounds after) ∧
    after.vmesCandidate = (minima r.index MIN_PERFORMANCE_INDEX r.ofType).take n ∧
    after.numVmesToRemove = n - (minima r.index MIN_PERFORMANCE_INDEX r.ofType).length ∧
    ((minima r.index MIN_PERFORMANCE_INDEX r.ofType).length < n →
      after.Reads r.backendNodes (NodeMetrics.filled ∘ r.metrics) ∧
      after.eligible r.costController r.instType r.backendNodes (NodeMetrics.filled ∘ r.metrics) = r.others) := by
  obtain ⟨after, go, round⟩ :=
    @Selection.select_round r.costController r.instType r.backendNodes (r.begin n) r.metrics r.distinct begin_reads more
  have least : (r.begin n).least r.costController r.instType r.backendNodes r.metrics = minima r.index MIN_PERFORMANCE_INDEX r.ofType := by
    rw [Selection.least, begin_left]
    rfl
  have candidates := round.candidates
  have number := round.number
  rw [least] at candidates number
  exact ⟨after, go, candidates, number, fun few => ⟨round.reads (least ▸ few), eligible_others round few⟩⟩

theorem length_order : r.order.length = (minima r.index MIN_PERFORMANCE_INDEX r.ofType).length + r.others.length := by
  rw [order, List.length_append, picks_others_perm.length_eq]

theorem select_order (le : n ≤ r.order.length) : ∃ rounds after,
    Selection.select r.costController r.instType r.backendNodes rounds (r.begin n) = some (.ok after) ∧
      after.vmesCandidate = r.order.take n := by
  by_cases none : n = 0
  · subst none
    exact ⟨1, r.begin 0, Selection.select_done rfl 0, rfl⟩
  obtain ⟨after, go, candidates, number, later⟩ := first_round (r := r) (Nat.pos_of_ne_zero none)
  rw [length_order] at le
  by_cases few : (minima r.index MIN_PERFORMANCE_INDEX r.ofType).length < n
  · obtain ⟨reads, eligible⟩ := later few
    obtain ⟨rounds, last, ended, chosen⟩ := Selection.select_picks r.distinct settled reads (congrArg List.length eligible).le
      (by rw [eligible, number]; omega)
    refine ⟨rounds + 1, last, (go rounds).trans ended, ?_⟩
    rw [chosen, candidates, eligible, number, order, List.take_append, List.take_of_length_le few.le]
    rfl
  · have done : after.numVmesToRemove = 0 := by
      rw [number]
      omega
    refine ⟨2, after, (go 1).trans (Selection.select_done done 0), ?_⟩
    rw [candidates, order, List.take_append_of_le_length (by omega)]

theorem select_order_none (few : r.order.length < n) (rounds : Nat) :
    Selection.select r.costController r.instType r.backendNodes rounds (r.begin n) = none := by
  cases rounds with
  | zero => rfl
  | succ rounds =>
    obtain ⟨after, go, -, number, later⟩ := first_round (r := r) (by omega : 0 < n)
    rw [length_order] at few
    obtain ⟨reads, eligible⟩ := later (by omega)
    rw [go rounds]
    refine Selection.select_none r.distinct settled reads ?_ rounds
    rw [eligible, number]
    omega

/-- The call of the model, by its loop. -/
theorem removeVmesTypeCandidate_eq (prices : PriceList) (now : Rat) (some : r.backendNodes ≠ []) (rounds : Nat) :
    removeVmesTypeCandidate prices now r.costController r.backendNodes r.monitoring r.instType n rounds =
      (Selection.select r.costController r.instType r.backendNodes rounds (r.begin n)).map fun
        | .error s => .ok ⟨s.vmesCandidate, r.costController, s.monitoring⟩
        | .ok s => .ok ⟨s.vmesCandidate, s.vmesCandidate.foldl (CostController.removeVmUsage prices now) r.costController, s.monitoring⟩ := by
  unfold removeVmesTypeCandidate begin
  split
  · exact absurd ‹_› some
  · rfl

theorem removeVmesTypeCandidate_nil (prices : PriceList) (now : Rat) (none : r.backendNodes = []) (rounds : Nat) :
    removeVmesTypeCandidate prices now r.costController r.backendNodes r.monitoring r.instType n rounds = some (.error ()) := by
  unfold removeVmesTypeCandidate
  rw [none]

/-- A call with nodes that ends has found enough of them, and returns the first ones. -/
theorem returned {prices : PriceList} {now : Rat} (nodes : r.backendNodes ≠ []) {rounds : Nat} {out : Except Unit Selected}
    (ended : removeVmesTypeCandidate prices now r.costController r.backendNodes r.monitoring r.instType n rounds = some out) :
    n ≤ r.order.length ∧ ∃ result, out = .ok result ∧ result.vmesCandidate = r.order.take n := by
  rw [removeVmesTypeCandidate_eq prices now nodes] at ended
  obtain ⟨left, selected, rfl⟩ := Option.map_eq_some_iff.mp ended
  have le : n ≤ r.order.length := by
    by_contra few
    rw [select_order_none (not_le.mp few)] at selected
    cases selected
  obtain ⟨rounds', after, selected', chosen⟩ := select_order le
  obtain rfl := Selection.select_unique selected selected'
  exact ⟨le, _, rfl, chosen⟩

theorem ends (prices : PriceList) (now : Rat) (nodes : r.backendNodes ≠ []) (le : n ≤ r.order.length) :
    ∃ rounds result, removeVmesTypeCandidate prices now r.costController r.backendNodes r.monitoring r.instType n rounds =
      some (.ok result) ∧ result.vmesCandidate = r.order.take n := by
  obtain ⟨rounds, after, selected, chosen⟩ := select_order le
  refine ⟨rounds, ⟨after.vmesCandidate, after.vmesCandidate.foldl (CostController.removeVmUsage prices now) r.costController,
    after.monitoring⟩, ?_, chosen⟩
  rw [removeVmesTypeCandidate_eq prices now nodes, selected]
  rfl

theorem length_order_le : r.order.length ≤ r.ofType.length :=
  (List.subperm_of_subset order_nodup fun _ member => Found.ofType (mem_order_iff.mp member)).length_le

/-- Nodes that are found sooner than all the others are the first ones found. -/
theorem perm_take {chosen : List String} (distinct : chosen.Nodup) (found : ∀ ip ∈ chosen, r.Found ip)
    (closed : ∀ ip ∈ chosen, ∀ other, r.Found other → other ∉ chosen → r.Sooner ip other) :
    chosen.length ≤ r.order.length ∧ (r.order.take chosen.length).Perm chosen := by
  have inside : chosen ⊆ r.order := fun ip member => mem_order_iff.mpr (found ip member)
  have le : chosen.length ≤ r.order.length := (List.subperm_of_subset distinct inside).length_le
  have length : (r.order.take chosen.length).length = chosen.length := List.length_take_of_le le
  have nodup : (r.order.take chosen.length).Nodup := order_nodup.sublist (List.take_sublist _ _)
  refine ⟨le, (List.subperm_of_subset nodup fun other member => ?_).perm_of_length_le length.ge⟩
  by_contra outside
  -- some chosen node then comes after the first ones, and before `other` as well
  obtain ⟨ip, chosen_ip, late⟩ : ∃ ip ∈ chosen, ip ∉ r.order.take chosen.length := by
    by_contra none
    have whole : chosen.Perm (r.order.take chosen.length) :=
      (List.subperm_of_subset distinct fun ip member => by_contra fun late => none ⟨ip, member, late⟩).perm_of_length_le length.le
    exact outside (whole.mem_iff.mpr member)
  have after : ip ∈ r.order.drop chosen.length := by
    have either := inside chosen_ip
    rw [← List.take_append_drop chosen.length r.order, List.mem_append] at either
    exact either.resolve_left late
  have parts := order_pairwise (r := r)
  rw [← List.take_append_drop chosen.length r.order, List.pairwise_append] at parts
  have found_other := mem_order_iff.mp (List.mem_of_mem_take member)
  exact (parts.2.2 other member ip after).asymm (closed ip chosen_ip other found_other outside)

/-- A beginning of the order is found sooner than the rest. -/
theorem take_sooner {ip other : String} (member : ip ∈ r.order.take n) (found : r.Found other) (outside : other ∉ r.order.take n) :
    r.Sooner ip other := by
  have parts := order_pairwise (r := r)
  rw [← List.take_append_drop n r.order, List.pairwise_append] at parts
  have either := mem_order_iff.mpr found
  rw [← List.take_append_drop n r.order, List.mem_append] at either
  exact parts.2.2 ip member other (either.resolve_left outside)

end TypeRemoval

/-- The call does what it is for exactly if, up to the number of nodes of the
type, there are that many nodes that the scans find sooner than all others and
that have no higher index than the other nodes of the type. For a greater
number it ends only when there is no node at all, and raises then. -/
theorem removesLowest_iff (prices : PriceList) (now : Rat) (r : TypeRemoval) (n : Nat) :
    r.Removes prices now n ↔
      if n ≤ r.ofType.length then
        r.backendNodes ≠ [] ∧ ∃ chosen : List String, chosen.Nodup ∧ chosen.length = n ∧ ∀ ip ∈ chosen, r.Found ip ∧
          ∀ other ∈ r.ofType, other ∉ chosen → r.index ip ≤ r.index other ∧ (r.Found other → r.Sooner ip other)
      else r.backendNodes = [] := by
  unfold TypeRemoval.Removes
  split
  · rename_i few
    constructor
    · rintro ⟨rounds, result, ended, length, -, lowest⟩
      by_cases none : r.backendNodes = []
      · rw [TypeRemoval.removeVmesTypeCandidate_nil prices now none] at ended
        injection ended with same
        injection same
      obtain ⟨le, result', same, taken⟩ := TypeRemoval.returned none ended
      obtain rfl := Except.ok.inj same
      refine ⟨none, r.order.take n, TypeRemoval.order_nodup.sublist (List.take_sublist ..), List.length_take_of_le le, fun ip member => ?_⟩
      rw [taken] at lowest
      refine ⟨TypeRemoval.mem_order_iff.mp (List.mem_of_mem_take member), fun other ofType outside => ?_⟩
      exact ⟨(lowest ip member).2 other ofType outside, fun found => TypeRemoval.take_sooner member found outside⟩
    · rintro ⟨nodes, chosen, distinct, rfl, all⟩
      obtain ⟨le, perm⟩ := TypeRemoval.perm_take distinct (fun ip member => (all ip member).1)
        fun ip member other found outside => ((all ip member).2 other found.ofType outside).2 found
      obtain ⟨rounds, result, ended, taken⟩ := TypeRemoval.ends prices now nodes le
      rw [← taken] at perm
      refine ⟨rounds, result, ended, perm.length_eq, perm.nodup_iff.mpr distinct, fun ip member => ?_⟩
      have inside := perm.mem_iff.mp member
      refine ⟨(all ip inside).1.ofType, fun other ofType outside => ?_⟩
      exact ((all ip inside).2 other ofType fun chosen => outside (perm.mem_iff.mpr chosen)).1
  · rename_i many
    constructor
    · rintro ⟨rounds, ended⟩
      by_contra nodes
      obtain ⟨out, ended⟩ := Option.isSome_iff_exists.mp ended
      have le := (TypeRemoval.returned nodes ended).1
      exact many (le.trans TypeRemoval.length_order_le)
    · intro none
      refine ⟨0, ?_⟩
      rw [TypeRemoval.removeVmesTypeCandidate_nil prices now none]
      rfl

/-- Two nodes of a type, the first of which is the busier one. -/
def busyFirst : TypeRemoval where
  costController := ⟨⟨[⟨"10.0.0.5", 0, "small"⟩, ⟨"10.0.0.6", 0, "small"⟩], by decide⟩, 0⟩
  backendNodes := ["10.0.0.5", "10.0.0.6"]
  distinct := by decide
  monitoring ip := some ⟨if ip = "10.0.0.5" then [80, 80] else [10, 10], [], []⟩
  complete _ _ := rfl
  instType := "small"

theorem busyFirst_order : busyFirst.index "10.0.0.6" < busyFirst.index "10.0.0.5" ∧ busyFirst.order.take 1 = ["10.0.0.5"] := by
  have ofType : busyFirst.ofType = ["10.0.0.5", "10.0.0.6"] := by decide
  have below : busyFirst.index "10.0.0.6" < busyFirst.index "10.0.0.5" ∧ busyFirst.index "10.0.0.5" < MIN_PERFORMANCE_INDEX := by
    decide +kernel
  refine ⟨below.1, ?_⟩
  rw [TypeRemoval.order, ofType, minima, if_pos below.2]
  rfl

/-- The busier node is removed, and the removal of three nodes does not end. -/
theorem busyFirst_removed : ¬ busyFirst.Removes fiveCents 0 1 ∧ ¬ busyFirst.Removes fiveCents 0 3 := by
  have nodes : busyFirst.backendNodes ≠ [] := by decide
  have ofType : busyFirst.ofType = ["10.0.0.5", "10.0.0.6"] := by decide
  unfold TypeRemoval.Removes
  rw [ofType]
  constructor
  · rintro ⟨rounds, result, ended, -, -, lowest⟩
    obtain ⟨-, _, same, taken⟩ := TypeRemoval.returned nodes ended
    obtain rfl := Except.ok.inj same
    rw [taken, busyFirst_order.2] at lowest
    exact ((lowest "10.0.0.5" List.mem_cons_self).2 "10.0.0.6" (by decide) (by decide)).not_gt busyFirst_order.1
  · rintro ⟨rounds, ended⟩
    obtain ⟨out, ended⟩ := Option.isSome_iff_exists.mp ended
    have many := (TypeRemoval.returned nodes ended).1.trans TypeRemoval.length_order_le
    rw [ofType] at many
    exact absurd many (by decide)

end ConPaaS
