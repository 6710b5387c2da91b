import ConPaaS.Lib.Barycentre
import ConPaaS.Lib.Fallible
import ConPaaS.Lib.Transition
import Mathlib.Algebra.Order.Field.Rat
import Mathlib.Data.Fin.VecNotation
import Mathlib.Data.List.Perm.Subperm

namespace ConPaaS

open Barycentre Transition

/-- `VM`: the features of a machine, all of one dimension. -/
abbrev VmFeatures (n : Nat) := Fin n → Rat

structure VmCluster (n : Nat) where
  vmes : List (VmFeatures n)
  centroid : VmFeatures n

inductive KmeansError
  | zeroDivision
  | index

/-- The states of a call of `kmeans`. -/
inductive Kmeans (n : Nat)
  | running (clusters : List (VmCluster n))
  | returned (clusters : List (VmCluster n))
  | raised (error : KmeansError)

variable {n : Nat}

/-- Every coordinate is divided by the number of machines. -/
def calculateCentroid (vmes : List (VmFeatures n)) : Except KmeansError (VmFeatures n) :=
  if vmes.length = 0 ∧ 0 < n then .error .zeroDivision else .ok (mean vmes)

namespace VmCluster

/-- `Cluster([p])`. -/
def start (p : VmFeatures n) : VmCluster n := ⟨[p], mean [p]⟩

/-- The cluster with other machines, and the square of the shift. -/
def update (c : VmCluster n) (vmes : List (VmFeatures n)) : Except KmeansError (VmCluster n × Rat) :=
  (calculateCentroid vmes).map fun centroid => (⟨vmes, centroid⟩, distSq c.centroid centroid)

/-- The loop over the other centroids, by the squares of the distances. -/
def nearestFrom (p : VmFeatures n) : List (VmCluster n) → Nat → Rat → Nat → Nat
  | [], _, _, index => index
  | c :: rest, next, smallestDistance, index =>
    let distance := distSq p c.centroid
    if distance < smallestDistance then nearestFrom p rest (next + 1) distance next
    else nearestFrom p rest (next + 1) smallestDistance index

def nearest (first : VmCluster n) (rest : List (VmCluster n)) (p : VmFeatures n) : Nat :=
  nearestFrom p rest 1 (distSq p first.centroid) 0

/-- The lists of the machines that are nearest to each cluster. -/
def lists (clusters : List (VmCluster n)) (vmes : List (VmFeatures n)) : Except KmeansError (List (List (VmFeatures n))) :=
  match clusters with
  | [] => if vmes = [] then .ok [] else .error .index
  | first :: rest =>
    .ok (vmes.foldl (fun lists p => lists.modify (nearest first rest p) (· ++ [p])) ((first :: rest).map fun _ => []))

/-- The loop of the updates, with the square of the biggest shift. -/
def updateAll : List (VmCluster n) → List (List (VmFeatures n)) → Rat → Except KmeansError (List (VmCluster n) × Rat)
  | c :: clusters, vmes :: lists, biggestShift =>
    (c.update vmes).bind fun updated =>
      (updateAll clusters lists (max biggestShift updated.2)).map fun rest => (updated.1 :: rest.1, rest.2)
  | _, _, biggestShift => .ok ([], biggestShift)

/-- The body of `while True`. -/
def iterate (clusters : List (VmCluster n)) (vmes : List (VmFeatures n)) : Except KmeansError (List (VmCluster n) × Rat) :=
  (lists clusters vmes).bind fun lists => updateAll clusters lists 0

end VmCluster

namespace Kmeans

/-- The state after an iteration. The biggest shift is below the cutoff if its
square is, and the cutoff is positive. -/
def advance (vmes : List (VmFeatures n)) (cutoff : Rat) : Kmeans n → Option (Kmeans n)
  | running clusters =>
    match VmCluster.iterate clusters vmes with
    | .error error => some (raised error)
    | .ok (clusters, biggestShift) =>
      if 0 < cutoff ∧ biggestShift < cutoff ^ 2 then some (returned clusters) else some (running clusters)
  | returned _ => none
  | raised _ => none

/-- The clusters of the sampled machines. -/
def start (initial : List (VmFeatures n)) : Kmeans n := running (initial.map VmCluster.start)

/-- Runs of the loop. -/
def Reaches (vmes : List (VmFeatures n)) (cutoff : Rat) (before : Kmeans n) (_ : Unit) (after : Kmeans n) : Prop :=
  before.advance vmes cutoff = some after

end Kmeans

/-- The first of the nearest clusters. -/
def FirstNearest (clusters : List (VmCluster n)) (p : VmFeatures n) (j : Nat) : Prop :=
  ∃ c, clusters[j]? = some c ∧ ∀ i d, clusters[i]? = some d →
    distSq p c.centroid ≤ distSq p d.centroid ∧ (i < j → distSq p c.centroid < distSq p d.centroid)

/-- Clusters each of which is the first nearest one of some machine. -/
def Attended (vmes : List (VmFeatures n)) (clusters : List (VmCluster n)) : Prop :=
  ∀ j < clusters.length, ∃ p ∈ vmes, FirstNearest clusters p j

def VmCluster.Centered (c : VmCluster n) : Prop := c.vmes ≠ [] ∧ c.centroid = mean c.vmes

/-- As many clusters as there are to be, with every machine in one of them. -/
structure Partitioned (vmes : List (VmFeatures n)) (k : Nat) (clusters : List (VmCluster n)) : Prop where
  count : clusters.length = k
  whole : (clusters.flatMap VmCluster.vmes).Perm vmes
  centered : ∀ c ∈ clusters, c.Centered

/-- What a state of `kmeans` is expected to be. -/
def Kmeans.Fair (vmes : List (VmFeatures n)) (k : Nat) : Kmeans n → Prop
  | running _ => True
  | returned clusters => Partitioned vmes k clusters
  | raised error => error ≠ .zeroDivision

theorem FirstNearest.unique {clusters : List (VmCluster n)} {p : VmFeatures n} {i j : Nat} (left : FirstNearest clusters p i)
    (right : FirstNearest clusters p j) : i = j := by
  obtain ⟨c, atI, leastI⟩ := left
  obtain ⟨d, atJ, leastJ⟩ := right
  rcases Nat.lt_trichotomy i j with less | same | less
  · exact absurd ((leastJ i c atI).2 less) (leastI j d atJ).1.not_gt
  · exact same
  · exact absurd ((leastI j d atJ).2 less) (leastJ i c atI).1.not_gt

theorem FirstNearest.bound {clusters : List (VmCluster n)} {p : VmFeatures n} {j : Nat} (least : FirstNearest clusters p j) :
    j < clusters.length := by
  obtain ⟨c, found, -⟩ := least
  exact (List.getElem?_eq_some_iff.mp found).1

/-- The loop goes on from the first nearest of the clusters it has passed. -/
theorem nearestFrom_least {p : VmFeatures n} {done rest : List (VmCluster n)} {c : VmCluster n} {index : Nat}
    (found : done[index]? = some c) (least : FirstNearest done p index) :
    FirstNearest (done ++ rest) p (VmCluster.nearestFrom p rest done.length (distSq p c.centroid) index) := by
  induction rest generalizing done c index with
  | nil => rwa [List.append_nil]
  | cons d rest ih =>
    obtain ⟨_, found', least⟩ := least
    obtain rfl := Option.some.inj (found.symm.trans found')
    have bound := (List.getElem?_eq_some_iff.mp found).1
    have more : done ++ d :: rest = (done ++ [d]) ++ rest := by rw [List.append_assoc]; rfl
    have length : (done ++ [d]).length = done.length + 1 := by rw [List.length_append]; rfl
    rw [VmCluster.nearestFrom, more, ← length]
    split
    · rename_i nearer
      refine ih List.getElem?_concat_length ⟨d, List.getElem?_concat_length, fun i e at_ => ?_⟩
      rcases Nat.lt_or_ge i done.length with before | after
      · rw [List.getElem?_append_left before] at at_
        have lt := nearer.trans_le (least i e at_).1
        exact ⟨lt.le, fun _ => lt⟩
      · have last : i = done.length := by
          have := (List.getElem?_eq_some_iff.mp at_).1
          omega
        subst last
        rw [List.getElem?_concat_length] at at_
        obtain rfl := Option.some.inj at_
        exact ⟨le_rfl, fun lt => absurd lt (lt_irrefl _)⟩
    · rename_i farther
      have kept : (done ++ [d])[index]? = some c := (List.getElem?_append_left bound).trans found
      refine ih kept ⟨c, kept, fun i e at_ => ?_⟩
      rcases Nat.lt_or_ge i done.length with before | after
      · rw [List.getElem?_append_left before] at at_
        exact least i e at_
      · have last : i = done.length := by
          have := (List.getElem?_eq_some_iff.mp at_).1
          omega
        subst last
        rw [List.getElem?_concat_length] at at_
        obtain rfl := Option.some.inj at_
        exact ⟨not_lt.mp farther, fun lt => absurd lt (by omega)⟩

theorem nearest_least (first : VmCluster n) (rest : List (VmCluster n)) (p : VmFeatures n) :
    FirstNearest (first :: rest) p (VmCluster.nearest first rest p) := by
  refine @nearestFrom_least n p [first] rest first 0 rfl ⟨first, rfl, fun i d found => ?_⟩
  obtain ⟨rfl, rfl⟩ : i = 0 ∧ d = first := by
    cases i with
    | zero => exact ⟨rfl, (Option.some.inj found).symm⟩
    | succ i => simp at found
  exact ⟨le_rfl, fun lt => absurd lt (lt_irrefl _)⟩

theorem nearest_iff {first : VmCluster n} {rest : List (VmCluster n)} {p : VmFeatures n} {j : Nat} :
    VmCluster.nearest first rest p = j ↔ FirstNearest (first :: rest) p j :=
  ⟨fun same => same ▸ nearest_least first rest p, fun least => (nearest_least first rest p).unique least⟩

/-- The machines that are nearest to each cluster, cluster by cluster. -/
def nearestLists (first : VmCluster n) (rest : List (VmCluster n)) (vmes : List (VmFeatures n)) : List (List (VmFeatures n)) :=
  (List.range (first :: rest).length).map fun j => vmes.filter fun p => VmCluster.nearest first rest p = j

theorem length_nearestLists (first : VmCluster n) (rest : List (VmCluster n)) (vmes : List (VmFeatures n)) :
    (first :: rest).length = (nearestLists first rest vmes).length := by
  rw [nearestLists, List.length_map, List.length_range]

theorem lists_cons (first : VmCluster n) (rest : List (VmCluster n)) (vmes : List (VmFeatures n)) :
    VmCluster.lists (first :: rest) vmes = .ok (nearestLists first rest vmes) := by
  have gather (f : VmFeatures n → Nat) (vmes : List (VmFeatures n)) : ∀ lists : List (List (VmFeatures n)),
      vmes.foldl (fun lists p => lists.modify (f p) (· ++ [p])) lists =
        lists.mapIdx fun j list => list ++ vmes.filter fun p => f p = j := by
    induction vmes with
    | nil => exact fun lists => List.ext_getElem? fun j => by simp [List.getElem?_mapIdx]
    | cons p vmes ih =>
      intro lists
      rw [List.foldl_cons, ih]
      refine List.ext_getElem? fun j => ?_
      rw [List.getElem?_mapIdx, List.getElem?_mapIdx, List.getElem?_modify, Option.map_eq_map, Option.map_map]
      congr 1
      funext list
      by_cases here : f p = j
      · simp [here]
      · simp [here]
  rw [VmCluster.lists, gather, nearestLists]
  refine congrArg Except.ok (List.ext_getElem? fun j => ?_)
  rw [List.getElem?_mapIdx, List.getElem?_map, List.getElem?_map]
  by_cases bound : j < (first :: rest).length
  · rw [List.getElem?_eq_getElem bound, List.getElem?_range bound]
    rfl
  · rw [List.getElem?_eq_none (not_lt.mp bound), List.getElem?_eq_none (by rw [List.length_range]; exact not_lt.mp bound)]
    rfl

theorem calculateCentroid_ok {vmes : List (VmFeatures n)} (some : vmes ≠ []) : calculateCentroid vmes = .ok (mean vmes) :=
  if_neg fun empty => some (List.eq_nil_of_length_eq_zero empty.1)

/-- The updates go through if every cluster gets a machine. -/
theorem updateAll_ok {clusters : List (VmCluster n)} {lists : List (List (VmFeatures n))} (paired : clusters.length = lists.length)
    (each : ∀ vmes ∈ lists, vmes ≠ []) (biggestShift : Rat) :
    ∃ shift, VmCluster.updateAll clusters lists biggestShift = .ok (lists.map fun vmes => ⟨vmes, mean vmes⟩, shift) := by
  induction clusters generalizing lists biggestShift with
  | nil =>
    obtain rfl := List.eq_nil_of_length_eq_zero paired.symm
    exact ⟨biggestShift, rfl⟩
  | cons c clusters ih =>
    cases lists with
    | nil => cases paired
    | cons vmes lists =>
      obtain ⟨here, each⟩ := List.forall_mem_cons.mp each
      obtain ⟨shift, later⟩ := ih (Nat.succ.inj paired) each (max biggestShift (distSq c.centroid (mean vmes)))
      refine ⟨shift, ?_⟩
      rw [VmCluster.updateAll, VmCluster.update, calculateCentroid_ok here, Except.map, Except.bind, later]
      rfl

/-- A cluster that gets no machine divides by zero. -/
theorem updateAll_zeroDivision (positive : 0 < n) {clusters : List (VmCluster n)} {lists : List (List (VmFeatures n))}
    (paired : clusters.length = lists.length) (empty : [] ∈ lists) (biggestShift : Rat) :
    VmCluster.updateAll clusters lists biggestShift = .error .zeroDivision := by
  induction clusters generalizing lists biggestShift with
  | nil =>
    obtain rfl := List.eq_nil_of_length_eq_zero paired.symm
    cases empty
  | cons c clusters ih =>
    cases lists with
    | nil => cases paired
    | cons vmes lists =>
      rw [VmCluster.updateAll, VmCluster.update]
      by_cases none : vmes = []
      · have raised : calculateCentroid vmes = .error .zeroDivision := if_pos ⟨by rw [none]; rfl, positive⟩
        rw [raised]
        rfl
      · have later := (List.mem_cons.mp empty).resolve_left (Ne.symm none)
        rw [calculateCentroid_ok none, Except.map, Except.bind, ih (Nat.succ.inj paired) later]
        rfl

theorem getElem?_nearestLists {first : VmCluster n} {rest : List (VmCluster n)} {vmes list : List (VmFeatures n)} {j : Nat} :
    (nearestLists first rest vmes)[j]? = some list ↔
      j < (first :: rest).length ∧ list = vmes.filter fun p => VmCluster.nearest first rest p = j := by
  rw [nearestLists, List.getElem?_map, Option.map_eq_some_iff]
  constructor
  · rintro ⟨i, found, rfl⟩
    obtain ⟨bound, same⟩ := List.getElem?_eq_some_iff.mp found
    rw [List.getElem_range] at same
    exact ⟨List.length_range (n := (first :: rest).length) ▸ bound, by rw [same]⟩
  · rintro ⟨bound, rfl⟩
    exact ⟨j, List.getElem?_range bound, rfl⟩

theorem mem_nearestLists {first : VmCluster n} {rest : List (VmCluster n)} {vmes list : List (VmFeatures n)} :
    list ∈ nearestLists first rest vmes ↔
      ∃ j < (first :: rest).length, list = vmes.filter fun p => VmCluster.nearest first rest p = j := by
  simp only [List.mem_iff_getElem?, getElem?_nearestLists]

/-- Every cluster gets a machine exactly if it is the first nearest one of some. -/
theorem nearestLists_ne_nil_iff {first : VmCluster n} {rest : List (VmCluster n)} {vmes : List (VmFeatures n)} :
    (∀ list ∈ nearestLists first rest vmes, list ≠ []) ↔ Attended vmes (first :: rest) := by
  constructor
  · intro each j bound
    obtain ⟨p, member⟩ := List.exists_mem_of_ne_nil _ (each _ (mem_nearestLists.mpr ⟨j, bound, rfl⟩))
    obtain ⟨inside, nearest⟩ := List.mem_filter.mp member
    exact ⟨p, inside, nearest_iff.mp (of_decide_eq_true nearest)⟩
  · intro attended list member
    obtain ⟨j, bound, rfl⟩ := mem_nearestLists.mp member
    obtain ⟨p, inside, least⟩ := attended j bound
    exact List.ne_nil_of_mem (List.mem_filter.mpr ⟨inside, decide_eq_true (nearest_iff.mpr least)⟩)

/-- A list is its parts under a function with finitely many values. -/
theorem flatMap_filter_perm {α : Type} (f : α → Nat) (l : List α) (k : Nat) :
    ((List.range k).flatMap fun j => l.filter fun a => f a = j).Perm (l.filter fun a => f a < k) := by
  induction k with
  | zero => simp
  | succ k ih =>
    have below : l.filter (fun a => f a < k) = (l.filter fun a => f a < k + 1).filter fun a => f a < k := by
      rw [List.filter_filter]
      refine List.filter_congr fun a _ => ?_
      rw [← Bool.decide_and, decide_eq_decide]
      omega
    have here : l.filter (fun a => f a = k) = (l.filter fun a => f a < k + 1).filter fun a => !(f a < k) := by
      rw [List.filter_filter]
      refine List.filter_congr fun a _ => ?_
      rw [← decide_not, ← Bool.decide_and, decide_eq_decide]
      omega
    rw [List.range_succ, List.flatMap_append, List.flatMap_singleton, here]
    rw [below] at ih
    exact (ih.append_right _).trans (List.filter_append_perm _ _)

/-- An iteration from clusters that are all attended leaves clusters with every
machine in one of them, the first nearest one of those before. -/
theorem iterate_attended {vmes : List (VmFeatures n)} {clusters : List (VmCluster n)} (occupied : clusters ≠ [])
    (attended : Attended vmes clusters) :
    ∃ after shift, VmCluster.iterate clusters vmes = .ok (after, shift) ∧ Partitioned vmes clusters.length after ∧
      ∀ j c, after[j]? = some c → ∀ p ∈ c.vmes, p ∈ vmes ∧ FirstNearest clusters p j := by
  cases clusters with
  | nil => exact absurd rfl occupied
  | cons first rest =>
    have each := nearestLists_ne_nil_iff.mpr attended
    obtain ⟨shift, updated⟩ := updateAll_ok (length_nearestLists first rest vmes) each 0
    refine ⟨_, shift, by rw [VmCluster.iterate, lists_cons]; exact updated, ⟨?_, ?_, ?_⟩, ?_⟩
    · rw [List.length_map, ← length_nearestLists]
    · rw [List.flatMap_map, nearestLists, List.flatMap_map]
      refine (flatMap_filter_perm (VmCluster.nearest first rest) vmes _).trans (.of_eq (List.filter_eq_self.mpr fun p _ => ?_))
      exact decide_eq_true (nearest_least first rest p).bound
    · intro c member
      obtain ⟨list, inside, rfl⟩ := List.mem_map.mp member
      exact ⟨each list inside, rfl⟩
    · intro j c found p member
      rw [List.getElem?_map] at found
      obtain ⟨list, listed, rfl⟩ := Option.map_eq_some_iff.mp found
      obtain ⟨-, rfl⟩ := getElem?_nearestLists.mp listed
      obtain ⟨inside, nearest⟩ := List.mem_filter.mp member
      exact ⟨inside, nearest_iff.mp (of_decide_eq_true nearest)⟩

/-- An iteration from clusters of which one is not attended divides by zero. -/
theorem iterate_unattended (positive : 0 < n) {vmes : List (VmFeatures n)} {clusters : List (VmCluster n)}
    (unattended : ¬ Attended vmes clusters) : VmCluster.iterate clusters vmes = .error .zeroDivision := by
  cases clusters with
  | nil => exact absurd (fun j bound => absurd bound (Nat.not_lt_zero j)) unattended
  | cons first rest =>
    rw [← nearestLists_ne_nil_iff] at unattended
    push Not at unattended
    obtain ⟨list, member, rfl⟩ := unattended
    rw [VmCluster.iterate, lists_cons]
    exact updateAll_zeroDivision positive (length_nearestLists first rest vmes) member 0

/-- One or two clusters with centroids in different places. -/
structure TwoApart (vmes : List (VmFeatures n)) (clusters : List (VmCluster n)) : Prop where
  few : clusters.length ≤ 2
  apart : clusters.Pairwise fun c d => c.centroid ≠ d.centroid
  centered : ∀ c ∈ clusters, c.Centered
  inside : ∀ c ∈ clusters, c.vmes ⊆ vmes

theorem firstNearest_one {c : VmCluster n} (p : VmFeatures n) : FirstNearest [c] p 0 := nearest_least c [] p

theorem firstNearest_two {c d : VmCluster n} {p : VmFeatures n} :
    (FirstNearest [c, d] p 0 ↔ distSq p c.centroid ≤ distSq p d.centroid) ∧
      (FirstNearest [c, d] p 1 ↔ distSq p d.centroid < distSq p c.centroid) := by
  simp only [← nearest_iff, VmCluster.nearest, VmCluster.nearestFrom]
  constructor
  · split
    · rename_i farther
      exact iff_of_false one_ne_zero farther.not_ge
    · rename_i nearer
      exact iff_of_true rfl (not_lt.mp nearer)
  · split
    · rename_i farther
      exact iff_of_true rfl farther
    · rename_i nearer
      exact iff_of_false zero_ne_one nearer

/-- Each of two clusters has a machine nearer to its mean than to the other. -/
theorem TwoApart.attended {vmes : List (VmFeatures n)} {clusters : List (VmCluster n)} (two : TwoApart vmes clusters) :
    Attended vmes clusters := by
  match clusters, two with
  | [], _ => exact fun j bound => absurd bound (Nat.not_lt_zero j)
  | [c], two =>
    intro j bound
    obtain rfl : j = 0 := Nat.lt_one_iff.mp bound
    obtain ⟨p, member⟩ := List.exists_mem_of_ne_nil _ (two.centered c List.mem_cons_self).1
    exact ⟨p, two.inside c List.mem_cons_self member, firstNearest_one p⟩
  | [c, d], two =>
    have other : c.centroid ≠ d.centroid := (List.pairwise_cons.mp two.apart).1 d List.mem_cons_self
    have second : d ∈ [c, d] := List.mem_cons_of_mem c List.mem_cons_self
    obtain ⟨occupied, mean_c⟩ := two.centered c List.mem_cons_self
    obtain ⟨occupied', mean_d⟩ := two.centered d second
    obtain ⟨p, member, nearer⟩ := exists_nearer_mean occupied (mean_c ▸ other)
    obtain ⟨q, member', nearer'⟩ := exists_nearer_mean occupied' (mean_d ▸ other.symm)
    intro j bound
    rw [← mean_c] at nearer
    rw [← mean_d] at nearer'
    rcases Nat.lt_succ_iff_lt_or_eq.mp bound with first | rfl
    · obtain rfl : j = 0 := Nat.lt_one_iff.mp first
      exact ⟨p, two.inside c List.mem_cons_self member, firstNearest_two.1.mpr nearer.le⟩
    · exact ⟨q, two.inside d second member', firstNearest_two.2.mpr nearer'⟩
  | _ :: _ :: _ :: _, two => exact absurd two.few (by simp)

/-- The means of the machines on both sides are on both sides. -/
theorem TwoApart.iterate {vmes : List (VmFeatures n)} {clusters after : List (VmCluster n)} {shift : Rat}
    (two : TwoApart vmes clusters) (iterated : VmCluster.iterate clusters vmes = .ok (after, shift)) : TwoApart vmes after := by
  by_cases none : clusters = []
  · subst none
    rw [VmCluster.iterate, VmCluster.lists] at iterated
    split at iterated
    · cases iterated
      exact ⟨Nat.zero_le 2, .nil, fun c member => absurd member List.not_mem_nil, fun c member => absurd member List.not_mem_nil⟩
    · cases iterated
  obtain ⟨_, _, iterated', partitioned, nearest⟩ := iterate_attended none two.attended
  obtain ⟨rfl, rfl⟩ := Prod.mk.inj (Except.ok.inj (iterated.symm.trans iterated'))
  have few : after.length ≤ 2 := partitioned.count ▸ two.few
  refine ⟨few, ?_, partitioned.centered, fun c member p inside => ?_⟩
  · match after, clusters, partitioned, nearest with
    | [], _, _, _ => exact .nil
    | [c], _, _, _ => exact List.pairwise_singleton _ c
    | [c', d'], [c, d], partitioned, nearest =>
      obtain ⟨occupied, mean_c⟩ := partitioned.centered c' List.mem_cons_self
      obtain ⟨occupied', mean_d⟩ := partitioned.centered d' (List.mem_cons_of_mem c' List.mem_cons_self)
      have left := mean_le occupied fun p member => firstNearest_two.1.mp (nearest 0 c' rfl p member).2
      have right := mean_lt occupied' fun p member => firstNearest_two.2.mp (nearest 1 d' rfl p member).2
      refine List.pairwise_pair.mpr fun same => ?_
      rw [← mean_c, same] at left
      rw [← mean_d] at right
      exact right.not_ge left
    | _ :: _ :: _ :: _, _, _, _ => exact absurd few (by simp)
  · exact partitioned.whole.subset (List.mem_flatMap.mpr ⟨c, member, inside⟩)

namespace Kmeans

variable {vmes initial : List (VmFeatures n)} {cutoff : Rat} {k : Nat}

/-- A state in which the next iteration leaves no cluster empty. -/
def Attended (vmes : List (VmFeatures n)) : Kmeans n → Prop
  | running clusters => ConPaaS.Attended vmes clusters
  | returned _ => True
  | raised _ => True

/-- A running call has as many clusters as there are to be. -/
def Counts (k : Nat) : Kmeans n → Prop
  | running clusters => clusters.length = k
  | returned _ => True
  | raised _ => True

def Steady (vmes : List (VmFeatures n)) (k : Nat) (state : Kmeans n) : Prop := state.Counts k ∧ state.Fair vmes k

/-- What an iteration of an attended state leads to. -/
theorem Reaches.steady {before after : Kmeans n} (taken : Reaches vmes cutoff before () after) (attended : before.Attended vmes)
    (counts : before.Counts k) : after.Steady vmes k := by
  cases before with
  | returned => cases taken
  | raised => cases taken
  | running clusters =>
    rw [Reaches, advance] at taken
    cases clusters with
    | nil =>
      obtain rfl := counts
      by_cases none : vmes = []
      · have ended : VmCluster.iterate [] vmes = .ok ([], 0) := by
          rw [VmCluster.iterate, VmCluster.lists, if_pos none]
          rfl
        simp only [ended] at taken
        split at taken
        · cases taken
          exact ⟨trivial, rfl, by simp [none], fun c member => absurd member List.not_mem_nil⟩
        · cases taken
          exact ⟨rfl, trivial⟩
      · have ended : VmCluster.iterate [] vmes = .error .index := by
          rw [VmCluster.iterate, VmCluster.lists, if_neg none]
          rfl
        simp only [ended] at taken
        cases taken
        exact ⟨trivial, nofun⟩
    | cons first rest =>
      obtain ⟨clusters, shift, ended, partitioned, -⟩ := iterate_attended (List.cons_ne_nil first rest) attended
      rw [show (first :: rest).length = k from counts] at partitioned
      simp only [ended] at taken
      split at taken
      · cases taken
        exact ⟨trivial, partitioned⟩
      · cases taken
        exact ⟨partitioned.count, trivial⟩

/-- In a call whose states are all attended no state is unfair. -/
theorem fair_of_attended {events : List Unit} {state : Kmeans n}
    (run : Run (Guarded (fun before _ => before.Attended vmes) (Reaches vmes cutoff)) (start initial) events state) :
    state.Fair vmes initial.length := by
  have first : (start initial).Steady vmes initial.length := ⟨List.length_map .., trivial⟩
  have steady : state.Steady vmes initial.length :=
    run.invariant first fun before taken => taken.2.steady taken.1 before.1
  exact steady.2

/-- A call in which no state is unfair is attended to its end. -/
theorem attended_of_fair (positive : 0 < n)
    (fair : ∀ events state, Run (Reaches vmes cutoff) (start initial) events state → state.Fair vmes initial.length)
    {events : List Unit} {state : Kmeans n} (run : Run (Reaches vmes cutoff) (start initial) events state) :
    state.Attended vmes := by
  cases state with
  | returned => trivial
  | raised => trivial
  | running clusters =>
    by_contra unattended
    have raised : Reaches vmes cutoff (running clusters) () (raised .zeroDivision) := by
      rw [Reaches, advance]
      simp only [iterate_unattended positive unattended]
    exact fair _ _ (.next run raised) rfl

/-- A running call goes on. -/
theorem reaches_running (vmes : List (VmFeatures n)) (cutoff : Rat) (clusters : List (VmCluster n)) :
    ∃ after, Reaches vmes cutoff (running clusters) () after := by
  refine Option.isSome_iff_exists.mp ?_
  rw [advance]
  split
  · rfl
  · split <;> rfl

/-- What two clusters apart are in every state of a call. -/
def TwoApart (vmes : List (VmFeatures n)) : Kmeans n → Prop
  | running clusters => ConPaaS.TwoApart vmes clusters
  | returned _ => True
  | raised _ => True

theorem twoApart_start (sample : initial.Subperm vmes) (few : initial.length ≤ 2) (distinct : initial.Nodup) :
    (start initial).TwoApart vmes := by
  refine ⟨by rwa [List.length_map], ?_, fun c member => ?_, fun c member => ?_⟩
  · rw [List.pairwise_map]
    exact distinct.imp fun other same => other (by rwa [VmCluster.start, VmCluster.start, mean_singleton, mean_singleton] at same)
  · obtain ⟨p, -, rfl⟩ := List.mem_map.mp member
    exact ⟨List.cons_ne_nil p [], rfl⟩
  · obtain ⟨p, inside, rfl⟩ := List.mem_map.mp member
    exact List.cons_subset.mpr ⟨sample.subset inside, List.nil_subset vmes⟩

theorem Reaches.twoApart {before after : Kmeans n} {event : Unit} (taken : Reaches vmes cutoff before event after)
    (two : before.TwoApart vmes) : after.TwoApart vmes := by
  cases before with
  | returned => cases taken
  | raised => cases taken
  | running clusters =>
    rw [Reaches, advance] at taken
    cases iterated : VmCluster.iterate clusters vmes with
    | error error =>
      simp only [iterated] at taken
      cases taken
      trivial
    | ok result =>
      simp only [iterated] at taken
      split at taken
      · cases taken
        trivial
      · cases taken
        exact ConPaaS.TwoApart.iterate two iterated

/-- At most two clusters of different machines are attended to the end. -/
theorem attended_of_two (sample : initial.Subperm vmes) (few : initial.length ≤ 2) (distinct : initial.Nodup)
    {events : List Unit} {state : Kmeans n} (run : Run (Reaches vmes cutoff) (start initial) events state) :
    state.Attended vmes := by
  have two : state.TwoApart vmes := run.invariant (twoApart_start sample few distinct) fun before taken => taken.twoApart before
  cases state with
  | running clusters => exact ConPaaS.TwoApart.attended two
  | returned => trivial
  | raised => trivial

/-- The first iteration is attended exactly if the sampled machines have
pairwise different features. -/
theorem attended_start_iff (sample : initial.Subperm vmes) : (start initial).Attended vmes ↔ initial.Nodup := by
  have member (i : Nat) (c : VmCluster n) : (initial.map VmCluster.start)[i]? = some c ↔
      ∃ p, initial[i]? = some p ∧ c = VmCluster.start p := by
    rw [List.getElem?_map, Option.map_eq_some_iff]
    exact exists_congr fun p => and_congr_right fun _ => eq_comm
  have centroid (p : VmFeatures n) : (VmCluster.start p).centroid = p := mean_singleton p
  rw [List.nodup_iff_getElem?_ne_getElem?]
  constructor
  · intro attended i j less bound same
    obtain ⟨p, -, c, atJ, least⟩ := attended j (by rw [List.length_map]; exact bound)
    obtain ⟨q, found, rfl⟩ := (member j c).mp atJ
    have twin : (initial.map VmCluster.start)[i]? = some (VmCluster.start q) := (member i _).mpr ⟨q, same.trans found, rfl⟩
    exact lt_irrefl _ ((least i _ twin).2 less)
  · intro distinct j bound
    rw [List.length_map] at bound
    have found : initial[j]? = some initial[j] := List.getElem?_eq_getElem bound
    refine ⟨initial[j], sample.subset (List.getElem_mem bound), _, (member j _).mpr ⟨_, found, rfl⟩, fun i d atI => ?_⟩
    obtain ⟨q, found', rfl⟩ := (member i d).mp atI
    rw [centroid, centroid, distSq_self]
    refine ⟨distSq_nonneg _ _, fun less => distSq_pos fun same => ?_⟩
    exact distinct i j less bound (found'.trans (same ▸ found.symm))

end Kmeans

open Kmeans

/-- While every cluster is the first nearest one of some machine before each
iteration, no iteration divides by zero and the clusters returned are a
partition; where one is not, an iteration divides by zero. The first iteration
is safe exactly if the sampled machines differ, and for one or two clusters so
are the others. -/
theorem kmeans_iff {n : Nat} (vmes initial : List (VmFeatures n)) (cutoff : Rat) (sample : initial.Subperm vmes) :
    (∀ events state, Run (Guarded (fun before _ => before.Attended vmes) (Reaches vmes cutoff)) (start initial) events state →
      state.Fair vmes initial.length) ∧
    (0 < n → (∀ events state, Run (Reaches vmes cutoff) (start initial) events state → state.Fair vmes initial.length) →
      ∀ events state, Run (Reaches vmes cutoff) (start initial) events state → state.Attended vmes) ∧
    ((start initial).Attended vmes ↔ initial.Nodup) ∧
    (initial.length ≤ 2 → initial.Nodup → ∀ events state, Run (Reaches vmes cutoff) (start initial) events state →
      state.Fair vmes initial.length) := by
  refine ⟨fun events state => fair_of_attended, fun positive fair events state => attended_of_fair positive fair,
    attended_start_iff sample, fun few distinct events state run => ?_⟩
  have guarded : ∀ {events state}, Run (Reaches vmes cutoff) (start initial) events state →
      Run (Guarded (fun before _ => before.Attended vmes) (Reaches vmes cutoff)) (start initial) events state := by
    intro events state run
    induction run with
    | start => exact .start
    | next earlier taken ih => exact .next ih ⟨attended_of_two sample few distinct earlier, taken⟩
  exact fair_of_attended (guarded run)

/-- A small machine, by its compute units and its capacity, and a larger one. -/
def smallType : VmFeatures 2 := ![1, 14]

def largeType : VmFeatures 2 := ![4, 3]

theorem smallType_ne : smallType ≠ largeType := fun same => absurd (congrFun same 0) (by decide)

theorem twoTypes_fair : ∃ after,
    Reaches [smallType, smallType, largeType] (1 / 2) (start [smallType, largeType]) () after ∧
      after.Fair [smallType, smallType, largeType] 2 := by
  obtain ⟨after, taken⟩ := reaches_running [smallType, smallType, largeType] (1 / 2) ([smallType, largeType].map VmCluster.start)
  have sample : [smallType, largeType].Subperm [smallType, smallType, largeType] := (List.sublist_cons_self _ _).subperm
  have distinct : [smallType, largeType].Nodup :=
    List.nodup_cons.mpr ⟨fun same => smallType_ne (List.mem_singleton.mp same), List.nodup_singleton _⟩
  exact ⟨after, taken, (kmeans_iff _ _ (1 / 2) sample).2.2.2 le_rfl distinct [()] after (.single taken)⟩

/-- Two machines with the same features cannot be in two clusters. -/
theorem sameType_divides : ¬ ∀ events state,
    Run (Reaches [smallType, smallType] (1 / 2)) (start [smallType, smallType]) events state →
      state.Fair [smallType, smallType] 2 := by
  intro fair
  have attended := @attended_of_fair 2 [smallType, smallType] [smallType, smallType] (1 / 2) Nat.two_pos fair [] _ .start
  have distinct := (attended_start_iff (List.Subperm.refl _)).mp attended
  exact (List.nodup_cons.mp distinct).1 List.mem_cons_self

end ConPaaS
