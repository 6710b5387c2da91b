import Mathlib.Data.Set.Basic
import Mathlib.Data.String.Basic
import ConPaaS.Core.Node

namespace ConPaaS

namespace ServiceNode

/-- `ServiceNode.__cmp__`. -/
def cmp (node other : ServiceNode) : Ordering :=
  if node.id = other.id ∧ node.cloudName = other.cloudName then .eq
  else if node.id < other.id then .lt
  else .gt

/-- A node is in a list. -/
def isIn (node : ServiceNode) (nodes : List ServiceNode) : Bool := nodes.any fun other => other.cmp node = .eq

/-- `nodes.remove(filter(lambda n: n.id == node.id, nodes)[0])`. -/
def removeFrom (node : ServiceNode) (nodes : List ServiceNode) : Option (List ServiceNode) :=
  match nodes.filter fun other => other.id = node.id with
  | [] => none
  | found :: _ => some (nodes.eraseP fun other => other.cmp found = .eq)

/-- Two nodes stand for one machine of one cloud. -/
def SameVm (node other : ServiceNode) : Prop := node.cloudName = other.cloudName ∧ node.vmid = other.vmid

/-- The name of the cloud of one node goes on in the id of the machine of
another, whose cloud has a longer name. -/
def Overlaps (node other : ServiceNode) : Prop :=
  ∃ rest, rest ≠ "" ∧ other.cloudName = node.cloudName ++ rest ∧ node.vmid = rest ++ other.vmid

variable {node other a b c : ServiceNode} {nodes : List ServiceNode}

theorem SameVm.id_eq (same : node.SameVm other) : node.id = other.id := by
  rw [id, id, same.1, same.2]

theorem Overlaps.id_eq (overlaps : node.Overlaps other) : node.id = other.id := by
  obtain ⟨rest, _, cloudName, vmid⟩ := overlaps
  rw [id, id, cloudName, vmid, String.append_assoc]

theorem Overlaps.apart (overlaps : node.Overlaps other) : node.cloudName ≠ other.cloudName := by
  obtain ⟨rest, some, cloudName, _⟩ := overlaps
  intro same
  have texts := congrArg String.toList (same.trans cloudName)
  rw [String.toList_append, List.self_eq_append_right] at texts
  exact some (String.toList_injective texts)

theorem overlaps_of_texts {rest : List Char} (some : rest ≠ []) (cloudName : other.cloudName.toList = node.cloudName.toList ++ rest)
    (vmid : node.vmid.toList = rest ++ other.vmid.toList) : node.Overlaps other := by
  refine ⟨String.ofList rest, fun none => some ?_, String.toList_injective ?_, String.toList_injective ?_⟩
  · simpa using congrArg String.toList none
  · rw [cloudName, String.toList_append, String.toList_ofList]
  · rw [vmid, String.toList_append, String.toList_ofList]

/-- The ids of two nodes are the same for one machine, and where one cloud name
goes on in a machine id. -/
theorem id_eq_iff : node.id = other.id ↔ node.SameVm other ∨ node.Overlaps other ∨ other.Overlaps node := by
  constructor
  · intro same
    have texts := congrArg String.toList same
    simp only [id, String.toList_append] at texts
    rcases List.append_eq_append_iff.mp texts with ⟨rest, cloudName, vmid⟩ | ⟨rest, cloudName, vmid⟩
    · by_cases empty : rest = []
      · rw [empty, List.append_nil] at cloudName
        rw [empty, List.nil_append] at vmid
        exact .inl ⟨(String.toList_injective cloudName).symm, String.toList_injective vmid⟩
      · exact .inr (.inl (overlaps_of_texts empty cloudName vmid))
    · by_cases empty : rest = []
      · rw [empty, List.append_nil] at cloudName
        rw [empty, List.nil_append] at vmid
        exact .inl ⟨String.toList_injective cloudName, (String.toList_injective vmid).symm⟩
      · exact .inr (.inr (overlaps_of_texts empty cloudName vmid))
  · rintro (same | overlaps | overlaps)
    · exact same.id_eq
    · exact overlaps.id_eq
    · exact overlaps.id_eq.symm

theorem same_iff : node.same other = true ↔ node.SameVm other := by
  rw [same, Bool.and_eq_true, decide_eq_true_eq, decide_eq_true_eq]
  constructor
  · rintro ⟨sameId, cloudName⟩
    rcases id_eq_iff.mp sameId with same | overlaps | overlaps
    · exact same
    · exact absurd cloudName overlaps.apart
    · exact absurd cloudName.symm overlaps.apart
  · exact fun same => ⟨same.id_eq, same.1⟩

theorem cmp_eq_iff : node.cmp other = .eq ↔ node.SameVm other := by
  rw [← same_iff, same, Bool.and_eq_true, decide_eq_true_eq, decide_eq_true_eq, cmp]
  split_ifs with equal before
  · exact iff_of_true rfl equal
  · exact iff_of_false nofun equal
  · exact iff_of_false nofun equal

theorem cmp_lt_iff : node.cmp other = .lt ↔ node.id < other.id := by
  unfold cmp
  split_ifs with same before
  · simp [same.1]
  · simp [before]
  · simp [before]

/-- A node comes after another one with a smaller id, or with the same id on
another cloud. -/
theorem cmp_gt_iff : node.cmp other = .gt ↔ other.id < node.id ∨ node.Overlaps other ∨ other.Overlaps node := by
  have cases : node.cmp other = .gt ↔ ¬node.cmp other = .eq ∧ ¬node.cmp other = .lt := by
    cases node.cmp other <;> simp
  rw [cases, cmp_eq_iff, cmp_lt_iff, not_lt]
  constructor
  · rintro ⟨apart, after⟩
    rcases after.lt_or_eq with after | same
    · exact .inl after
    · exact .inr ((id_eq_iff.mp same.symm).resolve_left apart)
  · rintro (after | overlaps | overlaps)
    · exact ⟨fun same => after.ne' same.id_eq, after.le⟩
    · exact ⟨fun same => overlaps.apart same.1, overlaps.id_eq.ge⟩
    · exact ⟨fun same => overlaps.apart same.1.symm, overlaps.id_eq.le⟩

theorem isIn_iff : node.isIn nodes = true ↔ ∃ other ∈ nodes, other.SameVm node := by
  simp [isIn, List.any_eq_true, cmp_eq_iff]

/-- What a removal takes out is the first node with the id. -/
theorem removeFrom_some {rest : List ServiceNode} (removed : node.removeFrom nodes = some rest) :
    ∃ before found after, nodes = before ++ found :: after ∧ rest = before ++ after ∧ found.id = node.id := by
  unfold removeFrom at removed
  split at removed
  · cases removed
  · rename_i found later first
    cases removed
    have member : found ∈ nodes.filter fun other => other.id = node.id := first ▸ List.mem_cons_self
    obtain ⟨inside, same⟩ := List.mem_filter.mp member
    have itself : decide (found.cmp found = .eq) = true := decide_eq_true (cmp_eq_iff.mpr ⟨rfl, rfl⟩)
    obtain ⟨erased, before, after, _, matched, split, rest⟩ := List.exists_of_eraseP (p := fun other => other.cmp found = .eq) inside itself
    have machine := cmp_eq_iff.mp (of_decide_eq_true matched)
    exact ⟨before, erased, after, split, rest, machine.id_eq.trans (of_decide_eq_true same)⟩

theorem removeFrom_none : node.removeFrom nodes = none ↔ ∀ other ∈ nodes, other.id ≠ node.id := by
  unfold removeFrom
  split
  · rename_i none
    simpa using none
  · rename_i found later first
    have member : found ∈ nodes.filter fun other => other.id = node.id := first ▸ List.mem_cons_self
    obtain ⟨inside, same⟩ := List.mem_filter.mp member
    exact iff_of_false nofun fun missing => missing found inside (of_decide_eq_true same)

/-- The ids and the comparison of the nodes of a manager tell their machines
apart, and the lists of nodes are about the machines that are meant. -/
structure Identified (known : Set ServiceNode) : Prop where
  ids : ∀ a ∈ known, ∀ b ∈ known, a.id = b.id → a.SameVm b
  equal : ∀ a ∈ known, ∀ b ∈ known, a.cmp b = .eq ↔ b.cmp a = .eq
  before : ∀ a ∈ known, ∀ b ∈ known, a.cmp b = .lt ↔ b.cmp a = .gt
  transitive : ∀ a ∈ known, ∀ b ∈ known, ∀ c ∈ known, a.cmp b = .lt → b.cmp c = .lt → a.cmp c = .lt
  membership : ∀ a ∈ known, ∀ nodes : List ServiceNode, (∀ node ∈ nodes, node ∈ known) →
    (a.isIn nodes = true ↔ ∃ node ∈ nodes, node.SameVm a)
  removal : ∀ a ∈ known, ∀ nodes : List ServiceNode, (∀ node ∈ nodes, node ∈ known) →
    match a.removeFrom nodes with
    | some rest => ∃ before found after, nodes = before ++ found :: after ∧ rest = before ++ after ∧ found.SameVm a
    | none => ∀ node ∈ nodes, ¬node.SameVm a

/-- Nodes are told apart where no cloud name goes on in the machine id of a
node of another cloud. -/
theorem identified_iff (known : Set ServiceNode) : Identified known ↔ ∀ a ∈ known, ∀ b ∈ known, ¬a.Overlaps b := by
  constructor
  · intro identified a inside b inside' overlaps
    exact overlaps.apart (identified.ids a inside b inside' overlaps.id_eq).1
  · intro apart
    have ids (a : ServiceNode) (inside : a ∈ known) (b : ServiceNode) (inside' : b ∈ known) (same : a.id = b.id) : a.SameVm b :=
      (id_eq_iff.mp same).resolve_right fun overlaps => overlaps.elim (apart a inside b inside') (apart b inside' a inside)
    refine ⟨ids, ?_, ?_, ?_, fun a _ nodes _ => isIn_iff, ?_⟩
    · intro a _ b _
      rw [cmp_eq_iff, cmp_eq_iff]
      exact ⟨fun same => ⟨same.1.symm, same.2.symm⟩, fun same => ⟨same.1.symm, same.2.symm⟩⟩
    · intro a inside b inside'
      rw [cmp_lt_iff, cmp_gt_iff]
      exact (or_iff_left (not_or_intro (apart b inside' a inside) (apart a inside b inside'))).symm
    · intro a _ b _ c _ first second
      rw [cmp_lt_iff] at first second ⊢
      exact first.trans second
    · intro a inside nodes among
      split
      · rename_i rest removed
        obtain ⟨before, found, after, rfl, rfl, same⟩ := removeFrom_some removed
        exact ⟨before, found, after, rfl, rfl, ids found (among found (by simp)) a inside same⟩
      · rename_i missing
        exact fun node member same => removeFrom_none.mp missing node member same.id_eq

/-- Machine 12 of one cloud and machine 2 of another. -/
theorem nodes_not_identified : ¬Identified Set.univ := by
  intro identified
  have same := identified.ids ⟨"12", "10.0.0.1", "", "opennebula", 100, "node", []⟩ trivial
    ⟨"2", "10.0.0.2", "", "opennebula1", 100, "node", []⟩ trivial (by decide)
  exact absurd same.1 (by decide)

end ServiceNode

end ConPaaS
