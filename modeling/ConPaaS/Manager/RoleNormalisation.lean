import ConPaaS.Manager.NodeRoles
import Mathlib.Tactic.Linarith

namespace ConPaaS

open Keyed

namespace RoleCounts

/-- The number of nodes of all roles. -/
def total (nodeRoles : RoleCounts) : Int := (nodeRoles.rows.map Prod.snd).sum

variable {nodeRoles : RoleCounts} {role : String} {entry : String × Int}

theorem total_erase (found : nodeRoles.get? role = some entry) : nodeRoles.total = entry.2 + total (nodeRoles.erase role) := by
  rw [total, ((Table.rows_perm found).map Prod.snd).sum_eq, List.map_cons, List.sum_cons]
  rfl

/-- What a count stored anew adds, in place of the one stored before. -/
theorem total_put (nodeRoles : RoleCounts) (entry : String × Int) :
    total (nodeRoles.put entry) = entry.2 + nodeRoles.total - ((nodeRoles.get? entry.1).map Prod.snd).getD 0 := by
  have stored : total (nodeRoles.put entry) = entry.2 + total (nodeRoles.erase entry.1) := by
    rw [total, Table.put_rows, List.map_cons, List.sum_cons]
    rfl
  rw [stored]
  cases found : nodeRoles.get? entry.1 with
  | none => rw [Table.erase_absent found, Option.map_none, Option.getD_none, sub_zero]
  | some old => rw [total_erase found, Option.map_some, Option.getD_some, add_comm old.2, ← add_assoc, add_sub_cancel_right]

end RoleCounts

namespace BaseManager

variable {service : ServiceRoles} {nodeRoles checked : RoleCounts}

/-- The dictionary that the check leaves: the generic role, where it is none of
the service, is replaced with the default role. -/
def normalised (service : ServiceRoles) (nodeRoles : RoleCounts) : RoleCounts :=
  match nodeRoles.get? roleDefault with
  | some generic =>
    if roleDefault ∈ service.nodeRoles then nodeRoles else (nodeRoles.erase roleDefault).put (service.defaultRole, generic.2)
  | none => nodeRoles

/-- The rounds of the loop without the generic role leave the dictionary as it is. -/
theorem checkRoles_specific {rest : List (String × Int)}
    (specific : ∀ entry ∈ rest, entry.1 = roleDefault → roleDefault ∈ service.nodeRoles)
    (passed : checkRoles service nodeRoles rest = .ok checked) :
    checked = nodeRoles ∧ ∀ entry ∈ rest, Fits service entry := by
  induction rest with
  | nil =>
    cases passed
    exact ⟨rfl, nofun⟩
  | cons head rest ih =>
    obtain ⟨role, count⟩ := head
    obtain ⟨here, later⟩ := List.forall_mem_cons.mp specific
    unfold checkRoles at passed
    split at passed
    · cases passed
    · rename_i counted
      split at passed
      · rename_i known
        obtain ⟨same, fits⟩ := ih later passed
        exact ⟨same, List.forall_mem_cons.mpr ⟨⟨known, Int.not_lt.mp counted⟩, fits⟩⟩
      · rename_i unknown
        split at passed
        · rename_i generic
          exact absurd (generic ▸ here generic) unknown
        · cases passed

/-- An item that the loop accepts. -/
def Accepted (service : ServiceRoles) (entry : String × Int) : Prop :=
  0 ≤ entry.2 ∧ (entry.1 ∈ service.nodeRoles ∨ entry.1 = roleDefault)

/-- The whole loop over items with distinct roles. -/
theorem checkRoles_normalised {rest : List (String × Int)} (distinct : (rest.map Prod.fst).Nodup)
    (passed : checkRoles service nodeRoles rest = .ok checked) :
    (∀ entry ∈ rest, Accepted service entry) ∧
      checked = match rest.find? fun entry => entry.1 = roleDefault with
        | some generic =>
          if roleDefault ∈ service.nodeRoles then nodeRoles else (nodeRoles.erase roleDefault).put (service.defaultRole, generic.2)
        | none => nodeRoles := by
  induction rest generalizing nodeRoles with
  | nil =>
    cases passed
    exact ⟨nofun, rfl⟩
  | cons head rest ih =>
    obtain ⟨role, count⟩ := head
    obtain ⟨fresh, distinct⟩ := List.nodup_cons.mp distinct
    unfold checkRoles at passed
    split at passed
    · cases passed
    · rename_i counted
      split at passed
      · rename_i known
        obtain ⟨roles, same⟩ := ih distinct passed
        refine ⟨List.forall_mem_cons.mpr ⟨⟨Int.not_lt.mp counted, .inl known⟩, roles⟩, ?_⟩
        by_cases generic : role = roleDefault
        · subst generic
          rw [List.find?_cons_of_pos (by simp)]
          dsimp only
          rw [if_pos known, same]
          split
          · rw [if_pos known]
          · rfl
        · rw [List.find?_cons_of_neg (by simpa using generic)]
          exact same
      · rename_i unknown
        split at passed
        · rename_i generic
          subst generic
          have specific : ∀ entry ∈ rest, entry.1 = roleDefault → roleDefault ∈ service.nodeRoles :=
            fun entry member same => absurd (List.mem_map.mpr ⟨entry, member, same⟩) fresh
          obtain ⟨same, fits⟩ := checkRoles_specific specific passed
          refine ⟨List.forall_mem_cons.mpr ⟨⟨Int.not_lt.mp counted, .inr rfl⟩, fun entry member => ?_⟩, ?_⟩
          · exact ⟨(fits entry member).2, .inl (fits entry member).1⟩
          rw [List.find?_cons_of_pos (by simp), same]
          dsimp only
          rw [if_neg unknown]
        · cases passed

/-- What an accepted dictionary becomes. -/
theorem checkNodeRoles_normalised (accepted : checkNodeRoles service nodeRoles = .ok checked) :
    (∀ entry ∈ nodeRoles.rows, Accepted service entry) ∧ checked = normalised service nodeRoles := by
  unfold checkNodeRoles at accepted
  split at accepted
  · cases accepted
  · exact checkRoles_normalised nodeRoles.keyed accepted

/-- What the check is to leave: roles of the service, the same number of nodes,
and no fewer nodes of any role that was asked for by its name. -/
structure KeepsRequest (service : ServiceRoles) (nodeRoles checked : RoleCounts) : Prop where
  valid : ∀ entry ∈ checked.rows, entry.1 ∈ service.nodeRoles
  total : checked.total = nodeRoles.total
  kept : ∀ entry ∈ nodeRoles.rows, entry.1 ≠ roleDefault → ∃ left ∈ checked.rows, left.1 = entry.1 ∧ entry.2 ≤ left.2

/-- Along with the generic role the default role is asked for with no nodes, if
it is asked for at all. -/
def DefaultUnasked (service : ServiceRoles) (nodeRoles : RoleCounts) : Prop :=
  service.defaultRole ∈ service.nodeRoles ∧ ∀ asked, nodeRoles.get? service.defaultRole = some asked → asked.2 = 0

theorem KeepsRequest.refl (valid : ∀ entry ∈ nodeRoles.rows, entry.1 ∈ service.nodeRoles) : KeepsRequest service nodeRoles nodeRoles :=
  ⟨valid, rfl, fun entry member _ => ⟨entry, member, rfl, le_rfl⟩⟩

/-- The generic role in the place of the default one keeps the request exactly
if the default role was not asked for. -/
theorem keepsRequest_put {generic : String × Int} (found : nodeRoles.get? roleDefault = some generic)
    (unknown : roleDefault ∉ service.nodeRoles) (accepted : ∀ entry ∈ nodeRoles.rows, Accepted service entry) :
    KeepsRequest service nodeRoles ((nodeRoles.erase roleDefault).put (service.defaultRole, generic.2)) ↔
      DefaultUnasked service nodeRoles := by
  have sum := RoleCounts.total_put (nodeRoles.erase roleDefault) (service.defaultRole, generic.2)
  have whole := RoleCounts.total_erase found
  constructor
  · rintro ⟨valid, total, -⟩
    have known := valid _ (Table.mem_put.mpr (.inl rfl))
    refine ⟨known, fun asked stored => ?_⟩
    have other : service.defaultRole ≠ roleDefault := fun same => unknown (same ▸ known)
    rw [Table.get?_erase_ne _ other, stored] at sum
    simp only [Option.map_some, Option.getD_some] at sum
    omega
  · rintro ⟨known, unasked⟩
    have other : service.defaultRole ≠ roleDefault := fun same => unknown (same ▸ known)
    refine ⟨fun entry member => ?_, ?_, fun entry member specific => ?_⟩
    · rcases Table.mem_put.mp member with rfl | ⟨inside, -⟩
      · exact known
      · obtain ⟨inside, named⟩ := Table.mem_erase.mp inside
        exact (accepted entry inside).2.resolve_right named
    · rw [Table.get?_erase_ne _ other] at sum
      cases stored : nodeRoles.get? service.defaultRole with
      | none =>
        simp only [stored, Option.map_none, Option.getD_none] at sum
        omega
      | some asked =>
        simp only [stored, Option.map_some, Option.getD_some, unasked asked stored] at sum
        omega
    · by_cases default : entry.1 = service.defaultRole
      · have none := unasked entry (default ▸ Table.get?_of_mem member)
        exact ⟨_, Table.mem_put.mpr (.inl rfl), default.symm, none.le.trans (accepted generic (Table.get?_mem found)).1⟩
      · exact ⟨entry, Table.mem_put.mpr (.inr ⟨Table.mem_erase.mpr ⟨member, specific⟩, default⟩), rfl, le_rfl⟩

end BaseManager

open BaseManager

/-- An accepted request is kept exactly if the generic role is not asked for, or
is one of the service, or stands for a default role that is one of the service
and is not asked for by its name. -/
theorem keepsRequest_iff {service : ServiceRoles} {nodeRoles checked : RoleCounts}
    (accepted : checkNodeRoles service nodeRoles = .ok checked) : KeepsRequest service nodeRoles checked ↔
      ((nodeRoles.get? roleDefault).isSome → roleDefault ∉ service.nodeRoles → DefaultUnasked service nodeRoles) := by
  obtain ⟨items, rfl⟩ := checkNodeRoles_normalised accepted
  unfold normalised
  cases found : nodeRoles.get? roleDefault with
  | none =>
    refine iff_of_true (.refl fun entry member => ?_) nofun
    exact (items entry member).2.resolve_right (Table.get?_none_iff.mp found entry member)
  | some generic =>
    dsimp only
    by_cases known : roleDefault ∈ service.nodeRoles
    · rw [if_pos known]
      refine iff_of_true (.refl fun entry member => ?_) fun _ unknown => absurd known unknown
      exact (items entry member).2.elim id fun same => same ▸ known
    · rw [if_neg known, keepsRequest_put found known items]
      exact ⟨fun unasked _ _ => unasked, fun unasked => unasked rfl known⟩

/-- The roles of the web service. -/
def webRoles : ServiceRoles := ⟨"web", ["backend", "web", "proxy"], "backend"⟩

/-- A request for two nodes without a role is kept. -/
theorem twoNodes_kept : KeepsRequest webRoles ⟨[("count", 2)], by decide⟩ ⟨[("backend", 2)], by decide⟩ :=
  (keepsRequest_iff (by decide)).mpr fun _ _ => ⟨by decide, by decide⟩

/-- Two backend nodes and one without a role become one backend node. -/
theorem backendNodes_lost : ∃ checked, checkNodeRoles webRoles ⟨[("backend", 2), ("count", 1)], by decide⟩ = .ok checked ∧
    ¬ KeepsRequest webRoles ⟨[("backend", 2), ("count", 1)], by decide⟩ checked := by
  refine ⟨⟨[("backend", 1)], by decide⟩, by decide, fun keeps => ?_⟩
  exact absurd keeps.total (by decide)

end ConPaaS
