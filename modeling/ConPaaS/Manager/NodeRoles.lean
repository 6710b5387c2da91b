import ConPaaS.Lib.Fallible
import ConPaaS.Manager.ApplicationManager
import Mathlib.Algebra.Ring.Int.Defs

namespace ConPaaS

open Keyed Fallible

/-- The names of the states. -/
def ManagerState.text : ManagerState → String
  | .init => "INIT"
  | .prologue => "PROLOGUE"
  | .running => "RUNNING"
  | .adapting => "ADAPTING"
  | .epilogue => "EPILOGUE"
  | .stopped => "STOPPED"
  | .error => "ERROR"

/-- A dictionary with the number of nodes for each role. -/
abbrev RoleCounts := Table (Prod.fst : String × Int → String)

/-- `get_sninfo`: the roles of the nodes the director is asked for. -/
def getSninfo (nodeRoles : RoleCounts) : List String :=
  nodeRoles.rows.flatMap fun entry => List.replicate entry.2.toNat entry.1

/-- What the director creates: the nodes it was asked for, each with an id of
its own. -/
def Delivered (sninfo : List String) (nodes : List ServiceNode) : Prop :=
  (nodes.map ServiceNode.role).Perm sninfo ∧ (nodes.map ServiceNode.id).Nodup

instance (sninfo : List String) (nodes : List ServiceNode) : Decidable (Delivered sninfo nodes) :=
  inferInstanceAs (Decidable (_ ∧ _))

/-- What a service manager says of the roles of its nodes. -/
structure ServiceRoles where
  serviceType : String
  nodeRoles : List String
  defaultRole : String

namespace BaseManager

variable {service : ServiceRoles} {nodeRoles checked : RoleCounts}

def roleDefault : String := "count"

/-- The loop of `check_node_roles`. A role that was not specified is replaced
with the default one. -/
def checkRoles (service : ServiceRoles) (nodeRoles : RoleCounts) : List (String × Int) → Except String RoleCounts
  | [] => .ok nodeRoles
  | (role, count) :: rest =>
    if count < 0 then .error ("Invalid number of nodes " ++ toString count)
    else if role ∈ service.nodeRoles then checkRoles service nodeRoles rest
    else if role = roleDefault then checkRoles service ((nodeRoles.erase role).put (service.defaultRole, count)) rest
    else .error ("Wrong node type '" ++ role ++ "' for service type '" ++ service.serviceType ++ "'.")

/-- `check_node_roles`. -/
def checkNodeRoles (service : ServiceRoles) (nodeRoles : RoleCounts) : Except String RoleCounts :=
  if (nodeRoles.rows.map Prod.snd).sum = 0 then .error "Need a positive value for at least one role"
  else checkRoles service nodeRoles nodeRoles.rows

def checkCredits (credit : Bool) : Except String Unit :=
  if credit then .ok () else .error "Insufficient credits"

def checkState (state : ManagerState) (expected : List ManagerState) : Except String Unit :=
  if state ∈ expected then .ok ()
  else .error ("Wrong service state: was expecting one of ['" ++ "', '".intercalate (expected.map ManagerState.text) ++
    "'] but current state is '" ++ state.text ++ "'")

/-- The message of `WrongNrNodesException`. -/
def wrongNrNodes (count current : Int) (role : Option String) : String :=
  "Requesting to delete " ++ toString count ++ (match role with | some role => " " ++ role | none => "") ++ " nodes while " ++
    (if current > 0 then "only " ++ toString current else "none") ++ " can be removed"

/-- The first node with an id taken out of a list, which raises if there is
none. -/
def dropNode (id : String) (nodes : List ServiceNode) : Option (List ServiceNode) :=
  if nodes.any fun node => node.id = id then some (nodes.eraseP fun node => node.id = id) else none

theorem checkState_ok {state : ManagerState} {expected : List ManagerState} (allowed : checkState state expected = .ok ()) :
    state ∈ expected := by
  unfold checkState at allowed
  split at allowed
  · assumption
  · cases allowed

/-- A count for a role of the service. -/
def Fits (service : ServiceRoles) (entry : String × Int) : Prop := entry.1 ∈ service.nodeRoles ∧ 0 ≤ entry.2

theorem checkRoles_ok {rest : List (String × Int)} (default : service.defaultRole ∈ service.nodeRoles)
    (covered : ∀ entry ∈ nodeRoles.rows, entry ∈ rest ∨ Fits service entry)
    (passed : checkRoles service nodeRoles rest = .ok checked) : ∀ entry ∈ checked.rows, Fits service entry := by
  induction rest generalizing nodeRoles with
  | nil =>
    cases passed
    exact fun entry member => (covered entry member).resolve_left (by simp)
  | cons head rest ih =>
    obtain ⟨role, count⟩ := head
    unfold checkRoles at passed
    split at passed
    · cases passed
    · rename_i counted
      replace counted : 0 ≤ count := Int.not_lt.mp counted
      split at passed
      · rename_i known
        refine ih (fun entry member => ?_) passed
        rcases covered entry member with waiting | fits
        · rcases List.mem_cons.mp waiting with rfl | later
          · exact Or.inr ⟨known, counted⟩
          · exact Or.inl later
        · exact Or.inr fits
      · split at passed
        · refine ih (fun entry member => ?_) passed
          rcases Table.mem_put.mp member with rfl | ⟨old, -⟩
          · exact Or.inr ⟨default, counted⟩
          · obtain ⟨inside, other⟩ := Table.mem_erase.mp old
            rcases covered entry inside with waiting | fits
            · exact Or.inl ((List.mem_cons.mp waiting).resolve_left fun same => other (congrArg Prod.fst same))
            · exact Or.inr fits
        · cases passed

/-- Counts that pass the check are counts for roles of the service. -/
theorem checkNodeRoles_ok (default : service.defaultRole ∈ service.nodeRoles)
    (passed : checkNodeRoles service nodeRoles = .ok checked) : ∀ entry ∈ checked.rows, Fits service entry := by
  unfold checkNodeRoles at passed
  split at passed
  · cases passed
  · exact checkRoles_ok default (fun entry member => Or.inl member) passed

/-- The first node with an id that is there is taken out of a list. -/
theorem dropNode_some {id : String} {nodes : List ServiceNode} (member : id ∈ nodes.map ServiceNode.id) :
    ∃ node left, dropNode id nodes = some left ∧ node.id = id ∧ nodes.Perm (node :: left) := by
  obtain ⟨stored, inside, same⟩ := List.mem_map.mp member
  obtain ⟨node, before, behind, -, found, split, erased⟩ :=
    @List.exists_of_eraseP _ (fun node : ServiceNode => decide (node.id = id)) nodes stored inside (decide_eq_true same)
  refine ⟨node, before ++ behind, ?_, of_decide_eq_true found, ?_⟩
  · rw [dropNode, if_pos (List.any_eq_true.mpr ⟨stored, inside, decide_eq_true same⟩), erased]
  · rw [split]
    exact List.perm_middle

end BaseManager

end ConPaaS
