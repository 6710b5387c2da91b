import ConPaaS.Lib.Table
import Mathlib.Data.List.MinMax
import Mathlib.Data.List.Sort
import Mathlib.Data.Prod.Lex

namespace ConPaaS

open Keyed

/-- `CloudGroup`. -/
structure CloudGroup (ν κ : Type) where
  number : Nat
  clouds : List String
  nodes : List ν
  timestamp : Nat
  regKeys : List κ
  firstnode : Option ν

/-- `CloudGroups`, with the index from the name of a cloud to its group as a
list in which a later entry stands before an earlier one. -/
structure CloudGroups (ν κ : Type) where
  groups : Table (CloudGroup.number (ν := ν) (κ := κ))
  cloud2group : List (String × Nat)
  clock : Nat

/-- The calls, with the names that random selection and `uuid4` come up with:
a position in the list of clouds, the positions drawn in a list of nodes, and
a key. -/
inductive GroupCall (ν κ : Type)
  | next (choice : Nat) (regKey : κ)
  | registerNode (cloud : String) (regKey : κ)
  | completeRegistration (node : ν) (regKey : κ) (cloud : String)
  | removeNode (draws : List Nat)

inductive GroupAnswer (ν κ : Type)
  | registered (cloud : String) (regKey : κ)
  | completed (first : Bool)
  | removed (node : ν)
  | raised (error : String)

namespace CloudGroup

variable {ν κ : Type}

/-- `CloudGroup.__init__`. -/
def new (number : Nat) : CloudGroup ν κ := ⟨number, [], [], 0, [], none⟩

/-- `CloudGroup.node_counter`. -/
def nodeCounter (g : CloudGroup ν κ) : Nat := g.nodes.length + g.regKeys.length

/-- The group is used at a time of the logical clock. -/
def touch (g : CloudGroup ν κ) (clock : Nat) : CloudGroup ν κ := { g with timestamp := clock }

/-- A key is handed out. -/
def register (g : CloudGroup ν κ) (regKey : κ) : CloudGroup ν κ := { g with regKeys := g.regKeys ++ [regKey] }

/-- A key is exchanged for a node. -/
def complete [DecidableEq κ] (g : CloudGroup ν κ) (node : ν) (regKey : κ) : CloudGroup ν κ :=
  { g with regKeys := g.regKeys.erase regKey, nodes := g.nodes ++ [node], firstnode := g.firstnode.or (some node) }

/-- The loop that draws nodes until one is not the first node. -/
def draw [DecidableEq ν] (g : CloudGroup ν κ) : List Nat → Option ν
  | [] => none
  | position :: rest =>
    match g.nodes[position]? with
    | none => none
    | some node => if some node = g.firstnode then g.draw rest else some node

/-- The node `CloudGroup.remove_node` removes from a group that has nodes. -/
def pick [DecidableEq ν] (g : CloudGroup ν κ) (draws : List Nat) : Option ν :=
  match g.nodes with
  | [node] => some node
  | _ => g.draw draws

/-- A node is removed. With the last one the first node is forgotten. -/
def remove [DecidableEq ν] (g : CloudGroup ν κ) (node : ν) : CloudGroup ν κ :=
  { g with nodes := g.nodes.erase node, firstnode := if g.nodes.length = 1 then none else g.firstnode }

/-- `max_count_min_time`. -/
def maxCountMinTime (g h : CloudGroup ν κ) : Int :=
  if g.nodeCounter = h.nodeCounter then (g.timestamp : Int) - h.timestamp else (h.nodeCounter : Int) - g.nodeCounter

end CloudGroup

/-- The number of groups, if there are clouds. -/
def noOfGroups : Nat → Option Nat
  | 0 => none
  | 1 => some 1
  | 2 | 3 => some 2
  | _ + 4 => some 4

namespace CloudGroups

variable {ν κ : Type}

/-- The groups before they are given clouds. -/
def empty (ν κ : Type) (groups : Nat) : CloudGroups ν κ where
  groups := ⟨(List.range groups).map CloudGroup.new, by
    rw [List.map_map]
    exact (List.map_id _).symm ▸ List.nodup_range⟩
  cloud2group := []
  clock := 0

/-- One turn of the loop over the clouds. -/
def addCloud (groups : Nat) (s : CloudGroups ν κ) (entry : String × Nat) : CloudGroups ν κ where
  groups := s.groups.modify (entry.2 % groups) fun g => { g with clouds := g.clouds ++ [entry.1] }
  cloud2group := (entry.1, entry.2 % groups) :: s.cloud2group
  clock := s.clock

/-- The groups with their clouds. -/
def distribute (ν κ : Type) (groups : Nat) (clouds : List String) : CloudGroups ν κ :=
  clouds.zipIdx.foldl (addCloud groups) (empty ν κ groups)

/-- `CloudGroups.__init__`. Without clouds there is no number of groups, and
the default cloud has to be one of the clouds. -/
def create (ν κ : Type) (clouds : List String) (defaultCloud : String) : Option (CloudGroups ν κ) :=
  (noOfGroups clouds.length).bind fun groups =>
    let s := distribute ν κ groups clouds
    (s.cloud2group.lookup defaultCloud).map fun number =>
      { s with cloud2group := ("default", number) :: s.cloud2group }

/-- The group `next` takes a cloud of. -/
def smallest (s : CloudGroups ν κ) : Option (CloudGroup ν κ) :=
  s.groups.rows.argmin fun g => toLex (g.nodeCounter, g.timestamp)

/-- The group `remove_node` takes a node from. -/
def largest (s : CloudGroups ν κ) : Option (CloudGroup ν κ) :=
  (s.groups.rows.insertionSort fun g h => g.maxCountMinTime h ≤ 0).head?

/-- `register_node`. -/
def registerNode (s : CloudGroups ν κ) (cloud : String) (regKey : κ) : CloudGroups ν κ × GroupAnswer ν κ :=
  match s.cloud2group.lookup cloud with
  | none => (s, .raised "KeyError")
  | some number =>
    ({ s with
        groups := s.groups.modify number fun g => (g.touch (s.clock + 1)).register regKey
        clock := s.clock + 1 },
      .registered cloud regKey)

/-- `next`, if the choice is one of the clouds. -/
def next (s : CloudGroups ν κ) (choice : Nat) (regKey : κ) : Option (CloudGroups ν κ × GroupAnswer ν κ) :=
  (s.smallest.bind fun g => g.clouds[choice]?).map fun cloud => s.registerNode cloud regKey

variable [DecidableEq ν] [DecidableEq κ]

/-- `complete_registration`. -/
def completeRegistration (s : CloudGroups ν κ) (node : ν) (regKey : κ) (cloud : String) :
    CloudGroups ν κ × GroupAnswer ν κ :=
  match (s.cloud2group.lookup cloud).bind s.groups.get? with
  | none => (s, .raised "KeyError")
  | some g =>
    if regKey ∉ g.regKeys then (s, .raised "ValueError")
    else
      ({ s with groups := s.groups.modify g.number fun g => g.complete node regKey },
        .completed (some node = (g.complete node regKey).firstnode))

/-- `remove_node`, if the draws come to an end. The clock is set before a group
without nodes raises an error. -/
def removeNode (s : CloudGroups ν κ) (draws : List Nat) : Option (CloudGroups ν κ × GroupAnswer ν κ) :=
  s.largest.bind fun g =>
    if g.nodes = [] then
      some
        ({ s with
            groups := s.groups.modify g.number fun g => g.touch (s.clock + 1)
            clock := s.clock + 1 },
          .raised "IndexError")
    else
      (g.pick draws).map fun node =>
        ({ s with
            groups := s.groups.modify g.number fun g => (g.touch (s.clock + 1)).remove node
            clock := s.clock + 1 },
          .removed node)

/-- A call of one of the operations. -/
def call (s : CloudGroups ν κ) : GroupCall ν κ → Option (CloudGroups ν κ × GroupAnswer ν κ)
  | .next choice regKey => s.next choice regKey
  | .registerNode cloud regKey => some (s.registerNode cloud regKey)
  | .completeRegistration node regKey cloud => some (s.completeRegistration node regKey cloud)
  | .removeNode draws => s.removeNode draws

end CloudGroups

end ConPaaS
