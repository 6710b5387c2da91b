import ConPaaS.Core.Node
import ConPaaS.Lib.Parties
import ConPaaS.Lib.Table
import Mathlib.Data.Finset.Basic

namespace ConPaaS

open Keyed Parties

/-- The daemons on a node, with the hosts a load balancer was given. -/
structure MySQLAgent where
  mysqld : Bool
  glbd : Option (Finset String)
  deriving DecidableEq

/-- The agents by the addresses of their nodes. -/
abbrev MySQLAgents := String → MySQLAgent

namespace MySQLAgent

/-- The agent of a node that has just been started. -/
def idle : MySQLAgent := ⟨false, none⟩

/-- `start_mysqld`. A daemon that was started already is an error. -/
def startMysqld (agent : MySQLAgent) : Option MySQLAgent :=
  if agent.mysqld then none else some { agent with mysqld := true }

/-- `start_glbd`, which adds the hosts one by one. -/
def startGlbd (nodes : List String) (agent : MySQLAgent) : Option MySQLAgent :=
  match agent.glbd with
  | some _ => none
  | none => some { agent with glbd := some nodes.toFinset }

/-- `add_glbd_nodes`. -/
def addGlbdNodes (nodesIp : List String) (agent : MySQLAgent) : Option MySQLAgent :=
  match agent.glbd with
  | none => none
  | some hosts => some { agent with glbd := some (hosts ∪ nodesIp.toFinset) }

/-- `remove_glbd_nodes`. -/
def removeGlbdNodes (nodes : List String) (agent : MySQLAgent) : Option MySQLAgent :=
  match agent.glbd with
  | none => none
  | some hosts => some { agent with glbd := some (hosts \ nodes.toFinset) }

/-- `stop`. -/
def stop (_ : MySQLAgent) : Option MySQLAgent := some idle

end MySQLAgent

/-- The nodes of a MySQL service as its manager records them. -/
structure MySQLConfiguration where
  serviceNodes : Table ServiceNode.id
  glbServiceNodes : Table ServiceNode.id
  deriving DecidableEq

namespace MySQLConfiguration

variable (config : MySQLConfiguration) (agents : MySQLAgents)

/-- The record `SQLServiceNode` or `GLBServiceNode` makes of a node. -/
def recordOf (node : ServiceNode) : ServiceNode := { node with weightNode := 100, volumes := [] }

def mysqlPort : Nat := 3306

/-- The address of a node as a host of a load balancer. -/
def address (node : ServiceNode) : String := node.ip ++ ":" ++ toString mysqlPort

def getNodes : List ServiceNode := config.serviceNodes.rows

def getGlbNodes : List ServiceNode := config.glbServiceNodes.rows

def addMySQLServiceNodes (nodes : List ServiceNode) : MySQLConfiguration :=
  { config with serviceNodes := nodes.foldl (fun table node => table.put (recordOf node)) config.serviceNodes }

def addGLBServiceNodes (nodes : List ServiceNode) : MySQLConfiguration :=
  { config with glbServiceNodes := nodes.foldl (fun table node => table.put (recordOf node)) config.glbServiceNodes }

/-- One turn of the loop of `remove_nodes`. -/
def removeNode (node : ServiceNode) : MySQLConfiguration :=
  if (config.serviceNodes.get? node.id).isSome then { config with serviceNodes := config.serviceNodes.erase node.id }
  else { config with glbServiceNodes := config.glbServiceNodes.erase node.id }

def removeNodes (nodes : List ServiceNode) : MySQLConfiguration := nodes.foldl removeNode config

/-- `_start_mysqld`. The volume of a node is its first one. -/
def startMysqld (nodes : List ServiceNode) : Option MySQLAgents :=
  (callAll ServiceNode.ip (fun node agent => if node.volumes = [] then none else agent.startMysqld) nodes agents).bind
    (callAll ServiceNode.ip (fun _ => MySQLAgent.addGlbdNodes (nodes.map address)) config.getGlbNodes)

/-- `_start_glbd`. -/
def startGlbd (newGlbNodes : List ServiceNode) : Option MySQLAgents :=
  callAll ServiceNode.ip (fun _ => MySQLAgent.startGlbd (config.getNodes.map address)) newGlbNodes agents

/-- `on_start`, which enters all nodes as MySQL nodes. -/
def onStart (nodes : List ServiceNode) : Option (MySQLConfiguration × MySQLAgents) :=
  (config.startMysqld agents nodes).map fun agents => (config.addMySQLServiceNodes nodes, agents)

/-- The part of `on_add_nodes` for the nodes with a database. -/
def onAddMysqlNodes (regNodes : List ServiceNode) : Option (MySQLConfiguration × MySQLAgents) :=
  if regNodes = [] then some (config, agents)
  else (config.startMysqld agents regNodes).map fun agents => (config.addMySQLServiceNodes regNodes, agents)

/-- The part of `on_add_nodes` for the load balancers. -/
def onAddGlbNodes (galNodes : List ServiceNode) : Option (MySQLConfiguration × MySQLAgents) :=
  if galNodes = [] then some (config, agents)
  else (config.startGlbd agents galNodes).map fun agents => (config.addGLBServiceNodes galNodes, agents)

def roleMysql : String := "mysql"

def roleGlb : String := "glb"

/-- `on_add_nodes`. -/
def onAddNodes (nodes : List ServiceNode) : Option (MySQLConfiguration × MySQLAgents) :=
  (config.onAddMysqlNodes agents (nodes.filter fun node => node.role = roleMysql)).bind fun (config, agents) =>
    config.onAddGlbNodes agents (nodes.filter fun node => node.role = roleGlb)

/-- `_do_remove_nodes`, up to the state it sets. -/
def doRemoveNodes (rmRegNodes rmGlbNodes : List ServiceNode) : Option (MySQLConfiguration × MySQLAgents) :=
  (callAll ServiceNode.ip (fun _ => MySQLAgent.removeGlbdNodes (rmRegNodes.map address)) config.getGlbNodes agents).bind fun agents =>
    (callAll ServiceNode.ip (fun _ => MySQLAgent.stop) (rmRegNodes ++ rmGlbNodes) agents).map fun agents =>
      (config.removeNodes (rmRegNodes ++ rmGlbNodes), agents)

/-- All nodes of the service. -/
def nodes : List ServiceNode := config.getNodes ++ config.getGlbNodes

variable {config : MySQLConfiguration} {agents : MySQLAgents} {list : List ServiceNode}

theorem removeNode_rows (distinct : (config.nodes.map ServiceNode.id).Nodup) (node : ServiceNode) :
    (config.removeNode node).getNodes = config.getNodes.filter (fun kept => kept.id ≠ node.id) ∧
      (config.removeNode node).getGlbNodes = config.getGlbNodes.filter (fun kept => kept.id ≠ node.id) := by
  unfold removeNode
  split
  · rename_i present
    obtain ⟨stored, found⟩ := Option.isSome_iff_exists.mp present
    obtain ⟨member, same⟩ := Table.get?_iff.mp found
    refine ⟨rfl, (List.filter_eq_self.mpr fun kept inside => ?_).symm⟩
    rw [nodes, List.map_append] at distinct
    have apart := (List.nodup_append.mp distinct).2.2 _ (List.mem_map_of_mem member) _ (List.mem_map_of_mem inside)
    exact decide_eq_true (same ▸ apart.symm)
  · rename_i absent
    have unstored := Option.not_isSome_iff_eq_none.mp absent
    exact ⟨(List.filter_eq_self.mpr fun kept inside => decide_eq_true (Table.get?_none_iff.mp unstored kept inside)).symm, rfl⟩

/-- The nodes with the ids of a list are taken out of both dictionaries. -/
theorem removeNodes_rows (distinct : (config.nodes.map ServiceNode.id).Nodup) (list : List ServiceNode) :
    (config.removeNodes list).getNodes = config.getNodes.filter (fun node => node.id ∉ list.map ServiceNode.id) ∧
      (config.removeNodes list).getGlbNodes = config.getGlbNodes.filter (fun node => node.id ∉ list.map ServiceNode.id) := by
  induction list generalizing config with
  | nil => simp [removeNodes]
  | cons node rest ih =>
    obtain ⟨regular, balancers⟩ := removeNode_rows distinct node
    have fewer : ((config.removeNode node).nodes.map ServiceNode.id).Nodup := by
      refine distinct.sublist (List.Sublist.map _ ?_)
      rw [nodes, regular, balancers]
      exact List.filter_sublist.append List.filter_sublist
    obtain ⟨regular', balancers'⟩ := ih fewer
    rw [regular, List.filter_filter] at regular'
    rw [balancers, List.filter_filter] at balancers'
    have one (kept : ServiceNode) : (decide (kept.id ∉ rest.map ServiceNode.id) && decide (kept.id ≠ node.id)) =
        decide (kept.id ∉ (node :: rest).map ServiceNode.id) := by
      rw [← Bool.decide_and, decide_eq_decide, List.map_cons, List.mem_cons, not_or, and_comm]
    simp only [one] at regular' balancers'
    exact ⟨regular', balancers'⟩

/-- Nodes with ids and addresses of their own beside those of the service. -/
structure Fresh (config : MySQLConfiguration) (list : List ServiceNode) : Prop where
  ids : ((list ++ config.nodes).map ServiceNode.id).Nodup
  ips : ((list ++ config.nodes).map ServiceNode.ip).Nodup

theorem enter_perm {table : Table ServiceNode.id} (fresh : ((list ++ table.rows).map ServiceNode.id).Nodup) :
    (list.foldl (fun table node => table.put (recordOf node)) table).rows.Perm (list.map recordOf ++ table.rows) := by
  have distinct : ((list.map recordOf ++ table.rows).map ServiceNode.id).Nodup := by
    rw [List.map_append, List.map_map] at *
    exact fresh
  have entered := Table.foldl_put_perm distinct
  rwa [List.foldl_map] at entered

theorem addMySQLServiceNodes_perm (fresh : ((list ++ config.nodes).map ServiceNode.id).Nodup) :
    (config.addMySQLServiceNodes list).getNodes.Perm (list.map recordOf ++ config.getNodes) := by
  refine enter_perm (fresh.sublist (List.Sublist.map _ ?_))
  exact (List.sublist_append_left _ _).append_left list

theorem addGLBServiceNodes_perm (fresh : ((list ++ config.nodes).map ServiceNode.id).Nodup) :
    (config.addGLBServiceNodes list).getGlbNodes.Perm (list.map recordOf ++ config.getGlbNodes) := by
  refine enter_perm (fresh.sublist (List.Sublist.map _ ?_))
  exact (List.sublist_append_right _ _).append_left list

theorem addMySQLServiceNodes_nodes (fresh : ((list ++ config.nodes).map ServiceNode.id).Nodup) :
    (config.addMySQLServiceNodes list).nodes.Perm (list.map recordOf ++ config.nodes) := by
  unfold nodes
  rw [← List.append_assoc]
  exact (addMySQLServiceNodes_perm fresh).append_right _

theorem addGLBServiceNodes_nodes (fresh : ((list ++ config.nodes).map ServiceNode.id).Nodup) :
    (config.addGLBServiceNodes list).nodes.Perm (list.map recordOf ++ config.nodes) := by
  have entered := (addGLBServiceNodes_perm fresh).append_left config.getNodes
  exact entered.trans (List.perm_append_comm_assoc _ _ _)

theorem onAddMysqlNodes_config {after : MySQLConfiguration} {agents' : MySQLAgents}
    (hook : config.onAddMysqlNodes agents list = some (after, agents')) : after = config.addMySQLServiceNodes list := by
  unfold onAddMysqlNodes at hook
  split at hook
  · rename_i none
    cases hook
    rw [none]
    rfl
  · obtain ⟨_, -, same⟩ := Option.map_eq_some_iff.mp hook
    cases same
    rfl

theorem onAddGlbNodes_config {after : MySQLConfiguration} {agents' : MySQLAgents}
    (hook : config.onAddGlbNodes agents list = some (after, agents')) : after = config.addGLBServiceNodes list := by
  unfold onAddGlbNodes at hook
  split at hook
  · rename_i none
    cases hook
    rw [none]
    rfl
  · obtain ⟨_, -, same⟩ := Option.map_eq_some_iff.mp hook
    cases same
    rfl

/-- What the hook for new nodes makes of the configuration. -/
theorem onAddNodes_config {after : MySQLConfiguration} {agents' : MySQLAgents}
    (hook : config.onAddNodes agents list = some (after, agents')) :
    after = (config.addMySQLServiceNodes (list.filter fun node => node.role = roleMysql)).addGLBServiceNodes
      (list.filter fun node => node.role = roleGlb) := by
  obtain ⟨⟨entered, middle⟩, first, second⟩ := Option.bind_eq_some_iff.mp hook
  rw [onAddGlbNodes_config second, onAddMysqlNodes_config first]

theorem doRemoveNodes_config {after : MySQLConfiguration} {agents' : MySQLAgents} {rmRegNodes rmGlbNodes : List ServiceNode}
    (removed : config.doRemoveNodes agents rmRegNodes rmGlbNodes = some (after, agents')) :
    after = config.removeNodes (rmRegNodes ++ rmGlbNodes) := by
  obtain ⟨_, -, rest⟩ := Option.bind_eq_some_iff.mp removed
  obtain ⟨_, -, same⟩ := Option.map_eq_some_iff.mp rest
  cases same
  rfl

/-- Nodes of two roles are among the nodes of all roles. -/
theorem roles_subperm (list : List ServiceNode) :
    ((list.filter fun node => node.role = roleGlb) ++ list.filter fun node => node.role = roleMysql).Subperm list := by
  have others : (list.filter fun node => node.role = roleGlb).Sublist
      (list.filter fun node => !decide (node.role = roleMysql)) := by
    refine List.monotone_filter_right list fun node balances => ?_
    have role : node.role = roleGlb := of_decide_eq_true balances
    rw [role]
    rfl
  have split := List.filter_append_perm (fun node => decide (node.role = roleMysql)) list
  exact ((others.append_right _).subperm.trans (List.perm_append_comm.subperm)).trans split.subperm

end MySQLConfiguration

end ConPaaS
