import ConPaaS.TaskFarm.Leases
import Mathlib.Data.List.Sort

namespace ConPaaS

open Keyed

/-- A cluster with the fields only a reconfiguration uses: what it may have
and has been planned to have, and for each worker its time left and the timer
that will kill it, with what `cancel` will say. `started` counts the nodes asked
for, and `figures` says that `Ti` is not 0. -/
structure PlannedCluster where
  cluster : Cluster
  maxNodes : Int
  necNodes : Int
  prevNecNodes : Int
  figures : Bool
  timeLeftATU : String → Int
  killingMe : String → Option Bool
  started : Int

namespace PlannedCluster

/-- A marked worker whose timer can still be cancelled. -/
def cancels (s : PlannedCluster) (ws : WorkerStats) : Bool :=
  ws.willTerminate && !ws.isFinished && s.killingMe ws.node == some true

/-- The comparator of the sort, which also puts one of two equal workers
before the other. -/
def before (s : PlannedCluster) (a b : WorkerStats) : Bool :=
  if a.willTerminate && b.willTerminate then decide (s.timeLeftATU a.node - s.timeLeftATU b.node ≤ 0)
  else if a.willTerminate then true
  else if b.willTerminate then false
  else decide (s.timeLeftATU a.node - s.timeLeftATU b.node ≤ 0)

def orderedByTimeLeftATU (s : PlannedCluster) : List WorkerStats :=
  s.cluster.workers.rows.insertionSort fun a b => s.before a b = true

def orderedByArrival (s : PlannedCluster) : List WorkerStats :=
  s.cluster.workers.rows.insertionSort fun a b => a.timestamp ≤ b.timestamp

/-- The loop that takes back marks until enough workers are found: their nodes,
and how many are missing. -/
def resurrect (s : PlannedCluster) : List WorkerStats → Int → List String × Int
  | [], missing => ([], missing)
  | ws :: rest, missing =>
    if s.cancels ws then
      if missing - 1 = 0 then ([ws.node], 0)
      else
        let later := s.resurrect rest (missing - 1)
        (ws.node :: later.1, later.2)
    else s.resurrect rest missing

/-- The workers of some nodes are no longer marked, their timers cancelled. -/
def unmark (s : PlannedCluster) (nodes : List String) : PlannedCluster :=
  { s with
    cluster :=
      { s.cluster with
        workers := s.cluster.workers.map
          (fun ws => if ws.node ∈ nodes then ws.unmarkTerminated else ws) fun ws => by split <;> rfl }
    killingMe := fun node => if node ∈ nodes then some false else s.killingMe node }

/-- `startNodes` and the count of the nodes that are to come. -/
def startNodes (s : PlannedCluster) (moreWorkers : Int) : PlannedCluster :=
  if moreWorkers ≠ 0 then
    { s with
      cluster := { s.cluster with pendingNodes := s.cluster.pendingNodes + moreWorkers }
      started := s.started + moreWorkers }
  else s

/-- The branch for a plan of more machines than there are or are to come. -/
def acquire (s : PlannedCluster) (Mi : Int) : PlannedCluster :=
  let moreWorkers := min s.maxNodes Mi - s.cluster.crtNodes - s.cluster.pendingNodes
  let moreWorkers :=
    if s.cluster.crtNodes > s.prevNecNodes then moreWorkers + (s.cluster.crtNodes - s.prevNecNodes) else moreWorkers
  let kept := s.resurrect s.orderedByTimeLeftATU moreWorkers
  (s.unmark kept.1).startNodes kept.2

/-- The branch for a plan of more machines that are there or are to come. -/
def keep (s : PlannedCluster) (Mi : Int) : PlannedCluster := s.unmark (s.resurrect s.orderedByTimeLeftATU (Mi - s.prevNecNodes)).1

/-- `terminateWorker` with its timer, which is only set for a later time. -/
def terminateWorker (s : PlannedCluster) (ws : WorkerStats) (now : Int) : PlannedCluster :=
  let timeUnit := s.cluster.rate.timeUnit * 60000
  let timeLeftATU := timeUnit - (ws.getUptime now).tmod timeUnit - 60000
  { s with
    cluster := s.cluster.terminateWorker ws.node now
    killingMe := fun node =>
      if node = ws.node then (if timeLeftATU ≤ 0 then none else some true) else s.killingMe node }

/-- The loop of `selectTerminatedWorkers`. -/
def terminateWorkers (now : Int) : List WorkerStats → Int → PlannedCluster → PlannedCluster
  | [], _, s => s
  | ws :: rest, howManyCrtNodes, s =>
    if !ws.isFinished && !ws.willTerminate then
      if howManyCrtNodes - 1 = 0 then s.terminateWorker ws now
      else terminateWorkers now rest (howManyCrtNodes - 1) (s.terminateWorker ws now)
    else terminateWorkers now rest howManyCrtNodes s

def selectTerminatedWorkers (s : PlannedCluster) (now : Int) : PlannedCluster :=
  if s.cluster.crtNodes ≤ s.necNodes then
    { s with cluster := { s.cluster with pendingNodes := s.necNodes - s.cluster.crtNodes } }
  else s.terminateWorkers now s.orderedByArrival.reverse (s.prevNecNodes - s.necNodes)

/-- The number of machines planned for the cluster: none are planned where
it is not in the plan, and nothing where there are no figures for it either. -/
def planned (s : PlannedCluster) (machines : Option Nat) : Option Nat := machines.or (if s.figures then some 0 else none)

/-- The body of the loop that carries out a plan. -/
def reconfigure (s : PlannedCluster) (machines : Option Nat) (noATUPlan now : Int) : PlannedCluster :=
  let s := { s with cluster := { s.cluster with noATUPlan } }
  match s.planned machines with
  | none => s
  | some Mi =>
    let s := { s with prevNecNodes := s.necNodes }
    if Mi > s.prevNecNodes then
      let s := if Mi > s.cluster.crtNodes + s.cluster.pendingNodes then s.acquire Mi else s.keep Mi
      { s with necNodes := Mi }
    else if Mi < s.prevNecNodes then
      let s := { s with necNodes := Mi }
      if s.necNodes < s.cluster.crtNodes + s.cluster.pendingNodes then s.selectTerminatedWorkers now else s
    else s

variable {s : PlannedCluster} {workers : List WorkerStats} {nodes : List String} {missing now : Int} {Mi : Nat}

def isUnmarked (ws : WorkerStats) : Bool := !ws.isFinished && !ws.willTerminate

/-- The nodes that work and are not marked. -/
def unmarked (s : PlannedCluster) : Nat := s.cluster.workers.rows.countP isUnmarked

/-- The marked workers whose timers can still be cancelled. -/
def cancellable (s : PlannedCluster) : Nat := s.cluster.workers.rows.countP s.cancels

/-- The loop finds as many workers as it looks for or there are. -/
theorem resurrect_spec (positive : 0 < missing) :
    (s.resurrect workers missing).1.length = min (workers.countP s.cancels) missing.toNat ∧
      (s.resurrect workers missing).2 = missing - (s.resurrect workers missing).1.length ∧
      (s.resurrect workers missing).1.Sublist ((workers.filter s.cancels).map WorkerStats.node) := by
  induction workers generalizing missing with
  | nil => exact ⟨by simp [resurrect], by simp [resurrect], .slnil⟩
  | cons ws rest ih =>
    rw [resurrect]
    by_cases found : s.cancels ws = true
    · rw [if_pos found, List.countP_cons_of_pos found, List.filter_cons_of_pos found, List.map_cons]
      by_cases last : missing - 1 = 0
      · rw [if_pos last]
        refine ⟨?_, ?_, ?_⟩
        · rw [List.length_singleton]
          omega
        · rw [List.length_singleton]
          omega
        · exact List.singleton_sublist.mpr List.mem_cons_self
      · obtain ⟨length, left, sub⟩ := ih (show 0 < missing - 1 by omega)
        rw [if_neg last]
        refine ⟨?_, ?_, sub.cons_cons _⟩
        · rw [List.length_cons, length]
          omega
        · rw [List.length_cons, left]
          omega
    · rw [if_neg found, List.countP_cons_of_neg found, List.filter_cons_of_neg found]
      exact ih positive

theorem cancels_iff {ws : WorkerStats} :
    s.cancels ws = true ↔ ws.willTerminate = true ∧ ws.done = false ∧ s.killingMe ws.node = some true := by
  simp [cancels, WorkerStats.isFinished, and_assoc]

theorem count_nodes {t : Table WorkerStats.node} (distinct : nodes.Nodup) (inside : ∀ node ∈ nodes, ∃ ws ∈ t.rows, ws.node = node) :
    t.rows.countP (fun ws => decide (ws.node ∈ nodes)) = nodes.length := by
  have perm : ((t.rows.map WorkerStats.node).filter fun node => decide (node ∈ nodes)).Perm nodes := by
    refine (List.perm_ext_iff_of_nodup (t.keyed.filter _) distinct).mpr fun node => ?_
    rw [List.mem_filter, decide_eq_true_eq, and_iff_right_iff_imp, List.mem_map]
    exact inside node
  rw [← perm.length_eq, ← List.countP_eq_length_filter, List.countP_map]
  rfl

theorem countP_unmark (marked : ∀ ws ∈ workers, ws.node ∈ nodes → ws.willTerminate = true ∧ ws.done = false) :
    (workers.map fun ws => if ws.node ∈ nodes then ws.unmarkTerminated else ws).countP isUnmarked =
      workers.countP isUnmarked + workers.countP fun ws => decide (ws.node ∈ nodes) := by
  induction workers with
  | nil => rfl
  | cons ws rest ih =>
    have others := ih fun other member => marked other (List.mem_cons_of_mem _ member)
    rw [List.map_cons, List.countP_cons, List.countP_cons, List.countP_cons, others]
    by_cases member : ws.node ∈ nodes
    · obtain ⟨mark, busy⟩ := marked ws List.mem_cons_self member
      simp [member, isUnmarked, WorkerStats.unmarkTerminated, WorkerStats.isFinished, mark, busy]
      omega
    · simp [member]
      omega

/-- Each of the workers found is one unmarked node more. -/
theorem unmarked_unmark (distinct : nodes.Nodup)
    (inside : ∀ node ∈ nodes, ∃ ws ∈ s.cluster.workers.rows, ws.node = node ∧ s.cancels ws = true) :
    (s.unmark nodes).unmarked = s.unmarked + nodes.length := by
  rw [← count_nodes distinct fun node member => (inside node member).imp fun _ found => ⟨found.1, found.2.1⟩]
  refine countP_unmark fun ws stored member => ?_
  obtain ⟨other, there, same, found⟩ := inside ws.node member
  rw [← s.cluster.workers.unique there stored same]
  exact ⟨(cancels_iff.mp found).1, (cancels_iff.mp found).2.1⟩

/-- What taking back marks does, for as many as are wanted. -/
structure Resurrected (s : PlannedCluster) (missing : Int) (kept : List String × Int) : Prop where
  found : kept.1.length = min s.cancellable missing.toNat
  missing : kept.2 = missing - kept.1.length
  unmarked : (s.unmark kept.1).unmarked = s.unmarked + kept.1.length

theorem resurrected (positive : 0 < missing) : s.Resurrected missing (s.resurrect s.orderedByTimeLeftATU missing) := by
  have sorted : s.orderedByTimeLeftATU.Perm s.cluster.workers.rows := List.perm_insertionSort _ _
  obtain ⟨length, left, sub⟩ := @resurrect_spec s s.orderedByTimeLeftATU missing positive
  rw [sorted.countP_eq] at length
  refine ⟨length, left, unmarked_unmark (sub.nodup ?_) fun node member => ?_⟩
  · exact ((sorted.map WorkerStats.node).nodup_iff.mpr s.cluster.workers.keyed).sublist (List.filter_sublist.map _)
  · obtain ⟨ws, found, same⟩ := List.mem_map.mp (sub.subset member)
    obtain ⟨stored, cancels⟩ := List.mem_filter.mp found
    exact ⟨ws, sorted.mem_iff.mp stored, same, cancels⟩

/-- The counts of a cluster whose nodes are its unfinished workers and that
keeps to its limit. -/
structure Sound (s : PlannedCluster) : Prop where
  crtNodes : s.cluster.crtNodes = (Cluster.unfinished s.cluster.workers.rows).length
  pendingNodes : 0 ≤ s.cluster.pendingNodes
  limit : s.cluster.crtNodes + s.cluster.pendingNodes ≤ s.maxNodes

/-- The marked workers that are not finished. -/
def marked (s : PlannedCluster) : Nat := s.cluster.workers.rows.countP fun ws => !ws.isFinished && ws.willTerminate

theorem Sound.crtNodes_eq (sound : s.Sound) : s.cluster.crtNodes = s.unmarked + s.marked := by
  rw [sound.crtNodes, Cluster.unfinished, List.length_map, ← List.countP_eq_length_filter]
  have split := List.countP_eq_countP_filter_add s.cluster.workers.rows (fun ws => !ws.isFinished) fun ws => !ws.willTerminate
  simp only [List.countP_filter, Bool.not_not] at split
  exact_mod_cast split

theorem cancellable_le : s.cancellable ≤ s.marked := by
  refine List.countP_mono_left fun ws _ found => ?_
  obtain ⟨mark, busy, -⟩ := cancels_iff.mp found
  simp [WorkerStats.isFinished, mark, busy]

theorem acquire_spec (limit : (Mi : Int) ≤ s.maxNodes) (more : s.cluster.crtNodes + s.cluster.pendingNodes < Mi) :
    (s.acquire Mi).maxNodes = s.maxNodes ∧ (s.acquire Mi).cluster.crtNodes = s.cluster.crtNodes ∧
      ∃ r : Nat, (r : Int) = min (s.cancellable : Int)
          (Mi - s.cluster.crtNodes - s.cluster.pendingNodes + max 0 (s.cluster.crtNodes - s.prevNecNodes)) ∧
        (s.acquire Mi).unmarked = s.unmarked + r ∧
        (s.acquire Mi).cluster.pendingNodes =
          Mi - s.cluster.crtNodes + max 0 (s.cluster.crtNodes - s.prevNecNodes) - r := by
  have wanted : (if s.cluster.crtNodes > s.prevNecNodes then
        min s.maxNodes Mi - s.cluster.crtNodes - s.cluster.pendingNodes + (s.cluster.crtNodes - s.prevNecNodes)
      else min s.maxNodes Mi - s.cluster.crtNodes - s.cluster.pendingNodes) =
      Mi - s.cluster.crtNodes - s.cluster.pendingNodes + max 0 (s.cluster.crtNodes - s.prevNecNodes) := by
    split <;> omega
  have positive : 0 < Mi - s.cluster.crtNodes - s.cluster.pendingNodes + max 0 (s.cluster.crtNodes - s.prevNecNodes) := by
    omega
  obtain ⟨found, missing, unmarked⟩ := resurrected positive
  simp only [acquire, wanted]
  generalize s.resurrect s.orderedByTimeLeftATU _ = kept at found missing unmarked ⊢
  refine ⟨?_, ?_, kept.1.length, by omega, ?_, ?_⟩
  · unfold startNodes
    split <;> rfl
  · unfold startNodes
    split <;> rfl
  · rw [← unmarked]
    unfold startNodes
    split <;> rfl
  · have pending : (s.unmark kept.1).cluster.pendingNodes = s.cluster.pendingNodes := rfl
    unfold startNodes
    split
    · show (s.unmark kept.1).cluster.pendingNodes + kept.2 = _
      omega
    · omega

theorem keep_spec (more : s.prevNecNodes < Mi) :
    (s.keep Mi).maxNodes = s.maxNodes ∧ (s.keep Mi).cluster.crtNodes = s.cluster.crtNodes ∧
      (s.keep Mi).cluster.pendingNodes = s.cluster.pendingNodes ∧
      ∃ r : Nat, (r : Int) = min (s.cancellable : Int) (Mi - s.prevNecNodes) ∧ (s.keep Mi).unmarked = s.unmarked + r := by
  obtain ⟨found, -, unmarked⟩ := resurrected (show 0 < Mi - s.prevNecNodes by omega)
  exact ⟨rfl, rfl, rfl, _, by omega, unmarked⟩

/-- What terminating workers does not change, and that it unmarks nobody. -/
structure Terminated (s after : PlannedCluster) : Prop where
  maxNodes : after.maxNodes = s.maxNodes
  crtNodes : after.cluster.crtNodes = s.cluster.crtNodes
  pendingNodes : after.cluster.pendingNodes = s.cluster.pendingNodes
  unmarked : after.unmarked ≤ s.unmarked

theorem terminateWorker_spec (ws : WorkerStats) : s.Terminated (s.terminateWorker ws now) := by
  refine ⟨rfl, rfl, rfl, ?_⟩
  have rows : (s.terminateWorker ws now).cluster.workers.rows = s.cluster.workers.rows.map _ := rfl
  rw [unmarked, rows, List.countP_map]
  refine List.countP_mono_left fun other _ free => ?_
  simp only [Function.comp_apply] at free
  split at free
  · simp [isUnmarked, WorkerStats.markTerminated] at free
  · exact free

theorem terminateWorkers_spec (missing : Int) : s.Terminated (s.terminateWorkers now workers missing) := by
  induction workers generalizing missing s with
  | nil => exact ⟨rfl, rfl, rfl, le_rfl⟩
  | cons ws rest ih =>
    rw [terminateWorkers]
    split
    · split
      · exact terminateWorker_spec ws
      · have first : s.Terminated (s.terminateWorker ws now) := terminateWorker_spec ws
        have later := @ih (s.terminateWorker ws now) (missing - 1)
        exact ⟨later.maxNodes.trans first.maxNodes, later.crtNodes.trans first.crtNodes,
          later.pendingNodes.trans first.pendingNodes, later.unmarked.trans first.unmarked⟩
    · exact ih missing

/-- What is asked of a reconfiguration for some planned machines: the limit,
no negative count, and no more unmarked and pending nodes than planned or than
before. -/
def Within (s after : PlannedCluster) (Mi : Nat) : Prop :=
  after.cluster.crtNodes + after.cluster.pendingNodes ≤ after.maxNodes ∧ 0 ≤ after.cluster.pendingNodes ∧
    after.unmarked + after.cluster.pendingNodes ≤ max (Mi : Int) (s.unmarked + s.cluster.pendingNodes)

/-- When a plan for more machines than before is kept to: where nodes are
started, those that replace marked ones have room beside them or have marks to
take back, and no more are unmarked than were planned before; where marks are
taken back, there are none or they do not lead past the plan. -/
def Respects (s : PlannedCluster) (Mi : Nat) : Prop :=
  (s.cluster.crtNodes + s.cluster.pendingNodes < Mi →
    Mi + max 0 (s.cluster.crtNodes - s.necNodes) ≤ s.maxNodes + s.cancellable ∧ (s.unmarked : Int) ≤ s.necNodes) ∧
  ((Mi : Int) ≤ s.cluster.crtNodes + s.cluster.pendingNodes →
    s.cancellable = 0 ∨ s.unmarked + s.cluster.pendingNodes + min (s.cancellable : Int) (Mi - s.necNodes) ≤ Mi)

instance (s : PlannedCluster) (Mi : Nat) : Decidable (s.Respects Mi) := inferInstanceAs (Decidable (_ ∧ _))

theorem within_acquire (sound : s.Sound) (limit : (Mi : Int) ≤ s.maxNodes)
    (more : s.cluster.crtNodes + s.cluster.pendingNodes < Mi) (same : s.prevNecNodes = s.necNodes) :
    s.Within (s.acquire Mi) Mi ↔ s.Respects Mi := by
  obtain ⟨maxNodes, crtNodes, r, found, unmarked, pendingNodes⟩ := acquire_spec limit more
  have split := sound.crtNodes_eq
  have below := sound.limit
  have positive := sound.pendingNodes
  rw [same] at found pendingNodes
  constructor
  · rintro ⟨limit', -, unmarked'⟩
    rw [maxNodes, crtNodes, pendingNodes] at limit'
    rw [unmarked, pendingNodes] at unmarked'
    refine ⟨fun _ => ⟨?_, ?_⟩, fun few => absurd few (by omega)⟩ <;> omega
  · rintro ⟨acquired, -⟩
    obtain ⟨room, marked⟩ := acquired more
    refine ⟨?_, ?_, ?_⟩
    · rw [maxNodes, crtNodes, pendingNodes]
      omega
    · rw [pendingNodes]
      omega
    · rw [unmarked, pendingNodes]
      omega

theorem within_keep (sound : s.Sound) (few : (Mi : Int) ≤ s.cluster.crtNodes + s.cluster.pendingNodes)
    (more : s.necNodes < Mi) (same : s.prevNecNodes = s.necNodes) : s.Within (s.keep Mi) Mi ↔ s.Respects Mi := by
  obtain ⟨maxNodes, crtNodes, pendingNodes, r, found, unmarked⟩ := keep_spec (show s.prevNecNodes < Mi by omega)
  rw [same] at found
  constructor
  · rintro ⟨-, -, unmarked'⟩
    rw [unmarked, pendingNodes] at unmarked'
    refine ⟨fun many => absurd many (by omega), fun _ => ?_⟩
    omega
  · rintro ⟨-, kept⟩
    have enough := kept few
    refine ⟨?_, ?_, ?_⟩
    · rw [maxNodes, crtNodes, pendingNodes]
      exact sound.limit
    · rw [pendingNodes]
      exact sound.pendingNodes
    · rw [unmarked, pendingNodes]
      omega

theorem within_selectTerminatedWorkers (sound : s.Sound) (limit : (Mi : Int) ≤ s.maxNodes) (same : s.necNodes = Mi) :
    s.Within (s.selectTerminatedWorkers now) Mi := by
  have split := sound.crtNodes_eq
  unfold selectTerminatedWorkers
  split
  · next few =>
    refine ⟨?_, ?_, ?_⟩
    · show s.cluster.crtNodes + (s.necNodes - s.cluster.crtNodes) ≤ s.maxNodes
      omega
    · show 0 ≤ s.necNodes - s.cluster.crtNodes
      omega
    · show (s.unmarked : Int) + (s.necNodes - s.cluster.crtNodes) ≤ _
      omega
  · have spec : s.Terminated (s.terminateWorkers now s.orderedByArrival.reverse (s.prevNecNodes - s.necNodes)) :=
      terminateWorkers_spec _
    obtain ⟨maxNodes, crtNodes, pendingNodes, unmarked⟩ := spec
    refine ⟨?_, ?_, ?_⟩
    · rw [maxNodes, crtNodes, pendingNodes]
      exact sound.limit
    · rw [pendingNodes]
      exact sound.pendingNodes
    · rw [pendingNodes]
      omega

/-- The marks some decision leaves on the workers of a cluster, and nothing else. -/
def Marked (s after : PlannedCluster) (marks : String → Option Mark) : Prop :=
  after.cluster = { s.cluster with
    pendingNodes := after.cluster.pendingNodes
    workers := s.cluster.workers.map (fun ws => ws.decided (marks ws.node)) fun ws => ws.decided_node _ }

theorem marked_unmark : s.Marked (s.unmark nodes) fun node => if node ∈ nodes then some .kept else none := by
  have rows : (s.unmark nodes).cluster.workers =
      s.cluster.workers.map (fun ws => ws.decided (if ws.node ∈ nodes then some .kept else none))
        fun ws => ws.decided_node _ := by
    refine Table.ext (List.map_congr_left fun ws _ => ?_)
    by_cases member : ws.node ∈ nodes
    · rw [if_pos member, if_pos member]
      rfl
    · rw [if_neg member, if_neg member]
      rfl
  rw [Marked, ← rows]
  rfl

/-- A worker is terminated before others are marked. -/
theorem Marked.terminateWorker {after : PlannedCluster} {ws : WorkerStats} {marks : String → Option Mark}
    (later : (s.terminateWorker ws now).Marked after marks) (free : marks ws.node = none) :
    ∃ earlier, (∀ node ≠ ws.node, earlier node = marks node) ∧ s.Marked after earlier := by
  let first := (s.terminateWorker ws now).cluster.workers
  let earlier (node : String) : Option Mark :=
    if node = ws.node then (first.get? node).map fun found => .terminated found.timeToDie else marks node
  have shape : ∃ change : WorkerStats → WorkerStats,
      first.rows = s.cluster.workers.rows.map (fun found => if found.node = ws.node then change found else found) ∧
        (∀ found, (change found).node = found.node) ∧
        ∀ found, found.decided (some (.terminated (change found).timeToDie)) = change found :=
    ⟨_, rfl, fun _ => rfl, fun _ => rfl⟩
  obtain ⟨change, rows, node, terminated⟩ := shape
  have workers : first.map (fun ws => ws.decided (marks ws.node)) (fun ws => ws.decided_node _) =
      s.cluster.workers.map (fun ws => ws.decided (earlier ws.node)) fun ws => ws.decided_node _ := by
    refine Table.ext ?_
    show first.rows.map _ = s.cluster.workers.rows.map _
    rw [rows]
    refine List.map_map.trans (List.map_congr_left fun found stored => ?_)
    by_cases same : found.node = ws.node
    · have there : first.get? ws.node = some (change found) := by
        refine Table.get?_iff.mpr ⟨?_, (node found).trans same⟩
        rw [rows]
        exact List.mem_map.mpr ⟨found, stored, if_pos same⟩
      have mark : earlier found.node = some (.terminated (change found).timeToDie) := by
        simp only [earlier, same, if_true, there, Option.map_some]
      rw [Function.comp_apply, if_pos same, node, same, free, ← same, mark, terminated]
      rfl
    · have mark : earlier found.node = marks found.node := if_neg same
      rw [Function.comp_apply, if_neg same, mark]
  refine ⟨earlier, fun node other => if_neg other, later.trans ?_⟩
  rw [← workers]
  rfl

theorem marked_none (s : PlannedCluster) : s.Marked s fun _ => none := by
  have rows : s.cluster.workers.map (fun ws => ws.decided none) (fun ws => ws.decided_node _) = s.cluster.workers :=
    Table.ext (List.map_id _)
  rw [Marked, rows]

theorem marked_terminateWorkers (distinct : (workers.map WorkerStats.node).Nodup) (missing : Int) :
    ∃ marks, (∀ node ∉ workers.map WorkerStats.node, marks node = none) ∧
      s.Marked (s.terminateWorkers now workers missing) marks := by
  induction workers generalizing missing s with
  | nil => exact ⟨_, fun _ _ => rfl, marked_none s⟩
  | cons ws rest ih =>
    rw [List.map_cons, List.nodup_cons] at distinct
    have first {after : PlannedCluster} {marks : String → Option Mark} (marked : (s.terminateWorker ws now).Marked after marks)
        (quiet : ∀ node ∉ rest.map WorkerStats.node, marks node = none) :
        ∃ marks, (∀ node ∉ (ws :: rest).map WorkerStats.node, marks node = none) ∧ s.Marked after marks := by
      obtain ⟨earlier, others, marked⟩ := marked.terminateWorker (quiet _ distinct.1)
      refine ⟨earlier, fun node absent => ?_, marked⟩
      rw [List.map_cons, List.mem_cons, not_or] at absent
      rw [others node absent.1, quiet node absent.2]
    rw [terminateWorkers]
    split
    · split
      · exact first (marked_none _) fun _ _ => rfl
      · obtain ⟨marks, quiet, marked⟩ := @ih (s.terminateWorker ws now) distinct.2 (missing - 1)
        exact first marked quiet
    · obtain ⟨marks, quiet, marked⟩ := @ih s distinct.2 missing
      exact ⟨marks, fun node absent => quiet node fun member => absent (List.mem_cons_of_mem _ member), marked⟩

theorem Marked.withPending {after : PlannedCluster} {marks : String → Option Mark} (marked : s.Marked after marks) (pendingNodes : Int) :
    s.Marked { after with cluster := { after.cluster with pendingNodes } } marks := by
  rw [Marked] at marked ⊢
  rw [marked]

theorem Marked.startNodes {after : PlannedCluster} {marks : String → Option Mark} (marked : s.Marked after marks) (moreWorkers : Int) :
    s.Marked (after.startNodes moreWorkers) marks := by
  unfold PlannedCluster.startNodes
  split
  · exact marked.withPending _
  · exact marked

theorem marked_acquire (s : PlannedCluster) (Mi : Int) : ∃ marks, s.Marked (s.acquire Mi) marks :=
  ⟨_, marked_unmark.startNodes _⟩

theorem marked_selectTerminatedWorkers (s : PlannedCluster) (now : Int) : ∃ marks, s.Marked (s.selectTerminatedWorkers now) marks := by
  unfold selectTerminatedWorkers
  split
  · exact ⟨_, (marked_none s).withPending _⟩
  · have sorted : s.orderedByArrival.reverse.Perm s.cluster.workers.rows :=
      (List.reverse_perm _).trans (List.perm_insertionSort _ _)
    obtain ⟨marks, -, marked⟩ :=
      @marked_terminateWorkers s _ now ((sorted.map _).nodup_iff.mpr s.cluster.workers.keyed) (s.prevNecNodes - s.necNodes)
    exact ⟨marks, marked⟩

/-- A reconfiguration leaves behind in its cluster what some decision of the
master does. -/
theorem reconfigure_decided (s : PlannedCluster) (machines : Option Nat) (noATUPlan now : Int) :
    ∃ decision, (s.reconfigure machines noATUPlan now).cluster = s.cluster.decided decision := by
  have decided {t after : PlannedCluster} {marks : String → Option Mark} (marked : t.Marked after marks)
      (same : t.cluster = { s.cluster with noATUPlan }) : ∃ decision, after.cluster = s.cluster.decided decision := by
    refine ⟨⟨fun _ => after.cluster.pendingNodes, fun _ => noATUPlan, fun ii => marks ii.node⟩, ?_⟩
    rw [Marked, same] at marked
    exact marked
  let t : PlannedCluster := { s with cluster := { s.cluster with noATUPlan }, prevNecNodes := s.necNodes }
  unfold reconfigure
  dsimp only
  split
  · exact decided (marked_none _) rfl
  · split
    · split
      · obtain ⟨marks, marked⟩ := t.marked_acquire _
        exact decided marked rfl
      · exact @decided t (t.keep _) _ marked_unmark rfl
    · split
      · split
        · obtain ⟨marks, marked⟩ := marked_selectTerminatedWorkers { t with necNodes := _ } now
          exact decided marked rfl
        · exact decided (marked_none _) rfl
      · exact decided (marked_none _) rfl

theorem Sound.within_self (sound : s.Sound) : s.Within s Mi := ⟨sound.limit, sound.pendingNodes, le_max_right _ _⟩

theorem Sound.maxNodes_nonneg (sound : s.Sound) : 0 ≤ s.maxNodes := by
  have nodes := sound.crtNodes
  have pending := sound.pendingNodes
  have limit := sound.limit
  omega

theorem planned_le (sound : s.Sound) {machines : Option Nat} (limit : ∀ n ∈ machines, (n : Int) ≤ s.maxNodes)
    (planned : s.planned machines = some Mi) : (Mi : Int) ≤ s.maxNodes := by
  cases machines with
  | some n =>
    obtain rfl : n = Mi := Option.some.inj planned
    exact limit n rfl
  | none =>
    have zero : (if s.figures then some 0 else none) = some Mi := planned
    split at zero
    · obtain rfl := Option.some.inj zero
      exact sound.maxNodes_nonneg
    · cases zero

/-- A plan is carried out within the limits exactly if none of more machines
than before is made where it is not kept to. -/
theorem reconfigure_within (sound : s.Sound) (machines : Option Nat) (limit : ∀ n ∈ machines, (n : Int) ≤ s.maxNodes)
    (noATUPlan now : Int) :
    s.Within (s.reconfigure machines noATUPlan now) (machines.getD 0) ↔
      ∀ Mi, s.planned machines = some Mi → s.necNodes < Mi → s.Respects Mi := by
  have plan : ∀ Mi, s.planned machines = some Mi → machines.getD 0 = Mi := by
    intro Mi planned
    cases machines with
    | some n => exact Option.some.inj planned
    | none =>
      have zero : (if s.figures then some 0 else none) = some Mi := planned
      split at zero
      · exact Option.some.inj zero
      · cases zero
  let t : PlannedCluster := { s with cluster := { s.cluster with noATUPlan }, prevNecNodes := s.necNodes }
  have same : t.Sound := ⟨sound.crtNodes, sound.pendingNodes, sound.limit⟩
  unfold reconfigure
  cases planned : s.planned machines with
  | none =>
    have skipped : PlannedCluster.planned { s with cluster := { s.cluster with noATUPlan } } machines = none := planned
    simp only [skipped]
    exact iff_of_true sound.within_self nofun
  | some Mi =>
    have chosen : PlannedCluster.planned { s with cluster := { s.cluster with noATUPlan } } machines = some Mi := planned
    have fits := planned_le sound limit planned
    rw [plan Mi planned]
    simp only [chosen, Option.some.injEq, forall_eq']
    by_cases more : (Mi : Int) > s.necNodes
    · rw [if_pos more]
      by_cases many : (Mi : Int) > s.cluster.crtNodes + s.cluster.pendingNodes
      · rw [if_pos many]
        exact (within_acquire same fits many rfl).trans ⟨fun respects _ => respects, fun respects => respects more⟩
      · rw [if_neg many]
        exact (within_keep same (not_lt.mp many) more rfl).trans ⟨fun respects _ => respects, fun respects => respects more⟩
    · rw [if_neg more]
      refine iff_of_true ?_ fun less => absurd less more
      split
      · split
        · exact within_selectTerminatedWorkers (s := { t with necNodes := Mi })
            ⟨sound.crtNodes, sound.pendingNodes, sound.limit⟩ fits rfl
        · exact same.within_self
      · exact same.within_self

/-- Three nodes for a plan of one: two are marked, and their timers can be
cancelled or have run. -/
def oneOfThree (cancel : Bool) : PlannedCluster where
  cluster :=
    { clusterAlias := "cluster1"
      rate := ⟨60, 1, Rate.hour_positive, by decide⟩
      crtNodes := 3
      pendingNodes := 0
      timestamp := 3
      noATUPlan := 2
      subsetJobs := .empty
      samplingPoints := []
      samplingPointsCounter := 0
      totalRuntimeSampleJobs := 0
      noDoneJobs := 0
      totalRuntimeDoneJobs := 0
      workers :=
        ⟨[.create "node1" 0 ⟨"cluster1", "node1"⟩,
          (WorkerStats.create "node2" 0 ⟨"cluster1", "node2"⟩).markTerminated,
          (WorkerStats.create "node3" 0 ⟨"cluster1", "node3"⟩).markTerminated], by decide⟩ }
  maxNodes := 5
  necNodes := 1
  prevNecNodes := 3
  figures := true
  timeLeftATU := fun _ => 0
  killingMe := fun node => if node = "node1" then none else some cancel
  started := 0

theorem oneOfThree_sound (cancel : Bool) : (oneOfThree cancel).Sound :=
  ⟨rfl, le_rfl, show (3 : Int) + 0 ≤ 5 by decide⟩

/-- Four nodes are started beside three where five are allowed. -/
theorem oneOfThree_exceeded :
    (oneOfThree false).Sound ∧
      ((oneOfThree false).reconfigure (some 5) 1 0).cluster.crtNodes = 3 ∧
      ((oneOfThree false).reconfigure (some 5) 1 0).cluster.pendingNodes = 4 ∧
      ((oneOfThree false).reconfigure (some 5) 1 0).maxNodes = 5 :=
  ⟨oneOfThree_sound false, by decide +kernel⟩

theorem oneOfThree_within :
    (oneOfThree true).Within ((oneOfThree true).reconfigure (some 5) 1 0) 5 ∧ (oneOfThree true).Respects 5 := by
  have respects : (oneOfThree true).Respects 5 := by decide +kernel
  refine ⟨(reconfigure_within (oneOfThree_sound true) (some 5) ?_ 1 0).mpr ?_, respects⟩
  · rintro n member
    obtain rfl := Option.some.inj member
    decide
  · rintro Mi planned -
    obtain rfl := Option.some.inj planned
    exact respects

end PlannedCluster

end ConPaaS
