import ConPaaS.Manager.Volumes
import ConPaaS.Lib.Transition

namespace ConPaaS

open Keyed Transition ApplicationManager

/-- The manager process and the volumes at the clouds of its application. -/
structure Site where
  process : Process
  disks : Table Disk.volId

namespace Site

def holdings (s : Site) : Holdings := ⟨s.process.manager, s.disks⟩

/-- The machines of some nodes are deleted, to which no volume stays attached. -/
def machinesDeleted (nodes : List Entry) (disks : Table Disk.volId) : Table Disk.volId :=
  disks.map fun disk => { disk with place := disk.place.filter fun place => nodes.all fun node => node.id ≠ place.1 }

/-- What a step of a thread does to the volumes. Whether the director has
attached or detached a volume or deleted machines is not known to the thread,
and the machines are deleted after all nodes are forgotten. -/
def effect (am : ApplicationManager) (sid : Nat) (disks : Table Disk.volId) (done : Bool) :
    Operation → Stage → Outcome → Table Disk.volId
  | .createVolume _ _ _, .creatingVolume _, .volumeReply (some volId) => disks.put ⟨volId, none⟩
  | .createVolume _ _ _, .attachingVolume volume, .runs => if done then attached disks volume else disks
  | .deleteVolume volume, .begin, .runs => if done then detached disks volume.volId else disks
  | .deleteVolume _, .destroyingVolume volume, .destroyReply destroyed => if destroyed then disks.erase volume.volId else disks
  | .stopService, .removing nodes, .runs => if done && (forget [0] nodes am).2 then machinesDeleted nodes disks else disks
  | .removeService, .removing nodes, .runs => if done && (forget [0] nodes am).2 then machinesDeleted nodes disks else disks
  | .removeNodes, .removing nodes, .runs => if done && (forget [0, sid] nodes am).2 then machinesDeleted nodes disks else disks
  | _, _, _ => disks

/-- An event of the process, with the success of the call to the director whose
reply nothing depends on. -/
def handle (s : Site) (event : Event × Bool) : Option Site :=
  (s.process.handle event.1).map fun process =>
    match event.1 with
    | .advance ticket outcome =>
      match s.process.threads.get? ticket with
      | some thread =>
        ⟨process, effect s.process.manager thread.service s.disks event.2 thread.operation thread.stage outcome⟩
      | none => ⟨process, s.disks⟩
    | _ => ⟨process, s.disks⟩

def Step (before : Site) (event : Event × Bool) (after : Site) : Prop := before.handle event = some after

/-- A step on behalf of a thread. -/
theorem step_advance {before after : Site} {ticket : Nat} {outcome : Outcome} {done : Bool} :
    Step before (.advance ticket outcome, done) after ↔
      ∃ thread manager next, before.process.threads.get? thread.ticket = some thread ∧ thread.ticket = ticket ∧
        before.process.manager.advance thread.service thread.operation thread.stage outcome = some (manager, next) ∧
        after = ⟨before.process.proceed thread.ticket (manager, next),
          effect before.process.manager thread.service before.disks done thread.operation thread.stage outcome⟩ := by
  unfold Step handle
  rw [Option.map_eq_some_iff]
  constructor
  · rintro ⟨process, handled, rfl⟩
    obtain ⟨thread, manager, next, found, rfl, advanced, rfl⟩ := Process.step_advance.mp handled
    refine ⟨thread, manager, next, found, rfl, advanced, ?_⟩
    simp only [found]
  · rintro ⟨thread, manager, next, found, rfl, advanced, rfl⟩
    refine ⟨_, Process.step_advance.mpr ⟨thread, manager, next, found, rfl, advanced, rfl⟩, ?_⟩
    simp only [found]

/-- A thread is at a stage, with some holdings and some other threads. -/
structure At (thread : Thread) (others : Table Thread.ticket) (h : Holdings) (s : Site) : Prop where
  found : s.process.threads.get? thread.ticket = some thread
  others : s.process.threads.erase thread.ticket = others
  holdings : s.holdings = h

/-- A run in which one thread does everything. -/
def Alone (ticket : Nat) (before after : Site) : Prop :=
  ∃ events, Run Step before events after ∧ ∀ event ∈ events, ∃ outcome done, event = (.advance ticket outcome, done)

section

variable {thread : Thread} {others : Table Thread.ticket} {h : Holdings} {s : Site} {manager : ApplicationManager}

theorem At.step (at_ : At thread others h s) (outcome : Outcome) {stage : Stage}
    (advanced : h.manager.advance thread.service thread.operation thread.stage outcome = some (manager, some stage)) (done : Bool) :
    ∃ after, Step s (.advance thread.ticket outcome, done) after ∧
      At { thread with stage } others ⟨manager, effect h.manager thread.service h.disks done thread.operation thread.stage outcome⟩ after := by
  obtain ⟨found, rfl, rfl⟩ := at_
  refine ⟨_, step_advance.mpr ⟨thread, manager, some stage, found, rfl, advanced, rfl⟩, ?_, ?_, rfl⟩
  · exact Table.get?_modify_self found _
  · exact Table.erase_modify _ _ _

theorem At.finish (at_ : At thread others h s) (outcome : Outcome)
    (advanced : h.manager.advance thread.service thread.operation thread.stage outcome = some (manager, none)) (done : Bool) :
    ∃ after, Step s (.advance thread.ticket outcome, done) after ∧ after.process.threads = others ∧
      after.holdings = ⟨manager, effect h.manager thread.service h.disks done thread.operation thread.stage outcome⟩ := by
  obtain ⟨found, rfl, rfl⟩ := at_
  exact ⟨_, step_advance.mpr ⟨thread, manager, none, found, rfl, advanced, rfl⟩, rfl, rfl⟩

theorem Alone.cons {ticket : Nat} {outcome : Outcome} {middle after : Site} {done : Bool} (first : Step s (.advance ticket outcome, done) middle)
    (rest : Alone ticket middle after) : Alone ticket s after := by
  obtain ⟨events, run, own⟩ := rest
  exact ⟨_, Run.cons first run, List.forall_mem_cons.mpr ⟨⟨outcome, done, rfl⟩, own⟩⟩

theorem Alone.single {ticket : Nat} {outcome : Outcome} {after : Site} {done : Bool} (step : Step s (.advance ticket outcome, done) after) :
    Alone ticket s after :=
  Alone.cons step ⟨[], .start, fun _ member => nomatch member⟩

variable {ticket sid : Nat} {calls : Calls}

/-- The thread of a creation does what `_do_create_volume` says. -/
theorem doCreateVolume_alone {volName agentId : String} {volSize : Int}
    (at_ : At ⟨ticket, sid, .createVolume volName volSize agentId, .begin⟩ others h s) {node : ServiceNode}
    (known : h.manager.nodeById agentId = some (.node node)) :
    ∃ after, Alone ticket s after ∧ after.process.threads = others ∧
      after.holdings = h.doCreateVolume sid volName volSize agentId calls := by
  have began : h.manager.advance sid (.createVolume volName volSize agentId) .begin .runs =
      some (h.manager, some (.creatingVolume node.cloudName)) := by
    simp only [ApplicationManager.advance, ApplicationManager.doCreateVolume, known]
  obtain ⟨creating, first, atCreating⟩ := at_.step _ began true
  cases created : calls.create with
  | none =>
    have failed : h.manager.advance sid (.createVolume volName volSize agentId) (.creatingVolume node.cloudName)
        (.volumeReply none) = some (h.manager.setState sid .error, none) := rfl
    obtain ⟨after, second, threads, holdings⟩ := atCreating.finish _ failed true
    refine ⟨after, Alone.cons first (Alone.single second), threads, holdings.trans ?_⟩
    simp only [Holdings.doCreateVolume, known, created]
    rfl
  | some volumeId =>
    cases device : Holdings.deviceFor h.manager agentId with
    | none =>
      have failed : h.manager.advance sid (.createVolume volName volSize agentId) (.creatingVolume node.cloudName)
          (.volumeReply (some volumeId)) = some (h.manager.setState sid .error, none) := by
        have none_ := device
        unfold Holdings.deviceFor at none_
        simp only [ApplicationManager.advance, ApplicationManager.doCreateVolume, none_]
      obtain ⟨after, second, threads, holdings⟩ := atCreating.finish _ failed true
      refine ⟨after, Alone.cons first (Alone.single second), threads, holdings.trans ?_⟩
      simp only [Holdings.doCreateVolume, known, created, device]
      rfl
    | some devName =>
      have replied : h.manager.advance sid (.createVolume volName volSize agentId) (.creatingVolume node.cloudName)
          (.volumeReply (some volumeId)) =
            some (h.manager, some (.attachingVolume ⟨volName, volumeId, volSize, agentId, devName, node.cloudName⟩)) := by
        have some_ := device
        unfold Holdings.deviceFor at some_
        simp only [ApplicationManager.advance, ApplicationManager.doCreateVolume, some_]
      obtain ⟨attaching, second, atAttaching⟩ := atCreating.step _ replied true
      obtain ⟨configuring, third, atConfiguring⟩ := atAttaching.step .runs rfl calls.attach
      cases hook : calls.hook with
      | true =>
        obtain ⟨after, fourth, threads, holdings⟩ := atConfiguring.finish (.answers true) rfl true
        refine ⟨after, Alone.cons first (Alone.cons second (Alone.cons third (Alone.single fourth))), threads, holdings.trans ?_⟩
        simp only [Holdings.doCreateVolume, known, created, device, hook]
        cases calls.attach <;> rfl
      | false =>
        obtain ⟨after, fourth, threads, holdings⟩ := atConfiguring.finish .raises rfl true
        refine ⟨after, Alone.cons first (Alone.cons second (Alone.cons third (Alone.single fourth))), threads, holdings.trans ?_⟩
        simp only [Holdings.doCreateVolume, known, created, device, hook]
        cases calls.attach <;> rfl

/-- The thread of a deletion does what `_do_delete_volume` says. -/
theorem doDeleteVolume_alone {volume : Volume} (at_ : At ⟨ticket, sid, .deleteVolume volume, .begin⟩ others h s) :
    ∃ after, Alone ticket s after ∧ after.process.threads = others ∧ after.holdings = h.doDeleteVolume sid volume calls := by
  obtain ⟨destroying, first, atDestroying⟩ := at_.step .runs rfl calls.detach
  have ended : h.manager.advance sid (.deleteVolume volume) (.destroyingVolume volume) (.destroyReply calls.destroy) =
      some (if calls.destroy && (h.manager.volumes.get? volume.volName).isSome then
        { h.manager with volumes := h.manager.volumes.erase volume.volName }.setState sid .running else h.manager, none) := by
    simp only [ApplicationManager.advance, ApplicationManager.doDeleteVolume]
    split <;> rfl
  obtain ⟨after, second, threads, holdings⟩ := atDestroying.finish _ ended true
  refine ⟨after, Alone.cons first (Alone.single second), threads, holdings.trans ?_⟩
  cases found : (h.manager.volumes.get? volume.volName).isSome <;> cases detach : calls.detach <;> cases destroy : calls.destroy <;>
    simp [Holdings.doDeleteVolume, Holdings.forgetVolume, Holdings.setState, effect, found, detach, destroy]

/-- Once a request is accepted, the thread of an operation that nothing comes
between does what the operation says. -/
theorem carryOut_alone {op : VolumeOperation} (at_ : At ⟨ticket, sid, op.operation, .begin⟩ others h s)
    (accepted : op.Accepted h.manager sid) :
    ∃ after, Alone ticket s after ∧ after.process.threads = others ∧ after.holdings = op.carryOut sid calls h := by
  cases op with
  | create volName volSize agentId =>
    obtain ⟨-, node, known⟩ := accepted.node
    exact doCreateVolume_alone at_ known
  | delete volume => exact doDeleteVolume_alone at_

end

end Site

end ConPaaS
