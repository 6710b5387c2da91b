import ConPaaS.Director.Credits
import ConPaaS.Lib.Transition

namespace ConPaaS

open Keyed Transition

/-- A machine at the default cloud, with the time it was launched at. -/
structure CloudVm where
  vmid : String
  launched : Int
  deriving DecidableEq, Repr

/-- How far a run of `check_sanity` is: it makes a node of each machine the cloud
reports, with the time as its age, and tests the nodes against the rows of
resources. -/
inductive CheckPhase
  | listing (instances : List String) (vms : List (String × Int))
  | testing (vms : List (String × Int)) (resVmids vmsToRemove : List String)
  deriving DecidableEq, Repr

/-- A run of `check_sanity`, with the machines that it ought to remove. -/
structure SanityCheck where
  phase : CheckPhase
  orphans : List String
  deriving DecidableEq, Repr

/-- The default cloud, the tables, the machines of calls of `create_nodes` in
progress, the ids the cloud has given so far, and the run of `check_sanity`, if
there is one. -/
structure Sanity where
  now : Int
  cloudName : String
  vms : List CloudVm
  db : Database
  starting : List String
  used : List String
  check : Option SanityCheck

/-- What happens next: time passes, a call launches a machine, inserts a row or
fails, a row or a machine goes, or `check_sanity` takes its next step. -/
inductive SanityEvent
  | tick (seconds : Nat)
  | launch (vmid : String)
  | enroll (res : Resource)
  | abandon (vmid : String)
  | removeRow (rid : Int)
  | killed (vmid : String)
  | listVms
  | makeNode
  | readRows
  | test
  | delete

namespace Sanity

variable (s : Sanity)

/-- A machine of the default cloud with a row. -/
def hasRow (vmid : String) : Bool := s.db.resource.rows.any fun res => res.vmid = vmid && res.cloud = s.cloudName

/-- The machines without a row that belong to no call in progress and are there
for longer than the grace period. -/
def orphans : List String :=
  (s.vms.filter fun vm => !s.hasRow vm.vmid && vm.vmid ∉ s.starting && 1 < minsFromCreation s.now vm.launched).map CloudVm.vmid

def handle : SanityEvent → Option Sanity
  | .tick seconds => some { s with now := s.now + seconds }
  | .launch vmid =>
    if vmid ∈ s.used then none
    else some { s with vms := s.vms ++ [⟨vmid, s.now⟩], starting := s.starting ++ [vmid], used := s.used ++ [vmid] }
  | .enroll res =>
    if s.db.resource.get? res.rid = none ∧ (res.cloud = s.cloudName → res.vmid ∈ s.starting) then
      some { s with
        db := { s.db with resource := s.db.resource.put res }
        starting := if res.cloud = s.cloudName then s.starting.filter (· ≠ res.vmid) else s.starting }
    else none
  | .abandon vmid => some { s with starting := s.starting.filter (· ≠ vmid) }
  | .removeRow rid => some { s with db := { s.db with resource := s.db.resource.erase rid } }
  | .killed vmid => some { s with vms := s.vms.filter fun vm => vm.vmid ≠ vmid }
  | .listVms =>
    match s.check with
    | none => some { s with check := some ⟨.listing (s.vms.map CloudVm.vmid) [], s.orphans⟩ }
    | some _ => none
  | .makeNode =>
    match s.check with
    | some ⟨.listing (vmid :: rest) vms, orphans⟩ => some { s with check := some ⟨.listing rest (vms ++ [(vmid, s.now)]), orphans⟩ }
    | _ => none
  | .readRows =>
    match s.check with
    | some ⟨.listing [] vms, orphans⟩ =>
      some { s with check := some ⟨.testing vms (s.db.resource.rows.map Resource.vmid) [], orphans⟩ }
    | _ => none
  | .test =>
    match s.check with
    | some ⟨.testing ((vmid, created) :: rest) resVmids vmsToRemove, orphans⟩ =>
      some { s with
        check := some ⟨.testing rest resVmids
          (if vmid ∉ resVmids ∧ 1 < minsFromCreation s.now created then vmsToRemove ++ [vmid] else vmsToRemove), orphans⟩ }
    | _ => none
  | .delete =>
    match s.check with
    | some ⟨.testing [] _ vmsToRemove, _⟩ => some { s with vms := s.vms.filter fun vm => vm.vmid ∉ vmsToRemove, check := none }
    | _ => none

def Step (before : Sanity) (event : SanityEvent) (after : Sanity) : Prop := before.handle event = some after

/-- A machine that is to be removed is tested two minutes or more after its node
was made and shares its id with no row, and any other one that had no row is
tested before. -/
def InTime : SanityCheck → Prop
  | ⟨.testing ((vmid, created) :: _) resVmids _, orphans⟩ =>
    (vmid ∈ orphans → vmid ∉ resVmids ∧ 1 < minsFromCreation s.now created) ∧
      (vmid ∉ resVmids → s.hasRow vmid = true ∨ vmid ∈ s.starting → ¬ 1 < minsFromCreation s.now created)
  | _ => True

instance : ∀ check, Decidable (s.InTime check)
  | ⟨.testing (_ :: _) _ _, _⟩ => inferInstanceAs (Decidable (_ ∧ _))
  | ⟨.testing [] _ _, _⟩ => isTrue trivial
  | ⟨.listing _ _, _⟩ => isTrue trivial

def Timely : SanityEvent → Prop
  | .test => ∀ check ∈ s.check, s.InTime check
  | _ => True

instance : ∀ event, Decidable (s.Timely event)
  | .test => inferInstanceAs (Decidable (∀ check ∈ s.check, s.InTime check))
  | .tick _ | .launch _ | .enroll _ | .abandon _ | .removeRow _ | .killed _ => isTrue trivial
  | .listVms | .makeNode | .readRows | .delete => isTrue trivial

/-- The end of a run of `check_sanity` removes the machines that it ought to, and
none that has a row or belongs to a call in progress. -/
structure Exact (s after : Sanity) : Prop where
  prompt : ∀ check ∈ s.check, ∀ vm ∈ after.vms, vm.vmid ∉ check.orphans
  safe : ∀ vm ∈ s.vms, s.hasRow vm.vmid = true ∨ vm.vmid ∈ s.starting → vm ∈ after.vms

/-- A director that begins with some tables and some machines at the cloud. -/
def started (now : Int) (cloudName : String) (db : Database) (vms : List CloudVm) : Sanity :=
  ⟨now, cloudName, vms, db, [], vms.map CloudVm.vmid, none⟩

/-- A machine without a row that belongs to no call in progress. -/
structure Forgotten (s : Sanity) (vmid : String) : Prop where
  used : vmid ∈ s.used
  row : s.hasRow vmid = false
  idle : vmid ∉ s.starting

end Sanity

namespace CheckPhase

/-- The machines a run has not tested yet. -/
def left : CheckPhase → List String
  | listing instances vms => instances ++ vms.map Prod.fst
  | testing vms _ _ => vms.map Prod.fst

/-- The machines a run is about to remove. -/
def removed : CheckPhase → List String
  | listing _ _ => []
  | testing _ _ vmsToRemove => vmsToRemove

end CheckPhase

/-- The machines a run ought to remove are yet to be tested or about to be
removed, and those about to be removed may be. -/
structure SanityCheck.Sound (s : Sanity) (check : SanityCheck) : Prop where
  listed : ∀ vmid ∈ check.phase.left, vmid ∈ s.used
  orphans : ∀ vmid ∈ check.orphans, s.Forgotten vmid
  covered : ∀ vmid ∈ check.orphans, vmid ∈ check.phase.left ∨ vmid ∈ check.phase.removed
  removed : ∀ vmid ∈ check.phase.removed, s.Forgotten vmid

structure Sanity.Sound (s : Sanity) : Prop where
  vms : ∀ vm ∈ s.vms, vm.vmid ∈ s.used
  check : ∀ check ∈ s.check, check.Sound s

namespace Sanity

variable {s after : Sanity} {event : SanityEvent} {events : List SanityEvent} {vmid : String}

theorem hasRow_false : s.hasRow vmid = false ↔
    ∀ res ∈ s.db.resource.rows, res.vmid = vmid → res.cloud ≠ s.cloudName := by
  simp [hasRow]

theorem orphan_forgotten (sound : ∀ vm ∈ s.vms, vm.vmid ∈ s.used) (member : vmid ∈ s.orphans) : s.Forgotten vmid := by
  obtain ⟨vm, inside, rfl⟩ := List.mem_map.mp member
  obtain ⟨stored, meets⟩ := List.mem_filter.mp inside
  simp only [Bool.and_eq_true, Bool.not_eq_true', decide_eq_true_eq] at meets
  exact ⟨sound vm stored, meets.1.1, meets.1.2⟩

theorem orphan_listed (member : vmid ∈ s.orphans) : vmid ∈ s.vms.map CloudVm.vmid := by
  obtain ⟨vm, inside, rfl⟩ := List.mem_map.mp member
  exact List.mem_map_of_mem (List.mem_of_mem_filter inside)

/-- A machine that is forgotten stays so, as only a call in progress inserts rows
and an id is given once. -/
theorem Forgotten.step (forgotten : s.Forgotten vmid) (taken : Step s event after) : after.Forgotten vmid := by
  have unnamed := hasRow_false.mp forgotten.row
  cases event with
  | tick seconds =>
    cases taken
    exact ⟨forgotten.used, forgotten.row, forgotten.idle⟩
  | launch other =>
    simp only [Step, handle] at taken
    split at taken
    · cases taken
    · rename_i fresh
      cases taken
      refine ⟨List.mem_append_left _ forgotten.used, forgotten.row, fun member => ?_⟩
      rcases List.mem_append.mp member with old | new
      · exact forgotten.idle old
      · exact fresh (List.mem_singleton.mp new ▸ forgotten.used)
  | enroll res =>
    simp only [Step, handle] at taken
    split at taken
    · rename_i allowed
      cases taken
      refine ⟨forgotten.used, hasRow_false.mpr fun row member named => ?_, fun member => ?_⟩
      · rcases Table.mem_put.mp member with rfl | ⟨old, -⟩
        · exact fun here => forgotten.idle (named ▸ allowed.2 here)
        · exact unnamed row old named
      · dsimp only at member
        split at member
        · exact forgotten.idle (List.mem_of_mem_filter member)
        · exact forgotten.idle member
    · cases taken
  | abandon other =>
    cases taken
    exact ⟨forgotten.used, forgotten.row, fun member => forgotten.idle (List.mem_of_mem_filter member)⟩
  | removeRow rid =>
    cases taken
    exact ⟨forgotten.used, hasRow_false.mpr fun row member => unnamed row (Table.mem_erase.mp member).1, forgotten.idle⟩
  | killed other =>
    cases taken
    exact ⟨forgotten.used, forgotten.row, forgotten.idle⟩
  | listVms | makeNode | readRows | test | delete =>
    simp only [Step, handle] at taken
    split at taken
    · cases taken
      exact ⟨forgotten.used, forgotten.row, forgotten.idle⟩
    · cases taken

theorem used_step (taken : Step s event after) {id : String} (given : id ∈ s.used) : id ∈ after.used := by
  cases event with
  | tick | abandon | removeRow | killed =>
    cases taken
    exact given
  | launch | enroll =>
    simp only [Step, handle] at taken
    split at taken
    · cases taken <;> simp [given]
    · cases taken <;> simp [given]
  | listVms | makeNode | readRows | test | delete =>
    simp only [Step, handle] at taken
    split at taken
    · cases taken
      exact given
    · cases taken

/-- What a step makes of the machines at the cloud. -/
theorem vms_step (sound : ∀ vm ∈ s.vms, vm.vmid ∈ s.used) (taken : Step s event after) : ∀ vm ∈ after.vms, vm.vmid ∈ after.used := by
  intro vm member
  by_cases old : vm ∈ s.vms
  · exact used_step taken (sound vm old)
  · cases event with
    | tick | abandon | removeRow =>
      cases taken
      exact absurd member old
    | killed other =>
      cases taken
      exact absurd (List.mem_of_mem_filter member) old
    | launch other =>
      simp only [Step, handle] at taken
      split at taken
      · cases taken
      · cases taken
        rcases List.mem_append.mp member with inside | new
        · exact absurd inside old
        · cases List.mem_singleton.mp new
          exact List.mem_append_right _ (List.mem_singleton_self _)
    | enroll res =>
      simp only [Step, handle] at taken
      split at taken
      · cases taken
        exact absurd member old
      · cases taken
    | delete =>
      simp only [Step, handle] at taken
      split at taken
      · cases taken
        exact absurd (List.mem_of_mem_filter member) old
      · cases taken
    | listVms | makeNode | readRows | test =>
      simp only [Step, handle] at taken
      split at taken
      · cases taken
        exact absurd member old
      · cases taken

end Sanity

namespace SanityCheck.Sound

open Sanity

variable {s after : Sanity} {event : SanityEvent} {check : SanityCheck}

theorem kept (sound : check.Sound s) (taken : Step s event after) : check.Sound after where
  listed vmid member := used_step taken (sound.listed vmid member)
  orphans vmid member := (sound.orphans vmid member).step taken
  covered := sound.covered
  removed vmid member := (sound.removed vmid member).step taken

/-- A step of `check_sanity` that only moves machines from one list to the next. -/
theorem move {phase : CheckPhase} (sound : check.Sound s) (left : ∀ vmid, vmid ∈ phase.left ↔ vmid ∈ check.phase.left)
    (removed : phase.removed = check.phase.removed) : Sound s ⟨phase, check.orphans⟩ where
  listed vmid member := sound.listed vmid ((left vmid).mp member)
  orphans := sound.orphans
  covered vmid member := by
    rw [removed, left]
    exact sound.covered vmid member
  removed vmid member := sound.removed vmid (removed ▸ member)

/-- A test in time leaves no machine out that is to be removed, and takes no other. -/
theorem test {vmid : String} {created : Int} {rest : List (String × Int)} {resVmids vmsToRemove orphans : List String}
    (sound : Sound s ⟨.testing ((vmid, created) :: rest) resVmids vmsToRemove, orphans⟩)
    (found : vmid ∈ orphans → vmid ∉ resVmids ∧ 1 < minsFromCreation s.now created)
    (spared : vmid ∉ resVmids → s.hasRow vmid = true ∨ vmid ∈ s.starting → ¬ 1 < minsFromCreation s.now created) :
    Sound s ⟨.testing rest resVmids
      (if vmid ∉ resVmids ∧ 1 < minsFromCreation s.now created then vmsToRemove ++ [vmid] else vmsToRemove), orphans⟩ where
  listed other member := sound.listed other (List.mem_cons_of_mem _ member)
  orphans := sound.orphans
  covered other member := by
    rcases sound.covered other member with left | removed
    · rcases List.mem_cons.mp left with rfl | later
      · right
        simp only [CheckPhase.removed, if_pos (found member), List.mem_append, List.mem_singleton, or_true]
      · exact .inl later
    · right
      simp only [CheckPhase.removed]
      split
      · exact List.mem_append_left _ removed
      · exact removed
  removed other member := by
    simp only [CheckPhase.removed] at member
    split at member
    · rename_i old
      rcases List.mem_append.mp member with before | new
      · exact sound.removed other before
      · obtain rfl := List.mem_singleton.mp new
        have free : ¬ (s.hasRow other = true ∨ other ∈ s.starting) := fun busy => spared old.1 busy old.2
        rw [not_or, Bool.not_eq_true] at free
        exact ⟨sound.listed other (List.mem_cons_self ..), free.1, free.2⟩
    · exact sound.removed other member

end SanityCheck.Sound

namespace Sanity

variable {s after : Sanity} {event : SanityEvent} {events : List SanityEvent}

theorem check_step (sound : s.Sound) (timely : s.Timely event) (taken : Step s event after) :
    ∀ check ∈ after.check, check.Sound after := by
  intro check running
  have old : ∀ before ∈ s.check, before.Sound after := fun before member => (sound.check before member).kept taken
  cases event with
  | tick | abandon | removeRow | killed =>
    cases taken
    exact old check running
  | launch | enroll =>
    simp only [Step, handle] at taken
    split at taken
    · cases taken <;> exact old check running
    · cases taken <;> exact old check running
  | listVms =>
    simp only [Step, handle] at taken
    split at taken
    · obtain rfl := Option.some.inj taken
      cases running
      refine ⟨fun vmid member => ?_, fun vmid member => ?_, fun vmid member => .inl ?_, by rintro _ ⟨⟩⟩
      · obtain ⟨vm, inside, rfl⟩ : ∃ vm ∈ s.vms, vm.vmid = vmid := by simpa [CheckPhase.left] using member
        exact sound.vms vm inside
      · obtain ⟨used, row, idle⟩ := orphan_forgotten sound.vms member
        exact ⟨used, row, idle⟩
      · exact List.mem_append_left _ (orphan_listed member)
    · cases taken
  | makeNode =>
    simp only [Step, handle] at taken
    split at taken
    · rename_i standing
      have held := old _ standing
      cases taken
      cases running
      exact held.move (fun vmid => by simp [CheckPhase.left, or_comm, or_left_comm]) rfl
    · cases taken
  | readRows =>
    simp only [Step, handle] at taken
    split at taken
    · rename_i standing
      have held := old _ standing
      cases taken
      cases running
      exact held.move (fun vmid => by simp [CheckPhase.left]) rfl
    · cases taken
  | test =>
    simp only [Step, handle] at taken
    split at taken
    · rename_i standing
      have held := old _ standing
      have timely := timely _ standing
      cases taken
      cases running
      exact held.test timely.1 timely.2
    · cases taken
  | delete =>
    simp only [Step, handle] at taken
    split at taken
    · cases taken
      cases running
    · cases taken

theorem Sound.step (sound : s.Sound) (timely : s.Timely event) (taken : Step s event after) : after.Sound :=
  ⟨vms_step sound.vms taken, check_step sound timely taken⟩

theorem Sound.run {now : Int} {cloudName : String} {db : Database} {vms : List CloudVm}
    (run : Run (Guarded Timely Step) (started now cloudName db vms) events s) : s.Sound :=
  run.guarded_invariant ⟨fun _ member => List.mem_map_of_mem member, nofun⟩ fun sound timely taken => sound.step timely taken

theorem Sound.exact (sound : s.Sound) (taken : Step s .delete after) : Exact s after := by
  simp only [Step, handle] at taken
  split at taken
  · rename_i vmsToRemove standing
    have held := sound.check _ standing
    cases taken
    refine ⟨fun check running vm member listed => ?_, fun vm member busy => ?_⟩
    · cases running.symm.trans standing
      rcases held.covered vm.vmid listed with left | removed
      · cases left
      · exact of_decide_eq_true (List.mem_filter.mp member).2 removed
    · refine List.mem_filter.mpr ⟨member, decide_eq_true fun removed => ?_⟩
      have forgotten := held.removed vm.vmid removed
      rcases busy with row | starting
      · rw [forgotten.row] at row
        cases row
      · exact forgotten.idle starting
  · cases taken

/-- Whatever happens between the steps of the runs of `check_sanity`, each run
removes exactly what it ought to if its tests are timely. -/
theorem checkSanity_exact {now : Int} {cloudName : String} {db : Database} {vms : List CloudVm}
    (run : Run (Guarded Timely Step) (started now cloudName db vms) events s) (taken : Step s .delete after) : Exact s after :=
  (Sound.run run).exact taken

/-- A director without applications, and a cloud without machines. -/
def bare : Sanity := started 0 "iaas" ⟨.empty, .empty, .empty, .empty⟩ []

/-- A call fails, another one inserts its row and a third one is in progress when
`check_sanity` runs. Between the node of the first machine and its test two
minutes go by. -/
def slowCheck : List SanityEvent :=
  [.launch "vm-1", .abandon "vm-1", .launch "vm-2", .enroll ⟨1, "vm-2", some 1, some 0, 0, "10.0.0.2", "manager", "iaas", 0⟩,
    .tick 200, .launch "vm-3", .listVms, .makeNode, .tick 120, .makeNode, .makeNode, .readRows, .test, .test, .test]

theorem slowCheck_exact : ∃ s after, Run (Guarded Timely Step) bare slowCheck s ∧ Step s .delete after ∧
    after.vms.map CloudVm.vmid = ["vm-2", "vm-3"] ∧ Exact s after := by
  have ended : ((play (fun s event => if s.Timely event then handle s event else none) bare slowCheck).bind fun s =>
      (handle s .delete).map fun after => (s, after)).map (fun states => states.2.vms.map CloudVm.vmid) = some ["vm-2", "vm-3"] := by
    decide +kernel
  obtain ⟨⟨s, after⟩, both, vms⟩ := Option.map_eq_some_iff.mp ended
  obtain ⟨s, played, last⟩ := Option.bind_eq_some_iff.mp both
  obtain ⟨after, taken, same⟩ := Option.map_eq_some_iff.mp last
  cases same
  have run := Run.play_guarded played
  exact ⟨s, after, run, taken, vms, checkSanity_exact run taken⟩

/-- A call fails, and `check_sanity` runs an hour later. -/
def abandonedCall : List SanityEvent :=
  [.launch "vm-1", .abandon "vm-1", .tick 3600, .listVms, .makeNode, .readRows, .test]

theorem abandonedCall_left : ¬∀ (now : Int) (cloudName : String) (db : Database) (vms : List CloudVm) (events : List SanityEvent)
    (s after : Sanity), Run Step (started now cloudName db vms) events s → Step s .delete after → Exact s after := by
  intro law
  have ended : ((play handle bare abandonedCall).bind fun s => (handle s .delete).map fun after => (s, after)).map
      (fun states => (states.1.check.map SanityCheck.orphans, states.2.vms)) = some (some ["vm-1"], [⟨"vm-1", 0⟩]) := by
    decide +kernel
  obtain ⟨⟨s, after⟩, both, result⟩ := Option.map_eq_some_iff.mp ended
  obtain ⟨s, played, last⟩ := Option.bind_eq_some_iff.mp both
  obtain ⟨after, taken, same⟩ := Option.map_eq_some_iff.mp last
  cases same
  obtain ⟨running, left⟩ := Prod.mk.inj result
  obtain ⟨check, standing, orphans⟩ := Option.map_eq_some_iff.mp running
  have stays : ⟨"vm-1", 0⟩ ∈ after.vms := left ▸ List.mem_singleton_self _
  have prompt := (law 0 "iaas" _ [] abandonedCall s after (Run.play played) taken).prompt check standing _ stays
  exact prompt (orphans ▸ List.mem_singleton_self _)

end Sanity

end ConPaaS
