import ConPaaS.Generic.Service

namespace ConPaaS

open Keyed Transition Fallible BaseManager

structure CodeVersion where
  id : String
  filename : String
  type : String
  description : String
  deriving DecidableEq, Repr

/-- `CodeVersion.__repr__`. -/
def CodeVersion.repr (version : CodeVersion) : String :=
  "CodeVersion(id=" ++ version.id ++ ", filename=" ++ version.filename ++ ")"

/-- The versions of the code of a service, under their ids. -/
abbrev CodeVersions := Table CodeVersion.id

/-- `is_in_list(config.codeVersions)` for a parameter that was given. -/
def CodeVersions.isInList (versions : CodeVersions) (codeVersionId : String) : Except String Unit :=
  if codeVersionId ∈ versions.rows.map CodeVersion.id then .ok ()
  else .error ("Parameter 'codeVersionId': '" ++ codeVersionId ++ "' must be one of \x7b" ++
    ", ".intercalate (versions.rows.map fun version => "'" ++ version.id ++ "': " ++ version.repr) ++ "\x7d.")

/-- The checks of `delete_code_version`. The file of a version that was not
pushed by git has to be there. -/
def CodeVersions.checkDelete (versions : CodeVersions) (currentCodeVersion : String) (codeRepo : List String)
    (codeVersionId : String) : Except String Unit := do
  versions.isInList codeVersionId
  if codeVersionId = currentCodeVersion then .error "Invalid arguments (Cannot remove the active code version)"
  else if ((versions.get? codeVersionId).any fun version => version.type ≠ "git") ∧ codeVersionId ∉ codeRepo then
    .error "Invalid arguments (Invalid codeVersionId)"
  else .ok ()

/-- What the checks of the parameter `phpconf` come to. -/
inductive PhpConf
  | absent
  | accepted
  | unexpected (key : String)
  | invalid
  deriving DecidableEq, Repr

/-- The states in which a new version is taken. -/
def updateStates : List ManagerState := [.init, .stopped, .running]

/-- The checks of `update_php_configuration`, and whether PHP has to be
configured. -/
def CodeVersions.checkPhpConfiguration (versions : CodeVersions) (state : ManagerState) (codeVersionId : Option String)
    (phpconf : PhpConf) : Except String Bool := do
  (codeVersionId.map versions.isInList).getD (.ok ())
  checkState state updateStates
  match phpconf with
  | .absent =>
    if codeVersionId = none then
      .error "Missing argument \"at least one of \"codeVersionId\" or \"phpconf\"\""
    else .ok false
  | .accepted => .ok true
  | .unexpected key => .error ("Unexpected arguments phpconf attribute \"" ++ key ++ "\"")
  | .invalid => .error "Invalid arguments"

theorem CodeVersions.isInList_ok {versions : CodeVersions} {codeVersionId : String}
    (checked : versions.isInList codeVersionId = .ok ()) : codeVersionId ∈ versions.rows.map CodeVersion.id := by
  unfold isInList at checked
  split at checked
  · assumption
  · cases checked

theorem CodeVersions.checkDelete_ok {versions : CodeVersions} {currentCodeVersion codeVersionId : String} {codeRepo : List String}
    (checked : versions.checkDelete currentCodeVersion codeRepo codeVersionId = .ok ()) : codeVersionId ≠ currentCodeVersion := by
  obtain ⟨_, _, checked⟩ := bind_ok.mp checked
  split at checked
  · cases checked
  · assumption

theorem CodeVersions.checkPhpConfiguration_ok {versions : CodeVersions} {state : ManagerState} {codeVersionId : Option String}
    {phpconf : PhpConf} {configures : Bool}
    (checked : versions.checkPhpConfiguration state codeVersionId phpconf = .ok configures) :
    ∀ version ∈ codeVersionId, version ∈ versions.rows.map CodeVersion.id := by
  obtain ⟨_, chosen, _⟩ := bind_ok.mp checked
  rintro version rfl
  exact isInList_ok chosen

/-- A new version leaves the others known. -/
theorem CodeVersions.known_put {versions : CodeVersions} (version : CodeVersion) {codeVersionId : String}
    (known : codeVersionId ∈ versions.rows.map CodeVersion.id) :
    codeVersionId ∈ (versions.put version).rows.map CodeVersion.id := by
  obtain ⟨stored, inside, rfl⟩ := List.mem_map.mp known
  by_cases same : stored.id = version.id
  · exact List.mem_map.mpr ⟨version, Table.mem_put.mpr (.inl rfl), same.symm⟩
  · exact List.mem_map.mpr ⟨stored, Table.mem_put.mpr (.inr ⟨inside, same⟩), rfl⟩

/-- A version that is deleted leaves the others known. -/
theorem CodeVersions.known_erase {versions : CodeVersions} {deleted codeVersionId : String}
    (known : codeVersionId ∈ versions.rows.map CodeVersion.id) (apart : codeVersionId ≠ deleted) :
    codeVersionId ∈ (versions.erase deleted).rows.map CodeVersion.id := by
  obtain ⟨stored, inside, rfl⟩ := List.mem_map.mp known
  exact List.mem_map.mpr ⟨stored, Table.mem_erase.mpr ⟨inside, apart⟩, rfl⟩

/-- The managers whose background threads change the current version of the code. -/
inductive CodeService
  | php
  | generic
  deriving DecidableEq, Repr

/-- What a background thread still has to do: to make a version the current
one, after the backends were told of a new configuration of PHP, or to push the
current version to the nodes. -/
inductive CodeWork
  | updating (codeVersionId : Option String) (phpconf : Bool)
  | deploying
  deriving DecidableEq, Repr

/-- The requests about the code. An upload leaves a file with an id that
`mkstemp` has made up, unless the archive is refused. -/
inductive CodeRequest
  | uploadCodeVersion (codeVersionId filename type description : String) (archive : Except String Unit)
  | onGitPush (revision description : String)
  | updatePhpConfiguration (codeVersionId : Option String) (phpconf : PhpConf)
  | enableCode (codeVersionId : String) (scriptsRunning : Bool)
  | deleteCodeVersion (codeVersionId : String)

/-- What happens next: a request comes in, the one that is being served goes on,
or a thread does. The other requests and threads of the manager do not touch the
code, so that of them only the state they leave matters. -/
inductive CodeEvent
  | request (request : CodeRequest)
  | removed
  | advance (position : Nat) (agents : AgentsReply)
  | others (state : ManagerState)

/-- The code of a service with the threads that change it. Requests are served
one after the other, but a thread can go on while a version is being deleted. -/
structure CodeManager where
  service : CodeService
  state : ManagerState
  codeVersions : CodeVersions
  currentCodeVersion : String
  codeRepo : List String
  inFlight : List CodeWork
  deleting : Option String

namespace CodeManager

variable (m : CodeManager)

/-- `_create_initial_configuration`. -/
def created (service : CodeService) : CodeManager where
  service
  state := .init
  codeVersions := ⟨[⟨"code-default", "code-default.tar", "tar", "Initial version"⟩], List.nodup_singleton _⟩
  currentCodeVersion := "code-default"
  codeRepo := ["code-default"]
  inFlight := []
  deleting := none

def scriptsAreRunning : String :=
  "ERROR: Scripts are still running inside at least one agent. " ++
    "Please wait for them to finish execution or call 'interrupt' first."

/-- The version of a request becomes the current one at once, or in a thread
where the service is running. -/
def update (codeVersionId : Option String) (phpconf : Bool) : CodeManager :=
  if m.state = .running then
    { m with state := .adapting, inFlight := m.inFlight ++ [.updating codeVersionId phpconf] }
  else
    match codeVersionId with
    | none => m
    | some codeVersionId =>
      -- The test of PHP is one for an empty string as well.
      if m.service = .php ∧ codeVersionId = "" then m else { m with currentCodeVersion := codeVersionId }

/-- `update_php_configuration`. -/
def updatePhpConfiguration (codeVersionId : Option String) (phpconf : PhpConf) : Except String CodeManager :=
  (m.codeVersions.checkPhpConfiguration m.state codeVersionId phpconf).map (m.update codeVersionId)

/-- `enable_code`. -/
def enableCode (codeVersionId : String) (scriptsRunning : Bool) : Except String CodeManager := do
  m.codeVersions.isInList codeVersionId
  checkState m.state updateStates
  if m.state = .running ∧ scriptsRunning = true then .error scriptsAreRunning
  else .ok (m.update codeVersionId false)

/-- The beginning of `delete_code_version`. -/
def deleteCodeVersion (codeVersionId : String) : Except String CodeManager :=
  (m.codeVersions.checkDelete m.currentCodeVersion m.codeRepo codeVersionId).map fun _ =>
    { m with deleting := some codeVersionId, codeRepo := m.codeRepo.erase codeVersionId }

/-- The answer to a request: an error, or what has become of the manager. -/
def answer : CodeRequest → Except String CodeManager
  | .uploadCodeVersion codeVersionId filename type description archive =>
    archive.map fun _ => { m with
      codeVersions := m.codeVersions.put ⟨codeVersionId, filename, type, description⟩
      codeRepo := codeVersionId :: m.codeRepo }
  | .onGitPush revision description =>
    .ok { m with codeVersions := m.codeVersions.put ⟨"git-" ++ revision, revision, "git", description⟩ }
  | .updatePhpConfiguration codeVersionId phpconf => m.updatePhpConfiguration codeVersionId phpconf
  | .enableCode codeVersionId scriptsRunning => m.enableCode codeVersionId scriptsRunning
  | .deleteCodeVersion codeVersionId => m.deleteCodeVersion codeVersionId

/-- The thread at a position has ended. -/
def ended (position : Nat) : CodeManager := { m with inFlight := m.inFlight.eraseIdx position }

/-- A thread that is told of an exception by the agents sets the state. One
that raises another exception leaves it. -/
def failed (position : Nat) (agents : AgentsReply) : CodeManager :=
  if agents = .agentException then { m.ended position with state := .error } else m.ended position

/-- `do_update_configuration` and `_do_enable_code`. What PHP remembers of the
version before is kept where nothing reads it. -/
def carryOut (position : Nat) (agents : AgentsReply) : CodeWork → CodeManager
  | .updating codeVersionId phpconf =>
    if phpconf = true ∧ agents ≠ .succeed then m.failed position agents
    else
      match codeVersionId with
      | none => { m.ended position with state := .running }
      | some codeVersionId =>
        { m with currentCodeVersion := codeVersionId, inFlight := m.inFlight.set position .deploying }
  | .deploying => if agents = .succeed then { m.ended position with state := .running } else m.failed position agents

/-- A service has the requests of its own kind. -/
def Serves : CodeRequest → Prop
  | .updatePhpConfiguration _ _ => m.service = .php
  | .enableCode _ _ => m.service = .generic
  | .uploadCodeVersion _ _ _ _ _ | .onGitPush _ _ | .deleteCodeVersion _ => True

instance : (request : CodeRequest) → Decidable (m.Serves request)
  | .updatePhpConfiguration _ _ | .enableCode _ _ => inferInstanceAs (Decidable (_ = _))
  | .uploadCodeVersion _ _ _ _ _ | .onGitPush _ _ | .deleteCodeVersion _ => .isTrue trivial

def handle : CodeEvent → Option CodeManager
  | .request request =>
    if m.deleting = none ∧ m.Serves request then
      match m.answer request with
      | .error _ => some m
      | .ok after => some after
    else none
  | .removed =>
    m.deleting.map fun codeVersionId => { m with codeVersions := m.codeVersions.erase codeVersionId, deleting := none }
  | .advance position agents => (m.inFlight[position]?).map (m.carryOut position agents)
  | .others state => some { m with state }

def Step (before : CodeManager) (event : CodeEvent) (after : CodeManager) : Prop := before.handle event = some after

/-- The ids of the versions there are. -/
def known : List String := m.codeVersions.rows.map CodeVersion.id

/-- No version is deleted that a thread is going to make the current one. -/
def Careful : CodeEvent → Prop
  | .request (.deleteCodeVersion codeVersionId) => ∀ phpconf, .updating (some codeVersionId) phpconf ∉ m.inFlight
  | .request _ | .removed | .advance _ _ | .others _ => True

/-- The current version is there, so is each that a thread is going to make the
current one, and none of them is being deleted. -/
structure Sound : Prop where
  current : m.currentCodeVersion ∈ m.known
  pending : ∀ codeVersionId phpconf, .updating (some codeVersionId) phpconf ∈ m.inFlight → codeVersionId ∈ m.known
  kept : ∀ codeVersionId, m.deleting = some codeVersionId → codeVersionId ≠ m.currentCodeVersion ∧
    ∀ phpconf, .updating (some codeVersionId) phpconf ∉ m.inFlight

variable {m}

theorem created_sound (service : CodeService) : (created service).Sound where
  current := List.mem_singleton.mpr rfl
  pending := fun _ _ member => by cases member
  kept := fun _ deleting => by cases deleting

theorem Sound.put (sound : m.Sound) (version : CodeVersion) (codeRepo : List String) :
    Sound { m with codeVersions := m.codeVersions.put version, codeRepo } where
  current := CodeVersions.known_put version sound.current
  pending := fun codeVersionId phpconf member => CodeVersions.known_put version (sound.pending codeVersionId phpconf member)
  kept := sound.kept

theorem Sound.update (sound : m.Sound) {codeVersionId : Option String} (phpconf : Bool) (idle : m.deleting = none)
    (chosen : ∀ version ∈ codeVersionId, version ∈ m.known) : (m.update codeVersionId phpconf).Sound := by
  unfold CodeManager.update
  split
  · refine ⟨sound.current, fun version conf member => ?_, fun version deleting => by cases idle.symm.trans deleting⟩
    rcases List.mem_append.mp member with member | member
    · exact sound.pending version conf member
    · cases List.mem_singleton.mp member
      exact chosen version rfl
  · split
    · exact sound
    · rename_i version
      split
      · exact sound
      · exact ⟨chosen version rfl, sound.pending, fun _ deleting => by cases idle.symm.trans deleting⟩

theorem Sound.answer (sound : m.Sound) {request : CodeRequest} {after : CodeManager} (idle : m.deleting = none)
    (careful : m.Careful (.request request)) (answered : m.answer request = .ok after) : after.Sound := by
  cases request with
  | uploadCodeVersion codeVersionId filename type description archive =>
    obtain ⟨_, _, rfl⟩ := map_ok.mp answered
    exact sound.put _ _
  | onGitPush revision description =>
    cases answered
    exact sound.put _ _
  | updatePhpConfiguration codeVersionId phpconf =>
    obtain ⟨configures, checked, rfl⟩ := map_ok.mp answered
    exact sound.update configures idle (CodeVersions.checkPhpConfiguration_ok checked)
  | enableCode codeVersionId scriptsRunning =>
    obtain ⟨_, chosen, answered⟩ := bind_ok.mp answered
    obtain ⟨_, _, answered⟩ := bind_ok.mp answered
    split at answered
    · cases answered
    · cases answered
      exact sound.update false idle fun version same => Option.some.inj same ▸ CodeVersions.isInList_ok chosen
  | deleteCodeVersion codeVersionId =>
    obtain ⟨_, checked, rfl⟩ := map_ok.mp answered
    refine ⟨sound.current, sound.pending, fun version deleting => ?_⟩
    cases deleting
    exact ⟨CodeVersions.checkDelete_ok checked, careful⟩

/-- A version that is neither the current one nor pending can go. -/
theorem Sound.removed (sound : m.Sound) {codeVersionId : String} (deleting : m.deleting = some codeVersionId) :
    Sound { m with codeVersions := m.codeVersions.erase codeVersionId, deleting := none } := by
  obtain ⟨other, idle⟩ := sound.kept codeVersionId deleting
  refine ⟨CodeVersions.known_erase sound.current (Ne.symm other), fun version phpconf member => ?_,
    fun _ deleting => by cases deleting⟩
  refine CodeVersions.known_erase (sound.pending version phpconf member) fun same => ?_
  exact idle phpconf (same ▸ member)

/-- What a thread does that ends, or that only has to push the code. -/
theorem Sound.fewer (sound : m.Sound) {inFlight : List CodeWork} (state : ManagerState)
    (fewer : ∀ codeVersionId phpconf, .updating (some codeVersionId) phpconf ∈ inFlight →
      .updating (some codeVersionId) phpconf ∈ m.inFlight) : Sound { m with state, inFlight } where
  current := sound.current
  pending := fun version phpconf member => sound.pending version phpconf (fewer version phpconf member)
  kept := fun version deleting =>
    ⟨(sound.kept version deleting).1, fun phpconf member => (sound.kept version deleting).2 phpconf (fewer version phpconf member)⟩

theorem Sound.ended (sound : m.Sound) (position : Nat) (state : ManagerState) :
    Sound { m.ended position with state } :=
  sound.fewer state fun _ _ member => List.mem_of_mem_eraseIdx member

theorem Sound.failed (sound : m.Sound) (position : Nat) (agents : AgentsReply) : (m.failed position agents).Sound := by
  unfold CodeManager.failed
  split
  · exact sound.ended position .error
  · exact sound.ended position m.state

theorem Sound.carryOut (sound : m.Sound) {position : Nat} {work : CodeWork} (agents : AgentsReply)
    (running : m.inFlight[position]? = some work) : (m.carryOut position agents work).Sound := by
  cases work with
  | updating codeVersionId phpconf =>
    have inside := List.mem_of_getElem? running
    simp only [CodeManager.carryOut]
    split
    · exact sound.failed position agents
    · cases codeVersionId with
      | none => exact sound.ended position .running
      | some codeVersionId =>
        have fewer : ∀ version conf, .updating (some version) conf ∈ m.inFlight.set position .deploying →
            .updating (some version) conf ∈ m.inFlight := by
          intro version conf member
          rcases List.mem_or_eq_of_mem_set member with member | same
          · exact member
          · cases same
        have later := sound.fewer m.state fewer
        refine ⟨sound.pending codeVersionId phpconf inside, later.pending, fun version deleting => ?_⟩
        refine ⟨fun same => ?_, (later.kept version deleting).2⟩
        exact (sound.kept version deleting).2 phpconf (same ▸ inside)
  | deploying =>
    simp only [CodeManager.carryOut]
    split
    · exact sound.ended position .running
    · exact sound.failed position agents

theorem Sound.step (sound : m.Sound) {event : CodeEvent} {after : CodeManager} (careful : m.Careful event)
    (step : m.Step event after) : after.Sound := by
  cases event with
  | request request =>
    simp only [Step, handle] at step
    split at step
    · rename_i idle
      split at step
      · cases step
        exact sound
      · rename_i answered
        cases step
        exact sound.answer idle.1 careful answered
    · cases step
  | removed =>
    obtain ⟨codeVersionId, deleting, rfl⟩ := Option.map_eq_some_iff.mp step
    exact sound.removed deleting
  | advance position agents =>
    obtain ⟨work, running, rfl⟩ := Option.map_eq_some_iff.mp step
    exact sound.carryOut agents running
  | others state =>
    cases step
    exact sound.fewer state fun _ _ member => member

/-- The current version is there in every state that is reached when no version
is deleted that a thread is going to make the current one. -/
theorem current_known {service : CodeService} {events : List CodeEvent}
    (run : Run (Guarded Careful Step) (created service) events m) : m.currentCodeVersion ∈ m.known :=
  (run.guarded_invariant (created_sound service) fun sound careful step => sound.step careful step).current

instance : (event : CodeEvent) → Decidable (m.Careful event)
  | .request (.deleteCodeVersion codeVersionId) =>
    inferInstanceAs (Decidable (∀ phpconf, .updating (some codeVersionId) phpconf ∉ m.inFlight))
  | .request (.uploadCodeVersion _ _ _ _ _) | .request (.onGitPush _ _) | .request (.updatePhpConfiguration _ _)
  | .request (.enableCode _ _) | .removed | .advance _ _ | .others _ => .isTrue trivial

/-- A version is pushed by git and enabled in a running service, and the one
before is deleted. -/
def replaced : List CodeEvent :=
  [.others .prologue, .others .running, .request (.onGitPush "1a2b" "first"), .request (.enableCode "git-1a2b" false),
    .advance 0 .succeed, .request (.deleteCodeVersion "code-default"), .removed, .advance 0 .succeed]

theorem replaced_known : ∃ m, Run (Guarded Careful Step) (created .generic) replaced m ∧ m.state = .running ∧
    m.codeRepo = [] ∧ m.currentCodeVersion ∈ m.known := by
  have ended : (play (fun m event => if m.Careful event then handle m event else none) (created .generic) replaced).map
      (fun m => decide (m.state = .running ∧ m.codeRepo = [])) = some true := by
    decide +kernel
  obtain ⟨m, played, ended⟩ := Option.map_eq_some_iff.mp ended
  obtain ⟨state, codeRepo⟩ := of_decide_eq_true ended
  have run := Run.play_guarded played
  exact ⟨m, run, state, codeRepo, current_known run⟩

/-- The version that is enabled is deleted before the thread makes it the
current one. -/
def deletedPending : List CodeEvent :=
  [.others .prologue, .others .running, .request (.onGitPush "1a2b" "first"), .request (.enableCode "git-1a2b" false),
    .request (.deleteCodeVersion "git-1a2b"), .removed, .advance 0 .succeed]

theorem deletedPending_missing : ¬ ∀ (service : CodeService) (events : List CodeEvent) (m : CodeManager),
    Run Step (created service) events m → m.currentCodeVersion ∈ m.known := by
  intro claim
  have missing : (play handle (created .generic) deletedPending).map (fun m => decide (m.currentCodeVersion ∈ m.known)) =
      some false := by
    decide +kernel
  obtain ⟨m, played, missing⟩ := Option.map_eq_some_iff.mp missing
  exact of_decide_eq_false missing (claim .generic deletedPending m (Run.play played))

end CodeManager

end ConPaaS
