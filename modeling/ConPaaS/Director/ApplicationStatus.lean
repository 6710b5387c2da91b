import ConPaaS.Director.StartingApplications

namespace ConPaaS

open Keyed Transition

/-- What the status of an application says about its rows. -/
structure Agrees (db : Database) (appId : Int) (app : Application) : Prop where
  running : app.status = .running ↔ db.managers appId = 1
  resting : app.status = .stopped ∨ app.status = .init ↔ db.own appId = []
  left : app.status ≠ .prologue ∧ app.status ≠ .adapting

theorem Agrees.rest {db : Database} {appId : Int} {app : Application} (none : db.own appId = [])
    (status : app.status = .stopped ∨ app.status = .init) : Agrees db appId app where
  running := by
    have zero : db.managers appId = 0 := by rw [Database.managers, none]; rfl
    rw [zero]
    rcases status with stopped | init
    · simp [stopped]
    · simp [init]
  resting := ⟨fun _ => none, fun _ => status⟩
  left := by
    rcases status with stopped | init
    · simp [stopped]
    · simp [init]

theorem Agrees.run {db : Database} {appId : Int} {app : Application} (one : db.managers appId = 1)
    (status : app.status = .running) : Agrees db appId app where
  running := ⟨fun _ => one, fun _ => status⟩
  resting := by
    have some : db.own appId ≠ [] := by
      intro none
      rw [Database.managers, none] at one
      cases one
    simp [status, some]
  left := by simp [status]

namespace AppServer

open Database

variable {userId appId : Int} {s before after : AppServer} {app : Application}

/-- What is kept about the application between the parts of its starts. At
most one start goes on, and its manager has a row once its services are
added. -/
def Holds (s : AppServer) (appId : Int) (app : Application) : Prop :=
  match s.inFlight with
  | [] => Agrees s.db appId app
  | [.starting] | [.creating _] => s.db.own appId = [] ∧ (app.status = .prologue ∨ app.status = .stopped)
  | [.adding _] => s.db.managers appId = 1 ∧ app.status = .adapting
  | _ => False

/-- The owner is a user, and while the application is there its status fits. -/
structure Sound (userId appId : Int) (s : AppServer) : Prop where
  user : userId ∈ s.db.user.rows.map User.uid
  status : ∀ app, s.db.application.get? appId = some app → app.userId = userId ∧ s.Holds appId app

/-- How the creation of the nodes of a start may end. -/
def Meets (userId appId : Int) (s : AppServer) (app : Application) (outside : Outside) (now : Int) (launch : Launch) :
    AppWork → Prop
  | .starting => (∃ node, outside.Provides now s.db appId launch node) ∨
    app.status = .stopped ∧ outside.Bare now s.db appId launch
  | .creating _ => ∀ nodes, outside.createdNodes appId launch = .ok nodes →
    (∃ node, nodes = [node] ∧ outside.Provides now s.db appId launch node ∧
      ∀ next added, s.db.addResources [managerResource now appId node] = .ok (next, added) →
        ∀ user ∈ next.user.rows, user.uid = userId → next.chargeOf now userId ≠ user.credit) ∨
    app.status = .stopped ∧ nodes ≠ [] ∧ s.db.Refuses (nodes.map (managerResource now appId))
  | .adding _ => True

/-- The condition on what happens to an application that is there. No start is
accepted while another goes on, and none for a manifest unless the application
is at rest and its owner has credit; no application is stopped while the services
of a manifest are added; a start creates exactly one node, or none after the
application was stopped, and that of a manifest may fail but leaves the owner
with credit; and every service of a manifest starts. -/
def Careful (userId appId : Int) (s : AppServer) (event : AppEvent) : Prop :=
  ∀ app, s.db.application.get? appId = some app →
    match event with
    | .startApp vpn => ∀ user ∈ s.db.user.rows, user.uid = userId →
      (Director.startApp s.db user appId false vpn).1 = .ok () → s.inFlight = []
    | .stopApp => ∀ services, .adding services ∉ s.inFlight
    | .deleteApp => True
    | .uploadManifest services _ => services ≠ [] → s.inFlight = [] ∧ (app.status = .stopped ∨ app.status = .init) ∧
      ∀ user ∈ s.db.user.rows, user.uid = userId → 0 < user.credit
    | .created position outside now launch => ∀ work ∈ s.inFlight[position]?, s.Meets userId appId app outside now launch work
    | .added _ _ answer => answer = .ok ()

/-- An application that was created and is at rest, with its owner. -/
structure Starts (userId appId : Int) (s : AppServer) : Prop where
  user : userId ∈ s.db.user.rows.map User.uid
  app : ∃ app, s.db.application.get? appId = some app ∧ app.userId = userId ∧ app.status = .init
  own : s.db.own appId = []
  inFlight : s.inFlight = []

theorem Starts.sound (starts : Starts userId appId s) : s.Sound userId appId where
  user := starts.user
  status := by
    obtain ⟨app, found, owner, init⟩ := starts.app
    intro other same
    obtain rfl := Option.some.inj (found.symm.trans same)
    refine ⟨owner, ?_⟩
    simp only [Holds, starts.inFlight]
    exact .rest starts.own (Or.inr init)

theorem withService_get? (db : Database) (row : Option Service) :
    (withService db row).application.get? appId = db.application.get? appId := by
  cases row <;> rfl

theorem getAppById_absent (absent : s.db.application.get? appId = none) : s.db.getAppById userId appId = none := by
  rw [getAppById, absent]
  rfl

/-- No request and no part of a start brings an application back. -/
theorem step_absent {event : AppEvent} (absent : before.db.application.get? appId = none)
    (step : Step userId appId before event after) : after.db.application.get? appId = none := by
  have unknown (uid : Int) := @getAppById_absent uid appId before absent
  have kept (db : Database) (status : ApplicationStatus) (gone : db.application.get? appId = none) :
      (db.withStatus appId status).application.get? appId = none := by
    rw [withStatus_get?, gone]
    rfl
  unfold Step handle at step
  cases event with
  | startApp vpn =>
    obtain ⟨user, -, rfl⟩ := Option.map_eq_some_iff.mp step
    simpa only [Director.startApp, unknown, launched] using absent
  | stopApp =>
    cases step
    simpa only [removed, deleteApp, unknown] using absent
  | deleteApp =>
    cases step
    simpa only [removed, deleteApp, unknown] using absent
  | uploadManifest services vpn =>
    obtain ⟨user, -, rfl⟩ := Option.map_eq_some_iff.mp step
    cases services <;> simpa only [Director.uploadManifest, unknown, launched] using absent
  | created position outside now launch =>
    obtain ⟨work, -, taken⟩ := Option.bind_eq_some_iff.mp step
    cases work with
    | starting =>
      cases taken
      exact Director.createManager_absent outside now userId launch false absent
    | creating services =>
      have none : (Director.manifestCreated outside now before.db userId appId launch).1.application.get? appId = none := by
        have made := Director.createManager_absent outside now userId launch true absent
        unfold Director.manifestCreated
        simp only
        split
        · exact kept _ _ made
        · exact made
        · split
          · exact made
          · exact kept _ _ made
      simp only [afterCreation] at taken
      split at taken
      · rename_i run
        cases taken
        rwa [run] at none
      · rename_i run
        cases taken
        rwa [run] at none
    | adding services => cases taken
  | added position row answer =>
    obtain ⟨work, -, taken⟩ := Option.bind_eq_some_iff.mp step
    have gone := (withService_get? before.db row).trans absent
    unfold afterService at taken
    split at taken
    · split at taken
      · cases taken
        exact gone
      · cases taken
        exact kept _ _ gone
      · cases taken
        exact gone
    · cases taken

theorem step_users {event : AppEvent} (step : Step userId appId before event after) :
    after.db.user.rows.map User.uid = before.db.user.rows.map User.uid := by
  have started (db : Database) (user : User) (ignoreStatus : Bool) (vpn : Except String (Option String)) :
      (Director.startApp db user appId ignoreStatus vpn).2.user = db.user := by
    rcases Director.startApp_cases db user appId ignoreStatus vpn with ⟨⟨_, run⟩, _⟩ | ⟨_, _, _, ⟨_, run⟩ | run⟩
    all_goals exact congrArg (fun result => result.2.user) run
  have goes (work : AppWork) (answer : Except String Unit × Database) :
      (before.launched work answer).db = answer.2 := by
    unfold launched
    split <;> rfl
  have gone (delAppEntry : Bool) : (before.removed userId appId delAppEntry).db.user = before.db.user := by
    unfold removed deleteApp
    cases before.db.getAppById userId appId <;> rfl
  have serviced (row : Option Service) : (withService before.db row).user = before.db.user := by
    cases row <;> rfl
  unfold Step handle at step
  cases event with
  | startApp vpn =>
    obtain ⟨user, -, rfl⟩ := Option.map_eq_some_iff.mp step
    rw [goes, started]
  | stopApp =>
    cases step
    rw [gone]
  | deleteApp =>
    cases step
    rw [gone]
  | uploadManifest services vpn =>
    obtain ⟨user, -, rfl⟩ := Option.map_eq_some_iff.mp step
    rw [goes]
    unfold Director.uploadManifest
    split
    · rfl
    · rfl
    · rw [started]
      rfl
  | created position outside now launch =>
    obtain ⟨work, -, taken⟩ := Option.bind_eq_some_iff.mp step
    have made := Director.createManager_users outside now before.db userId appId
    cases work with
    | starting =>
      cases taken
      exact made false launch
    | creating services =>
      have same : (Director.manifestCreated outside now before.db userId appId launch).1.user.rows.map User.uid =
          before.db.user.rows.map User.uid := by
        rw [← made true launch]
        unfold Director.manifestCreated
        simp only
        split
        · rfl
        · rfl
        · split <;> rfl
      simp only [afterCreation] at taken
      split at taken
      · rename_i run
        cases taken
        rwa [run] at same
      · rename_i run
        cases taken
        rwa [run] at same
    | adding services => cases taken
  | added position row answer =>
    obtain ⟨work, -, taken⟩ := Option.bind_eq_some_iff.mp step
    unfold afterService at taken
    split at taken
    · split at taken
      · cases taken
        exact congrArg (fun users => users.rows.map User.uid) (serviced row)
      · cases taken
        exact congrArg (fun users => users.rows.map User.uid) (serviced row)
      · cases taken
        exact congrArg (fun users => users.rows.map User.uid) (serviced row)
    · cases taken

theorem Holds.cases (holds : s.Holds appId app) :
    (s.inFlight = [] ∧ Agrees s.db appId app) ∨
    (∃ work, s.inFlight = [work] ∧ (work = .starting ∨ ∃ services, work = .creating services) ∧
      s.db.own appId = [] ∧ (app.status = .prologue ∨ app.status = .stopped)) ∨
    ∃ services, s.inFlight = [.adding services] ∧ s.db.managers appId = 1 ∧ app.status = .adapting := by
  unfold Holds at holds
  split at holds
  · exact Or.inl ⟨‹_›, holds⟩
  · exact Or.inr (Or.inl ⟨.starting, ‹_›, Or.inl rfl, holds⟩)
  · exact Or.inr (Or.inl ⟨_, ‹_›, Or.inr ⟨_, rfl⟩, holds⟩)
  · exact Or.inr (Or.inr ⟨_, ‹_›, holds⟩)
  · exact holds.elim

theorem Holds.idle (idle : s.inFlight = []) (agrees : Agrees s.db appId app) : s.Holds appId app := by
  unfold Holds
  rwa [idle]

theorem Holds.waits (work : AppWork) (alone : s.inFlight = [work]) (kind : work = .starting ∨ ∃ services, work = .creating services)
    (none : s.db.own appId = []) (status : app.status = .prologue ∨ app.status = .stopped) : s.Holds appId app := by
  unfold Holds
  rw [alone]
  rcases kind with rfl | ⟨services, rfl⟩
  · exact ⟨none, status⟩
  · exact ⟨none, status⟩

theorem Holds.adds {services : List String} (alone : s.inFlight = [.adding services]) (one : s.db.managers appId = 1)
    (status : app.status = .adapting) : s.Holds appId app := by
  unfold Holds
  rw [alone]
  exact ⟨one, status⟩

/-- An application at rest has no rows, and no services are added to it. -/
theorem Holds.resting (holds : s.Holds appId app) (status : app.status = .stopped ∨ app.status = .init) :
    s.db.own appId = [] ∧ ∀ services, .adding services ∉ s.inFlight := by
  rcases holds.cases with ⟨idle, agrees⟩ | ⟨work, alone, kind, none, -⟩ | ⟨-, -, -, adapting⟩
  · exact ⟨agrees.resting.mp status, fun services => by simp [idle]⟩
  · refine ⟨none, fun services member => ?_⟩
    rw [alone, List.mem_singleton] at member
    subst member
    simp at kind
  · simp [adapting] at status

/-- An application without rows whose status becomes STOPPED. -/
theorem Holds.stopped {next : AppServer} {app' : Application} (holds : s.Holds appId app) (same : next.inFlight = s.inFlight)
    (none : next.db.own appId = []) (status : app'.status = .stopped) (apart : ∀ services, .adding services ∉ s.inFlight) :
    next.Holds appId app' := by
  rcases holds.cases with ⟨idle, -⟩ | ⟨work, alone, kind, -, -⟩ | ⟨services, alone, -, -⟩
  · exact .idle (same.trans idle) (.rest none (Or.inl status))
  · exact .waits work (same.trans alone) kind none (Or.inr status)
  · exact absurd (alone ▸ List.mem_singleton_self _) (apart services)

section Present

variable (found : s.db.application.get? appId = some app)

include found

theorem withStatus_found (status : ApplicationStatus) {app' : Application}
    (found' : (s.db.withStatus appId status).application.get? appId = some app') : app' = { app with status } := by
  rw [withStatus_get?, found] at found'
  exact (Option.some.inj found').symm

theorem Holds.startApp (holds : s.Holds appId app) {user : User} (stored : user ∈ s.db.user.rows)
    {vpn : Except String (Option String)} (careful : s.Careful user.uid appId (.startApp vpn)) {app' : Application}
    (found' : (s.launched .starting (Director.startApp s.db user appId false vpn)).db.application.get? appId = some app')
    : app'.userId = app.userId ∧
      (s.launched .starting (Director.startApp s.db user appId false vpn)).Holds appId app' := by
  have accepted := careful app found user stored rfl
  rcases Director.startApp_cases s.db user appId false vpn with ⟨⟨error, run⟩, -⟩ | ⟨known, owned, asked, wrote⟩
  · rw [run] at found' ⊢
    obtain rfl := Option.some.inj (found.symm.trans found')
    exact ⟨rfl, holds⟩
  · obtain rfl : app = known := Option.some.inj (found.symm.trans (Option.filter_eq_some_iff.mp owned).1)
    have rest := asked.resolve_left nofun
    obtain ⟨none, apart⟩ := holds.resting rest
    rcases wrote with ⟨error, run⟩ | run
    · rw [run] at found' ⊢
      obtain rfl := withStatus_found found .stopped found'
      exact ⟨rfl, holds.stopped rfl none rfl apart⟩
    · have idle := accepted (by rw [run])
      rw [run] at found' ⊢
      obtain rfl := withStatus_found found .prologue found'
      refine ⟨rfl, .waits .starting ?_ (Or.inl rfl) none (Or.inl rfl)⟩
      simp [launched, idle]

theorem Holds.removed (holds : s.Holds appId app) {delAppEntry : Bool}
    (apart : delAppEntry = false → ∀ services, .adding services ∉ s.inFlight) {app' : Application}
    (found' : (s.removed app.userId appId delAppEntry).db.application.get? appId = some app') :
    app'.userId = app.userId ∧ (s.removed app.userId appId delAppEntry).Holds appId app' := by
  have run := deleteApp_owned (owns_of_get? found) delAppEntry
  simp only [AppServer.removed, run] at found' ⊢
  rw [withoutApp_get?] at found'
  cases delAppEntry with
  | true => cases found'
  | false =>
    rw [found] at found'
    obtain rfl := Option.some.inj found'
    exact ⟨rfl, holds.stopped rfl (withoutApp_own ..) rfl (apart rfl)⟩

theorem Holds.uploadManifest (holds : s.Holds appId app) {user : User} (stored : user ∈ s.db.user.rows)
    (owner : user.uid = app.userId) {services : List String} {vpn : Except String (Option String)}
    (careful : s.Careful user.uid appId (.uploadManifest services vpn)) {app' : Application}
    (found' : (s.launched (.creating services)
      (Director.uploadManifest s.db user appId services vpn)).db.application.get? appId = some app') :
    app'.userId = app.userId ∧
      (s.launched (.creating services) (Director.uploadManifest s.db user appId services vpn)).Holds appId app' := by
  cases services with
  | nil =>
    obtain rfl := Option.some.inj (found.symm.trans found')
    exact ⟨rfl, holds⟩
  | cons service rest =>
    obtain ⟨idle, status, credit⟩ := careful app found (List.cons_ne_nil _ _)
    obtain ⟨none, apart⟩ := holds.resting status
    have known : s.db.getAppById user.uid appId = some app := owner ▸ getAppById_of_get? found
    have marked : (s.db.withStatus appId .prologue).application.get? appId = some { app with status := .prologue } := by
      rw [withStatus_get?, found]
      rfl
    simp only [Director.uploadManifest, known] at found' ⊢
    rcases Director.startApp_cases (s.db.withStatus appId .prologue) user appId true vpn with
      ⟨-, unknown | ignored | spent⟩ | ⟨-, -, -, ⟨error, run⟩ | run⟩
    · have there := getAppById_of_get? marked
      rw [show ({ app with status := .prologue } : Application).userId = user.uid from owner.symm, unknown] at there
      cases there
    · cases ignored
    · exact absurd spent (not_le.mpr (credit user stored rfl))
    · rw [run] at found' ⊢
      obtain rfl := withStatus_found (s := ⟨_, s.inFlight⟩) marked .stopped found'
      exact ⟨rfl, holds.stopped rfl none rfl apart⟩
    · rw [run] at found' ⊢
      obtain rfl := withStatus_found (s := ⟨_, s.inFlight⟩) marked .prologue found'
      exact ⟨rfl, .waits (.creating (service :: rest)) (by simp [launched, idle]) (Or.inr ⟨_, rfl⟩) none (Or.inl rfl)⟩

/-- The row of a provided node, before and after the check of the credits. -/
theorem Holds.provided (none : s.db.own appId = []) (user : app.userId ∈ s.db.user.rows.map User.uid)
    {outside : Outside} {now : Int} {launch : Launch} {node : ServiceNode} (ignoreStatus : Bool)
    (provides : outside.Provides now s.db appId launch node) :
    ∃ next added, (s.db.asStarted appId ignoreStatus).addResources [managerResource now appId node] = .ok (next, added) ∧
      (Director.createManager outside now s.db app.userId appId ignoreStatus launch).response = .nodes [node] ∧
      ∃ user ∈ next.user.rows, user.uid = app.userId ∧
        if next.chargeOf now app.userId = user.credit then
          (Director.createManager outside now s.db app.userId appId ignoreStatus launch).db.application.get? appId =
              some (if ignoreStatus then app else { app with status := .running }).stop ∧
            (Director.createManager outside now s.db app.userId appId ignoreStatus launch).db.own appId = []
        else
          (Director.createManager outside now s.db app.userId appId ignoreStatus launch).db.application.get? appId =
              some (if ignoreStatus then app else { app with status := .running }) ∧
            (Director.createManager outside now s.db app.userId appId ignoreStatus launch).db.managers appId = 1 := by
  obtain ⟨next, added, ok, response, same⟩ := Director.createManager_provided app.userId ignoreStatus
    provides fun _ => by rw [getAppById_of_get? found]; rfl
  obtain ⟨-, -, rest, -⟩ := addResources_ok ok
  have foundNext : next.application.get? appId = some (if ignoreStatus then app else { app with status := .running }) := by
    rw [rest]
    unfold asStarted
    cases ignoreStatus with
    | true => exact found
    | false => exact (withStatus_get? s.db appId .running).trans (by rw [found]; rfl)
  have one : next.managers appId = 1 := by
    refine managers_added ok ?_
    unfold asStarted
    cases ignoreStatus <;> exact none
  obtain ⟨user, stored, owner⟩ := List.mem_map.mp user
  have users : next.user = s.db.user := by
    rw [rest]
    unfold asStarted
    cases ignoreStatus <;> rfl
  have owned : user.uid = (if ignoreStatus then app else { app with status := .running }).userId := by
    cases ignoreStatus <;> exact owner
  have checked := @checkCredits_application next now appId _ foundNext user (users ▸ stored) owned
  rw [owner] at checked
  refine ⟨next, added, ok, response, user, users ▸ stored, owner, ?_⟩
  rw [same]
  split
  · rename_i spent
    rwa [if_pos spent] at checked
  · rename_i left
    rw [if_neg left] at checked
    exact ⟨checked.1, (managers_strip checked.2).trans one⟩

theorem Holds.created (none : s.db.own appId = []) (user : app.userId ∈ s.db.user.rows.map User.uid)
    {outside : Outside} {now : Int} {launch : Launch} (meets : s.Meets app.userId appId app outside now launch .starting)
    {app' : Application} (found' : (Director.createManager outside now s.db app.userId appId false launch).db.application.get?
      appId = some app') : app'.userId = app.userId ∧
        Agrees (Director.createManager outside now s.db app.userId appId false launch).db appId app' := by
  rcases meets with ⟨node, provides⟩ | ⟨stopped, bare⟩
  · obtain ⟨next, -, -, -, owner, -, -, result⟩ := Holds.provided found none user false provides
    by_cases spent : next.chargeOf now app.userId = owner.credit
    · rw [if_pos spent] at result
      obtain rfl := Option.some.inj (result.1.symm.trans found')
      exact ⟨rfl, .rest result.2 (Or.inl rfl)⟩
    · rw [if_neg spent] at result
      obtain rfl := Option.some.inj (result.1.symm.trans found')
      exact ⟨rfl, .run result.2 rfl⟩
  · rw [Director.createManager_bare bare] at found' ⊢
    obtain rfl := Option.some.inj (found.symm.trans found')
    exact ⟨rfl, .rest none (Or.inl stopped)⟩

/-- The start for a manifest either goes on with the services, with a row for
the manager, or is over with the application stopped. -/
theorem Holds.manifestCreated (none : s.db.own appId = []) (user : app.userId ∈ s.db.user.rows.map User.uid)
    {outside : Outside} {now : Int} {launch : Launch} {services : List String}
    (meets : s.Meets app.userId appId app outside now launch (.creating services)) :
    ∃ app', (Director.manifestCreated outside now s.db app.userId appId launch).1.application.get? appId = some app' ∧
      app'.userId = app.userId ∧
      if (Director.manifestCreated outside now s.db app.userId appId launch).2 then
        (Director.manifestCreated outside now s.db app.userId appId launch).1.managers appId = 1 ∧ app'.status = .adapting
      else Agrees (Director.manifestCreated outside now s.db app.userId appId launch).1 appId app' := by
  have stops (status : ApplicationStatus) :
      (s.db.withStatus appId status).application.get? appId = some { app with status } := by
    rw [withStatus_get?, found]
    rfl
  cases created : outside.createdNodes appId launch with
  | error error =>
    have bare : outside.Bare now s.db appId launch := by
      intro nodes ok
      rw [created] at ok
      cases ok
    simp only [Director.manifestCreated, created, Director.createManager_bare bare]
    exact ⟨_, stops .stopped, rfl, .rest none (Or.inl rfl)⟩
  | ok nodes =>
    rcases meets nodes created with ⟨node, rfl, provides, solvent⟩ | ⟨stopped, some, refused⟩
    · obtain ⟨next, added, ok, response, owner, stored, same, result⟩ :=
        Holds.provided found none user true provides
      rw [if_neg (solvent next added ok owner stored same)] at result
      obtain ⟨kept, one⟩ : _ = some app ∧ _ := result
      simp only [Director.manifestCreated, created, response, getAppById_of_get? kept]
      refine ⟨{ app with status := .adapting }, ?_, rfl, one, rfl⟩
      rw [withStatus_get?, kept]
      rfl
    · obtain ⟨error, response⟩ := Director.createManager_refused now app.userId created some refused
      have bare : outside.Bare now s.db appId launch := by
        intro others ok
        obtain rfl := Except.ok.inj (created.symm.trans ok)
        exact Or.inr refused
      simp only [Director.manifestCreated, created, response, Director.createManager_bare bare]
      exact ⟨app, found, rfl, .rest none (Or.inl stopped)⟩

end Present

/-- A part of the only start. -/
theorem Holds.only (holds : s.Holds appId app) {position : Nat} {work : AppWork} (here : s.inFlight[position]? = some work) :
    position = 0 ∧ s.inFlight = [work] ∧ ∀ db, (s.ended position db).inFlight = [] := by
  obtain ⟨single, alone⟩ : ∃ single, s.inFlight = [single] := by
    rcases holds.cases with ⟨idle, -⟩ | ⟨single, alone, -⟩ | ⟨services, alone, -⟩
    · rw [idle] at here
      cases here
    · exact ⟨single, alone⟩
    · exact ⟨_, alone⟩
  rw [alone] at here
  cases position with
  | zero =>
    obtain rfl := Option.some.inj here
    exact ⟨rfl, alone, fun db => by simp [ended, alone]⟩
  | succ position => cases here

/-- The end of the start of a service: the next one is started, or the
application is running. -/
theorem Holds.added (found : s.db.application.get? appId = some app) (holds : s.Holds appId app) {position : Nat}
    {work : AppWork} (here : s.inFlight[position]? = some work) {row : Option Service}
    (taken : s.afterService appId position row (.ok ()) work = some after) {app' : Application}
    (found' : after.db.application.get? appId = some app') : app'.userId = app.userId ∧ after.Holds appId app' := by
  obtain ⟨rfl, alone, ends⟩ := holds.only here
  have same : (withService s.db row).application.get? appId = some app := (withService_get? s.db row).trans found
  have rows : (withService s.db row).managers appId = s.db.managers appId := by cases row <;> rfl
  unfold afterService at taken
  split at taken
  · rename_i service rest
    obtain ⟨one, adapting⟩ : s.db.managers appId = 1 ∧ app.status = .adapting := by
      simpa only [Holds, alone] using holds
    split at taken
    · rename_i failed
      cases failed
    · cases taken
      obtain rfl := withStatus_found (s := ⟨_, s.inFlight⟩) same .running found'
      exact ⟨rfl, .idle (ends _) (.run (rows.trans one) rfl)⟩
    · cases taken
      obtain rfl := Option.some.inj (same.symm.trans found')
      exact ⟨rfl, .adds (by rw [alone]; rfl) (rows.trans one) adapting⟩
  · cases taken

/-- What is kept is kept by every step that meets the condition. -/
theorem Sound.step (sound : before.Sound userId appId) {event : AppEvent} (careful : Careful userId appId before event)
    (step : Step userId appId before event after) : after.Sound userId appId where
  user := by
    rw [step_users step]
    exact sound.user
  status := by
    intro app' found'
    cases found : before.db.application.get? appId with
    | none =>
      rw [step_absent found step] at found'
      cases found'
    | some app =>
      obtain ⟨rfl, holds⟩ := sound.status app found
      unfold Step handle at step
      cases event with
      | startApp vpn =>
        obtain ⟨user, stored, rfl⟩ := Option.map_eq_some_iff.mp step
        obtain ⟨member, owner⟩ := Table.get?_iff.mp stored
        exact Holds.startApp found holds member (owner ▸ careful) found'
      | stopApp =>
        cases step
        exact Holds.removed found holds (fun _ => careful app found) found'
      | deleteApp =>
        cases step
        exact Holds.removed found holds (fun kept : true = false => by cases kept) found'
      | uploadManifest services vpn =>
        obtain ⟨user, stored, rfl⟩ := Option.map_eq_some_iff.mp step
        obtain ⟨member, owner⟩ := Table.get?_iff.mp stored
        exact Holds.uploadManifest found holds member owner (owner ▸ careful) found'
      | created position outside now launch =>
        obtain ⟨work, here, taken⟩ := Option.bind_eq_some_iff.mp step
        have meets := careful app found work here
        obtain ⟨rfl, alone, ends⟩ := holds.only here
        cases work with
        | starting =>
          cases taken
          have none : before.db.own appId = [] := by
            simp only [Holds, alone] at holds
            exact holds.1
          obtain ⟨owner, agrees⟩ := Holds.created found none sound.user meets found'
          exact ⟨owner, .idle (ends _) agrees⟩
        | creating services =>
          have none : before.db.own appId = [] := by
            simp only [Holds, alone] at holds
            exact holds.1
          obtain ⟨next, foundNext, owner, result⟩ := Holds.manifestCreated found none sound.user meets
          simp only [afterCreation] at taken
          split at taken
          · rename_i db run
            cases taken
            rw [run] at foundNext result
            obtain rfl := Option.some.inj (foundNext.symm.trans found')
            exact ⟨owner, .adds (by rw [alone]; rfl) result.1 result.2⟩
          · rename_i db run
            cases taken
            rw [run] at foundNext result
            obtain rfl := Option.some.inj (foundNext.symm.trans found')
            exact ⟨owner, .idle (ends _) result⟩
        | adding services => cases taken
      | added position row answer =>
        obtain ⟨work, here, taken⟩ := Option.bind_eq_some_iff.mp step
        obtain rfl : answer = .ok () := careful app found
        exact Holds.added found holds here taken found'

/-- The status of an application. In every state of a run that meets the
condition in which no start goes on, an application that is there is running
exactly when it has one manager row, is at rest exactly when it has no row,
and is neither starting nor adapting. -/
theorem status_agrees {start current : AppServer} {events : List AppEvent} (starts : Starts userId appId start)
    (run : Run (Guarded (Careful userId appId) (Step userId appId)) start events current) (idle : current.inFlight = [])
    {app : Application} (found : current.db.application.get? appId = some app) : Agrees current.db appId app := by
  have sound := run.guarded_invariant starts.sound fun held careful step => Sound.step held careful step
  have holds := (sound.status app found).2
  simpa only [Holds, idle] using holds

/-- A user with an application that was just created. -/
def newApplication : AppServer where
  db := ⟨⟨[⟨1, "ann", "ann@example.org", 10⟩], by decide⟩, ⟨[⟨1, "shop", .init, 1⟩], by decide⟩, .empty, .empty⟩
  inFlight := []

theorem newApplication_starts : Starts 1 1 newApplication :=
  ⟨by decide, ⟨⟨1, "shop", .init, 1⟩, rfl, rfl, rfl⟩, rfl, rfl⟩

/-- What comes of a start: some nodes, or an exception. -/
def launchOf (ready : Except String (List ServiceNode)) : Launch := ⟨[], [], ready⟩

def managerOf (vmid : String) : ServiceNode := ⟨vmid, "10.0.0.1", "", "iaas", 100, "manager", []⟩

/-- The application is started and stopped, and started again for a manifest
with one service. -/
def restarted : List AppEvent :=
  [.startApp (.ok none), .created 0 (killingCloud true) 60 (launchOf (.ok [managerOf "i-1"])), .stopApp,
    .uploadManifest ["php"] (.ok none), .created 0 (killingCloud true) 120 (launchOf (.ok [managerOf "i-2"])),
    .added 0 none (.ok ())]

theorem restarted_agrees : ∃ s, Run (Guarded (Careful 1 1) (Step 1 1)) newApplication restarted s ∧
    s.db.application.get? 1 = some ⟨1, "shop", .running, 1⟩ ∧ Agrees s.db 1 ⟨1, "shop", .running, 1⟩ := by
  obtain ⟨s, run, idle, found⟩ : ∃ s, Run (Guarded (Careful 1 1) (Step 1 1)) newApplication restarted s ∧
      s.inFlight = [] ∧ s.db.application.get? 1 = some ⟨1, "shop", .running, 1⟩ := by
    refine ⟨_, .cons ⟨?_, rfl⟩ <| .cons ⟨?_, rfl⟩ <| .cons ⟨?_, rfl⟩ <| .cons ⟨?_, rfl⟩ <| .cons ⟨?_, rfl⟩ <|
      .cons ⟨?_, rfl⟩ .start, rfl, rfl⟩
    · exact fun _ _ _ _ _ _ => rfl
    · rintro _ _ _ ⟨⟩
      exact Or.inl ⟨managerOf "i-1", rfl, by decide⟩
    · exact fun _ _ _ => List.not_mem_nil
    · rintro _ ⟨⟩ _
      exact ⟨rfl, Or.inl rfl, by decide⟩
    · rintro _ _ _ ⟨⟩ _ ⟨⟩
      refine Or.inl ⟨managerOf "i-2", rfl, ⟨rfl, by decide⟩, ?_⟩
      rintro _ _ ⟨⟩
      decide
    · exact fun _ _ => rfl
  exact ⟨s, run, found, status_agrees newApplication_starts run idle found⟩

/-- The creation of the manager fails. -/
def failedStart : List AppEvent := [.startApp (.ok none), .created 0 (killingCloud true) 60 (launchOf (.error "no quota"))]

/-- The application is left starting. -/
theorem failedStart_left : ¬ ∀ (userId appId : Int) (start current : AppServer) (events : List AppEvent),
    Starts userId appId start → Run (Step userId appId) start events current → current.inFlight = [] →
    ∀ app, current.db.application.get? appId = some app → Agrees current.db appId app := by
  intro law
  obtain ⟨s, played, idle, found⟩ : ∃ s, play (handle 1 1) newApplication failedStart = some s ∧ s.inFlight = [] ∧
      s.db.application.get? 1 = some ⟨1, "shop", .prologue, 1⟩ := ⟨_, rfl, rfl, rfl⟩
  exact (law 1 1 _ _ _ newApplication_starts (Run.play played) idle _ found).left.1 rfl

end AppServer

end ConPaaS
