import ConPaaS.Director.Listing
import ConPaaS.Lib.Transition

namespace ConPaaS

open Keyed Transition

namespace Database

variable (db : Database)

/-- The row `_createapp` inserts, under the id the database gives it. -/
def insertApp (userId aid : Int) (appName : String) : Database :=
  { db with application := db.application.put ⟨aid, appName, .init, userId⟩ }

/-- The row `_renameapp` changes. -/
def renameApp (appId : Int) (newName : String) : Database :=
  { db with application := db.application.modify appId fun app => { app with name := newName } }

/-- No user has two applications of one name. -/
def NamesUnique : Prop :=
  ∀ a ∈ db.application.rows, ∀ b ∈ db.application.rows, a.userId = b.userId → a.name = b.name → a = b

end Database

/-- The names `create_manifest_app` tries, from the name in the manifest on. -/
def candidate (appName : String) (i : Nat) : String :=
  if i = 1 then appName else appName ++ " (" ++ toString i ++ ")"

/-- What a request for a name does next in the database. -/
inductive NamingWork
  | create (appName : String)
  | insert (appName : String)
  | find (appId : Int) (newName : String)
  | check (appId : Int) (newName : String)
  | update (appId : Int) (newName : String)
  | try (appName : String) (i : Nat)
  deriving DecidableEq, Repr

/-- The requests that give an application a name. -/
inductive NamingRequest
  | createapp (appName : Option String)
  | renameapp (appId : Int) (newName : Option String)
  | uploadManifest (application : Option String)

/-- What happens next: a request of a user comes in, or one takes its next step
in the database, with the id that a new row gets. -/
inductive NamingEvent
  | request (userId : Int) (request : NamingRequest)
  | advance (position : Nat) (aid : Int)

/-- The database and the requests in flight, each with its user. -/
structure NamingServer where
  db : Database
  inFlight : List (Int × NamingWork)

namespace NamingWork

/-- The name a request has found free and will write. -/
def passed : NamingWork → Option String
  | insert appName => some appName
  | update _ newName => some newName
  | create _ | find _ _ | check _ _ | .try _ _ => none

/-- The application a request has found and will rename. -/
def renames : NamingWork → Option Int
  | check appId _ | update appId _ => some appId
  | create _ | insert _ | find _ _ | .try _ _ => none

/-- The first step of a request in the database. A missing name is an error. -/
def first : NamingRequest → Option NamingWork
  | .createapp appName => (appName.filter (· ≠ "")).map create
  | .renameapp appId newName => (newName.filter (· ≠ "")).map (find appId)
  | .uploadManifest application => (application.filter (· ≠ "")).map (.try · 1)

/-- The next step of a request after a step in the database, if it is not over. -/
def next (db : Database) (userId : Int) : NamingWork → Option NamingWork
  | create appName => if db.checkAppExists userId appName then none else some (insert appName)
  | insert _ => none
  | find appId newName => (db.getAppById userId appId).map fun _ => check appId newName
  | check appId newName => if db.checkAppExists userId newName then none else some (update appId newName)
  | update _ _ => none
  | .try appName i =>
    if db.checkAppExists userId (candidate appName i) then if i + 1 = 99 then none else some (.try appName (i + 1))
    else some (create (candidate appName i))

/-- The database after a step. A new row gets an id that is not in use. -/
def write (db : Database) (userId aid : Int) : NamingWork → Option Database
  | insert appName => if db.application.get? aid = none then some (db.insertApp userId aid appName) else none
  | update appId newName => some (db.renameApp appId newName)
  | create _ | find _ _ | check _ _ | .try _ _ => some db

end NamingWork

namespace NamingServer

variable (s : NamingServer)

def handle : NamingEvent → Option NamingServer
  | .request userId request =>
    match NamingWork.first request with
    | none => some s
    | some work => some { s with inFlight := s.inFlight ++ [(userId, work)] }
  | .advance position aid =>
    match s.inFlight[position]? with
    | none => none
    | some (userId, work) =>
      (work.write s.db userId aid).map fun db =>
        { db, inFlight := s.inFlight.eraseIdx position ++ ((work.next s.db userId).map fun later => (userId, later)).toList }

def Step (before : NamingServer) (event : NamingEvent) (after : NamingServer) : Prop := before.handle event = some after

/-- A request writes a name only if no other request of its user has found that
name free and not yet written it, unless both rename the same application. -/
def Alone : NamingEvent → Prop
  | .request _ _ => True
  | .advance position _ => ∀ entry ∈ s.inFlight[position]?, ∀ name ∈ entry.2.passed, ∀ other ∈ s.inFlight.eraseIdx position,
      other.1 = entry.1 → other.2.passed = some name → other.2.renames = entry.2.renames ∧ entry.2.renames ≠ none

instance : ∀ event, Decidable (s.Alone event)
  | .request _ _ => isTrue trivial
  | .advance position _ =>
    inferInstanceAs (Decidable (∀ entry ∈ s.inFlight[position]?, ∀ name ∈ entry.2.passed, ∀ other ∈ s.inFlight.eraseIdx position,
      other.1 = entry.1 → other.2.passed = some name → other.2.renames = entry.2.renames ∧ entry.2.renames ≠ none))

end NamingServer

/-- What a request has found still holds: the name it passed is not in use by
another application of the user, and the application it renames is the user's. -/
structure Database.Found (db : Database) (userId : Int) (work : NamingWork) : Prop where
  free : ∀ name, work.passed = some name → ∀ app ∈ db.application.rows, app.userId = userId → app.name = name →
    work.renames = some app.aid
  owned : ∀ appId, work.renames = some appId → db.owns userId appId = true

/-- The names are unique, and what the requests in flight have found holds. -/
structure NamingServer.Sound (s : NamingServer) : Prop where
  unique : s.db.NamesUnique
  found : ∀ entry ∈ s.inFlight, s.db.Found entry.1 entry.2

namespace Database

variable {db after : Database} {userId aid appId : Int} {appName newName : String}

theorem checkAppExists_false : db.checkAppExists userId appName = false ↔
    ∀ app ∈ db.application.rows, app.userId = userId → app.name ≠ appName := by
  simp only [checkAppExists, List.any_eq_false, Bool.and_eq_true, decide_eq_true_eq, not_and]
  exact ⟨fun none app member owner named => none app member named owner,
    fun none app member named owner => none app member owner named⟩

theorem mem_insertApp {app : Application} (fresh : db.application.get? aid = none) :
    app ∈ (db.insertApp userId aid appName).application.rows ↔
      app = ⟨aid, appName, .init, userId⟩ ∨ app ∈ db.application.rows := by
  refine Table.mem_put.trans (or_congr_right ⟨And.left, fun member => ⟨member, ?_⟩⟩)
  exact Table.get?_none_iff.mp fresh app member

theorem mem_renameApp {app : Application} : app ∈ (db.renameApp appId newName).application.rows ↔
    ∃ old ∈ db.application.rows, (if old.aid = appId then { old with name := newName } else old) = app := by
  simp only [renameApp, Table.modify_rows, List.mem_map]

theorem owns_insertApp (fresh : db.application.get? aid = none) {owner : Int} (owned : db.owns owner appId = true) :
    (db.insertApp userId aid appName).owns owner appId = true := by
  obtain ⟨app, member, named⟩ := owns_iff.mp owned
  exact owns_iff.mpr ⟨app, (mem_insertApp fresh).mpr (.inr member), named⟩

theorem owns_renameApp {owner other : Int} (owned : db.owns owner other = true) :
    (db.renameApp appId newName).owns owner other = true := by
  obtain ⟨app, member, named, user⟩ := owns_iff.mp owned
  refine owns_iff.mpr ⟨_, mem_renameApp.mpr ⟨app, member, rfl⟩, ?_, ?_⟩
  · split
    · exact named
    · exact named
  · split
    · exact user
    · exact user

/-- The owner of an application is the user who found it. -/
theorem user_of_owns {app : Application} (member : app ∈ db.application.rows) (owned : db.owns userId app.aid = true) :
    app.userId = userId :=
  owns_unique (owns_iff.mpr ⟨app, member, rfl, rfl⟩) owned

theorem NamesUnique.insertApp (unique : db.NamesUnique) (fresh : db.application.get? aid = none)
    (found : db.Found userId (.insert appName)) : (db.insertApp userId aid appName).NamesUnique := by
  have unused : ∀ app ∈ db.application.rows, app.userId = userId → app.name ≠ appName := fun app member owner named =>
    nomatch found.free appName rfl app member owner named
  intro a left b right owner named
  rcases (mem_insertApp fresh).mp left with rfl | left
  · rcases (mem_insertApp fresh).mp right with rfl | right
    · rfl
    · exact absurd named.symm (unused b right owner.symm)
  · rcases (mem_insertApp fresh).mp right with rfl | right
    · exact absurd named (unused a left owner)
    · exact unique a left b right owner named

/-- No other application of the user has the name an application gets. -/
theorem Found.renamed (found : db.Found userId (.update appId newName)) {app other : Application}
    (member : app ∈ db.application.rows) (isIt : app.aid = appId) (inside : other ∈ db.application.rows)
    (owner : other.userId = app.userId) (named : other.name = newName) : other.aid = appId := by
  have user : app.userId = userId := user_of_owns member (found.owned _ (congrArg some isIt.symm))
  exact (Option.some.inj (found.free newName rfl other inside (owner.trans user) named)).symm

theorem NamesUnique.renameApp (unique : db.NamesUnique) (found : db.Found userId (.update appId newName)) :
    (db.renameApp appId newName).NamesUnique := by
  intro a left b right owner named
  obtain ⟨old, member, rfl⟩ := mem_renameApp.mp left
  obtain ⟨other, inside, rfl⟩ := mem_renameApp.mp right
  by_cases isIt : old.aid = appId
  · by_cases same : other.aid = appId
    · rw [db.application.unique member inside (isIt.trans same.symm)]
    · rw [if_pos isIt, if_neg same] at owner named
      exact absurd (found.renamed member isIt inside owner.symm named.symm) same
  · by_cases same : other.aid = appId
    · rw [if_neg isIt, if_pos same] at owner named
      exact absurd (found.renamed inside same member owner named) isIt
    · rw [if_neg isIt, if_neg same] at owner named ⊢
      exact unique old member other inside owner named

theorem NamesUnique.write {work : NamingWork} (unique : db.NamesUnique) (found : db.Found userId work)
    (written : work.write db userId aid = some after) : after.NamesUnique := by
  cases work with
  | insert appName =>
    obtain ⟨fresh, rfl⟩ := by simpa only [NamingWork.write, Option.ite_none_right_eq_some, Option.some.injEq] using written
    exact unique.insertApp fresh found
  | update appId newName =>
    cases written
    exact unique.renameApp found
  | create | find | check | «try» =>
    cases written
    exact unique

/-- What another request has found survives a write that does not take its name. -/
theorem Found.write {work other : NamingWork} {owner : Int} (kept : db.Found owner other) (found : db.Found userId work)
    (alone : ∀ name, work.passed = some name → owner = userId → other.passed = some name →
      other.renames = work.renames ∧ work.renames ≠ none)
    (written : work.write db userId aid = some after) : after.Found owner other := by
  cases work with
  | insert appName =>
    obtain ⟨fresh, rfl⟩ := by simpa only [NamingWork.write, Option.ite_none_right_eq_some, Option.some.injEq] using written
    refine ⟨fun name passed app member user named => ?_, fun other owned => owns_insertApp fresh (kept.owned other owned)⟩
    rcases (mem_insertApp fresh).mp member with rfl | member
    · obtain rfl : appName = name := named
      exact absurd rfl (alone appName rfl user.symm passed).2
    · exact kept.free name passed app member user named
  | update appId newName =>
    cases written
    refine ⟨fun name passed app member user named => ?_, fun other owned => owns_renameApp (kept.owned other owned)⟩
    obtain ⟨old, inside, rfl⟩ := mem_renameApp.mp member
    by_cases isIt : old.aid = appId
    · rw [if_pos isIt] at user named ⊢
      obtain rfl : newName = name := named
      have mine : old.userId = userId := user_of_owns inside (found.owned _ (congrArg some isIt.symm))
      rw [(alone newName rfl (user.symm.trans mine) passed).1]
      exact congrArg some isIt.symm
    · rw [if_neg isIt] at user named ⊢
      exact kept.free name passed old inside user named
  | create | find | check | «try» =>
    cases written
    exact kept

/-- What a request finds in a step holds afterwards. -/
theorem Found.next {work later : NamingWork} (found : db.Found userId work)
    (continues : work.next db userId = some later) (written : work.write db userId aid = some after) :
    after.Found userId later := by
  cases work with
  | create appName =>
    cases written
    obtain ⟨free, rfl⟩ : ¬ db.checkAppExists userId appName = true ∧ NamingWork.insert appName = later := by
      simpa only [NamingWork.next, Option.ite_none_left_eq_some, Option.some.injEq] using continues
    refine ⟨fun name passed app member owner named => ?_, nofun⟩
    obtain rfl : appName = name := Option.some.inj passed
    exact absurd named (checkAppExists_false.mp (Bool.eq_false_iff.mpr free) app member owner)
  | insert | update => cases continues
  | find appId newName =>
    cases written
    obtain ⟨app, stored, rfl⟩ := Option.map_eq_some_iff.mp continues
    refine ⟨nofun, fun other owned => ?_⟩
    obtain rfl : appId = other := Option.some.inj owned
    exact getAppById_iff.mp (Option.isSome_of_eq_some stored)
  | check appId newName =>
    cases written
    obtain ⟨free, rfl⟩ : ¬ db.checkAppExists userId newName = true ∧ NamingWork.update appId newName = later := by
      simpa only [NamingWork.next, Option.ite_none_left_eq_some, Option.some.injEq] using continues
    refine ⟨fun name passed app member owner named => ?_, found.owned⟩
    obtain rfl : newName = name := Option.some.inj passed
    exact absurd named (checkAppExists_false.mp (Bool.eq_false_iff.mpr free) app member owner)
  | «try» appName i =>
    cases written
    simp only [NamingWork.next] at continues
    split at continues
    · split at continues
      · cases continues
      · cases continues
        exact ⟨nofun, nofun⟩
    · cases continues
      exact ⟨nofun, nofun⟩

end Database

namespace NamingServer

variable {db : Database} {s after : NamingServer} {event : NamingEvent} {events : List NamingEvent}

/-- A request that comes in has found nothing yet. -/
theorem found_first {userId : Int} {request : NamingRequest} {work : NamingWork}
    (first : NamingWork.first request = some work) : db.Found userId work := by
  cases request with
  | createapp | renameapp | uploadManifest =>
    obtain ⟨name, -, rfl⟩ := Option.map_eq_some_iff.mp first
    exact ⟨nofun, nofun⟩

theorem Sound.step (sound : s.Sound) (alone : s.Alone event) (taken : Step s event after) : after.Sound := by
  cases event with
  | request userId request =>
    simp only [Step, handle] at taken
    split at taken
    · cases taken
      exact sound
    · rename_i work first
      cases taken
      refine ⟨sound.unique, fun entry member => ?_⟩
      rcases List.mem_append.mp member with old | new
      · exact sound.found entry old
      · cases List.mem_singleton.mp new
        exact found_first first
  | advance position aid =>
    simp only [Step, handle] at taken
    split at taken
    · cases taken
    · rename_i userId work standing
      obtain ⟨db, written, rfl⟩ := Option.map_eq_some_iff.mp taken
      have found := sound.found _ (List.mem_of_getElem? standing)
      refine ⟨sound.unique.write found written, fun entry member => ?_⟩
      rcases List.mem_append.mp member with old | new
      · refine (sound.found entry (List.mem_of_mem_eraseIdx old)).write found ?_ written
        exact fun name passed => alone (userId, work) standing name passed entry old
      · obtain ⟨later, continues, rfl⟩ := Option.map_eq_some_iff.mp (Option.mem_toList.mp new)
        exact found.next continues written

theorem Sound.run (unique : db.NamesUnique) (run : Run (Guarded Alone Step) ⟨db, []⟩ events s) : s.Sound :=
  run.guarded_invariant ⟨unique, fun _ member => nomatch member⟩ fun sound alone taken => sound.step alone taken

/-- Whatever the order of the steps of concurrent requests, no user comes to have
two applications of one name, if no request writes a name that another one is
about to write. -/
theorem names_unique (unique : db.NamesUnique) (run : Run (Guarded Alone Step) ⟨db, []⟩ events s) : s.db.NamesUnique :=
  (Sound.run unique run).unique

/-- The tables of a director without applications. -/
def noApplications : Database := ⟨.empty, .empty, .empty, .empty⟩

theorem noApplications_unique : noApplications.NamesUnique := fun _ member => absurd member List.not_mem_nil

/-- A user creates an application and uploads a manifest with the same name at
once, and renames the application afterwards. -/
def takenName : List NamingEvent :=
  [.request 1 (.createapp "shop"), .request 1 (.uploadManifest "shop"), .advance 0 0, .advance 1 1, .advance 0 0, .advance 0 0,
    .advance 0 0, .advance 0 2, .request 1 (.renameapp 1 "store"), .advance 0 0, .advance 0 0, .advance 0 0]

theorem takenName_unique : ∃ s, Run (Guarded Alone Step) ⟨noApplications, []⟩ takenName s ∧
    s.db.application.rows.map Application.name = ["shop (2)", "store"] ∧ s.db.NamesUnique := by
  have ended : (play (fun s event => if s.Alone event then handle s event else none) ⟨noApplications, []⟩ takenName).map
      (fun s => s.db.application.rows.map Application.name) = some ["shop (2)", "store"] := by
    decide +kernel
  obtain ⟨s, played, names⟩ := Option.map_eq_some_iff.mp ended
  have run := Run.play_guarded played
  exact ⟨s, run, names, names_unique noApplications_unique run⟩

/-- A user sends one request twice, and both find the name free. -/
def sentTwice : List NamingEvent :=
  [.request 1 (.createapp "shop"), .request 1 (.createapp "shop"), .advance 0 0, .advance 0 0, .advance 0 1, .advance 0 2]

theorem sentTwice_taken : ¬∀ (db : Database) (events : List NamingEvent) (s : NamingServer), db.NamesUnique →
    Run Step ⟨db, []⟩ events s → s.db.NamesUnique := by
  intro law
  have ended : (play handle ⟨noApplications, []⟩ sentTwice).map (fun s => s.db.application.rows) =
      some [⟨2, "shop", .init, 1⟩, ⟨1, "shop", .init, 1⟩] := by
    decide +kernel
  obtain ⟨s, played, rows⟩ := Option.map_eq_some_iff.mp ended
  have unique : s.db.NamesUnique := law noApplications sentTwice s noApplications_unique (Run.play played)
  rw [Database.NamesUnique, rows] at unique
  exact absurd (unique ⟨2, "shop", .init, 1⟩ (by simp) ⟨1, "shop", .init, 1⟩ (by simp) rfl rfl) (by decide)

end NamingServer

end ConPaaS
