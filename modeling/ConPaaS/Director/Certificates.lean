import ConPaaS.Lib.Transition
import ConPaaS.Director.Authentication

namespace ConPaaS

open Transition

/-- A request to `/ca/get_cert.php`: the certificate of the connection and the
subject of the signing request in it, if there is one that can be loaded. -/
structure CertRequest where
  cert : Certificate
  csr : Option Subject
  deriving DecidableEq, Repr

/-- `get_manager_cert`, with the serial number drawn for the certificate. -/
def getManagerCert (db : Database) (request : CertRequest) (serial : Int) : Except Denial Certificate :=
  match certRequiredManager db request.cert with
  | .error denial => .error denial
  | .ok _ =>
    match request.csr with
    | none => .error (.crashed "csr")
    | some subject => .ok (createX509Cert subject serial)

/-- Every component of a name is a number and there is one. -/
structure Names (field : String) (value : Int) (subject : Subject) : Prop where
  some : ∃ c ∈ subject, c.key = field
  only : ∀ c ∈ subject, c.key = field → pythonInt c.value = .some value

/-- A subject with the authority of the manager of an application and no more:
it names the user and the application and nobody else. Under these names only
the role of the frontend opens more than the role of a manager does. -/
structure Carries (uid serviceLocator : Int) (subject : Subject) : Prop where
  user : Names "UID" uid subject
  application : Names "serviceLocator" serviceLocator subject
  role : ⟨"role", "frontend"⟩ ∉ subject

theorem Names.field {field : String} {value : Int} {cert : Certificate} (names : Names field value cert.subject) :
    (getX509DnField cert field).bind pythonInt = .some value := by
  obtain ⟨c, member, key⟩ := names.some
  unfold getX509DnField
  cases found : cert.subject.find? fun c => c.key = field with
  | none => simpa [key] using List.find?_eq_none.mp found c member
  | some first =>
    exact names.only first (List.mem_of_find?_eq_some found) (by simpa using List.find?_some found)

/-- A certificate speaks for the user and the application it carries. -/
theorem Carries.grant {uid serviceLocator : Int} {db : Database} {cert : Certificate} {grant : Grant}
    (carries : Carries uid serviceLocator cert.subject) (granted : certRequiredManager db cert = .ok grant) :
    grant.user.uid = uid ∧ grant.application.aid = serviceLocator := by
  obtain ⟨user, application, -⟩ := certRequiredManager_ok.mp granted
  rw [carries.user.field] at user
  rw [carries.application.field] at application
  exact ⟨(Option.some.inj user).symm, (Option.some.inj application).symm⟩

/-- What is issued: the subject of the signing request, to whoever speaks for
an application. -/
theorem getManagerCert_ok {db : Database} {request : CertRequest} {serial : Int} {new : Certificate} :
    getManagerCert db request serial = .ok new ↔
      (∃ grant, certRequiredManager db request.cert = .ok grant) ∧ request.csr = some new.subject ∧
        new.serial = serial := by
  unfold getManagerCert
  cases certRequiredManager db request.cert with
  | error denial => simp
  | ok grant =>
    cases request.csr with
    | none => simp
    | some subject =>
      obtain ⟨subject', serial'⟩ := new
      simp [createX509Cert, eq_comm]

/-- A request that asks for the authority it is made with: its signing request
carries the user and the application of its certificate. -/
def CertRequest.Modest (db : Database) (request : CertRequest) : Prop :=
  ∀ grant, certRequiredManager db request.cert = .ok grant →
    ∀ subject, request.csr = some subject → Carries grant.user.uid grant.application.aid subject

/-- One request in a run: what the director has in its tables at the time, the
request and the serial number. -/
structure CertEvent where
  db : Database
  request : CertRequest
  serial : Int

/-- A party asks for a certificate with one of those it holds and keeps what it
gets. -/
def askCert (held : List Certificate) (event : CertEvent) (after : List Certificate) : Prop :=
  event.request.cert ∈ held ∧
    after = match getManagerCert event.db event.request event.serial with
      | .ok new => new :: held
      | .error _ => held

/-- One request adds the certificate it is answered with, if any. -/
theorem askCert_mem {held after : List Certificate} {event : CertEvent} (taken : askCert held event after)
    {cert : Certificate} : cert ∈ after ↔
      getManagerCert event.db event.request event.serial = .ok cert ∨ cert ∈ held := by
  obtain ⟨-, rfl⟩ := taken
  cases getManagerCert event.db event.request event.serial with
  | error denial => simp
  | ok new => simp [eq_comm]

/-- What a modest request is answered with has the authority of the
certificates it is made with. -/
theorem askCert_carries {uid serviceLocator : Int} {held after : List Certificate} {event : CertEvent}
    (carry : ∀ cert ∈ held, Carries uid serviceLocator cert.subject) (taken : askCert held event after)
    (modest : event.request.Modest event.db) : ∀ cert ∈ after, Carries uid serviceLocator cert.subject := by
  intro cert member
  rcases (askCert_mem taken).mp member with issued | old
  · obtain ⟨⟨grant, granted⟩, csr, -⟩ := getManagerCert_ok.mp issued
    obtain ⟨user, application⟩ := (carry event.request.cert taken.1).grant granted
    have asked := modest grant granted cert.subject csr
    rwa [user, application] at asked
  · exact carry cert old

/-- A request that is not modest is answered with an authority its maker does
not have. -/
theorem askCert_modest {uid serviceLocator : Int} {held after : List Certificate} {event : CertEvent}
    (carry : ∀ cert ∈ after, Carries uid serviceLocator cert.subject) (taken : askCert held event after) :
    event.request.Modest event.db := by
  intro grant granted subject csr
  have issued : getManagerCert event.db event.request event.serial = .ok ⟨subject, event.serial⟩ :=
    getManagerCert_ok.mpr ⟨⟨grant, granted⟩, csr, rfl⟩
  have own := carry event.request.cert ((askCert_mem taken).mpr (Or.inr taken.1))
  obtain ⟨user, application⟩ := own.grant granted
  rw [user, application]
  exact carry _ ((askCert_mem taken).mpr (Or.inl issued))

/-- The director signs what it is asked to. The certificate of one request
has the authority of the requester exactly if the request asks for no other,
and a party keeps to the authority of its first certificates through a run of
requests exactly if every one of the requests is modest. -/
theorem issuing_iff {uid serviceLocator : Int} {first held : List Certificate} {events : List CertEvent}
    (carry : ∀ cert ∈ first, Carries uid serviceLocator cert.subject) (run : Run askCert first events held) :
    (∀ (db : Database) (request : CertRequest) (serial : Int) (grant : Grant) (new : Certificate),
      certRequiredManager db request.cert = .ok grant → getManagerCert db request serial = .ok new →
        (Carries grant.user.uid grant.application.aid new.subject ↔ request.Modest db)) ∧
    ((∀ cert ∈ held, Carries uid serviceLocator cert.subject) ↔ ∀ event ∈ events, event.request.Modest event.db) := by
  constructor
  · intro db request serial grant new granted issued
    have csr := (getManagerCert_ok.mp issued).2.1
    constructor
    · intro carries grant' granted' subject csr'
      cases granted.symm.trans granted'
      cases csr.symm.trans csr'
      exact carries
    · exact fun modest => modest grant granted new.subject csr
  · induction run with
    | start => simpa using carry
    | next earlier taken ih =>
      rename_i before event after events
      simp only [List.mem_append, List.mem_singleton, or_imp, forall_and, forall_eq]
      constructor
      · intro all
        refine ⟨ih.mp fun cert member => ?_, askCert_modest all taken⟩
        exact all cert ((askCert_mem taken).mpr (Or.inr member))
      · rintro ⟨old, modest⟩
        exact askCert_carries (ih.mpr old) taken modest

/-- A director with one user, whose only application is number one. -/
def oneTenant : Database where
  user := ⟨[⟨1, "joe", "joe@example.org", 50⟩], by decide⟩
  application := ⟨[⟨1, "shop", .running, 1⟩], by decide⟩
  resource := .empty
  service := .empty

/-- The certificate of the manager of that application. -/
def tenantManager : Certificate := createX509Cert (Leaf.manager "1" "1").subject 7

/-- The signing request of that manager for its agents. -/
def agentRequest : CertRequest := ⟨tenantManager, some (Leaf.agent "1" "1").subject⟩

theorem tenantManager_grant : certRequiredManager oneTenant tenantManager =
    .ok ⟨⟨1, "joe", "joe@example.org", 50⟩, ⟨1, "shop", .running, 1⟩⟩ := by
  decide

theorem carries_tenant {subject : Subject} (leaf : subject = (Leaf.manager "1" "1").subject ∨
    subject = (Leaf.agent "1" "1").subject) : Carries 1 1 subject := by
  rcases leaf with rfl | rfl
  · exact ⟨⟨by decide, by decide⟩, ⟨by decide, by decide⟩, by decide⟩
  · exact ⟨⟨by decide, by decide⟩, ⟨by decide, by decide⟩, by decide⟩

/-- An agent's certificate asked for by its manager. -/
theorem agentRequest_carries : Carries 1 1 (createX509Cert (Leaf.agent "1" "1").subject 9).subject ∧
    Carries 1 1 tenantManager.subject := by
  have first : ∀ cert ∈ [tenantManager], Carries 1 1 cert.subject := by
    rintro cert member
    rw [List.mem_singleton.mp member]
    exact carries_tenant (Or.inl rfl)
  have run : Run askCert [tenantManager] [⟨oneTenant, agentRequest, 9⟩]
      [createX509Cert (Leaf.agent "1" "1").subject 9, tenantManager] :=
    Run.single ⟨by decide, by decide⟩
  obtain ⟨single, whole⟩ := issuing_iff first run
  have held := whole.mpr fun event member => by
    rw [List.mem_singleton.mp member]
    refine (single oneTenant agentRequest 9 _ _ tenantManager_grant rfl).mp ?_
    exact carries_tenant (Or.inr rfl)
  exact ⟨held _ (List.mem_cons_self ..), held _ (List.mem_cons_of_mem _ (List.mem_cons_self ..))⟩

/-- The manager asks for a certificate of the director and gets it. -/
theorem frontend_issued : ¬ ∀ (db : Database) (request : CertRequest) (serial : Int) (grant : Grant) (new : Certificate),
    certRequiredManager db request.cert = .ok grant → getManagerCert db request serial = .ok new →
      Carries grant.user.uid grant.application.aid new.subject := by
  intro law
  have carries := law oneTenant ⟨tenantManager, some (Leaf.director "shop.example.org").subject⟩ 9 _ _
    tenantManager_grant rfl
  exact carries.role (by decide)

end ConPaaS
