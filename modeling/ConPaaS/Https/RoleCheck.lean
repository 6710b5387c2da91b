import ConPaaS.Https.X509

namespace ConPaaS

open Keyed

theorem readSubject_none_iff {components : Subject} {dict : Table Component.key} :
    readSubject components dict = none ↔ ⟨"CN", "CA"⟩ ∈ components := by
  induction components generalizing dict with
  | nil => simp [readSubject]
  | cons c rest ih =>
    obtain ⟨key, value⟩ := c
    simp only [readSubject, List.mem_cons, Component.mk.injEq]
    split
    · rename_i stop
      simp [stop.1, stop.2]
    · rename_i next
      rw [ih, or_iff_right]
      rintro ⟨rfl, rfl⟩
      exact next ⟨rfl, rfl⟩

/-- What the loop reads out of components with distinct names. -/
theorem readSubject_get {components : Subject} {start dict : Table Component.key}
    (distinct : (components.map Component.key).Nodup) (fresh : ∀ c ∈ components, start.get? c.key = none)
    (run : readSubject components start = some dict) (key : String) (c : Component) :
    dict.get? key = some c ↔ (c ∈ components ∧ c.key = key) ∨ start.get? key = some c := by
  induction components generalizing start with
  | nil =>
    cases run
    simp
  | cons first rest ih =>
    obtain ⟨apart, distinct⟩ := List.nodup_cons.mp distinct
    rw [readSubject] at run
    split at run
    · cases run
    have later : ∀ c ∈ rest, (start.put first).get? c.key = none := by
      intro c member
      have other : c.key ≠ first.key := fun same => apart (same ▸ List.mem_map_of_mem member)
      rw [Table.get?_put_ne start other]
      exact fresh c (List.mem_cons_of_mem _ member)
    rw [ih distinct later run, List.mem_cons]
    by_cases here : key = first.key
    · subst here
      have old := fresh first (List.mem_cons_self ..)
      rw [Table.get?_put_self, old]
      constructor
      · rintro (⟨member, same⟩ | same)
        · exact absurd (same ▸ List.mem_map_of_mem member) apart
        · cases same
          exact Or.inl ⟨Or.inl rfl, rfl⟩
      · rintro (⟨rfl | member, same⟩ | none)
        · exact Or.inr rfl
        · exact absurd (same ▸ List.mem_map_of_mem member) apart
        · cases none
    · rw [Table.get?_put_ne start here]
      constructor
      · rintro (⟨member, same⟩ | old)
        · exact Or.inl ⟨Or.inr member, same⟩
        · exact Or.inr old
      · rintro (⟨rfl | member, same⟩ | old)
        · exact absurd same.symm here
        · exact Or.inl ⟨member, same⟩
        · exact Or.inr old

theorem item_iff {components : Subject} {dict : Table Component.key} (distinct : (components.map Component.key).Nodup)
    (run : readSubject components .empty = some dict) (key value : String) :
    item dict key = .ok value ↔ ⟨key, value⟩ ∈ components := by
  have get := readSubject_get distinct (fun _ _ => rfl) run key
  unfold item
  split
  · rename_i none
    constructor
    · exact fun absurd => nomatch absurd
    · intro member
      rw [(get ⟨key, value⟩).mpr (Or.inl ⟨member, rfl⟩)] at none
      cases none
  · rename_i c found
    rcases (get c).mp found with ⟨member, rfl⟩ | nothing
    · rw [Except.ok.injEq]
      constructor
      · rintro rfl
        exact member
      · intro member'
        exact congrArg Component.value (List.inj_on_of_nodup_map distinct member member' rfl)
    · cases nothing

/-- The subjects that may talk to an agent of an application. -/
def AgentMayPass (uid aid : String) (components : Subject) : Prop :=
  ⟨"role", "frontend"⟩ ∈ components ∨
    (⟨"role", "manager"⟩ ∈ components ∨ ⟨"role", "agent"⟩ ∈ components) ∧
      ⟨"UID", uid⟩ ∈ components ∧ ⟨"serviceLocator", aid⟩ ∈ components

/-- The subjects that may talk to a manager of a user. -/
def ManagerMayPass (uid : String) (components : Subject) : Prop :=
  ⟨"role", "frontend"⟩ ∈ components ∨
    (⟨"role", "user"⟩ ∈ components ∨ ⟨"role", "manager"⟩ ∈ components) ∧ ⟨"UID", uid⟩ ∈ components

/-- The subjects an agent lets in: besides those that may pass, every subject
with the common name of the CA. -/
theorem conpaasCallbackAgent_iff {components : Subject} (distinct : (components.map Component.key).Nodup)
    (uid aid : String) : conpaasCallbackAgent uid aid components true = .ok true ↔
      ⟨"CN", "CA"⟩ ∈ components ∨ AgentMayPass uid aid components := by
  unfold conpaasCallbackAgent AgentMayPass
  rw [← @readSubject_none_iff components .empty]
  cases run : readSubject components .empty with
  | none => simp
  | some dict =>
    simp only [← item_iff distinct run]
    cases item dict "role" with
    | error missing => simp [bind, Except.bind]
    | ok role =>
      by_cases frontend : role = "frontend"
      · subst frontend
        simp [bind, Except.bind, pure, Except.pure]
      by_cases other : role ≠ "manager" ∧ role ≠ "agent"
      · simp [bind, Except.bind, pure, Except.pure, frontend, other.1, other.2]
      have known : role = "manager" ∨ role = "agent" := by tauto
      cases item dict "UID" with
      | error missing => simp [bind, Except.bind, frontend, other]
      | ok uid' =>
        cases item dict "serviceLocator" with
        | error missing => by_cases own : uid' = uid <;> simp [bind, Except.bind, pure, Except.pure, frontend, other, own]
        | ok aid' =>
          by_cases own : uid' = uid <;> by_cases app : aid' = aid <;>
            simp [bind, Except.bind, pure, Except.pure, frontend, other, own, app, known]

/-- The subjects a manager lets in. -/
theorem conpaasCallbackManager_iff {components : Subject} (distinct : (components.map Component.key).Nodup)
    (uid : String) : conpaasCallbackManager uid components true = .ok true ↔
      ⟨"CN", "CA"⟩ ∈ components ∨ ManagerMayPass uid components := by
  unfold conpaasCallbackManager ManagerMayPass
  rw [← @readSubject_none_iff components .empty]
  cases run : readSubject components .empty with
  | none => simp
  | some dict =>
    simp only [← item_iff distinct run]
    cases item dict "role" with
    | error missing => simp [bind, Except.bind]
    | ok role =>
      by_cases frontend : role = "frontend"
      · subst frontend
        simp [bind, Except.bind, pure, Except.pure]
      by_cases other : role ≠ "user" ∧ role ≠ "manager"
      · simp [bind, Except.bind, pure, Except.pure, frontend, other.1, other.2]
      have known : role = "user" ∨ role = "manager" := by tauto
      cases item dict "UID" with
      | error missing => simp [bind, Except.bind, frontend, other]
      | ok uid' =>
        by_cases own : uid' = uid <;> simp [bind, Except.bind, pure, Except.pure, frontend, other, own, known]

theorem Leaf.subject_distinct (leaf : Leaf) : (leaf.subject.map Component.key).Nodup := by
  have six : ["UID", "serviceLocator", "O", "emailAddress", "CN", "role"].Nodup := by decide
  have four : ["CN", "emailAddress", "O", "role"].Nodup := by decide
  cases leaf with
  | user => exact six
  | manager => exact six
  | agent => exact six
  | director => exact four

/-- A user who is not named as the CA. -/
def Leaf.OrdinaryName : Leaf → Prop
  | .user _ username _ => username ≠ "CA"
  | .manager .. | .agent .. | .director _ => True

/-- A user who is not named as the CA, unless it is the user of the manager. -/
def Leaf.OrdinaryFor (owner : String) : Leaf → Prop
  | .user uid username _ => username ≠ "CA" ∨ uid = owner
  | .manager .. | .agent .. | .director _ => True

theorem user_mayPass (uid aid uid' username email : String) :
    ¬ AgentMayPass uid aid (Leaf.user uid' username email).subject ∧
      (ManagerMayPass uid (Leaf.user uid' username email).subject ↔ uid' = uid) ∧
      (⟨"CN", "CA"⟩ ∈ (Leaf.user uid' username email).subject ↔ username = "CA") := by
  simp [AgentMayPass, ManagerMayPass, Leaf.subject, generateSubject, createX509Req, attributeName, eq_comm]

theorem conpaas_not_ca (uid aid : String) : ⟨"CN", "CA"⟩ ∉ (Leaf.manager uid aid).subject ∧
    ⟨"CN", "CA"⟩ ∉ (Leaf.agent uid aid).subject := by
  simp [Leaf.subject, generateSubject, createX509Req, attributeName]

theorem director_mayPass (uid aid hostname : String) :
    AgentMayPass uid aid (Leaf.director hostname).subject ∧ ManagerMayPass uid (Leaf.director hostname).subject := by
  simp [AgentMayPass, ManagerMayPass, Leaf.subject, createX509Req, attributeName]

theorem AgentMayPass.perm {uid aid : String} {components subject : Subject} (order : components.Perm subject) :
    AgentMayPass uid aid components ↔ AgentMayPass uid aid subject := by
  simp only [AgentMayPass, order.mem_iff]

theorem ManagerMayPass.perm {uid : String} {components subject : Subject} (order : components.Perm subject) :
    ManagerMayPass uid components ↔ ManagerMayPass uid subject := by
  simp only [ManagerMayPass, order.mem_iff]

/-- The two callbacks on the leaves the director issues, in any order of their
components: they are right unless a user is named as the CA. -/
theorem roleCheck_iff (leaf : Leaf) (components : Subject) (order : components.Perm leaf.subject) (uid aid : String) :
    ((conpaasCallbackAgent uid aid components true = .ok true ↔ AgentMayPass uid aid components) ↔
      leaf.OrdinaryName) ∧
    ((conpaasCallbackManager uid components true = .ok true ↔ ManagerMayPass uid components) ↔
      leaf.OrdinaryFor uid) := by
  have distinct : (components.map Component.key).Nodup :=
    (order.map Component.key).nodup_iff.mpr leaf.subject_distinct
  rw [conpaasCallbackAgent_iff distinct, conpaasCallbackManager_iff distinct, or_iff_right_iff_imp,
    or_iff_right_iff_imp, AgentMayPass.perm order, ManagerMayPass.perm order, order.mem_iff]
  cases leaf with
  | user uid' username email =>
    obtain ⟨agent, manager, named⟩ := user_mayPass uid aid uid' username email
    rw [manager, named]
    constructor
    · exact ⟨fun right same => agent (right same), fun ordinary same => absurd same ordinary⟩
    · exact imp_iff_not_or
  | manager uid' aid' =>
    have other := (conpaas_not_ca uid' aid').1
    exact ⟨iff_of_true (absurd · other) trivial, iff_of_true (absurd · other) trivial⟩
  | agent uid' aid' =>
    have other := (conpaas_not_ca uid' aid').2
    exact ⟨iff_of_true (absurd · other) trivial, iff_of_true (absurd · other) trivial⟩
  | director hostname =>
    obtain ⟨agent, manager⟩ := director_mayPass uid aid hostname
    exact ⟨iff_of_true (fun _ => agent) trivial, iff_of_true (fun _ => manager) trivial⟩

/-- A user of another application whose certificate comes with its components
turned round. -/
theorem reversedUser_checked :
    ((conpaasCallbackAgent "3" "1" (Leaf.user "7" "joe" "joe@example.org").subject.reverse true = .ok true ↔
      AgentMayPass "3" "1" (Leaf.user "7" "joe" "joe@example.org").subject.reverse) ↔
      (Leaf.user "7" "joe" "joe@example.org").OrdinaryName) ∧
    ((conpaasCallbackManager "3" (Leaf.user "7" "joe" "joe@example.org").subject.reverse true = .ok true ↔
      ManagerMayPass "3" (Leaf.user "7" "joe" "joe@example.org").subject.reverse) ↔
      (Leaf.user "7" "joe" "joe@example.org").OrdinaryFor "3") :=
  roleCheck_iff _ _ (List.reverse_perm _) "3" "1"

/-- A user named as the CA passes the agent and the manager of somebody else. -/
theorem userNamedCA_passes : ¬ ∀ (leaf : Leaf) (components : Subject), components.Perm leaf.subject →
    ∀ uid aid : String,
      (conpaasCallbackAgent uid aid components true = .ok true ↔ AgentMayPass uid aid components) ∧
      (conpaasCallbackManager uid components true = .ok true ↔ ManagerMayPass uid components) := by
  intro law
  obtain ⟨agent, -⟩ := law (.user "7" "CA" "joe@example.org") _ (List.Perm.refl _) "3" "1"
  exact (user_mayPass "3" "1" "7" "CA" "joe@example.org").1 (agent.mp (by decide))

end ConPaaS
