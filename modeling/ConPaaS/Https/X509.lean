import ConPaaS.Lib.Table

namespace ConPaaS

open Keyed

/-- One component of the subject of a certificate. -/
structure Component where
  key : String
  value : String
  deriving DecidableEq, Repr

abbrev Subject := List Component

/-- A certificate signed by the CA of the director, or what is used of it. -/
structure Certificate where
  subject : Subject
  serial : Int
  deriving DecidableEq, Repr

/-- The component an attribute of a subject is kept in. -/
def attributeName (name : String) : String := if name = "userId" then "UID" else name

/-- `create_x509_req`, up to the order in which its keyword arguments come. -/
def createX509Req (name : List Component) : Subject := name.map fun c => ⟨attributeName c.key, c.value⟩

/-- `create_cert` and `create_x509_cert`: the subject of the request is taken
over as it is. -/
def createX509Cert (req : Subject) (serial : Int) : Certificate := ⟨req, serial⟩

/-- `get_x509_dn_field`: the first component of a name. -/
def getX509DnField (cert : Certificate) (field : String) : Option String :=
  (cert.subject.find? fun c => c.key = field).map Component.value

/-- The subject `generate_certificate` asks for. -/
def generateSubject (uid aid role email cn org : String) : Subject :=
  createX509Req [⟨"userId", uid⟩, ⟨"serviceLocator", aid⟩, ⟨"O", org⟩, ⟨"emailAddress", email⟩, ⟨"CN", cn⟩, ⟨"role", role⟩]

/-- The certificates the director issues from its own data: for a user, for a
manager or an agent of an application, and for itself. -/
inductive Leaf
  | user (uid username email : String)
  | manager (uid aid : String)
  | agent (uid aid : String)
  | director (hostname : String)
  deriving DecidableEq, Repr

/-- The subjects `get_user_certs`, `_get_certificate` and the setup of the
director put into these certificates. -/
def Leaf.subject : Leaf → Subject
  | .user uid username email => generateSubject uid "0" "user" email username "Contrail"
  | .manager uid aid => generateSubject uid aid "manager" "info@conpaas.eu" "ConPaaS" "Contrail"
  | .agent uid aid => generateSubject uid aid "agent" "info@conpaas.eu" "ConPaaS" "Contrail"
  | .director hostname =>
    createX509Req [⟨"CN", hostname⟩, ⟨"emailAddress", "info@conpaas.eu"⟩, ⟨"O", "ConPaaS"⟩, ⟨"role", "frontend"⟩]

/-- The loop over the components at the start of the verification callbacks.
It stops at the common name of the CA. -/
def readSubject : Subject → Table Component.key → Option (Table Component.key)
  | [], dict => some dict
  | c :: rest, dict => if c.key = "CN" ∧ c.value = "CA" then none else readSubject rest (dict.put c)

/-- `dict[key]`. -/
def item (dict : Table Component.key) (key : String) : Except String String :=
  match dict.get? key with
  | none => .error key
  | some c => .ok c.value

/-- `_conpaas_callback_agent`, of an agent of an application. -/
def conpaasCallbackAgent (uid aid : String) (components : Subject) (ok : Bool) : Except String Bool :=
  match readSubject components .empty with
  | none => .ok ok
  | some dict => do
    let role ← item dict "role"
    if role = "frontend" then return ok
    if role ≠ "manager" ∧ role ≠ "agent" then return false
    if (← item dict "UID") ≠ uid then return false
    if (← item dict "serviceLocator") ≠ aid then return false
    return ok

/-- `_conpaas_callback_manager`, of a manager of a user. -/
def conpaasCallbackManager (uid : String) (components : Subject) (ok : Bool) : Except String Bool :=
  match readSubject components .empty with
  | none => .ok ok
  | some dict => do
    let role ← item dict "role"
    if role = "frontend" then return ok
    if role ≠ "user" ∧ role ≠ "manager" then return false
    if (← item dict "UID") ≠ uid then return false
    return ok

end ConPaaS
