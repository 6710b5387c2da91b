import ConPaaS.Director.Database
import ConPaaS.Https.X509

namespace ConPaaS

open Keyed

/-- The characters `int` skips around a number. -/
def isSpace (c : Char) : Bool := (9 ≤ c.toNat && c.toNat ≤ 13) || c.toNat = 32

def readDigits (text : List Char) : Option Int :=
  let digits := text.dropWhile isSpace
  if digits ≠ [] ∧ digits.all Char.isDigit then
    some (digits.foldl (fun number digit => 10 * number + (digit.toNat - 48 : Nat)) (0 : Int))
  else none

/-- `int` of a string: a sign and digits with space around them, and with space
after the sign as well. -/
def pythonInt (text : String) : Option Int :=
  match ((text.toList.dropWhile isSpace).reverse.dropWhile isSpace).reverse with
  | '-' :: rest => (readDigits rest).map Neg.neg
  | '+' :: rest => readDigits rest
  | rest => readDigits rest

/-- How the director turns a request down before its handler runs. -/
inductive Denial
  | unauthorized (message : String)
  | answeredFalse
  | crashed (error : String)
  deriving DecidableEq, Repr

/-- The user and, for requests of managers, the application a certificate
speaks for. -/
structure Grant where
  user : User
  application : Application
  deriving DecidableEq, Repr

/-- The first half of `cert_required`: the user named by a certificate. -/
def certUser (db : Database) (cert : Certificate) : Except Denial User :=
  match (getX509DnField cert "UID").bind pythonInt with
  | none => .error (.unauthorized "cert_required: client certificate does NOT provide UID")
  | some uid =>
    match db.user.get? uid with
    | none => .error .answeredFalse
    | some user => .ok user

/-- `cert_required(role='manager')`. The role in the certificate is read and
never looked at, and a certificate without a service locator makes `int` raise
an error nobody catches. -/
def certRequiredManager (db : Database) (cert : Certificate) : Except Denial Grant :=
  match certUser db cert with
  | .error denial => .error denial
  | .ok user =>
    match getX509DnField cert "serviceLocator" with
    | none => .error (.crashed "TypeError")
    | some text =>
      match pythonInt text with
      | none => .error (.unauthorized "cert_required: client certificate does NOT provide serviceLocator")
      | some serviceLocator =>
        match db.getAppById user.uid serviceLocator with
        | none => .error .answeredFalse
        | some application => .ok ⟨user, application⟩

theorem certUser_ok {db : Database} {cert : Certificate} {user : User} :
    certUser db cert = .ok user ↔ (getX509DnField cert "UID").bind pythonInt = some user.uid ∧
      user ∈ db.user.rows := by
  unfold certUser
  constructor
  · intro granted
    split at granted
    · cases granted
    rename_i uid named
    split at granted
    · cases granted
    rename_i found
    cases granted
    obtain ⟨member, rfl⟩ := Table.get?_iff.mp found
    exact ⟨named, member⟩
  · rintro ⟨named, member⟩
    simp only [named, Table.get?_of_mem member]

/-- Who a certificate speaks for: the user and the application its subject
names, and the user owns the application. -/
theorem certRequiredManager_ok {db : Database} {cert : Certificate} {grant : Grant} :
    certRequiredManager db cert = .ok grant ↔
      (getX509DnField cert "UID").bind pythonInt = some grant.user.uid ∧
      (getX509DnField cert "serviceLocator").bind pythonInt = some grant.application.aid ∧
      grant.user ∈ db.user.rows ∧ grant.application ∈ db.application.rows ∧
      grant.application.userId = grant.user.uid := by
  unfold certRequiredManager
  constructor
  · intro granted
    split at granted
    · cases granted
    rename_i user known
    obtain ⟨named, member⟩ := certUser_ok.mp known
    split at granted
    · cases granted
    rename_i text found
    split at granted
    · cases granted
    rename_i locator read
    split at granted
    · cases granted
    rename_i application stored
    cases granted
    obtain ⟨stored, owner⟩ := Option.filter_eq_some_iff.mp stored
    obtain ⟨inside, rfl⟩ := Table.get?_iff.mp stored
    exact ⟨named, by rw [found]; exact read, member, inside, by simpa using owner⟩
  · rintro ⟨named, located, member, inside, owner⟩
    obtain ⟨text, found, read⟩ := Option.bind_eq_some_iff.mp located
    have stored : db.getAppById grant.user.uid grant.application.aid = some grant.application :=
      Option.filter_eq_some_iff.mpr ⟨Table.get?_of_mem inside, by simpa using owner⟩
    simp only [certUser_ok.mpr ⟨named, member⟩, found, read, stored]

/-- A granted application is one of the granted user's. -/
theorem certRequiredManager_owns {db : Database} {cert : Certificate} {grant : Grant}
    (granted : certRequiredManager db cert = .ok grant) : db.owns grant.user.uid grant.application.aid = true := by
  obtain ⟨-, -, -, inside, owner⟩ := certRequiredManager_ok.mp granted
  exact Database.owns_iff.mpr ⟨grant.application, inside, rfl, owner⟩

end ConPaaS
