import ConPaaS.TaskFarm.ExecutionPhase
import ConPaaS.Director.ManagerIsolation

namespace ConPaaS

open Keyed

/-- The credit of a user. -/
def Database.creditOf (db : Database) (userId : Int) : Int := ((db.user.get? userId).map User.credit).getD 0

/-- `_deduct_credit`: the credit is lowered, and the transaction is committed
or rolled back. -/
def Director.deductCredit (db : Database) (userId decrement : Int) : Bool × Database :=
  if decrement ≤ 0 then (false, db)
  else
    let lowered : Database :=
      { db with
        user := db.user.modify userId (fun user => { user with credit := user.credit - decrement }) fun _ => rfl }
    if lowered.creditOf userId > -1 then (true, lowered) else (false, db)

/-- `sed 's/\.0*//'`: the first point is dropped with the zeros after it. -/
def sedAmount : List Char → List Char
  | [] => []
  | '.' :: rest => rest.dropWhile fun c => c = '0'
  | c :: rest => c :: sedAmount rest

/-- The request `callback.sh decrementUserCredit` posts. -/
def creditCallback (price : String) : ManagerRequest :=
  .decrementUserCredit none (some (String.ofList (sedAmount price.toList)))

/-- What lies between a master and the director: how a `double` is printed,
the clouds, and the certificate of the manager. -/
structure CreditLink where
  printed : ℚ → String
  outside : Outside
  cert : Certificate

/-- The money a master shows as spent, and the tables of the director. -/
structure CreditAccount where
  moneySpent : ℚ
  moneySpentSampling : ℚ
  db : Database

/-- `BoTRunner.decrementUserCredit`. What the director answers is not read. -/
def CreditLink.decrementUserCredit (link : CreditLink) (now : Int) (price : ℚ) (db : Database) : Database :=
  if 0 < price then
    match Director.respond link.outside now db link.cert (creditCallback (link.printed price)) with
    | .ok reply => reply.db
    | .error _ => db
  else db

/-- A cost check: the time, and the price of the workers at that time. -/
structure CostCheck where
  now : Int
  price : ℚ

namespace CreditAccount

/-- The money spent is set, and the difference to the old value is deducted. -/
def spend (link : CreditLink) (a : CreditAccount) (now : Int) (moneySpent : ℚ) : CreditAccount :=
  { a with moneySpent, db := link.decrementUserCredit now (moneySpent - a.moneySpent) a.db }

/-- The cost check in the loop of `SamplingPhaseMaster.run`. -/
def samplingCheck (link : CreditLink) (a : CreditAccount) (check : CostCheck) : CreditAccount :=
  { a.spend link check.now check.price with moneySpentSampling := check.price }

/-- The cost check of `updateFrontEndCache`. -/
def executionCheck (link : CreditLink) (a : CreditAccount) (check : CostCheck) : CreditAccount :=
  a.spend link check.now (check.price + a.moneySpentSampling)

end CreditAccount

/-- The cost checks of a phase. A sampling phase has one more after its loop. -/
inductive CostedPhase
  | sampling (checks : List CostCheck) (last : CostCheck)
  | execution (checks : List CostCheck)

def CostedPhase.run (link : CreditLink) (a : CreditAccount) : CostedPhase → CreditAccount
  | .sampling checks last => (checks.foldl (CreditAccount.samplingCheck link) a).spend link last.now last.price
  | .execution checks => checks.foldl (CreditAccount.executionCheck link) a

/-- The prices found at the successive checks. -/
def CostedPhase.prices : CostedPhase → List ℚ
  | .sampling checks last => (checks ++ [last]).map CostCheck.price
  | .execution checks => checks.map CostCheck.price

/-- The last check of a phase finds no more spent than there was before it. -/
def CostedPhase.Free (a : CreditAccount) : CostedPhase → Prop
  | .sampling _ last => last.price = a.moneySpent
  | .execution checks => ∀ last ∈ checks.getLast?, last.price + a.moneySpentSampling = a.moneySpent

/-- The check of the execution phase is the one its master makes. -/
theorem updateFrontEndCache_check (link : CreditLink) (db : Database) (m : Master) (now : Int) :
    (m.updateFrontEndCache now).serviceState.moneySpent =
      (CreditAccount.executionCheck link ⟨m.serviceState.moneySpent, m.serviceState.moneySpentSampling, db⟩
        ⟨now, m.price now⟩).moneySpent :=
  rfl

/-- A price with a fraction is posted without its point. -/
theorem sedAmount_fraction (whole fraction : List Char) (pointless : '.' ∉ whole) :
    sedAmount (whole ++ '.' :: fraction) = whole ++ fraction.dropWhile fun c => c = '0' := by
  induction whole with
  | nil => rfl
  | cons c rest ih =>
    obtain ⟨other, pointless⟩ := not_or.mp (mt List.mem_cons.mpr pointless)
    rw [List.cons_append, List.cons_append, ← ih pointless]
    exact sedAmount.eq_3 _ _ (fun point => other point.symm)

/-- A whole price is posted as it is. -/
theorem sedAmount_whole (whole : List Char) (pointless : '.' ∉ whole) : sedAmount (whole ++ ['.', '0']) = whole := by
  rw [sedAmount_fraction whole ['0'] pointless]
  exact List.append_nil whole

/-- No deduction gets as far as `_deduct_credit`. -/
theorem Director.decrementUserCredit_fails (aid decrement : Option String) :
    ∃ error, Director.decrementUserCredit aid decrement = .error error := by
  unfold Director.decrementUserCredit
  cases formInt (some (aid.getD "-1")) with
  | error error => exact ⟨error, rfl⟩
  | ok =>
    cases formInt (some (decrement.getD "1")) with
    | error error => exact ⟨error, rfl⟩
    | ok => exact ⟨"TypeError", rfl⟩

theorem Director.respond_decrementUserCredit {outside : Outside} {now : Int} {db : Database} {cert : Certificate}
    {aid decrement : Option String} {reply : Reply}
    (answer : Director.respond outside now db cert (.decrementUserCredit aid decrement) = .ok reply) :
    reply.db = db := by
  unfold Director.respond at answer
  cases granted : certRequiredManager db cert with
  | error denial =>
    rw [granted] at answer
    cases answer
  | ok grant =>
    rw [granted] at answer
    cases answer
    obtain ⟨error, failed⟩ := Director.decrementUserCredit_fails aid decrement
    show (Director.outsideTables db (Director.decrementUserCredit aid decrement)).db = db
    rw [failed]
    rfl

theorem Director.deductCredit_refused {db : Database} {userId decrement : Int}
    (refused : (Director.deductCredit db userId decrement).1 = false) :
    (Director.deductCredit db userId decrement).2 = db := by
  unfold Director.deductCredit at refused ⊢
  split at refused
  · rw [if_pos ‹_›]
  · rw [if_neg ‹_›]
    dsimp only at refused ⊢
    split at refused
    · cases refused
    · rw [if_neg ‹_›]

variable {link : CreditLink} {a : CreditAccount}

/-- The credit never follows the money spent. -/
theorem CreditLink.decrementUserCredit_db (now : Int) (price : ℚ) (db : Database) :
    link.decrementUserCredit now price db = db := by
  unfold decrementUserCredit
  split
  · split
    · rename_i reply answer
      exact Director.respond_decrementUserCredit answer
    · rfl
  · rfl

namespace CreditAccount

theorem spend_db (now : Int) (moneySpent : ℚ) : (a.spend link now moneySpent).db = a.db :=
  link.decrementUserCredit_db now _ a.db

theorem samplingChecks_db (checks : List CostCheck) : (checks.foldl (samplingCheck link) a).db = a.db := by
  induction checks generalizing a with
  | nil => rfl
  | cons check rest ih => exact ih.trans (spend_db check.now check.price)

theorem executionChecks_db (checks : List CostCheck) : (checks.foldl (executionCheck link) a).db = a.db := by
  induction checks generalizing a with
  | nil => rfl
  | cons check rest ih => exact ih.trans (spend_db check.now (check.price + a.moneySpentSampling))

/-- What an execution phase shows in the end: the price of its last check on
top of what the sampling has cost. -/
theorem executionChecks_spent (checks : List CostCheck) : (checks.foldl (executionCheck link) a).moneySpent =
    (checks.getLast?.map fun last => last.price + a.moneySpentSampling).getD a.moneySpent := by
  induction checks generalizing a with
  | nil => rfl
  | cons check rest ih =>
    rw [List.foldl_cons, ih, List.getLast?_cons]
    cases rest.getLast? with
    | none => rfl
    | some last => rfl

end CreditAccount

theorem CostedPhase.run_db (phase : CostedPhase) : (phase.run link a).db = a.db := by
  cases phase with
  | sampling checks last =>
    exact (CreditAccount.spend_db last.now last.price).trans (CreditAccount.samplingChecks_db checks)
  | execution checks => exact CreditAccount.executionChecks_db checks

theorem CostedPhase.run_spent_iff (phase : CostedPhase) : (phase.run link a).moneySpent = a.moneySpent ↔ phase.Free a := by
  cases phase with
  | sampling checks last => exact Iff.rfl
  | execution checks =>
    simp only [run, Free, CreditAccount.executionChecks_spent]
    cases checks.getLast? with
    | none => simp
    | some last => simp

/-- A phase leaves the tables of the director as they are, and the credit
agrees with the money spent exactly if the phase was free. A deduction that is
refused changes nothing. -/
theorem credit_agreement_iff (link : CreditLink) (a : CreditAccount) (phase : CostedPhase) (userId : Int) :
    (((a.db.creditOf userId - (phase.run link a).db.creditOf userId : Int) : ℚ) =
        (phase.run link a).moneySpent - a.moneySpent ↔ phase.Free a) ∧
      (∀ decrement, (Director.deductCredit a.db userId decrement).1 = false →
        (Director.deductCredit a.db userId decrement).2 = a.db) ∧
      ∀ now aid decrement reply,
        Director.respond link.outside now a.db link.cert (.decrementUserCredit aid decrement) = .ok reply →
          reply.db = a.db := by
  refine ⟨?_, fun _ => Director.deductCredit_refused, fun _ _ _ _ => Director.respond_decrementUserCredit⟩
  rw [phase.run_db, sub_self, Int.cast_zero, eq_comm, sub_eq_zero]
  exact phase.run_spent_iff

/-- An hour of a machine for three credits is spent and not deducted. -/
theorem samplingHour_unpaid : ¬∀ (link : CreditLink) (a : CreditAccount) (phase : CostedPhase) (userId : Int),
    phase.prices.Pairwise (· ≤ ·) →
      ((a.db.creditOf userId - (phase.run link a).db.creditOf userId : Int) : ℚ) =
        (phase.run link a).moneySpent - a.moneySpent := by
  intro agree
  have equal := agree ⟨fun _ => "3.0", oneCloud, tenantManager⟩ ⟨0, 0, twoTenants⟩ (.sampling [⟨3600, 3⟩] ⟨7200, 3⟩) 1
    (by simp [CostedPhase.prices])
  rw [CostedPhase.run_db, sub_self] at equal
  exact absurd equal (by decide +kernel)

end ConPaaS
