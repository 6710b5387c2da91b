import Mathlib.Data.List.Perm.Basic

namespace ConPaaS

structure FloatingIp where
  ipAddress : String
  nodeId : Option String

/-- Which calls of the driver fail with an HTTP error, by the number of the
attempt, and the addresses of new floating IPs. -/
structure DriverAnswers where
  listFails : Nat → Bool
  createFails : Nat → Bool
  attachFails : Nat → Bool
  newAddress : Nat → String

/-- The floating IPs of the cloud, with the attachments and the number of the
attempts made, and of those that failed. -/
structure FloatingIps where
  floatingIps : List FloatingIp
  attached : List (String × String)
  attempts : Nat
  failures : Nat

namespace FloatingIps

variable (answers : DriverAnswers) (s : FloatingIps)

/-- `get_floating_ip`, with the floating IPs after it, unless a call fails. -/
def getFloatingIp : Option (FloatingIp × List FloatingIp) :=
  if answers.listFails s.attempts then none
  else
    match s.floatingIps.filter fun ip => ip.nodeId = none with
    | free :: _ => some (free, s.floatingIps)
    | [] =>
      if answers.createFails s.attempts then none
      else
        let created := ⟨answers.newAddress s.attempts, none⟩
        some (created, s.floatingIps ++ [created])

/-- The body of the `try` statement: whether it is left by `break`. -/
def attempt (instanceId : String) : Bool × FloatingIps :=
  let failed (ips : List FloatingIp) : FloatingIps :=
    ⟨ips, s.attached, s.attempts + 1, s.failures + 1⟩
  match s.getFloatingIp answers with
  | none => (false, failed s.floatingIps)
  | some (ip, ips) =>
    if answers.attachFails s.attempts then (false, failed ips)
    else
      let taken := ips.map fun other =>
        if other.ipAddress = ip.ipAddress then { other with nodeId := some instanceId } else other
      (true, ⟨taken, s.attached ++ [(instanceId, ip.ipAddress)], s.attempts + 1, s.failures⟩)

/-- `while nr_attempts > 0`. -/
def attach (instanceId : String) : Nat → FloatingIps → Nat × FloatingIps
  | 0, s => (0, s)
  | nrAttempts + 1, s =>
    match s.attempt answers instanceId with
    | (true, s) => (nrAttempts + 1, s)
    | (false, s) => attach instanceId nrAttempts s

/-- The loop over the instances, which share the attempts. -/
def attachAll : List String → Nat → FloatingIps → Nat × FloatingIps
  | [], nrAttempts, s => (nrAttempts, s)
  | instanceId :: rest, nrAttempts, s =>
    let (nrAttempts, s) := attach answers instanceId nrAttempts s
    attachAll rest nrAttempts s

/-- `associate_floating_ips` of a list of instances. -/
def associateFloatingIps (instances : List String) : Except String Unit × FloatingIps :=
  let (nrAttempts, s) := attachAll answers instances (3 * instances.length) s
  if nrAttempts = 0 then (.error "Error assigning floating IPs", s) else (.ok (), s)

variable {answers s} {instanceId : String} {nrAttempts : Nat}

theorem attempt_spec :
    (s.attempt answers instanceId).2.failures = s.failures + (if (s.attempt answers instanceId).1 then 0 else 1) ∧
    (s.attempt answers instanceId).2.attached.map Prod.fst =
      s.attached.map Prod.fst ++ if (s.attempt answers instanceId).1 then [instanceId] else [] := by
  unfold attempt
  dsimp only
  split
  · exact ⟨rfl, (List.append_nil _).symm⟩
  · split
    · exact ⟨rfl, (List.append_nil _).symm⟩
    · exact ⟨rfl, List.map_append⟩

/-- What the attempts for an instance leave: either it is attached and some
attempts are left, or it is not and none are. Each failure uses up one. -/
structure Tried (before after : FloatingIps) (instanceId : String) (nrAttempts left : Nat) : Prop where
  failures : after.failures + left = before.failures + nrAttempts
  attached : after.attached.map Prod.fst = before.attached.map Prod.fst ++ if 0 < left then [instanceId] else []

theorem tried_attach :
    Tried s (attach answers instanceId nrAttempts s).2 instanceId nrAttempts
      (attach answers instanceId nrAttempts s).1 := by
  induction nrAttempts generalizing s with
  | zero => exact ⟨rfl, (List.append_nil _).symm⟩
  | succ nrAttempts ih =>
    obtain ⟨failures, attached⟩ := @attempt_spec answers s instanceId
    unfold attach
    rcases tried : s.attempt answers instanceId with ⟨succeeds, after⟩
    rw [tried] at failures attached
    cases succeeds with
    | true => exact ⟨by simpa using failures, by simpa using attached⟩
    | false =>
      have later := ih (s := after)
      refine ⟨?_, ?_⟩
      · have count := later.failures
        dsimp only at failures ⊢
        rw [count, failures]
        simp
        omega
      · rw [later.attached]
        simpa using attached

theorem attachAll_zero {instances : List String} : attachAll answers instances 0 s = (0, s) := by
  induction instances with
  | nil => rfl
  | cons instanceId rest ih => exact ih

/-- What the loop over the instances leaves: the first of them are attached, and
all are exactly when some attempts are left. -/
structure TriedAll (before after : FloatingIps) (instances done missing : List String)
    (nrAttempts left : Nat) : Prop where
  failures : after.failures + left = before.failures + nrAttempts
  instances : instances = done ++ missing
  attached : after.attached.map Prod.fst = before.attached.map Prod.fst ++ done
  left_pos : 0 < left ↔ missing = []

theorem triedAll_attachAll {instances : List String} (more : 0 < nrAttempts) :
    ∃ done missing, TriedAll s (attachAll answers instances nrAttempts s).2 instances done missing nrAttempts
      (attachAll answers instances nrAttempts s).1 := by
  induction instances generalizing nrAttempts s with
  | nil => exact ⟨[], [], rfl, rfl, (List.append_nil _).symm, fun _ => rfl, fun _ => more⟩
  | cons instanceId rest ih =>
    have tried := @tried_attach answers s instanceId nrAttempts
    unfold attachAll
    rcases run : attach answers instanceId nrAttempts s with ⟨left, after⟩
    rw [run] at tried
    have failures := tried.failures
    have attached := tried.attached
    dsimp only at failures attached ⊢
    by_cases more : 0 < left
    · obtain ⟨done, missing, later⟩ := ih (s := after) more
      have total := later.failures
      rw [if_pos more] at attached
      refine ⟨instanceId :: done, missing, by omega, ?_, ?_, later.left_pos⟩
      · rw [later.instances, List.cons_append]
      · rw [later.attached, attached, List.append_assoc, List.singleton_append]
    · -- Without attempts left the other instances are passed over.
      obtain rfl : left = 0 := by omega
      rw [if_neg more] at attached
      rw [attachAll_zero]
      exact ⟨[], instanceId :: rest, failures, rfl, attached, by simp⟩

variable (answers s)

theorem associateFloatingIps_exact (first : String) (rest : List String) :
    ((associateFloatingIps answers s (first :: rest)).1 = .ok () ↔
      ((associateFloatingIps answers s (first :: rest)).2.attached.map Prod.fst).Perm
        (s.attached.map Prod.fst ++ first :: rest)) ∧
    ((associateFloatingIps answers s (first :: rest)).1 ≠ .ok () →
      (associateFloatingIps answers s (first :: rest)).1 = .error "Error assigning floating IPs") ∧
    (associateFloatingIps answers s (first :: rest)).2.failures ≤ s.failures + 3 * (first :: rest).length := by
  obtain ⟨done, missing, tried⟩ := @triedAll_attachAll answers s (3 * (first :: rest).length) (first :: rest) (by simp)
  unfold associateFloatingIps
  rcases run : attachAll answers (first :: rest) (3 * (first :: rest).length) s with ⟨left, after⟩
  rw [run] at tried
  have failures := tried.failures
  have left_pos := tried.left_pos
  dsimp only at failures left_pos ⊢
  by_cases spent : left = 0
  · rw [if_pos spent]
    refine ⟨⟨nofun, fun all => ?_⟩, fun _ => rfl, by dsimp only; omega⟩
    -- As many are attached as were given, so none is missing.
    have same := all.length_eq
    rw [tried.attached, tried.instances, List.length_append, List.length_append, List.length_append] at same
    have : missing = [] := List.length_eq_zero_iff.mp (by omega)
    exact absurd (left_pos.mpr this) (by omega)
  · rw [if_neg spent]
    refine ⟨⟨fun _ => ?_, fun _ => rfl⟩, fun h => absurd rfl h, by dsimp only; omega⟩
    rw [tried.attached, tried.instances, left_pos.mp (by omega), List.append_nil]

end FloatingIps

end ConPaaS
