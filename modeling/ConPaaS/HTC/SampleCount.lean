import ConPaaS.HTC.TaskFarm
import Mathlib.Data.List.Induction
import Mathlib.Tactic.Linarith
import Mathlib.Tactic.NormNum
import Mathlib.Tactic.Positivity
import Mathlib.Tactic.Ring
import Mathlib.Tactic.IntervalCases

namespace ConPaaS.HTC

/-- A machine's turn at a task, by the task and the required type. -/
abbrev ClassAd := (Nat × Nat × Nat) × Option String

/-- The class ads Condor queues for a submitted task. -/
def Submission.classAds (task : Submission) : List ClassAd :=
  task.queue.map fun required => ((task.jobnr, task.bagnr, task.tasknr), required)

/-- The entry for the `c` elements of a history that was parsed. -/
inductive HistoryEntry
  | missing
  | single (ad : ClassAd)
  | list (ads : List ClassAd)

/-- `xmltodict.parse` on a history: elements of one name are a list only when
there is more than one of them. -/
structure XmlToDict where
  parse : List ClassAd → HistoryEntry
  parse_nil : parse [] = .missing
  parse_single (ad : ClassAd) : parse [ad] = .single ad
  parse_list (first second : ClassAd) (later : List ClassAd) :
    parse (first :: second :: later) = .list (first :: second :: later)

/-- `res_dict` with one more class ad under its task. -/
def recordAd : List ((Nat × Nat × Nat) × List ClassAd) → ClassAd → List ((Nat × Nat × Nat) × List ClassAd)
  | [], ad => [(ad.1, [ad])]
  | entry :: later, ad =>
    if entry.1 = ad.1 then (entry.1, entry.2 ++ [ad]) :: later else entry :: recordAd later ad

def getPollDict (ads : List ClassAd) : List ((Nat × Nat × Nat) × List ClassAd) := ads.foldl recordAd []

/-- One turn of the loop in `_do_poll`, and whether it is the last one. -/
def pollTurn (xml : XmlToDict) (history : List ClassAd) (books : BagBooks) : Bool × BagBooks :=
  match xml.parse history with
  | .list ads =>
    let completed : Nat := ((getPollDict ads).map fun entry => entry.2.length).sum
    let ready := decide ((completed : Int) = books.submittedTasks) || books.samplingReady
    (ready, { books with completedTasks := completed, samplingReady := ready })
  | _ => (false, books)

section Queued

theorem length_classAds (task : Submission) : task.classAds.length = max task.workerlist.length 1 := by
  rw [Submission.classAds, List.length_map, Submission.queue]
  split
  · next none => rw [none]; rfl
  · next some =>
    have positive := List.length_pos_iff.mpr some
    rw [List.length_map]
    omega

/-- The tasks of a sample as Condor queues them. -/
theorem length_queued (jobId : Nat) (types : List String) (samples : List (List Char)) :
    ((sampleTasks jobId types samples).flatMap Submission.classAds).length =
      samples.length + min samples.length replicationSize * (max types.length 1 - 1) := by
  induction samples using List.reverseRecOn with
  | nil => simp [sampleTasks]
  | append_singleton samples line ih =>
    have task : (sampleTasks jobId types (samples ++ [line])) = sampleTasks jobId types samples ++
        [⟨jobId, 0, samples.length, line, if samples.length < replicationSize then types else []⟩] := by
      simp [sampleTasks, List.mapIdx_append]
    rw [task, List.flatMap_append, List.length_append, ih, List.flatMap_singleton, length_classAds, List.length_append,
      List.length_singleton]
    by_cases replicated : samples.length < replicationSize
    · have least : min samples.length replicationSize = samples.length := by omega
      have next : min (samples.length + 1) replicationSize = samples.length + 1 := by omega
      simp only [if_pos replicated, least, next, Nat.add_mul]
      omega
    · have least : min samples.length replicationSize = replicationSize := by omega
      have next : min (samples.length + 1) replicationSize = replicationSize := by omega
      simp only [if_neg replicated, least, next, List.length_nil]
      omega

theorem submitted_of_ok {F : Type} {host : Host F} {submitted tasks after : List Submission}
    (through : host.submitAll submitted tasks = .ok after) : after = submitted ++ tasks := by
  induction tasks generalizing submitted with
  | nil =>
    cases through
    rw [List.append_nil]
  | cons task rest ih =>
    rw [Host.submitAll] at through
    split at through
    · rw [ih through, List.append_assoc, List.singleton_append]
    · cases through

end Queued

section Polling

theorem sum_recordAd (dict : List ((Nat × Nat × Nat) × List ClassAd)) (ad : ClassAd) :
    ((recordAd dict ad).map fun entry => entry.2.length).sum = (dict.map fun entry => entry.2.length).sum + 1 := by
  induction dict with
  | nil => rfl
  | cons entry later ih =>
    rw [recordAd]
    split
    · simp only [List.map_cons, List.sum_cons, List.length_append, List.length_singleton]
      omega
    · simp only [List.map_cons, List.sum_cons, ih]
      omega

/-- All class ads are counted, under whatever tasks they are. -/
theorem completed_eq (ads : List ClassAd) : ((getPollDict ads).map fun entry => entry.2.length).sum = ads.length := by
  have counted (dict : List ((Nat × Nat × Nat) × List ClassAd)) :
      ((ads.foldl recordAd dict).map fun entry => entry.2.length).sum =
        (dict.map fun entry => entry.2.length).sum + ads.length := by
    induction ads generalizing dict with
    | nil => rfl
    | cons ad rest ih =>
      rw [List.foldl_cons, ih, sum_recordAd, List.length_cons]
      omega
  rw [getPollDict, counted, List.map_nil, List.sum_nil, Nat.zero_add]

theorem pollTurn_iff (xml : XmlToDict) (history : List ClassAd) {books : BagBooks} (running : books.samplingReady = false) :
    (pollTurn xml history books).1 = true ↔ 2 ≤ history.length ∧ (history.length : Int) = books.submittedTasks := by
  rw [pollTurn]
  match history with
  | [] => simp [xml.parse_nil]
  | [ad] => simp [xml.parse_single]
  | first :: second :: later =>
    simp only [xml.parse_list, running, Bool.or_false, decide_eq_true_eq, completed_eq, List.length_cons]
    omega

/-- The polls of a sample stop at its end, and only there. -/
theorem polls_iff {xml : XmlToDict} {books : BagBooks} {queued : List ClassAd} (running : books.samplingReady = false) :
    (books.submittedTasks = queued.length ∧
      ∀ history, history.Subperm queued → ((pollTurn xml history books).1 = true ↔ history.Perm queued)) ↔
      books.submittedTasks = queued.length ∧ 2 ≤ queued.length := by
  refine and_congr_right fun recorded => ?_
  simp only [pollTurn_iff xml _ running, recorded]
  constructor
  · intro stops
    exact ((stops queued (List.Subperm.refl queued)).mpr (.refl _)).1
  · intro two history part
    constructor
    · rintro ⟨-, all⟩
      exact part.perm_of_length_le (by omega)
    · intro all
      have length := all.length_eq
      omega

end Polling

section SampleSize

theorem le_sampleSize_iff {k N : Nat} (positive : 0 < N) :
    k ≤ sampleSize N ↔ (k * (1.96 * 1.96 + 2 * (N - 1) * 0.04000000000000001) : Rat) ≤ N * 1.96 * 1.96 := by
  have one : (1 : Rat) ≤ N := by exact_mod_cast positive
  have divisor : (0 : Rat) < 1.96 * 1.96 + 2 * (N - 1) * 0.04000000000000001 := by
    have : (0 : Rat) ≤ 2 * (N - 1) * 0.04000000000000001 := by
      have : (0 : Rat) ≤ N - 1 := by linarith
      positivity
    norm_num
    linarith
  rw [sampleSize, ← le_div_iff₀ divisor]
  have natural : (k : Int) ≤ ⌊(N * 1.96 * 1.96 : Rat) / (1.96 * 1.96 + 2 * (N - 1) * 0.04000000000000001)⌋ ↔
      k ≤ ⌊(N * 1.96 * 1.96 : Rat) / (1.96 * 1.96 + 2 * (N - 1) * 0.04000000000000001)⌋.toNat := by
    have quotient : 0 ≤ ⌊(N * 1.96 * 1.96 : Rat) / (1.96 * 1.96 + 2 * (N - 1) * 0.04000000000000001)⌋ :=
      Int.floor_nonneg.mpr (div_nonneg (by positivity) divisor.le)
    omega
  rw [← natural, Int.le_floor, Int.cast_natCast]

theorem sampleSize_zero : sampleSize 0 = 0 := by
  norm_num [sampleSize]

/-- There are enough lines for the sample. -/
theorem sampleSize_le (N : Nat) : sampleSize N ≤ N := by
  rcases Nat.eq_zero_or_pos N with rfl | positive
  · rw [sampleSize_zero]
  · by_contra more
    have too := (le_sampleSize_iff positive).mp (show N + 1 ≤ sampleSize N by omega)
    have one : (1 : Rat) ≤ N := by exact_mod_cast positive
    push_cast at too
    nlinarith [mul_nonneg (by linarith : (0 : Rat) ≤ N + 1) (by linarith : (0 : Rat) ≤ N - 1)]

theorem two_le_sampleSize_iff (N : Nat) : 2 ≤ sampleSize N ↔ 3 ≤ N := by
  rcases Nat.eq_zero_or_pos N with rfl | positive
  · rw [sampleSize_zero]
    omega
  · rw [le_sampleSize_iff positive]
    constructor
    · intro enough
      by_contra few
      interval_cases N <;> norm_num at enough
    · intro enough
      have three : (3 : Rat) ≤ N := by exact_mod_cast enough
      push_cast
      linarith

theorem replicationSize_le_iff (N : Nat) : replicationSize ≤ sampleSize N ↔ 9 ≤ N := by
  rcases Nat.eq_zero_or_pos N with rfl | positive
  · rw [sampleSize_zero, replicationSize]
    omega
  · rw [le_sampleSize_iff positive, replicationSize]
    constructor
    · intro enough
      by_contra few
      interval_cases N <;> norm_num at enough
    · intro enough
      have nine : (9 : Rat) ≤ N := by exact_mod_cast enough
      push_cast
      linarith

end SampleSize

section Accounts

variable {F : Type} [DecidableEq F] {host : Host F} {workers : List String} {random : Nat → Nat} {job after : Job F}
  {path content : List Char} {later : List (List Char)} {size : Nat}

/-- The tasks `sample_job` records are the ones it has queued, and the polls,
each of a part of them, stop exactly when it is all of them. -/
def Accounted (xml : XmlToDict) (before after : Job F) : Prop :=
  let queued := (after.submitted.drop before.submitted.length).flatMap Submission.classAds
  (after.books 0).submittedTasks = queued.length ∧
    ∀ history, history.Subperm queued → ((pollTurn xml history (after.books 0)).1 = true ↔ history.Perm queued)

/-- The count is right for one worker type, and with more of them when the first
samples are as many as are to be replicated. -/
theorem recorded_iff (size types : Nat) :
    ((size : Int) + (replicationSize : Nat) * ((types : Int) - 1) =
      (size + min size replicationSize * (max types 1 - 1) : Nat)) ↔ types = 1 ∨ 2 ≤ types ∧ replicationSize ≤ size := by
  rw [replicationSize]
  match types with
  | 0 => simp
  | 1 => simp
  | more + 2 =>
    have most : max (more + 2) 1 - 1 = more + 1 := by omega
    have recorded : (size : Int) + (7 : Nat) * (((more + 2 : Nat) : Int) - 1) = (size + 7 * (more + 1) : Nat) := by
      push_cast
      ring
    rw [most, recorded, Nat.cast_inj, Nat.add_left_cancel_iff, Nat.mul_left_inj (Nat.succ_ne_zero more)]
    omega

/-- A machine without Java classes and with a single file. -/
def plainHost : Host Unit where
  names _ := ()
  classFiles _ := ⟨fun _ => false, fun _ => false, fun _ => none⟩

def plainJob (content : String) : Job Unit := addBot plainHost (fun _ => none) 0 "/bag".toList content.toList

theorem plainJob_sampled (workers : List String) (random : Nat → Nat) (content : String)
    (plain : ∀ line ∈ splitlines content.toList, line = "true".toList) :
    ∃ after, sampleJob plainHost workers random (plainJob content) =
        (.size (sampleSize (splitlines content.toList).length), after) ∧
      after.books 0 = sampleBooks (sampleSize (splitlines content.toList).length) (typeList workers) := by
  have through : ∀ task ∈ sampleTasks 0 (typeList workers)
      (takeSamples random (sampleSize (splitlines content.toList).length) (splitlines content.toList)).1,
      ∀ before, (plainHost.classFiles before).goesThrough task.commandline = true := by
    intro task member before
    have taken := (takeSamples_perm random _ _).subset (List.mem_append_left _ (mem_of_sampleTasks member))
    rw [plain _ taken]
    rfl
  have run := sampleJob_addBot plainHost (fun _ => none) 0 "/bag".toList content.toList workers random
  rw [submitAll_of_goThrough (goThrough_of_forall through)] at run
  exact ⟨_, run, rfl⟩

end Accounts

end ConPaaS.HTC
