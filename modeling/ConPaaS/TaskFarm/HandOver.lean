import ConPaaS.TaskFarm.BagOfTasks
import Mathlib.Data.List.Perm.Basic

namespace ConPaaS

/-! ### The jobs of a bag file -/

theorem repr_injective : Function.Injective Nat.repr := by
  intro n m same
  have digits : Nat.toDigits 10 n = Nat.toDigits 10 m := by
    rw [← Nat.toList_repr, ← Nat.toList_repr, same]
  calc
    n = Nat.ofDigitChars 10 (Nat.toDigits 10 n) 0 := Nat.ofDigitChars_ten_toDigits.symm
    _ = Nat.ofDigitChars 10 (Nat.toDigits 10 m) 0 := by rw [digits]
    _ = m := Nat.ofDigitChars_ten_toDigits

/-- The ids of a bag are its numbers from the first one on, with no gap. -/
theorem readTasks_ids (text : List Char) (i : Nat) :
    (readTasks text i).map BagJob.jobID = (List.range' i (readTasks text i).length).map Nat.repr := by
  induction text, i using readTasks.induct with
  | case1 text i more line blank ih =>
    rw [readTasks, dif_pos more]
    simpa only [line, blank] using ih
  | case2 text i more line exec args first ih =>
    rw [readTasks, dif_pos more]
    simp only [line] at first ih
    simp only [first, List.map_cons, List.length_cons, List.range'_succ, ih, BagJob.create]
  | case3 text i last =>
    rw [readTasks, dif_neg last]
    rfl

theorem readTasks_ids_nodup (text : List Char) (i : Nat) : ((readTasks text i).map BagJob.jobID).Nodup := by
  rw [readTasks_ids]
  exact List.Nodup.map repr_injective List.nodup_range'

/-- Two jobs with one id are one job where no id is there twice. -/
theorem job_of_id {bag : List BagJob} (ids : (bag.map BagJob.jobID).Nodup) {job other : BagJob} (member : job ∈ bag)
    (otherMember : other ∈ bag) (same : job.jobID = other.jobID) : job = other :=
  List.inj_on_of_nodup_map ids member otherMember same

theorem nodup_described {bag : List BagJob} (ids : (bag.map BagJob.jobID).Nodup) : (bag.map BagJob.described).Nodup := by
  have through : bag.map BagJob.jobID = (bag.map BagJob.described).map fun said => said.2.2 := by
    rw [List.map_map]
    rfl
  rw [through] at ids
  exact ids.of_map

/-! ### What a hash set of jobs compares -/

theorem BagJob.sameKey_of_described {job other : BagJob} (same : job.described = other.described) :
    job.sameKey other = true := by
  simp only [described, Prod.mk.injEq] at same
  simp only [sameKey, hashCode, equals, same.1, same.2.1, same.2.2, decide_true, Bool.and_self]

theorem BagJob.id_of_sameKey {job other : BagJob} (same : job.sameKey other = true) : job.jobID = other.jobID := by
  simp only [sameKey, equals, Bool.and_eq_true, decide_eq_true_eq] at same
  exact same.2

theorem JobSet.nodup_described (set : JobSet) : (set.jobs.map BagJob.described).Nodup := by
  refine List.pairwise_map.mpr (set.distinct.imp ?_)
  intro job other apart same
  rw [BagJob.sameKey_of_described same] at apart
  cases apart

/-- `removeAll` and the set part the bag: what the set finds in the bag is what
is in the set, if the set has jobs of the bag only. -/
theorem JobSet.contained_perm {bag : List BagJob} (ids : (bag.map BagJob.jobID).Nodup) (set : JobSet)
    (known : ∀ job ∈ set.jobs, job.described ∈ bag.map BagJob.described) :
    ((bag.filter fun job => set.contains job).map BagJob.described).Perm (set.jobs.map BagJob.described) := by
  refine (List.perm_ext_iff_of_nodup ?_ set.nodup_described).mpr ?_
  · exact (ConPaaS.nodup_described ids).sublist (List.filter_sublist.map _)
  intro said
  simp only [List.mem_map, List.mem_filter, contains, List.any_eq_true]
  constructor
  · rintro ⟨job, ⟨member, stored, storedMember, same⟩, rfl⟩
    obtain ⟨original, originalMember, saidOf⟩ := List.mem_map.mp (known stored storedMember)
    have sameId : original.jobID = stored.jobID := congrArg (fun said => said.2.2) saidOf
    have one : original = job :=
      job_of_id ids originalMember member (sameId.trans (BagJob.id_of_sameKey same))
    exact ⟨stored, storedMember, by rw [← saidOf, one]⟩
  · rintro ⟨stored, storedMember, rfl⟩
    obtain ⟨original, originalMember, saidOf⟩ := List.mem_map.mp (known stored storedMember)
    exact ⟨original, ⟨originalMember, stored, storedMember, BagJob.sameKey_of_described saidOf.symm⟩, saidOf⟩

/-! ### The executor -/

theorem Executor.create_eq {σ : Type} {files : String → Option String} {bot : BotRunner} {schedules : List σ}
    {text : String} (file : files bot.bag.inputFile = some text) {selected : Int} {schedule : σ}
    (number : 0 ≤ selected) (chosen : schedules[selected.toNat]? = some schedule) :
    Executor.create files (dumpSchedules bot schedules) selected =
      .ok ⟨{ bot with
        bag := { bot.bag with
          tasks := (readTasks text.toList 0).filter fun job => !bot.finishedTasks.contains job } }, schedule⟩ := by
  have notNegative : ¬(selected < 0) := by omega
  simp only [create, deserializeSchedules, dumpSchedules, BagOfTasks.cleanup, BagOfTasks.getBoT, file, Option.map_some,
    List.nil_append, bind, Except.bind, notNegative, if_false, chosen]

/-- The executor starts from the jobs of the bag that were not finished in the
sampling phase, each of them once. -/
theorem handOver_perm {σ : Type} (files : String → Option String) (bot : BotRunner) (schedules : List σ) (text : String)
    (selected : Int) (file : files bot.bag.inputFile = some text)
    (finished : ∀ job ∈ bot.finishedTasks.jobs, job.described ∈ (readTasks text.toList 0).map BagJob.described)
    (number : 0 ≤ selected) (chosen : selected.toNat < schedules.length) :
    ∃ executor, Executor.create files (dumpSchedules bot schedules) selected = .ok executor ∧
      executor.bot.finishedTasks = bot.finishedTasks ∧
      ((executor.bot.bag.tasks ++ bot.finishedTasks.jobs).map BagJob.described).Perm
        ((readTasks text.toList 0).map BagJob.described) ∧
      ((readTasks text.toList 0).map BagJob.jobID).Nodup ∧
      ∀ job ∈ bot.finishedTasks.jobs, job.jobID ∉ executor.bot.bag.tasks.map BagJob.jobID := by
  have ids := readTasks_ids_nodup text.toList 0
  refine ⟨_, Executor.create_eq file number (List.getElem?_eq_getElem chosen), rfl, ?_, ids, ?_⟩
  · rw [List.map_append]
    have parted := List.filter_append_perm (fun job => bot.finishedTasks.contains job) (readTasks text.toList 0)
    have contained := JobSet.contained_perm ids bot.finishedTasks finished
    refine (contained.symm.append_left _).trans ?_
    rw [← List.map_append]
    exact (List.perm_append_comm.trans parted).map _
  · intro job member queued
    obtain ⟨task, taskMember, sameId⟩ := List.mem_map.mp queued
    obtain ⟨inBag, unfinished⟩ := List.mem_filter.mp taskMember
    obtain ⟨original, originalMember, saidOf⟩ := List.mem_map.mp (finished job member)
    have one : original = task :=
      job_of_id ids originalMember inBag ((congrArg (fun said => said.2.2) saidOf).trans sameId.symm)
    rw [Bool.not_eq_true', JobSet.contains, List.any_eq_false] at unfinished
    exact unfinished job member (BagJob.sameKey_of_described (one ▸ saidOf.symm))

theorem readTasks_next {text rest line : List Char} {exec : String} {args : List String} {i : Nat}
    (more : hasNext text = true) (read : nextLine text = (line, rest)) (first : splitSpaces line = exec :: args) :
    readTasks text i = BagJob.create args exec (Nat.repr i) :: readTasks rest (i + 1) := by
  rw [readTasks, dif_pos more]
  simp only [read, first]

theorem readTasks_last {text : List Char} {i : Nat} (last : hasNext text = false) : readTasks text i = [] := by
  rw [readTasks, dif_neg (by simp [last])]

/-- Two naps, one of them done in the sampling phase. -/
def napText : String := "/bin/sleep 3\n/bin/sleep 5\n"

def napDone : BagJob := ⟨"/bin/sleep", ["3"], "0", some "node-1", true, [("ec2:m1", 3)]⟩

def napRunner : BotRunner := ⟨⟨[BagJob.create ["5"] "/bin/sleep" "1"], "naps.bot"⟩, ⟨[napDone], List.pairwise_singleton ..⟩⟩

theorem readTasks_nap :
    readTasks napText.toList 0 =
      [BagJob.create ["3"] "/bin/sleep" (Nat.repr 0), BagJob.create ["5"] "/bin/sleep" (Nat.repr 1)] := by
  have first : nextLine napText.toList = ("/bin/sleep 3".toList, "/bin/sleep 5\n".toList) := by decide
  have second : nextLine "/bin/sleep 5\n".toList = ("/bin/sleep 5".toList, []) := by decide
  have firstSplit : splitSpaces "/bin/sleep 3".toList = ["/bin/sleep", "3"] := by decide
  have secondSplit : splitSpaces "/bin/sleep 5".toList = ["/bin/sleep", "5"] := by decide
  rw [readTasks_next (by decide) first firstSplit, readTasks_next (by decide) second secondSplit, readTasks_last rfl]

theorem nap_handedOver :
    ∃ executor, Executor.create (fun _ => some napText) (dumpSchedules napRunner ["cheapest", "fastest"]) 1 = .ok executor ∧
      executor.bot.finishedTasks = napRunner.finishedTasks ∧
      ((executor.bot.bag.tasks ++ napRunner.finishedTasks.jobs).map BagJob.described).Perm
        ((readTasks napText.toList 0).map BagJob.described) ∧
      ((readTasks napText.toList 0).map BagJob.jobID).Nodup ∧
      ∀ job ∈ napRunner.finishedTasks.jobs, job.jobID ∉ executor.bot.bag.tasks.map BagJob.jobID :=
  handOver_perm (fun _ => some napText) napRunner ["cheapest", "fastest"] napText 1 rfl
    (by
      rw [readTasks_nap]
      simp only [napRunner, napDone, List.forall_mem_singleton]
      exact List.mem_cons_self)
    (by decide) (by decide)

end ConPaaS
