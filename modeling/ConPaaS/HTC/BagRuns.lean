import ConPaaS.HTC.SampleCount
import ConPaaS.Lib.Transition
import Mathlib.Data.List.Forall2

namespace ConPaaS.HTC

/-- What happens to a job after its first bag is there. -/
inductive JobEvent
  | add (path content : List Char)
  | sample (workers : List String) (random : Nat → Nat)
  | execute

variable {F : Type} [DecidableEq F]

/-- `execute` of the manager refuses a job whose sampling has not started. -/
def jobStep (host : Host F) (job : Job F) : JobEvent → Job F
  | .add path content => addOn host path content job
  | .sample workers random => (sampleJob host workers random job).2
  | .execute => if (job.books 0).samplingStarted then executeBag host job else job

/-- The line of a task, without the end that `readlines` leaves at it. -/
def chomped (line : List Char) : List Char := if line.getLast? = some '\n' then line.dropLast else line

def Submission.line (task : Submission) : List Char := chomped task.commandline

/-- The lines of a bag as the job executes it. -/
def taskLines (content : List Char) : List (List Char) := (readlines content).map chomped

/-- The bags that were added in a run. -/
def addedBags (events : List JobEvent) : List (List Char) :=
  events.filterMap fun
    | .add _ content => some content
    | _ => none

/-- Each line of each bag is submitted once. -/
def OnceEach (first : List Char) (events : List JobEvent) (job : Job F) : Prop :=
  (job.submitted.map Submission.line).Perm (splitlines first ++ (addedBags events).flatMap taskLines)

/-- The file is not one of these paths', or has the text already. -/
def Spares (host : Host F) (job : Job F) (file : F) (content : List Char) (paths : List (List Char)) : Prop :=
  ∀ path ∈ paths, host.names path = file → job.files file = some content

/-- A bag that is added, or the left-over file, takes no other bag's place
before it was read, and all lines that are submitted go through. -/
def Careful (host : Host F) (job : Job F) : JobEvent → Prop
  | .add path content => Spares host job (host.names path) content job.paths
  | .sample workers random => (job.books 0).samplingStarted = false → ∀ path later content, job.paths = path :: later →
      job.files (host.names path) = some content →
      let samples := takeSamples random (sampleSize (splitlines content).length) (splitlines content)
      host.GoThrough job.submitted (sampleTasks job.jobId (typeList workers) samples.1) ∧
        Spares host job (host.names (leftoversPath job.jobId path)) (leftovers samples.2) later
  | .execute => (job.books 0).samplingStarted = true → ∀ path later content, job.paths = path :: later →
      job.files (host.names path) = some content →
      host.GoThrough job.submitted (bagTasks job.jobId (job.executed + 1) (readlines content))

section Lines

variable {line content : List Char}

theorem newline_not_mem_splitlines : ∀ line ∈ splitlines content, '\n' ∉ line := by
  induction content using splitlines.induct with
  | case1 => simp [splitlines]
  | case2 rest ih =>
    rw [splitlines]
    exact List.forall_mem_cons.mpr ⟨List.not_mem_nil, ih⟩
  | case3 c rest apart ends ih =>
    rw [splitlines.eq_3 _ _ apart, if_pos ends]
    exact List.forall_mem_cons.mpr ⟨List.not_mem_nil, ih⟩
  | case4 c rest apart goes none ih =>
    rw [splitlines.eq_3 _ _ apart, if_neg goes, none]
    simp only [List.mem_singleton, forall_eq]
    exact fun member => goes (.inl member.symm)
  | case5 c rest apart goes first later split ih =>
    rw [splitlines.eq_3 _ _ apart, if_neg goes, split]
    rw [split, List.forall_mem_cons] at ih
    refine List.forall_mem_cons.mpr ⟨?_, ih.2⟩
    rw [List.mem_cons, not_or]
    exact ⟨fun same => goes (.inl same.symm), ih.1⟩

theorem chomped_of_not_mem (clean : '\n' ∉ line) : chomped line = line :=
  if_neg fun last => clean (List.mem_of_getLast? last)

theorem readlines_line (clean : '\n' ∉ line) (rest : List Char) :
    readlines (line ++ '\n' :: rest) = (line ++ ['\n']) :: readlines rest := by
  induction line with
  | nil => rfl
  | cons c line ih =>
    rw [List.mem_cons, not_or] at clean
    rw [List.cons_append, readlines, if_neg (Ne.symm clean.1), ih clean.2, List.cons_append]

/-- What is written into the left-over file is read back from it. -/
theorem taskLines_leftovers {lines : List (List Char)} (clean : ∀ line ∈ lines, '\n' ∉ line) :
    taskLines (leftovers lines) = lines := by
  induction lines with
  | nil => rfl
  | cons line rest ih =>
    have first := clean line (List.mem_cons_self ..)
    have written : leftovers (line :: rest) = line ++ '\n' :: leftovers rest := by simp [leftovers]
    have chomp : chomped (line ++ ['\n']) = line := by simp [chomped]
    rw [taskLines, written, readlines_line first, List.map_cons, chomp]
    exact congrArg _ (ih fun other member => clean other (List.mem_cons_of_mem _ member))

theorem line_mapIdx {task : Nat → List Char → Submission} (command : ∀ i line, (task i line).commandline = line)
    (lines : List (List Char)) : (lines.mapIdx task).map Submission.line = lines.map chomped := by
  refine List.ext_getElem (by simp) fun i _ _ => ?_
  simp [Submission.line, command]

theorem line_sampleTasks (jobId : Nat) (types : List String) {samples : List (List Char)}
    (clean : ∀ line ∈ samples, '\n' ∉ line) : (sampleTasks jobId types samples).map Submission.line = samples := by
  rw [sampleTasks, line_mapIdx fun _ _ => rfl, List.map_congr_left fun line member => chomped_of_not_mem (clean line member),
    List.map_id']

end Lines

/-- The bags in the queue have these texts. -/
def Held (host : Host F) (files : F → Option (List Char)) (paths contents : List (List Char)) : Prop :=
  List.Forall₂ (fun path content => files (host.names path) = some content) paths contents

theorem Held.write {host : Host F} {job : Job F} {file : F} {content : List Char} {paths contents : List (List Char)}
    (held : Held host job.files paths contents) (spares : Spares host job file content paths) :
    Held host (job.write file content).files paths contents := by
  induction held with
  | nil => exact .nil
  | @cons path text later _ found _ ih =>
    refine .cons ?_ (ih fun other member => spares other (List.mem_cons_of_mem _ member))
    by_cases same : host.names path = file
    · have before := spares path (List.mem_cons_self ..) same
      rw [same, before] at found
      rw [same]
      exact (Function.update_self ..).trans found
    · exact (Function.update_of_ne same _ _).trans found

/-- The bags that are not yet read, and the lines of the others. -/
def Conserved (host : Host F) (first : List Char) (bags : List (List Char)) (job : Job F) : Prop :=
  ∃ contents, Held host job.files job.paths contents ∧
    ((job.books 0).samplingStarted = false ∧ job.submitted = [] ∧ contents = first :: bags ∨
      (job.books 0).samplingStarted = true ∧
        (job.submitted.map Submission.line ++ contents.flatMap taskLines).Perm (splitlines first ++ bags.flatMap taskLines))

section Steps

variable {host : Host F} {job : Job F} {first path content : List Char} {bags : List (List Char)}

theorem Conserved.add (conserved : Conserved host first bags job) (careful : Careful host job (.add path content)) :
    Conserved host first (bags ++ [content]) (addOn host path content job) := by
  obtain ⟨contents, held, state⟩ := conserved
  refine ⟨contents ++ [content], ?_, ?_⟩
  · have found : (job.write (host.names path) content).files (host.names path) = some content := Function.update_self ..
    exact List.rel_append (held.write careful) (.cons found .nil)
  · rcases state with ⟨waits, none, rfl⟩ | ⟨started, perm⟩
    · exact .inl ⟨waits, none, rfl⟩
    · refine .inr ⟨started, ?_⟩
      rw [List.flatMap_append, List.flatMap_append, ← List.append_assoc, ← List.append_assoc]
      exact perm.append_right _

theorem Conserved.sample {workers : List String} {random : Nat → Nat} (conserved : Conserved host first bags job)
    (careful : Careful host job (.sample workers random)) :
    Conserved host first bags (sampleJob host workers random job).2 := by
  obtain ⟨contents, held, ⟨waits, none, rfl⟩ | ⟨started, perm⟩⟩ := conserved
  · obtain ⟨path, later, found, rest, paths⟩ := List.forall₂_cons_right_iff.mp held
    obtain ⟨through, spares⟩ := careful waits path later first paths found
    rw [sampleJob_fresh waits paths found, submitAll_of_goThrough through]
    have taken := takeSamples_perm random (sampleSize (splitlines first).length) (splitlines first)
    have clean (line : List Char) (member : line ∈ splitlines first) := newline_not_mem_splitlines line member
    refine ⟨_ :: bags, .cons (Function.update_self ..) (Held.write rest spares), .inr ⟨rfl, ?_⟩⟩
    rw [none, List.nil_append, line_sampleTasks _ _ fun line member => clean line (taken.subset (List.mem_append_left _ member)),
      List.flatMap_cons, taskLines_leftovers fun line member => clean line (taken.subset (List.mem_append_right _ member)),
      ← List.append_assoc]
    exact taken.append_right _
  · have stays : (sampleJob host workers random job).2 = job := by rw [sampleJob, if_pos started]
    rw [stays]
    exact ⟨contents, held, .inr ⟨started, perm⟩⟩

omit [DecidableEq F] in
theorem Conserved.execute (conserved : Conserved host first bags job) (careful : Careful host job .execute)
    (started : (job.books 0).samplingStarted = true) : Conserved host first bags (executeBag host job) := by
  obtain ⟨contents, held, ⟨waits, -⟩ | ⟨-, perm⟩⟩ := conserved
  · rw [started] at waits
    cases waits
  · rw [executeBag]
    split
    · next empty => exact ⟨contents, held, .inr ⟨started, perm⟩⟩
    · next path later paths =>
      rw [paths] at held
      obtain ⟨content, rest, found, others, rfl⟩ := List.forall₂_cons_left_iff.mp held
      have through := careful started path later content paths found
      simp only [found, submitAll_of_goThrough through]
      refine ⟨rest, others, .inr ⟨?_, ?_⟩⟩
      · exact (congrArg _ (Function.update_of_ne (by omega) _ _)).trans started
      · rw [List.map_append, bagTasks, line_mapIdx fun _ _ => rfl, List.append_assoc]
        exact perm

theorem Conserved.step {event : JobEvent} (conserved : Conserved host first bags job) (careful : Careful host job event) :
    Conserved host first (bags ++ addedBags [event]) (jobStep host job event) := by
  cases event with
  | add path content => exact conserved.add careful
  | sample workers random =>
    rw [addedBags, List.filterMap_cons, List.filterMap_nil, List.append_nil]
    exact conserved.sample careful
  | execute =>
    rw [addedBags, List.filterMap_cons, List.filterMap_nil, List.append_nil, jobStep]
    split
    · next started => exact conserved.execute careful started
    · exact conserved

end Steps

/-- Along a run in which no file is written over and no line fails, the bags are
read as they were added, and no line is lost or submitted again. -/
theorem conserved_of_run {host : Host F} {files : F → Option (List Char)} {jobId : Nat} {path first : List Char}
    {events : List JobEvent} {job : Job F}
    (run : Transition.Run (Transition.Guarded (Careful host) fun before event after => jobStep host before event = after)
      (addBot host files jobId path first) events job) : Conserved host first (addedBags events) job := by
  induction run with
  | start => exact ⟨[first], .cons (Function.update_self ..) .nil, .inl ⟨rfl, rfl, rfl⟩⟩
  | next _ taken ih =>
    obtain ⟨careful, rfl⟩ := taken
    rw [addedBags, List.filterMap_append]
    exact ih.step careful

theorem onceEach_of_careful {host : Host F} {files : F → Option (List Char)} {jobId : Nat} {path first : List Char}
    {events : List JobEvent} {job : Job F}
    (run : Transition.Run (Transition.Guarded (Careful host) fun before event after => jobStep host before event = after)
      (addBot host files jobId path first) events job)
    (sampled : (job.books 0).samplingStarted = true) (processed : job.paths = []) : OnceEach first events job := by
  obtain ⟨contents, held, ⟨waits, -⟩ | ⟨-, perm⟩⟩ := conserved_of_run run
  · rw [sampled] at waits
    cases waits
  · rw [processed] at held
    cases held
    rwa [List.flatMap_nil, List.append_nil] at perm

/-- A machine with one Java class, in `/c`. -/
def javaHost : Host (List Char) where
  names := id
  classFiles _ := ⟨(· = "/c/Main.class".toList), fun _ => true, fun path => if path = "/c/".toList then some ["Main.class".toList] else none⟩

def javaJob (content : String) : Job (List Char) :=
  addBot javaHost (fun _ => none) 0 "/home/bag".toList content.toList

theorem sampleSize_one : sampleSize 1 = 1 := by
  have enough := (le_sampleSize_iff (k := 1) Nat.one_pos).mpr (by norm_num)
  have most := sampleSize_le 1
  omega

theorem sampleSize_two : sampleSize 2 = 1 := by
  have enough := (le_sampleSize_iff (k := 1) Nat.two_pos).mpr (by norm_num)
  have most := two_le_sampleSize_iff 2
  omega

/-- The job with one line, once it is submitted as a sample. -/
def idleJob : Job (List Char) :=
  { (javaJob "true").write "/home/lo-j0-b0".toList [] with
    paths := ["/home/lo-j0-b0".toList]
    books := Function.update (javaJob "true").books 0 (sampleBooks 1 [])
    submitted := [⟨0, 0, 0, "true".toList, []⟩] }

theorem oneLine_sampled : sampleJob javaHost [] id (javaJob "true") = (.size 1, idleJob) := by
  rw [javaJob, sampleJob_addBot,
    show (splitlines "true".toList).length = 1 from rfl, sampleSize_one]
  rfl

theorem trueLines_goThrough {submitted tasks : List Submission} (lines : tasks.map Submission.commandline ⊆ ["true".toList]) :
    javaHost.GoThrough submitted tasks := by
  refine goThrough_of_forall fun task member before => ?_
  rw [List.mem_singleton.mp (lines (List.mem_map_of_mem member))]
  rfl

/-- A bag added after the sampling, and both files executed. -/
theorem addedBag_once :
    OnceEach "true".toList [.sample [] id, .add "/home/more".toList "true".toList, .execute, .execute]
      (executeBag javaHost (executeBag javaHost (addOn javaHost "/home/more".toList "true".toList idleJob))) := by
  have sample : Careful javaHost (javaJob "true") (.sample [] id) := by
    intro _ path later content paths found
    obtain ⟨rfl, rfl⟩ := List.cons.inj paths
    obtain rfl := Option.some.inj found
    rw [show (splitlines "true".toList).length = 1 from rfl, sampleSize_one]
    exact ⟨trueLines_goThrough (by decide), fun _ member => absurd member List.not_mem_nil⟩
  have add : Careful javaHost idleJob (.add "/home/more".toList "true".toList) := by
    intro path member same
    obtain rfl := List.mem_singleton.mp member
    exact absurd same (by decide)
  have leftover : Careful javaHost (addOn javaHost "/home/more".toList "true".toList idleJob) .execute := by
    intro _ path later content paths found
    obtain ⟨rfl, rfl⟩ := List.cons.inj paths
    obtain rfl := Option.some.inj found
    exact trueLines_goThrough (by decide)
  have more : Careful javaHost (executeBag javaHost (addOn javaHost "/home/more".toList "true".toList idleJob)) .execute := by
    intro _ path later content paths found
    obtain ⟨rfl, rfl⟩ := List.cons.inj paths
    obtain rfl := Option.some.inj found
    exact trueLines_goThrough (by decide)
  exact onceEach_of_careful (((Transition.Run.single ⟨sample, congrArg Prod.snd oneLine_sampled⟩).next ⟨add, rfl⟩).next
    ⟨leftover, rfl⟩ |>.next ⟨more, rfl⟩) rfl rfl

def twoLines : String := "java -cp /c Main\njava -cp /c Main\n"

/-- The job once one of the two lines is submitted as a sample. -/
def sampledJob : Job (List Char) :=
  { (javaJob twoLines).write "/home/lo-j0-b0".toList "java -cp /c Main\n".toList with
    paths := ["/home/lo-j0-b0".toList]
    books := Function.update (javaJob twoLines).books 0 (sampleBooks 1 [])
    submitted := [⟨0, 0, 0, "java -cp /c Main".toList, []⟩] }

theorem twoLines_sampled : sampleJob javaHost [] id (javaJob twoLines) = (.size 1, sampledJob) := by
  rw [javaJob, sampleJob_addBot,
    show (splitlines twoLines.toList).length = 2 from rfl, sampleSize_two]
  rfl

/-- The other line has its "\n" when it is executed, and no class has that name. -/
theorem executedLine_fails : ¬ ∀ (host : Host (List Char)) (files : List Char → Option (List Char)) (jobId : Nat)
    (path first : List Char) (events : List JobEvent) (job : Job (List Char)),
    Transition.Run (fun before event after => jobStep host before event = after) (addBot host files jobId path first) events job →
      (job.books 0).samplingStarted = true → job.paths = [] → OnceEach first events job := by
  intro claim
  have run : Transition.Run (fun before event after => jobStep javaHost before event = after) (javaJob twoLines) [.sample [] id]
      sampledJob := .single (congrArg Prod.snd twoLines_sampled)
  have once := claim javaHost (fun _ => none) 0 _ _ _ _ (run.next (rfl : jobStep javaHost sampledJob .execute = _)) rfl rfl
  have length := once.length_eq
  revert length
  decide

end ConPaaS.HTC
