import Mathlib.Algebra.Order.Floor.Ring
import Mathlib.Data.Rat.Floor
import Mathlib.Logic.Function.Basic

namespace ConPaaS.HTC

/-- `splitlines`, for which "\n", "\r" and "\r\n" end a line. -/
def splitlines : List Char → List (List Char)
  | [] => []
  | '\r' :: '\n' :: rest => [] :: splitlines rest
  | c :: rest =>
    if c = '\n' ∨ c = '\r' then [] :: splitlines rest
    else match splitlines rest with
      | [] => [[c]]
      | line :: later => (c :: line) :: later

/-- `readlines`, which keeps the "\n" at the end of a line. -/
def readlines : List Char → List (List Char)
  | [] => []
  | c :: rest =>
    if c = '\n' then ['\n'] :: readlines rest
    else match readlines rest with
      | [] => [[c]]
      | line :: later => (c :: line) :: later

/-- `split(' ')`. -/
def splitSpaces : List Char → List (List Char)
  | [] => [[]]
  | c :: rest =>
    if c = ' ' then [] :: splitSpaces rest
    else match splitSpaces rest with
      | [] => [[c]]
      | word :: later => (c :: word) :: later

/-- `os.path.dirname`. -/
def dirname (path : List Char) : List Char :=
  let head := (path.reverse.dropWhile (· ≠ '/')).reverse
  if head.all (· = '/') then head else (head.reverse.dropWhile (· = '/')).reverse

/-- A class ad with its task file, as `submit_a_task` hands them to Condor. -/
structure Submission where
  jobnr : Nat
  bagnr : Nat
  tasknr : Nat
  commandline : List Char
  workerlist : List String

/-- The `queue` commands of the class ad with their requirements. -/
def Submission.queue (task : Submission) : List (Option String) :=
  if task.workerlist = [] then [none] else task.workerlist.map some

/-- What the files and directories say to the calls of the Java branch. -/
structure ClassFiles where
  readable : List Char → Bool
  writable : List Char → Bool
  listdir : List Char → Option (List (List Char))

/-- The Java branch of `submit_a_task` raises no error. Without `-cp` the class
path is empty, and `listdir('')` fails. -/
def ClassFiles.copied (files : ClassFiles) : List (List Char) → Bool
  | _ :: option :: directory :: name :: _ =>
    let classpath := directory ++ ['/']
    option = "-cp".toList && files.readable (classpath ++ name ++ ".class".toList) &&
      files.writable (name ++ ".class".toList) &&
      (files.listdir classpath).any fun classes => classes.all fun aClass =>
        !".class".toList.isSuffixOf aClass || files.readable (classpath ++ aClass) && files.writable aClass
  | _ => false

def ClassFiles.goesThrough (files : ClassFiles) (commandline : List Char) : Bool :=
  let command := splitSpaces commandline
  command.head? ≠ some "java".toList || files.copied command

/-- The machine of the service: the file that a path names, and the class files
after some submissions, which copy such files. -/
structure Host (F : Type) where
  names : List Char → F
  classFiles : List Submission → ClassFiles

/-- The loops that submit one task after the other. An error of `submit_a_task`
ends them with what was submitted before. -/
def Host.submitAll {F : Type} (host : Host F) : List Submission → List Submission → Except (List Submission) (List Submission)
  | submitted, [] => .ok submitted
  | submitted, task :: rest =>
    if (host.classFiles submitted).goesThrough task.commandline then host.submitAll (submitted ++ [task]) rest
    else .error submitted

/-- None of the tasks makes `submit_a_task` fail. -/
def Host.GoThrough {F : Type} (host : Host F) (submitted tasks : List Submission) : Prop :=
  ∀ before task after, tasks = before ++ task :: after →
    (host.classFiles (submitted ++ before)).goesThrough task.commandline = true

theorem goThrough_of_forall {F : Type} {host : Host F} {submitted tasks : List Submission}
    (through : ∀ task ∈ tasks, ∀ before, (host.classFiles before).goesThrough task.commandline = true) :
    host.GoThrough submitted tasks := by
  rintro before task after rfl
  exact through task (List.mem_append_right _ (List.mem_cons_self ..)) _

theorem submitAll_of_goThrough {F : Type} {host : Host F} {submitted tasks : List Submission} (through : host.GoThrough submitted tasks) :
    host.submitAll submitted tasks = .ok (submitted ++ tasks) := by
  induction tasks generalizing submitted with
  | nil => rw [Host.submitAll, List.append_nil]
  | cons task rest ih =>
    have first := through [] task rest rfl
    rw [List.append_nil] at first
    rw [Host.submitAll, if_pos first, ih, List.append_assoc, List.singleton_append]
    intro before other after split
    have later := through (task :: before) other after (congrArg _ split)
    rwa [List.append_assoc, List.singleton_append]

/-- An entry of `tf_job_dict`. -/
structure BagBooks where
  samplingStarted : Bool := false
  samplingReady : Bool := false
  completedTasks : Nat := 0
  totalTasks : Nat := 0
  submittedTasks : Int := 0

/-- A job of the task farm with the files of the machine. -/
structure Job (F : Type) where
  jobId : Nat
  files : F → Option (List Char)
  /-- `jobs[job_id]`, the paths of the bags. -/
  paths : List (List Char)
  /-- `bags[job_id]`, the number of bags executed. -/
  executed : Nat := 0
  books : Nat → BagBooks := fun _ => {}
  submitted : List Submission := []

variable {F : Type} [DecidableEq F]

/-- The file is written as the manager does for an upload. -/
def Job.write (job : Job F) (file : F) (content : List Char) : Job F :=
  { job with files := Function.update job.files file (some content) }

/-- `create_job` of the manager with `add_bot`. -/
def addBot (host : Host F) (files : F → Option (List Char)) (jobId : Nat) (path content : List Char) : Job F :=
  Job.write { jobId, files, paths := [path] } (host.names path) content

/-- `add` of the manager with `add_on`. -/
def addOn (host : Host F) (path content : List Char) (job : Job F) : Job F :=
  { job.write (host.names path) content with paths := job.paths ++ [path] }

def replicationSize : Nat := 7

/-- The number of samples for a bag of `N` lines. The product `0.2*0.2` has the
last digit it has in the source: with an exact one 112848 lines would have 48
samples and not 47. -/
def sampleSize (N : Nat) : Nat :=
  ⌊(N * 1.96 * 1.96 : Rat) / (1.96 * 1.96 + 2 * (N - 1) * 0.04000000000000001)⌋.toNat

/-- The lines `random.randrange` picks one after the other, and the lines left. -/
def takeSamples (random : Nat → Nat) : Nat → List (List Char) → List (List Char) × List (List Char)
  | 0, lines => ([], lines)
  | more + 1, lines =>
    let take := random lines.length % lines.length
    let samples := takeSamples random more (lines.eraseIdx take)
    (lines[take]?.toList ++ samples.1, samples.2)

/-- The types of the registered workers, each once. -/
def typeList (workers : List String) : List String :=
  workers.foldl (fun types workertype => if workertype ∈ types then types else types ++ [workertype]) []

/-- The tasks of a sample: the first ones go to all worker types. -/
def sampleTasks (jobId : Nat) (types : List String) (samples : List (List Char)) : List Submission :=
  samples.mapIdx fun i line => ⟨jobId, 0, i, line, if i < replicationSize then types else []⟩

/-- The tasks of a bag that is executed. -/
def bagTasks (jobId bagId : Nat) (lines : List (List Char)) : List Submission :=
  lines.mapIdx fun line l => ⟨jobId, bagId, line, l, []⟩

def leftoversPath (jobId : Nat) (path : List Char) : List Char :=
  dirname path ++ "/lo-j".toList ++ Nat.toDigits 10 jobId ++ "-b0".toList

def leftovers (lines : List (List Char)) : List Char := lines.flatMap (· ++ ['\n'])

/-- The administration of `sample_job`. -/
def sampleBooks (size : Nat) (types : List String) : BagBooks :=
  { samplingStarted := true
    totalTasks := size
    submittedTasks := size + replicationSize * ((types.length : Int) - 1) }

/-- What `sample_job` returns, or that it raises an error. -/
inductive Sampled
  | alreadyStarted
  | alreadyReady
  | size (size : Nat)
  | raised

/-- `sample_job` with the registered workers and the numbers `random` draws. -/
def sampleJob (host : Host F) (workers : List String) (random : Nat → Nat) (job : Job F) : Sampled × Job F :=
  if (job.books 0).samplingStarted then
    (if (job.books 0).samplingReady then .alreadyReady else .alreadyStarted, job)
  else match job.paths with
    | [] => (.raised, job)
    | path :: later =>
      match job.files (host.names path) with
      | none => (.raised, { job with paths := later })
      | some content =>
        let lines := splitlines content
        let size := sampleSize lines.length
        let types := typeList workers
        let (samples, rest) := takeSamples random size lines
        match host.submitAll job.submitted (sampleTasks job.jobId types samples) with
        | .error submitted => (.raised, { job with paths := later, submitted })
        | .ok submitted =>
          let filename := leftoversPath job.jobId path
          (.size size,
            { job.write (host.names filename) (leftovers rest) with
              paths := filename :: later
              books := Function.update job.books 0 (sampleBooks size types)
              submitted })

/-- The body of the loop in `_do_execute_job`. An error ends the thread. -/
def executeBag (host : Host F) (job : Job F) : Job F :=
  match job.paths with
  | [] => job
  | path :: later =>
    let bagId := job.executed + 1
    let popped := { job with paths := later, executed := bagId }
    match job.files (host.names path) with
    | none => popped
    | some content =>
      let lines := readlines content
      match host.submitAll job.submitted (bagTasks job.jobId bagId lines) with
      | .error submitted => { popped with submitted }
      | .ok submitted =>
        let books : BagBooks := { totalTasks := lines.length, submittedTasks := lines.length }
        { popped with books := Function.update job.books bagId books, submitted }

section Samples

variable {random : Nat → Nat} {host : Host F} {workers : List String} {job : Job F} {path content : List Char}
  {later : List (List Char)}

/-- The sample of a bag that can be read. -/
theorem sampleJob_fresh (fresh : (job.books 0).samplingStarted = false) (paths : job.paths = path :: later)
    (found : job.files (host.names path) = some content) :
    sampleJob host workers random job =
      match host.submitAll job.submitted (sampleTasks job.jobId (typeList workers)
        (takeSamples random (sampleSize (splitlines content).length) (splitlines content)).1) with
      | .error submitted => (.raised, { job with paths := later, submitted })
      | .ok submitted =>
        (.size (sampleSize (splitlines content).length),
          { job.write (host.names (leftoversPath job.jobId path))
              (leftovers (takeSamples random (sampleSize (splitlines content).length) (splitlines content)).2) with
            paths := leftoversPath job.jobId path :: later
            books := Function.update job.books 0 (sampleBooks (sampleSize (splitlines content).length) (typeList workers))
            submitted }) := by
  simp only [sampleJob, fresh, Bool.false_eq_true, if_false, paths, found]

theorem sampleJob_addBot (host : Host F) (files : F → Option (List Char)) (jobId : Nat) (path content : List Char)
    (workers : List String) (random : Nat → Nat) :
    sampleJob host workers random (addBot host files jobId path content) =
      match host.submitAll [] (sampleTasks jobId (typeList workers)
        (takeSamples random (sampleSize (splitlines content).length) (splitlines content)).1) with
      | .error submitted => (.raised, { addBot host files jobId path content with paths := [], submitted })
      | .ok submitted =>
        (.size (sampleSize (splitlines content).length),
          { (addBot host files jobId path content).write (host.names (leftoversPath jobId path))
              (leftovers (takeSamples random (sampleSize (splitlines content).length) (splitlines content)).2) with
            paths := [leftoversPath jobId path]
            books := Function.update (fun _ => {}) 0 (sampleBooks (sampleSize (splitlines content).length) (typeList workers))
            submitted }) :=
  sampleJob_fresh rfl rfl (Function.update_self ..)

theorem takeSamples_perm (random : Nat → Nat) (size : Nat) (lines : List (List Char)) :
    ((takeSamples random size lines).1 ++ (takeSamples random size lines).2).Perm lines := by
  induction size generalizing lines with
  | zero => exact .refl _
  | succ more ih =>
    have take := ih (lines.eraseIdx (random lines.length % lines.length))
    rw [takeSamples, List.append_assoc]
    refine (take.append_left _).trans ?_
    rcases lines.eq_nil_or_concat with rfl | some
    · exact .refl _
    · have bound : random lines.length % lines.length < lines.length := by
        refine Nat.mod_lt _ (List.length_pos_of_ne_nil ?_)
        obtain ⟨before, last, rfl⟩ := some
        simp
      rw [List.getElem?_eq_getElem bound, Option.toList_some, List.singleton_append]
      exact List.getElem_cons_eraseIdx_perm bound

/-- The lines that are picked are as many as there are to pick. -/
theorem length_samples {size : Nat} {lines : List (List Char)} (enough : size ≤ lines.length) :
    (takeSamples random size lines).1.length = size := by
  induction size generalizing lines with
  | zero => rfl
  | succ more ih =>
    have bound : random lines.length % lines.length < lines.length := Nat.mod_lt _ (by omega)
    have rest := List.length_eraseIdx_of_lt bound
    rw [takeSamples, List.getElem?_eq_getElem bound, Option.toList_some, List.length_append, ih (by omega), List.length_singleton]
    omega

theorem mem_of_sampleTasks {jobId : Nat} {types : List String} {samples : List (List Char)} {task : Submission}
    (member : task ∈ sampleTasks jobId types samples) : task.commandline ∈ samples := by
  obtain ⟨i, bound, rfl⟩ := List.mem_mapIdx.mp member
  exact List.getElem_mem bound

end Samples

end ConPaaS.HTC
