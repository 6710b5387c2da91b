import Mathlib.Data.BitVec

namespace ConPaaS

/-- A task of a bag with what it needs to be run, and what the sampling phase
keeps about it: the node it was last sent to, whether it is done, and its run
times in seconds, by cluster. -/
structure BagJob where
  exec : String
  args : List String
  jobID : String
  node : Option String
  done : Bool
  runtimes : List (String × Int)
  deriving DecidableEq, Repr

/-- The UTF-16 code units of a character. -/
def utf16 (c : Char) : List Nat :=
  if c.toNat < 0x10000 then [c.toNat]
  else [0xD800 + (c.toNat - 0x10000) / 0x400, 0xDC00 + (c.toNat - 0x10000) % 0x400]

/-- `String.hashCode`, in the arithmetic of an `int`. -/
def stringHash (text : String) : BitVec 32 :=
  (text.toList.flatMap utf16).foldl (fun hash unit => 31 * hash + BitVec.ofNat 32 unit) 0

/-- `Arrays.deepHashCode` of an array of strings. -/
def deepHashCode (args : List String) : BitVec 32 := args.foldl (fun hash arg => 31 * hash + stringHash arg) 1

namespace BagJob

/-- The constructor of the class. -/
def create (args : List String) (exec jobID : String) : BagJob where
  exec
  args
  jobID
  node := none
  done := false
  runtimes := []

/-- `Job.equals` compares ids only. -/
def equals (job other : BagJob) : Bool := job.jobID = other.jobID

/-- `Job.hashCode` takes in the program and its arguments as well. -/
def hashCode (job : BagJob) : BitVec 32 :=
  ((7 * 71 + stringHash job.exec) * 71 + deepHashCode job.args) * 71 + stringHash job.jobID

/-- How a hash set compares an element with another job. -/
def sameKey (job other : BagJob) : Bool := job.hashCode = other.hashCode && job.equals other

/-- What the bag says of a job. -/
def described (job : BagJob) : String × List String × String := (job.exec, job.args, job.jobID)

end BagJob

/-- A `HashSet<Job>`. -/
structure JobSet where
  jobs : List BagJob
  distinct : jobs.Pairwise fun job other => job.sameKey other = false

namespace JobSet

def empty : JobSet := ⟨[], .nil⟩

def contains (set : JobSet) (job : BagJob) : Bool := set.jobs.any fun stored => stored.sameKey job

/-- `HashSet.add` keeps an element that is there already. -/
def add (set : JobSet) (job : BagJob) : JobSet :=
  if present : set.contains job then set
  else
    ⟨set.jobs ++ [job], by
      refine List.pairwise_append.mpr ⟨set.distinct, List.pairwise_singleton .., fun stored member other single => ?_⟩
      rw [List.mem_singleton.mp single]
      simp only [contains, Bool.not_eq_true, List.any_eq_false] at present
      simpa using present stored member⟩

end JobSet

/-- The characters `Character.isWhitespace` accepts. -/
def isJavaWhitespace (c : Char) : Bool :=
  c.toNat ∈ [0x20, 0x1680, 0x180E, 0x205F, 0x3000] ∨ 0x9 ≤ c.toNat ∧ c.toNat ≤ 0xD ∨ 0x1C ≤ c.toNat ∧ c.toNat ≤ 0x1F ∨
    0x2000 ≤ c.toNat ∧ c.toNat ≤ 0x2006 ∨ 0x2008 ≤ c.toNat ∧ c.toNat ≤ 0x200A ∨ 0x2028 ≤ c.toNat ∧ c.toNat ≤ 0x2029

/-- The line ends of `Scanner` that are one character. -/
def isLineEnd (c : Char) : Bool := c.toNat ∈ [0xA, 0xD, 0x85, 0x2028, 0x2029]

/-- `Scanner.nextLine`: a line without its end, and what follows. -/
def nextLine : List Char → List Char × List Char
  | [] => ([], [])
  | c :: rest =>
    if isLineEnd c then
      match c, rest with
      | '\r', '\n' :: rest => ([], rest)
      | _, rest => ([], rest)
    else (c :: (nextLine rest).1, (nextLine rest).2)

/-- `Scanner.hasNext`: there is something besides white space left. -/
def hasNext (text : List Char) : Bool := text.any fun c => !isJavaWhitespace c

/-- `line.split(" ")`: empty strings at the end are dropped, unless the line
is not split at all. -/
def splitSpaces (line : List Char) : List String :=
  if ' ' ∈ line then
    ((line.splitOn ' ').reverse.dropWhile List.isEmpty).reverse.map String.ofList
  else [String.ofList line]

theorem nextLine_shorter {text : List Char} (nonempty : text ≠ []) : (nextLine text).2.length < text.length := by
  induction text with
  | nil => exact absurd rfl nonempty
  | cons c rest ih =>
    unfold nextLine
    split
    · split
      · simp only [List.length_cons]
        omega
      · simp
    · by_cases last : rest = []
      · simp [last, nextLine]
      · have shorter := ih last
        simp only [List.length_cons]
        omega

/-- The loop of `getBoT`. The ids of the jobs are their numbers in the file. -/
def readTasks (text : List Char) (i : Nat) : List BagJob :=
  if _ : hasNext text then
    let line := nextLine text
    match splitSpaces line.1 with
    | [] => readTasks line.2 i
    | exec :: args => BagJob.create args exec (Nat.repr i) :: readTasks line.2 (i + 1)
  else []
termination_by text.length
decreasing_by
  all_goals
    refine nextLine_shorter ?_
    rintro rfl
    exact absurd ‹hasNext [] = true› (by decide)

/-- A bag, with the file it is read from. -/
structure BagOfTasks where
  tasks : List BagJob
  inputFile : String
  deriving DecidableEq, Repr

/-- `BagOfTasks.getBoT`: the jobs in the file are added to the tasks. -/
def BagOfTasks.getBoT (bag : BagOfTasks) (files : String → Option String) : Option BagOfTasks :=
  (files bag.inputFile).map fun text => { bag with tasks := bag.tasks ++ readTasks text.toList 0 }

/-- `BagOfTasks.cleanup`. -/
def BagOfTasks.cleanup (bag : BagOfTasks) : BagOfTasks := { bag with tasks := [] }

/-- The runner, as far as the two phases share it. Its list of tasks is the
list in the bag, one object. -/
structure BotRunner where
  bag : BagOfTasks
  finishedTasks : JobSet

/-- What `dumpSchedules` writes and `deserializeSchedules` reads. -/
structure Dump (σ : Type) where
  bot : BotRunner
  schedules : List σ

/-- `SamplingPhaseMaster.dumpSchedules`. -/
def dumpSchedules {σ : Type} (bot : BotRunner) (schedules : List σ) : Dump σ :=
  ⟨{ bot with bag := bot.bag.cleanup }, schedules⟩

/-- `Executor.deserializeSchedules`. `removeAll` asks the set of finished tasks
for each task of the list. A bag file that is gone leaves no list to ask. -/
def deserializeSchedules {σ : Type} (files : String → Option String) (dump : Dump σ) :
    Except String (BotRunner × List σ) :=
  match dump.bot.bag.getBoT files with
  | none => .error "NullPointerException"
  | some bag =>
    let tasks := bag.tasks.filter fun job => !dump.bot.finishedTasks.contains job
    .ok ({ dump.bot with bag := { bag with tasks } }, dump.schedules)

/-- The program that runs a schedule. -/
structure Executor (σ : Type) where
  bot : BotRunner
  schedule : σ

/-- The constructor of `Executor`, for a schedule given by its number. -/
def Executor.create {σ : Type} (files : String → Option String) (dump : Dump σ) (selectedSchedule : Int) :
    Except String (Executor σ) := do
  let (bot, schedules) ← deserializeSchedules files dump
  if selectedSchedule < 0 then
    .error ("Invalid schedule number. Schedules are from 0 to " ++ toString ((schedules.length : Int) - 1) ++
      "Usage: list|<number> file ")
  else
    match schedules[selectedSchedule.toNat]? with
    | none => .error ("Invalid schedule number. Schedules are from 0 to " ++ toString ((schedules.length : Int) - 1) ++
      "Usage: list|<number> file ")
    | some schedule => .ok ⟨bot, schedule⟩

end ConPaaS
