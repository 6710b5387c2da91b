import ConPaaS.Lib.Lines
import ConPaaS.Lib.TextPattern
import ConPaaS.Manager.CodeVersions

namespace ConPaaS

open TextPattern BaseManager

/-- The settings of `PHPINIConfiguration`. -/
inductive PhpSetting
  | maxExecutionTime | memoryLimit | logErrors | displayErrors | uploadMaxFilesize | postMaxSize | disableFunctions
  deriving DecidableEq, Repr

/-- `\w`, without regard to the locale. -/
def isWordChar (c : Char) : Bool := c.isAlphanum || c = '_'

namespace PhpSetting

def name : PhpSetting → String
  | maxExecutionTime => "max_execution_time"
  | memoryLimit => "memory_limit"
  | logErrors => "log_errors"
  | displayErrors => "display_errors"
  | uploadMaxFilesize => "upload_max_filesize"
  | postMaxSize => "post_max_size"
  | disableFunctions => "disable_functions"

/-- `disable_functions`, a long string in several parts. -/
def functions : List String :=
  ["pcntl_alarm,pcntl_fork,pcntl_waitpid,pcntl_wait,",
    "pcntl_wifexited,pcntl_wifstopped,pcntl_wifsignaled,",
    "pcntl_wexitstatus,pcntl_wtermsig,pcntl_wstopsig,pcntl_signal,",
    "pcntl_signal_dispatch,pcntl_get_last_error,pcntl_strerror,",
    "pcntl_sigprocmask,pcntl_sigwaitinfo,pcntl_sigtimedwait,",
    "pcntl_exec,pcntl_getpriority,pcntl_setpriority"]

def defaults : PhpSetting → List Char
  | maxExecutionTime => "30".toList
  | memoryLimit => "128M".toList
  | logErrors => "Off".toList
  | displayErrors => "Off".toList
  | uploadMaxFilesize => "2M".toList
  | postMaxSize => "8M".toList
  | disableFunctions => functions.flatMap String.toList

/-- `^\d+\Z` -/
def number : TextPattern := next start (next (repeated Char.isDigit) finish)

def isUnit (c : Char) : Bool := c ∈ ['K', 'k', 'M', 'm', 'G', 'g']

/-- `^\d+[KkMmGg]?\Z` -/
def size : TextPattern := next start (next (repeated Char.isDigit) (next (optional (one isUnit)) finish))

/-- `^On|Off\Z`, where each of the anchors belongs to one of the words only. -/
def switch : TextPattern := either (next start (text "On".toList)) (next (text "Off".toList) finish)

/-- `^[\w_, ]+\Z` -/
def functionNames : TextPattern :=
  next start (next (repeated fun c => isWordChar c || c = '_' || c = ',' || c = ' ') finish)

def format : PhpSetting → TextPattern
  | maxExecutionTime => number
  | memoryLimit => size
  | logErrors => switch
  | displayErrors => switch
  | uploadMaxFilesize => size
  | postMaxSize => size
  | disableFunctions => functionNames

/-- The setting with a name, if there is one. -/
def ofName (key : String) : Option PhpSetting :=
  [maxExecutionTime, memoryLimit, logErrors, displayErrors, uploadMaxFilesize, postMaxSize, disableFunctions].find?
    (·.name = key)

@[simp] theorem ofName_name (setting : PhpSetting) : ofName setting.name = some setting := by
  cases setting <;> rfl

/-- A number in decimal digits. -/
def Decimal (value : List Char) : Prop := value ≠ [] ∧ ∀ c ∈ value, c.isDigit = true

def isSeparator (c : Char) : Bool := c = ',' || c = ' '

/-- The values a setting is meant to have. Names may be empty between separators. -/
def Intended : PhpSetting → List Char → Prop
  | maxExecutionTime, value => Decimal value
  | memoryLimit, value | uploadMaxFilesize, value | postMaxSize, value =>
    Decimal value ∨ ∃ digits suffix, Decimal digits ∧ isUnit suffix = true ∧ value = digits ++ [suffix]
  | logErrors, value | displayErrors, value => value = "On".toList ∨ value = "Off".toList
  | disableFunctions, value => value ≠ [] ∧ ∀ name ∈ value.splitOnP isSeparator, ∀ c ∈ name, isWordChar c = true

/-- A value that only begins with the word for an enabled setting. -/
def Overlong (setting : PhpSetting) (value : List Char) : Prop :=
  (setting = logErrors ∨ setting = displayErrors) ∧ "On".toList <+: value ∧ value ≠ "On".toList

variable {value : List Char} {setting : PhpSetting}

theorem isMatch_size : size.isMatch value = true ↔
    Decimal value ∨ ∃ digits suffix, Decimal digits ∧ isUnit suffix = true ∧ value = digits ++ [suffix] := by
  rw [size, isMatch_start]
  simp only [mem_rests_next, mem_rests_repeated, mem_rests_optional, mem_rests_one, mem_rests_finish]
  constructor
  · rintro ⟨_, _, ⟨digits, more, all, rfl⟩, _, ⟨suffix, unit, rfl⟩ | rfl, rfl, rfl⟩
    · exact Or.inr ⟨digits, suffix, ⟨more, all⟩, unit, rfl⟩
    · rw [List.append_nil]
      exact Or.inl ⟨more, all⟩
  · rintro (⟨more, all⟩ | ⟨digits, suffix, ⟨more, all⟩, unit, rfl⟩)
    · exact ⟨[], [], ⟨value, more, all, List.append_nil _⟩, [], Or.inr rfl, rfl, rfl⟩
    · exact ⟨[], [suffix], ⟨digits, more, all, rfl⟩, [], Or.inl ⟨suffix, unit, rfl⟩, rfl, rfl⟩

/-- The first anchor and the last one are for a word each. -/
theorem isMatch_switch : switch.isMatch value = true ↔ "On".toList <+: value ∨ value = "Off".toList := by
  rw [switch, isMatch_iff]
  simp only [mem_rests_either, exists_or, exists_mem_rests_finish]
  refine or_congr ?_ ?_
  · exact (isMatch_iff.symm.trans isMatch_start).trans (exists_congr fun _ => mem_rests_text)
  · rw [mem_rests_text, List.append_nil, eq_comm]

theorem isMatch_switch_iff : switch.isMatch value = true ↔
    (value = "On".toList ∨ value = "Off".toList) ∨ "On".toList <+: value ∧ value ≠ "On".toList := by
  rw [isMatch_switch]
  have itself : value = "On".toList → "On".toList <+: value := by
    rintro rfl
    exact List.prefix_refl _
  tauto

theorem isMatch_functionNames : functionNames.isMatch value = true ↔
    value ≠ [] ∧ ∀ name ∈ value.splitOnP isSeparator, ∀ c ∈ name, isWordChar c = true := by
  rw [functionNames, isMatch_repeated, Lines.forall_mem_splitOnP]
  refine and_congr_right fun _ => forall₂_congr fun c _ => ?_
  have underscore : c = '_' → isWordChar c = true := by
    rintro rfl
    rfl
  simp only [isSeparator, Bool.or_eq_true, decide_eq_true_eq]
  tauto

/-- What the patterns accept beyond the intended values. -/
theorem isMatch_format : setting.format.isMatch value = true ↔ setting.Intended value ∨ Overlong setting value := by
  cases setting with
  | maxExecutionTime => simp [format, number, isMatch_repeated, Intended, Decimal, Overlong]
  | memoryLimit => simp [format, isMatch_size, Intended, Overlong]
  | uploadMaxFilesize => simp [format, isMatch_size, Intended, Overlong]
  | postMaxSize => simp [format, isMatch_size, Intended, Overlong]
  | disableFunctions =>
    rw [format, isMatch_functionNames]
    simp [Intended, Overlong]
  | logErrors =>
    rw [format, isMatch_switch_iff]
    simp [Intended, Overlong]
  | displayErrors =>
    rw [format, isMatch_switch_iff]
    simp [Intended, Overlong]

theorem Overlong.not_intended (overlong : Overlong setting value) : ¬ setting.Intended value := by
  obtain ⟨rfl | rfl, begun, longer⟩ := overlong
  all_goals
    rintro (rfl | rfl)
    · exact longer rfl
    · exact absurd begun (by decide)

theorem decimal_of_all (more : value ≠ []) (all : value.all Char.isDigit = true) : Decimal value :=
  ⟨more, List.all_eq_true.mp all⟩

theorem plain_of_all (all : value.all (fun c => isWordChar c || isSeparator c) = true) :
    ∀ c ∈ value, isWordChar c = true ∨ isSeparator c = true :=
  fun c member => (Bool.or_eq_true _ _).mp (List.all_eq_true.mp all c member)

/-- What is meant holds no character that has a meaning in the file. -/
theorem Intended.plain (intended : setting.Intended value) : ∀ c ∈ value, isWordChar c = true ∨ isSeparator c = true := by
  have ofDigits {digits : List Char} (all : Decimal digits) : ∀ c ∈ digits, isWordChar c = true ∨ isSeparator c = true :=
    fun c member => Or.inl (by simp [isWordChar, Char.isAlphanum, all.2 c member])
  cases setting with
  | maxExecutionTime => exact ofDigits intended
  | memoryLimit | uploadMaxFilesize | postMaxSize =>
    rcases intended with all | ⟨digits, suffix, all, unit, rfl⟩
    · exact ofDigits all
    · intro c member
      rcases List.mem_append.mp member with digit | last
      · exact ofDigits all c digit
      · obtain rfl := List.mem_singleton.mp last
        simp only [isUnit, decide_eq_true_eq, List.mem_cons, List.not_mem_nil, or_false] at unit
        rcases unit with rfl | rfl | rfl | rfl | rfl | rfl
        all_goals exact Or.inl (by decide)
  | logErrors | displayErrors =>
    rcases intended with rfl | rfl
    · exact plain_of_all (by decide)
    · exact plain_of_all (by decide)
  | disableFunctions => exact fun c member => (Lines.forall_mem_splitOnP.mp intended.2 c member).symm

theorem functions_plain : ∀ part ∈ functions, ∀ c ∈ part.toList, isWordChar c = true ∨ isSeparator c = true := by
  simp only [functions, List.forall_mem_cons]
  refine ⟨?_, ?_, ?_, ?_, ?_, ?_, nofun⟩
  all_goals exact plain_of_all (by decide)

/-- The settings a service starts with are values of the same kind. -/
theorem defaults_intended (setting : PhpSetting) : setting.Intended setting.defaults := by
  cases setting with
  | maxExecutionTime => exact decimal_of_all (by decide) (by decide)
  | memoryLimit => exact Or.inr ⟨"128".toList, 'M', decimal_of_all (by decide) (by decide), rfl, rfl⟩
  | uploadMaxFilesize => exact Or.inr ⟨"2".toList, 'M', decimal_of_all (by decide) (by decide), rfl, rfl⟩
  | postMaxSize => exact Or.inr ⟨"8".toList, 'M', decimal_of_all (by decide) (by decide), rfl, rfl⟩
  | logErrors | displayErrors => exact Or.inr rfl
  | disableFunctions =>
    refine And.intro ?_ (Lines.forall_mem_splitOnP.mpr fun c member => ?_)
    · exact List.append_ne_nil_of_left_ne_nil (by decide) _
    · obtain ⟨part, known, inside⟩ := List.mem_flatMap.mp member
      exact (functions_plain part known c inside).symm

end PhpSetting

/-- The loop over the settings of a request. -/
def checkSettings : List (String × List Char) → PhpConf
  | [] => .accepted
  | (key, value) :: rest =>
    match PhpSetting.ofName key with
    | none => .unexpected key
    | some setting => if setting.format.isMatch value then checkSettings rest else .invalid

/-- What the checks of the settings of a request come to. -/
def PhpConf.ofSettings (phpconf : List (String × List Char)) : PhpConf :=
  if phpconf = [] then .absent else checkSettings phpconf

/-- The line of the configuration of PHP at an agent for a setting. -/
def property (name : String) (value : List Char) : List Char :=
  "php_admin_value[".toList ++ name.toList ++ "] = ".toList ++ value

def isLineBreak (c : Char) : Bool := c = '\n' || c = '\r'

theorem checkSettings_accepted {phpconf : List (String × List Char)} : checkSettings phpconf = .accepted ↔
    ∀ entry ∈ phpconf, ∃ setting, PhpSetting.ofName entry.1 = some setting ∧ setting.format.isMatch entry.2 = true := by
  induction phpconf with
  | nil => simp [checkSettings]
  | cons entry rest ih =>
    obtain ⟨key, value⟩ := entry
    rw [List.forall_mem_cons, ← ih, checkSettings]
    cases PhpSetting.ofName key with
    | none => simp
    | some setting =>
      simp only [Option.some.injEq, ↓existsAndEq, true_and]
      split <;> simp [*]

/-- A setting is checked by itself. -/
theorem checkSettings_insert {before after : List (String × List Char)} {setting : PhpSetting} {value : List Char} :
    checkSettings (before ++ (setting.name, value) :: after) = .accepted ↔
      checkSettings (before ++ after) = .accepted ∧ setting.format.isMatch value = true := by
  simp only [checkSettings_accepted, List.forall_mem_append, List.forall_mem_cons, PhpSetting.ofName_name,
    Option.some.injEq, ↓existsAndEq, true_and]
  tauto

theorem checkSettings_ne_absent (phpconf : List (String × List Char)) : checkSettings phpconf ≠ .absent := by
  induction phpconf with
  | nil => exact nofun
  | cons entry rest ih =>
    rw [checkSettings]
    split
    · exact nofun
    · split
      · exact ih
      · exact nofun

/-- A request with settings is accepted when all the settings are. -/
theorem CodeManager.updatePhpConfiguration_accepts {m : CodeManager} {codeVersionId : Option String}
    {phpconf : List (String × List Char)} (ready : m.state ∈ updateStates)
    (known : ∀ version ∈ codeVersionId, version ∈ m.known) (given : phpconf ≠ []) :
    (∃ after, m.updatePhpConfiguration codeVersionId (.ofSettings phpconf) = .ok after) ↔
      checkSettings phpconf = .accepted := by
  have version : (codeVersionId.map m.codeVersions.isInList).getD (.ok ()) = .ok () := by
    cases codeVersionId with
    | none => rfl
    | some version => exact if_pos (known version rfl)
  have state : checkState m.state updateStates = .ok () := if_pos ready
  unfold updatePhpConfiguration CodeVersions.checkPhpConfiguration
  rw [PhpConf.ofSettings, if_neg given, version, state]
  have present := checkSettings_ne_absent phpconf
  cases checked : checkSettings phpconf with
  | absent => exact absurd checked present
  | accepted => exact ⟨fun _ => rfl, fun _ => ⟨_, rfl⟩⟩
  | unexpected key => exact ⟨nofun, nofun⟩
  | invalid => exact ⟨nofun, nofun⟩

/-- What a value of a setting comes to: a request with it, among other settings
that are accepted, is accepted when the value is meant, and then it is written
as one line of the file. -/
structure AcceptedExactly (setting : PhpSetting) (value : List Char) : Prop where
  accepted_iff : ∀ (m : CodeManager) (codeVersionId : Option String) (before after : List (String × List Char)),
    m.state ∈ updateStates → (∀ version ∈ codeVersionId, version ∈ m.known) →
    checkSettings (before ++ after) = .accepted →
    ((∃ updated, m.updatePhpConfiguration codeVersionId (.ofSettings (before ++ (setting.name, value) :: after)) =
      .ok updated) ↔ setting.Intended value)
  one_line : ∀ (m updated : CodeManager) (codeVersionId : Option String) (before after : List (String × List Char)),
    m.updatePhpConfiguration codeVersionId (.ofSettings (before ++ (setting.name, value) :: after)) = .ok updated →
    ∀ rest, (property setting.name value ++ '\n' :: rest).splitOnP isLineBreak =
      property setting.name value :: rest.splitOnP isLineBreak

theorem splitOnP_property {value : List Char} (plain : ∀ c ∈ value, isWordChar c = true ∨ PhpSetting.isSeparator c = true)
    (setting : PhpSetting) (rest : List Char) : (property setting.name value ++ '\n' :: rest).splitOnP isLineBreak =
      property setting.name value :: rest.splitOnP isLineBreak := by
  have fixed : ∀ c ∈ "php_admin_value[".toList ++ setting.name.toList ++ "] = ".toList, isLineBreak c = false := by
    have none : ("php_admin_value[".toList ++ setting.name.toList ++ "] = ".toList).any isLineBreak = false := by
      cases setting <;> decide
    exact fun c member => Bool.eq_false_iff.mpr (List.any_eq_false.mp none c member)
  have own : ∀ c ∈ value, isLineBreak c = false := by
    intro c member
    have other : c ≠ '\n' ∧ c ≠ '\r' := by
      refine ⟨?_, ?_⟩
      all_goals
        rintro rfl
        exact absurd (plain _ member) (by decide)
    simp [isLineBreak, other]
  exact List.splitOnP_append_cons_of_forall_mem (List.forall_mem_append.mpr ⟨fixed, own⟩) '\n' rfl rest

/-- The service before any request. -/
theorem created_ready (service : CodeService) : (CodeManager.created service).state ∈ updateStates := List.mem_cons_self ..

theorem PhpSetting.Overlong.not_acceptedExactly {setting : PhpSetting} {value : List Char} (overlong : setting.Overlong value) :
    ¬ AcceptedExactly setting value := by
  intro exact
  have taken : checkSettings ([] ++ (setting.name, value) :: []) = .accepted :=
    checkSettings_insert.mpr ⟨rfl, isMatch_format.mpr (.inr overlong)⟩
  have known : ∀ version ∈ (none : Option String), version ∈ (CodeManager.created .php).known := by simp
  have meant := exact.accepted_iff (.created .php) none [] [] (created_ready _) known rfl
  rw [CodeManager.updatePhpConfiguration_accepts (created_ready _) known (by simp)] at meant
  exact overlong.not_intended (meant.mp taken)

/-- An accepted request has passed the checks of its settings. -/
theorem CodeManager.updatePhpConfiguration_checked {m updated : CodeManager} {codeVersionId : Option String}
    {phpconf : List (String × List Char)} (given : phpconf ≠ [])
    (run : m.updatePhpConfiguration codeVersionId (.ofSettings phpconf) = .ok updated) : checkSettings phpconf = .accepted := by
  obtain ⟨configures, checked, -⟩ := Fallible.map_ok.mp run
  obtain ⟨_, -, checked⟩ := Fallible.bind_ok.mp checked
  obtain ⟨_, -, checked⟩ := Fallible.bind_ok.mp checked
  rw [PhpConf.ofSettings, if_neg given] at checked
  have present := checkSettings_ne_absent phpconf
  cases found : checkSettings phpconf with
  | absent => exact absurd found present
  | accepted => rfl
  | unexpected key =>
    rw [found] at checked
    cases checked
  | invalid =>
    rw [found] at checked
    cases checked

theorem acceptedExactly_iff (setting : PhpSetting) (value : List Char) :
    AcceptedExactly setting value ↔ ¬ setting.Overlong value := by
  refine ⟨fun exact overlong => overlong.not_acceptedExactly exact, fun fits => ?_⟩
  have meant : setting.format.isMatch value = true ↔ setting.Intended value :=
    PhpSetting.isMatch_format.trans (or_iff_left fits)
  refine ⟨fun m codeVersionId before after ready known others => ?_, fun m updated codeVersionId before after run rest => ?_⟩
  · rw [CodeManager.updatePhpConfiguration_accepts ready known (by simp), checkSettings_insert, meant]
    exact and_iff_right others
  · have accepted := CodeManager.updatePhpConfiguration_checked (by simp) run
    exact splitOnP_property (meant.mp (checkSettings_insert.mp accepted).2).plain setting rest

/-- A second directive after the word for an enabled setting. -/
theorem directive_accepted :
    ¬ AcceptedExactly .logErrors "On\nphp_admin_value[auto_prepend_file] = /tmp/code.php".toList :=
  PhpSetting.Overlong.not_acceptedExactly ⟨.inl rfl, by decide, by decide⟩

end ConPaaS
