import ConPaaS.Lib.Effect
import ConPaaS.Lib.Fallible
import ConPaaS.Lib.Table
import Mathlib.Data.List.Forall2

namespace ConPaaS

open Effect Keyed

/-- The arguments of a request, by their names. -/
abbrev Args (α : Type) := Table (Prod.fst : String × α → String)

/-- A parameter: `(name, constraint)`, or with a default value as the third item. -/
structure ParamSpec (α β : Type) where
  name : String
  constraint : α → Except String β
  default : Option β

/-- What `check_arguments` returns. -/
inductive ParsedArgs (β : Type)
  | value (parsed : β)
  | list (parsed : List β)

def ParsedArgs.of {β : Type} : List β → ParsedArgs β
  | [parsed] => .value parsed
  | parsed => .list parsed

section

variable {α β : Type}

/-- A round of the loop, which takes the argument from the dictionary. -/
def parseArgument (param : ParamSpec α β) : EStateM String (Args α) β := do
  let args ← get
  match args.get? param.name with
  | some given =>
    set (args.erase param.name)
    match param.constraint given.2 with
    | .ok parsed => pure parsed
    | .error ex => throw ("Parameter '" ++ param.name ++ "': " ++ ex ++ ".")
  | none =>
    match param.default with
    | some default => pure default
    | none => throw ("Missing the mandatory parameter '" ++ param.name ++ "'.")

/-- `check_arguments`, where `text` is what `str` makes of the arguments. -/
def checkArguments (text : Args α → String) (expectedParams : List (ParamSpec α β)) : EStateM String (Args α) (ParsedArgs β) := do
  let parsedArgs ← expectedParams.mapM parseArgument
  let args ← get
  if args.rows.length > 0 then throw ("Unexpected parameters: " ++ text args ++ ".")
  else pure (ParsedArgs.of parsedArgs)

/-- What a parameter is converted to. -/
def Converts (args : Args α) (param : ParamSpec α β) (parsed : β) : Prop :=
  match args.get? param.name with
  | some given => param.constraint given.2 = .ok parsed
  | none => param.default = some parsed

variable {args left : Args α} {param : ParamSpec α β} {params : List (ParamSpec α β)} {parsed : β}

theorem parseArgument_ok : parseArgument param args = .ok parsed left ↔ Converts args param parsed ∧ left = args.erase param.name := by
  unfold parseArgument Converts
  rw [bind_of_ok (x := get) rfl]
  cases found : args.get? param.name with
  | none =>
    rw [Table.erase_absent found]
    cases default : param.default with
    | none => exact iff_of_false nofun (by rintro ⟨⟨⟩, -⟩)
    | some value =>
      simp only [pure_ok, Option.some.injEq]
      exact and_congr_right fun _ => eq_comm
  | some given =>
    have taken : (set (args.erase param.name) : EStateM String (Args α) PUnit) args = .ok ⟨⟩ (args.erase param.name) := rfl
    dsimp only
    rw [bind_of_ok taken]
    cases converted : param.constraint given.2 with
    | error ex => exact iff_of_false nofun (by rintro ⟨⟨⟩, -⟩)
    | ok value =>
      simp only [pure_ok, Except.ok.injEq]
      exact and_congr_right fun _ => eq_comm

theorem converts_erase {name : String} (other : param.name ≠ name) : Converts (args.erase name) param parsed ↔ Converts args param parsed := by
  rw [Converts, Converts, Table.get?_erase_ne args other]

theorem forall₂_converts_erase {name : String} {list : List β} (others : ∀ param ∈ params, param.name ≠ name) :
    List.Forall₂ (Converts (args.erase name)) params list ↔ List.Forall₂ (Converts args) params list := by
  induction params generalizing list with
  | nil => rw [List.forall₂_nil_left_iff, List.forall₂_nil_left_iff]
  | cons param params ih =>
    obtain ⟨here, later⟩ := List.forall_mem_cons.mp others
    rw [List.forall₂_cons_left_iff, List.forall₂_cons_left_iff]
    simp only [converts_erase here, ih later]

/-- The loop converts every parameter, and leaves the arguments that have no
parameter. -/
theorem mapM_parseArgument {list : List β} (distinct : (params.map ParamSpec.name).Nodup) :
    params.mapM parseArgument args = .ok list left ↔
      List.Forall₂ (Converts args) params list ∧ left = params.foldl (fun args param => args.erase param.name) args := by
  induction params generalizing args list with
  | nil =>
    rw [List.mapM_nil, pure_ok, List.forall₂_nil_left_iff, List.foldl_nil]
    exact and_congr eq_comm eq_comm
  | cons param params ih =>
    obtain ⟨fresh, distinct⟩ := List.nodup_cons.mp distinct
    have others : ∀ other ∈ params, other.name ≠ param.name := fun other member same => fresh (List.mem_map.mpr ⟨other, member, same⟩)
    rw [List.mapM_cons, bind_ok, List.forall₂_cons_left_iff, List.foldl_cons]
    constructor
    · rintro ⟨first, u, parsed, run⟩
      obtain ⟨converts, rfl⟩ := parseArgument_ok.mp parsed
      obtain ⟨rest, v, later, made⟩ := bind_ok.mp run
      obtain ⟨rfl, rfl⟩ := pure_ok.mp made
      obtain ⟨all, rest_left⟩ := (ih distinct).mp later
      exact ⟨⟨first, rest, converts, (forall₂_converts_erase others).mp all, rfl⟩, rest_left⟩
    · rintro ⟨⟨first, rest, converts, all, rfl⟩, rfl⟩
      refine ⟨first, args.erase param.name, parseArgument_ok.mpr ⟨converts, rfl⟩, bind_ok.mpr ⟨rest, _, ?_, rfl⟩⟩
      exact (ih distinct).mpr ⟨(forall₂_converts_erase others).mpr all, rfl⟩

theorem mem_foldl_erase {given : String × α} : given ∈ (params.foldl (fun args param => args.erase param.name) args).rows ↔
    given ∈ args.rows ∧ ∀ param ∈ params, param.name ≠ given.1 := by
  induction params generalizing args with
  | nil => simp
  | cons param params ih =>
    rw [List.foldl_cons, ih, Table.mem_erase, List.forall_mem_cons, and_assoc, ne_comm]

/-- Parameters with distinct names. -/
abbrev ExpectedParams (α β : Type) := Table (ParamSpec.name : ParamSpec α β → String)

/-- Arguments that are as they are to be: all mandatory names are present, all
names are specified, and all values satisfy their constraints. -/
structure Acceptable (expectedParams : ExpectedParams α β) (args : Args α) : Prop where
  mandatory : ∀ param ∈ expectedParams.rows, param.default = none → (args.get? param.name).isSome
  specified : ∀ given ∈ args.rows, (expectedParams.get? given.1).isSome
  satisfied : ∀ param ∈ expectedParams.rows, ∀ given, args.get? param.name = some given →
    ∃ parsed, param.constraint given.2 = .ok parsed

variable {text : Args α → String} {expectedParams : ExpectedParams α β} {result : ParsedArgs β}

theorem checkArguments_ok : checkArguments text expectedParams.rows args = .ok result left ↔
    (∀ given ∈ args.rows, (expectedParams.get? given.1).isSome) ∧ left = .empty ∧
      ∃ list, List.Forall₂ (Converts args) expectedParams.rows list ∧ result = .of list := by
  unfold checkArguments
  rw [bind_ok]
  have empty_iff : ∀ u : Args α, u = expectedParams.rows.foldl (fun args param => args.erase param.name) args →
      (u.rows.length = 0 ↔ ∀ given ∈ args.rows, (expectedParams.get? given.1).isSome) := by
    rintro u rfl
    rw [List.length_eq_zero_iff, List.eq_nil_iff_forall_not_mem]
    refine ⟨fun none given member => ?_, fun all given member => ?_⟩
    · by_contra unspecified
      rw [Option.not_isSome_iff_eq_none, Table.get?_none_iff] at unspecified
      exact none given (mem_foldl_erase.mpr ⟨member, unspecified⟩)
    · obtain ⟨inside, unspecified⟩ := mem_foldl_erase.mp member
      obtain ⟨param, found⟩ := Option.isSome_iff_exists.mp (all given inside)
      exact unspecified param (Table.get?_mem found) (Table.get?_key found)
  constructor
  · rintro ⟨list, u, parsed, run⟩
    obtain ⟨all, taken⟩ := (mapM_parseArgument expectedParams.keyed).mp parsed
    rw [bind_of_ok (x := get) rfl] at run
    split at run
    · cases run
    · rename_i none
      obtain ⟨rfl, rfl⟩ := pure_ok.mp run
      have zero : u.rows.length = 0 := Nat.eq_zero_of_not_pos none
      exact ⟨(empty_iff u taken).mp zero, Table.ext (List.length_eq_zero_iff.mp zero), list, all, rfl⟩
  · rintro ⟨specified, rfl, list, all, rfl⟩
    refine ⟨list, .empty, (mapM_parseArgument expectedParams.keyed).mpr ⟨all, ?_⟩, ?_⟩
    · exact (Table.ext (List.length_eq_zero_iff.mp ((empty_iff _ rfl).mpr specified))).symm
    · rw [bind_of_ok (x := get) rfl]
      rfl

/-- Every parameter can be converted exactly if the mandatory ones are there and
the values satisfy their constraints. -/
theorem exists_forall₂_converts : (∃ list, List.Forall₂ (Converts args) params list) ↔
    ∀ param ∈ params, ∃ parsed, Converts args param parsed := by
  induction params with
  | nil => exact iff_of_true ⟨[], .nil⟩ nofun
  | cons param params ih =>
    rw [List.forall_mem_cons, ← ih]
    constructor
    · rintro ⟨list, all⟩
      cases all with
      | cons converts all => exact ⟨⟨_, converts⟩, _, all⟩
    · rintro ⟨⟨parsed, converts⟩, list, all⟩
      exact ⟨parsed :: list, .cons converts all⟩

theorem exists_converts : (∃ parsed, Converts args param parsed) ↔ (param.default = none → (args.get? param.name).isSome) ∧
    ∀ given, args.get? param.name = some given → ∃ parsed, param.constraint given.2 = .ok parsed := by
  unfold Converts
  cases found : args.get? param.name with
  | none =>
    cases default : param.default with
    | none => simp
    | some default => simp
  | some given => simp

theorem checkArguments_succeeds : (∃ result left, checkArguments text expectedParams.rows args = .ok result left) ↔
    Acceptable expectedParams args := by
  constructor
  · rintro ⟨result, left, run⟩
    obtain ⟨specified, -, list, all, -⟩ := checkArguments_ok.mp run
    have converts := exists_forall₂_converts.mp ⟨list, all⟩
    exact ⟨fun param member => (exists_converts.mp (converts param member)).1, specified,
      fun param member => (exists_converts.mp (converts param member)).2⟩
  · rintro ⟨mandatory, specified, satisfied⟩
    obtain ⟨list, all⟩ := exists_forall₂_converts.mpr fun param member =>
      exists_converts.mpr ⟨mandatory param member, satisfied param member⟩
    exact ⟨.of list, .empty, checkArguments_ok.mpr ⟨specified, rfl, list, all, rfl⟩⟩

end

/-- What the checks ask of a value. A dictionary is given with distinct keys. -/
structure PythonValues (V : Type) where
  asDict : V → Option (Args V)
  asList : V → Option (List V)
  text : V → String
  typeName : V → String
  keysText : List String → String

/-- Keys without repetition. -/
abbrev KeyList := Table (id : String → String)

section

variable {V α β : Type}

def isConstraint (constraint : α → Bool) (filterRes : α → β) (errmsg : α → String) (arg : α) : Except String β :=
  if constraint arg then .ok (filterRes arg) else .error (errmsg arg)

variable (values : PythonValues V)

/-- The error of a value of another type. -/
def shouldBe (expected : String) (arg : V) : String :=
  "'" ++ values.text arg ++ "' has type '" ++ values.typeName arg ++ "', should be " ++ expected

def isList (argument : V) : Except String V :=
  isConstraint (fun arg => (values.asList arg).isSome) id (shouldBe values "list") argument

def isDict (argument : V) : Except String V :=
  isConstraint (fun arg => (values.asDict arg).isSome) id (shouldBe values "dict") argument

/-- The loop over the mandatory keys. -/
def removeMandatory (argdict : V) : List String → List String → Except String (List String)
  | [], keys => .ok keys
  | mandKey :: rest, keys =>
    if mandKey ∈ keys then removeMandatory argdict rest (keys.erase mandKey)
    else .error ("Was expecting key '" ++ mandKey ++ "' in dict '" ++ values.text argdict ++ "'")

def isDict2 (mandatoryKeys : List String) (optionalKeys : Option (List String)) (argument : V) : Except String V := do
  let argdict ← isDict values argument
  let keys := ((values.asDict argument).getD .empty).rows.map Prod.fst
  let keys ← removeMandatory values argdict mandatoryKeys keys
  let keys := (optionalKeys.getD []).foldl List.erase keys
  if keys.length > 0 then
    .error ("Unexpected key in dict '" ++ values.text argdict ++ "': '" ++ values.keysText keys ++ "'")
  else .ok argdict

/-- A check of each item of a list. -/
def forItems (check : V → Except String V) : List V → Except String Unit
  | [] => .ok ()
  | arg :: rest => do
    let _ ← check arg
    forItems check rest

def isListDict (argument : V) : Except String V := do
  let mylist ← isList values argument
  forItems (isDict values) ((values.asList mylist).getD [])
  return mylist

def isListDict2 (mandatoryKeys : List String) (optionalKeys : Option (List String)) (argument : V) : Except String V := do
  let mylist ← isListDict values argument
  forItems (isDict2 values mandatoryKeys optionalKeys) ((values.asList mylist).getD [])
  return mylist

/-- A dictionary with all the mandatory keys, and some of the optional ones. -/
def HasKeys (mandatoryKeys : List String) (optionalKeys : Option (List String)) (arg : V) : Prop :=
  ∃ entries, values.asDict arg = some entries ∧ (∀ key ∈ mandatoryKeys, (entries.get? key).isSome) ∧
    ∀ entry ∈ entries.rows, entry.1 ∈ mandatoryKeys ∨ entry.1 ∈ optionalKeys.getD []

variable {values} {argument result : V}

theorem isConstraint_ok {constraint : α → Bool} {filterRes : α → β} {errmsg : α → String} {arg : α} {result : β} :
    isConstraint constraint filterRes errmsg arg = .ok result ↔ constraint arg = true ∧ result = filterRes arg := by
  unfold isConstraint
  split
  · rename_i holds
    rw [and_iff_right holds, Except.ok.injEq, eq_comm]
  · rename_i fails
    exact iff_of_false nofun fun both => fails both.1

theorem forItems_ok {check : V → Except String V} {items : List V} :
    forItems check items = .ok () ↔ ∀ arg ∈ items, ∃ checked, check arg = .ok checked := by
  induction items with
  | nil => exact iff_of_true rfl nofun
  | cons arg rest ih =>
    rw [List.forall_mem_cons, ← ih, forItems]
    cases checked : check arg with
    | error ex => exact iff_of_false nofun (by rintro ⟨⟨_, ⟨⟩⟩, -⟩)
    | ok value => exact (and_iff_right ⟨value, rfl⟩).symm

theorem removeMandatory_ok {argdict : V} {mandatoryKeys keys left : List String} (distinct : mandatoryKeys.Nodup) :
    removeMandatory values argdict mandatoryKeys keys = .ok left ↔ (∀ key ∈ mandatoryKeys, key ∈ keys) ∧ left = keys.diff mandatoryKeys := by
  induction mandatoryKeys generalizing keys with
  | nil => simp [removeMandatory, eq_comm]
  | cons mandKey rest ih =>
    obtain ⟨fresh, distinct⟩ := List.nodup_cons.mp distinct
    unfold removeMandatory
    split
    · rename_i here
      rw [ih distinct, List.diff_cons, List.forall_mem_cons, and_iff_right here]
      refine and_congr_left fun _ => forall₂_congr fun key member => ?_
      have other : key ≠ mandKey := fun same => fresh (same ▸ member)
      exact List.mem_erase_of_ne other
    · rename_i missing
      exact iff_of_false nofun fun both => missing (both.1 mandKey List.mem_cons_self)

theorem isDict_ok : isDict values argument = .ok result ↔ (values.asDict argument).isSome ∧ result = argument := isConstraint_ok

theorem isList_ok : isList values argument = .ok result ↔ (values.asList argument).isSome ∧ result = argument := isConstraint_ok

variable {mandatoryKeys : List String} {optionalKeys : Option (List String)}

theorem mem_keys_iff {entries : Args V} {key : String} : key ∈ entries.rows.map Prod.fst ↔ (entries.get? key).isSome := by
  rw [← not_iff_not, Option.not_isSome_iff_eq_none, Table.get?_none_iff, List.mem_map]
  exact ⟨fun none entry member same => none ⟨entry, member, same⟩, fun none ⟨entry, member, same⟩ => none entry member same⟩

/-- The keys that both loops leave. -/
theorem leftovers_iff {entries : Args V} :
    ((optionalKeys.getD []).foldl List.erase ((entries.rows.map Prod.fst).diff mandatoryKeys)).length = 0 ↔
      ∀ entry ∈ entries.rows, entry.1 ∈ mandatoryKeys ∨ entry.1 ∈ optionalKeys.getD [] := by
  rw [← List.diff_eq_foldl, ← List.diff_append, List.length_eq_zero_iff, List.eq_nil_iff_forall_not_mem]
  simp only [entries.keyed.mem_sdiff_iff, List.mem_append, not_and, not_not, List.forall_mem_map]

theorem isDict2_ok (distinct : mandatoryKeys.Nodup) : isDict2 values mandatoryKeys optionalKeys argument = .ok result ↔
    HasKeys values mandatoryKeys optionalKeys argument ∧ result = argument := by
  unfold isDict2
  rw [Fallible.bind_ok]
  constructor
  · rintro ⟨argdict, dict, run⟩
    obtain ⟨known, rfl⟩ := isDict_ok.mp dict
    obtain ⟨entries, found⟩ := Option.isSome_iff_exists.mp known
    obtain ⟨keys, removed, run⟩ := Fallible.bind_ok.mp run
    rw [found, Option.getD_some] at removed
    obtain ⟨mandatory, rfl⟩ := (removeMandatory_ok distinct).mp removed
    dsimp only at run
    split at run
    · cases run
    · rename_i none
      cases run
      refine ⟨⟨entries, found, fun key member => mem_keys_iff.mp (mandatory key member), ?_⟩, rfl⟩
      exact leftovers_iff.mp (Nat.eq_zero_of_not_pos none)
  · rintro ⟨⟨entries, found, mandatory, others⟩, rfl⟩
    have removed : removeMandatory values result mandatoryKeys (entries.rows.map Prod.fst) =
        .ok ((entries.rows.map Prod.fst).diff mandatoryKeys) :=
      (removeMandatory_ok distinct).mpr ⟨fun key member => mem_keys_iff.mpr (mandatory key member), rfl⟩
    refine ⟨result, isDict_ok.mpr ⟨by rw [found]; rfl, rfl⟩, ?_⟩
    rw [found]
    exact Fallible.bind_ok.mpr ⟨_, removed, if_neg (Nat.not_lt.mpr (Nat.le_of_eq (leftovers_iff.mpr others)))⟩

theorem isListDict_ok : isListDict values argument = .ok result ↔ (∃ items, values.asList argument = some items ∧
    ∀ item ∈ items, (values.asDict item).isSome) ∧ result = argument := by
  unfold isListDict
  rw [Fallible.bind_ok]
  constructor
  · rintro ⟨mylist, list, run⟩
    obtain ⟨known, rfl⟩ := isList_ok.mp list
    obtain ⟨items, found⟩ := Option.isSome_iff_exists.mp known
    obtain ⟨_, dicts, run⟩ := Fallible.bind_ok.mp run
    rw [found, Option.getD_some] at dicts
    cases run
    refine ⟨⟨items, found, fun item member => ?_⟩, rfl⟩
    obtain ⟨checked, dict⟩ := forItems_ok.mp dicts item member
    exact (isDict_ok.mp dict).1
  · rintro ⟨⟨items, found, dicts⟩, rfl⟩
    refine ⟨result, isList_ok.mpr ⟨by rw [found]; rfl, rfl⟩, Fallible.bind_ok.mpr ⟨(), ?_, rfl⟩⟩
    rw [found]
    exact forItems_ok.mpr fun item member => ⟨item, isDict_ok.mpr ⟨dicts item member, rfl⟩⟩

theorem isListDict2_ok (distinct : mandatoryKeys.Nodup) : isListDict2 values mandatoryKeys optionalKeys argument = .ok result ↔
    (∃ items, values.asList argument = some items ∧ ∀ item ∈ items, HasKeys values mandatoryKeys optionalKeys item) ∧ result = argument := by
  unfold isListDict2
  rw [Fallible.bind_ok]
  constructor
  · rintro ⟨mylist, list, run⟩
    obtain ⟨⟨items, found, -⟩, rfl⟩ := isListDict_ok.mp list
    obtain ⟨_, dicts, run⟩ := Fallible.bind_ok.mp run
    rw [found, Option.getD_some] at dicts
    cases run
    refine ⟨⟨items, found, fun item member => ?_⟩, rfl⟩
    obtain ⟨checked, keyed⟩ := forItems_ok.mp dicts item member
    exact ((isDict2_ok distinct).mp keyed).1
  · rintro ⟨⟨items, found, keyed⟩, rfl⟩
    have dicts : ∀ item ∈ items, (values.asDict item).isSome := fun item member => by
      obtain ⟨entries, dict, -⟩ := keyed item member
      rw [dict]
      rfl
    refine ⟨result, isListDict_ok.mpr ⟨⟨items, found, dicts⟩, rfl⟩, Fallible.bind_ok.mpr ⟨(), ?_, rfl⟩⟩
    rw [found]
    exact forItems_ok.mpr fun item member => ⟨item, (isDict2_ok distinct).mpr ⟨keyed item member, rfl⟩⟩

end

/-- Arguments are accepted exactly if they are as they are to be, and become the
converted values and defaults in the order of the parameters. A value is
accepted as a list of dictionaries with some keys exactly if it is one. -/
theorem arguments_exact {V α β : Type} (text : Args α → String) (values : PythonValues V) :
    (∀ (expectedParams : ExpectedParams α β) (args : Args α),
      ((∃ result left, checkArguments text expectedParams.rows args = .ok result left) ↔ Acceptable expectedParams args) ∧
      ∀ result left, checkArguments text expectedParams.rows args = .ok result left →
        ∃ list, List.Forall₂ (Converts args) expectedParams.rows list ∧ result = .of list) ∧
    ∀ (mandatoryKeys : KeyList) (optionalKeys : Option KeyList) (argument : V),
      ((∃ result, isListDict2 values mandatoryKeys.rows (optionalKeys.map Table.rows) argument = .ok result) ↔
        ∃ items, values.asList argument = some items ∧
          ∀ item ∈ items, HasKeys values mandatoryKeys.rows (optionalKeys.map Table.rows) item) := by
  refine ⟨fun expectedParams args => ⟨checkArguments_succeeds, fun result left run => ?_⟩, fun mandatoryKeys optionalKeys argument => ?_⟩
  · obtain ⟨-, -, converted⟩ := checkArguments_ok.mp run
    exact converted
  · have distinct : mandatoryKeys.rows.Nodup := mandatoryKeys.rows_nodup
    constructor
    · rintro ⟨result, run⟩
      exact ((isListDict2_ok distinct).mp run).1
    · exact fun keyed => ⟨argument, (isListDict2_ok distinct).mpr ⟨keyed, rfl⟩⟩

end ConPaaS
