import ConPaaS.Lib.Lines
import Mathlib.Data.List.Perm.Lattice

namespace ConPaaS.Git

open Lines

abbrev Line := List Char

/-- White space in a string of bytes. -/
def isSpace (c : Char) : Bool := c ∈ [' ', '\t', '\n', '\r', '\x0b', '\x0c']

def rstrip (line : Line) : Line := line.rdropWhile isSpace

/-- `__filter_authorized_keys` -/
def filterAuthorizedKeys (keys : List Line) : List Line := keys.filter fun key => key ≠ [] && key.head? ≠ some '#'

/-- The keys in a file. What stands after the last line break is no line when it
is empty, but then it is left out as well. -/
def getAuthorizedKeys (file : List Char) : List Line := filterAuthorizedKeys ((file.splitOn '\n').map rstrip)

/-- `add_authorized_keys`, with the file after it. The keys of the file are read
once, before the loop. -/
def addAuthorizedKeys (keys : List Line) (file : List Char) : Nat × List Char :=
  let newAuthKeys := (filterAuthorizedKeys keys).map rstrip
  let curAuthKeys := getAuthorizedKeys file
  newAuthKeys.foldl (fun (added, file) key =>
    if key ∈ curAuthKeys then (added, file) else (added + 1, file ++ (key ++ ['\n']))) (0, file)

/-- `remove_authorized_keys`, with the file after it. -/
def removeAuthorizedKeys (keys : List Line) (file : List Char) : Nat × List Char :=
  let delAuthKeys := filterAuthorizedKeys keys
  let toAddAuthKeys := (getAuthorizedKeys file).filter (· ∉ delAuthKeys)
  (toAddAuthKeys.length, toLines toAddAuthKeys)

/-- The keys of a list that are no comments and not blank. -/
def listedKeys (keys : List Line) : List Line := ((filterAuthorizedKeys keys).map rstrip).filter (· ≠ [])

/-- The new keys of a list, as they are written to the file. -/
def freshKeys (keys : List Line) (file : List Char) : List Line :=
  ((filterAuthorizedKeys keys).map rstrip).filter (· ∉ getAuthorizedKeys file)

variable {keys lines rest : List Line} {line key first : Line} {file more : List Char}

theorem mem_filterAuthorizedKeys :
    key ∈ filterAuthorizedKeys lines ↔ key ∈ lines ∧ key ≠ [] ∧ key.head? ≠ some '#' := by
  rw [filterAuthorizedKeys, List.mem_filter]
  simp

theorem rstrip_rstrip (line : Line) : rstrip (rstrip line) = rstrip line := List.rdropWhile_idempotent _ _

theorem rstrip_eq_nil_iff : rstrip line = [] ↔ ∀ c ∈ line, isSpace c = true := List.rdropWhile_eq_nil_iff

theorem rstrip_isPrefix (line : Line) : rstrip line <+: line := List.rdropWhile_prefix _ _

theorem head?_rstrip (more : rstrip line ≠ []) : (rstrip line).head? = line.head? := by
  obtain ⟨rest, same⟩ := rstrip_isPrefix line
  conv_rhs => rw [← same]
  rw [List.head?_append_of_ne_nil _ more]

/-- The keys of a request are stripped, and none is a comment. -/
theorem stripped_of_mem (member : key ∈ (filterAuthorizedKeys keys).map rstrip) :
    rstrip key = key ∧ key.head? ≠ some '#' := by
  obtain ⟨given, listed, rfl⟩ := List.mem_map.mp member
  refine ⟨rstrip_rstrip given, ?_⟩
  by_cases blank : rstrip given = []
  · rw [blank]
    exact nofun
  · rw [head?_rstrip blank]
    exact (mem_filterAuthorizedKeys.mp listed).2.2

theorem filterAuthorizedKeys_append (before after : List Line) :
    filterAuthorizedKeys (before ++ after) = filterAuthorizedKeys before ++ filterAuthorizedKeys after :=
  List.filter_append _ _

theorem exists_getAuthorizedKeys (file : List Char) :
    ∃ before, ∀ more, getAuthorizedKeys (file ++ more) = before ++ getAuthorizedKeys (lastLine file ++ more) := by
  obtain ⟨lines, same⟩ := exists_splitOn_append file
  refine ⟨filterAuthorizedKeys (lines.map rstrip), fun more => ?_⟩
  rw [getAuthorizedKeys, same, List.map_append, filterAuthorizedKeys_append, getAuthorizedKeys]

theorem getAuthorizedKeys_line (whole : '\n' ∉ line) : getAuthorizedKeys line = filterAuthorizedKeys [rstrip line] := by
  rw [getAuthorizedKeys, List.splitOn_eq_singleton whole]
  rfl

theorem getAuthorizedKeys_toLines (whole : ∀ line ∈ lines, '\n' ∉ line) :
    getAuthorizedKeys (toLines lines) = filterAuthorizedKeys (lines.map rstrip) := by
  rw [getAuthorizedKeys, splitOn_toLines whole, List.map_append, filterAuthorizedKeys_append]
  exact List.append_nil _

/-- A key in a file is stripped, not blank, not a comment and a single line. -/
theorem of_mem_getAuthorizedKeys (member : key ∈ getAuthorizedKeys file) :
    rstrip key = key ∧ key ≠ [] ∧ key.head? ≠ some '#' ∧ '\n' ∉ key := by
  obtain ⟨stripped, more, head⟩ := mem_filterAuthorizedKeys.mp member
  obtain ⟨line, piece, rfl⟩ := List.mem_map.mp stripped
  exact ⟨rstrip_rstrip line, more, head,
    fun inside => newline_notMem_of_mem_splitOn piece ((rstrip_isPrefix line).subset inside)⟩

/-- Keys that are written to an empty file are read again. -/
theorem getAuthorizedKeys_of_keys
    (keys : ∀ key ∈ lines, rstrip key = key ∧ key ≠ [] ∧ key.head? ≠ some '#' ∧ '\n' ∉ key) :
    getAuthorizedKeys (toLines lines) = lines := by
  rw [getAuthorizedKeys_toLines fun key member => (keys key member).2.2.2,
    List.map_congr_left fun key member => (keys key member).1, List.map_id'', filterAuthorizedKeys, List.filter_eq_self]
  · intro key member
    simp [(keys key member).2.1, (keys key member).2.2.1]
  · exact fun _ => rfl

/-- The loop of `add_authorized_keys`. -/
theorem addAuthorizedKeys_eq (keys : List Line) (file : List Char) :
    addAuthorizedKeys keys file = ((freshKeys keys file).length, file ++ toLines (freshKeys keys file)) := by
  have loop (cur : List Line) (added : Nat) (text : List Char) (new : List Line) :
      new.foldl (fun (added, text) key => if key ∈ cur then (added, text) else (added + 1, text ++ (key ++ ['\n'])))
        (added, text) = (added + (new.filter (· ∉ cur)).length, text ++ toLines (new.filter (· ∉ cur))) := by
    induction new generalizing added text with
    | nil => simp [toLines]
    | cons key rest ih =>
      rw [List.foldl_cons]
      by_cases known : key ∈ cur
      · simp only [if_pos known]
        rw [ih, List.filter_cons_of_neg (by simpa using known)]
      · simp only [if_neg known]
        rw [ih, List.filter_cons_of_pos (by simpa using known), List.length_cons, toLines, toLines, List.flatMap_cons,
          List.append_assoc, Nat.add_assoc, Nat.add_comm 1]
  have run := loop (getAuthorizedKeys file) 0 file ((filterAuthorizedKeys keys).map rstrip)
  rw [Nat.zero_add] at run
  exact run

theorem of_mem_freshKeys (member : key ∈ freshKeys keys file) :
    rstrip key = key ∧ key.head? ≠ some '#' ∧ key ∉ getAuthorizedKeys file := by
  obtain ⟨new, unknown⟩ := List.mem_filter.mp member
  exact ⟨(stripped_of_mem new).1, (stripped_of_mem new).2, by simpa using unknown⟩

/-- The first new key goes on with the last line of the file. -/
theorem getAuthorizedKeys_added (fresh : freshKeys keys file = first :: rest) (whole : ∀ key ∈ first :: rest, '\n' ∉ key) :
    ∃ before, getAuthorizedKeys file = before ++ filterAuthorizedKeys [rstrip (lastLine file)] ∧
      getAuthorizedKeys (addAuthorizedKeys keys file).2 =
        before ++ (filterAuthorizedKeys [rstrip (lastLine file ++ first)] ++ rest.filter (· ≠ [])) := by
  obtain ⟨before, same⟩ := exists_getAuthorizedKeys file
  refine ⟨before, ?_, ?_⟩
  · rw [← getAuthorizedKeys_line (newline_notMem_lastLine file)]
    simpa using same []
  · have others : ∀ key ∈ rest, rstrip key = key ∧ key.head? ≠ some '#' := fun key member =>
      have new := of_mem_freshKeys (fresh ▸ List.mem_cons_of_mem _ member)
      ⟨new.1, new.2.1⟩
    have joined : lastLine file ++ toLines (first :: rest) = toLines ((lastLine file ++ first) :: rest) := by
      rw [toLines, toLines, List.flatMap_cons, List.flatMap_cons, List.append_assoc, List.append_assoc, List.append_assoc]
    have single : ∀ line ∈ (lastLine file ++ first) :: rest, '\n' ∉ line := by
      refine List.forall_mem_cons.mpr ⟨fun inside => ?_, fun key member => whole key (List.mem_cons_of_mem _ member)⟩
      rcases List.mem_append.mp inside with old | new
      · exact newline_notMem_lastLine file old
      · exact whole first (List.mem_cons_self ..) new
    have stripped : rest.map rstrip = rest := (List.map_congr_left fun key member => (others key member).1).trans
      (List.map_id'' (fun _ => rfl) rest)
    have kept : filterAuthorizedKeys rest = rest.filter (· ≠ []) :=
      List.filter_congr fun key member => by simp [(others key member).2]
    rw [addAuthorizedKeys_eq, fresh, same, joined, getAuthorizedKeys_toLines single, List.map_cons, stripped,
      ← List.singleton_append, filterAuthorizedKeys_append, kept]

/-- After a blank last line the keys are added to those of the file. -/
theorem getAuthorizedKeys_added_blank (fresh : freshKeys keys file = first :: rest)
    (plain : ∀ key ∈ first :: rest, key ≠ [] ∧ '\n' ∉ key) (blank : rstrip (lastLine file) = []) :
    getAuthorizedKeys (addAuthorizedKeys keys file).2 = getAuthorizedKeys file ++ (lastLine file ++ first) :: rest := by
  obtain ⟨before, old, new⟩ := getAuthorizedKeys_added fresh fun key member => (plain key member).2
  have mine := of_mem_freshKeys (fresh ▸ List.mem_cons_self (a := first))
  have more := (plain first (List.mem_cons_self ..)).1
  have joined : rstrip (lastLine file ++ first) = lastLine file ++ first := by
    rw [rstrip, rdropWhile_append, ← rstrip, mine.1, if_neg more]
  have key : filterAuthorizedKeys [lastLine file ++ first] = [lastLine file ++ first] := by
    have head : (lastLine file ++ first).head? ≠ some '#' := by
      cases last : lastLine file with
      | nil => exact mine.2.1
      | cons c more =>
        have space := rstrip_eq_nil_iff.mp blank c (last ▸ List.mem_cons_self ..)
        rintro hash
        obtain rfl : c = '#' := Option.some.inj hash
        exact absurd space (by decide)
    have longer : lastLine file ++ first ≠ [] := List.append_ne_nil_of_right_ne_nil _ more
    refine List.filter_eq_self.mpr (List.forall_mem_singleton.mpr ?_)
    rw [Bool.and_eq_true, decide_eq_true_eq, decide_eq_true_eq]
    exact ⟨longer, head⟩
  have others : rest.filter (· ≠ []) = rest := List.filter_eq_self.mpr fun key member => by
    simpa using (plain key (List.mem_cons_of_mem _ member)).1
  rw [new, old, blank, joined, key, others]
  simp [filterAuthorizedKeys]

/-- A file that grows by all the new keys ends in blanks, if in anything but a line. -/
theorem blank_of_grown (fresh : freshKeys keys file = first :: rest) (whole : ∀ key ∈ first :: rest, '\n' ∉ key)
    (grown : (getAuthorizedKeys (addAuthorizedKeys keys file).2).length =
      (getAuthorizedKeys file).length + (first :: rest).length) :
    rstrip (lastLine file) = [] ∧ ∀ key ∈ first :: rest, key ≠ [] := by
  obtain ⟨before, old, new⟩ := getAuthorizedKeys_added fresh whole
  have joined : (filterAuthorizedKeys [rstrip (lastLine file ++ first)]).length ≤ 1 := List.length_filter_le _ _
  have others := List.length_filter_le (· ≠ []) rest
  rw [old, new] at grown
  simp only [List.length_append, List.length_cons] at grown
  have kept : rest.filter (· ≠ []) = rest := List.filter_eq_self.mpr (List.length_filter_eq_length_iff.mp (by omega))
  have none : filterAuthorizedKeys [rstrip (lastLine file)] = [] := List.length_eq_zero_iff.mp (by omega)
  obtain ⟨key, member⟩ := List.exists_mem_of_length_pos
    (by omega : 0 < (filterAuthorizedKeys [rstrip (lastLine file ++ first)]).length)
  obtain ⟨inside, more, head⟩ := mem_filterAuthorizedKeys.mp member
  obtain rfl := List.mem_singleton.mp inside
  have blank : rstrip (lastLine file) = [] := by
    by_contra visible
    have long : lastLine file ≠ [] := fun empty => visible (by rw [empty]; rfl)
    rw [head?_rstrip more, List.head?_append_of_ne_nil _ long, ← head?_rstrip visible] at head
    have listed := mem_filterAuthorizedKeys.mpr ⟨List.mem_singleton_self _, visible, head⟩
    rw [none] at listed
    cases listed
  refine ⟨blank, List.forall_mem_cons.mpr ⟨?_, fun key member => by simpa using List.filter_eq_self.mp kept key member⟩⟩
  rintro rfl
  rw [List.append_nil] at more
  exact more blank

/-- What adding keys to a file and removing them is to do. -/
structure KeepsKeys (keys : List Line) (file : List Char) : Prop where
  present : ∀ key ∈ listedKeys keys, key ∈ getAuthorizedKeys (addAuthorizedKeys keys file).2
  once : ∀ key, 1 < (getAuthorizedKeys (addAuthorizedKeys keys file).2).count key → 1 < (getAuthorizedKeys file).count key
  grown : (getAuthorizedKeys (addAuthorizedKeys keys file).2).length =
    (getAuthorizedKeys file).length + (addAuthorizedKeys keys file).1
  removed : (∀ key ∈ listedKeys keys, key ∉ getAuthorizedKeys file) →
    getAuthorizedKeys (removeAuthorizedKeys keys (addAuthorizedKeys keys file).2).2 = getAuthorizedKeys file

/-- Some key of the list is in the file already. -/
def Known (keys : List Line) (file : List Char) : Prop := ∃ key ∈ listedKeys keys, key ∈ getAuthorizedKeys file

/-- The file ends with a line, and no new key is given twice, or in any other
way than it is written where all of them are new. -/
structure OnNewLine (keys : List Line) (file : List Char) : Prop where
  ended : lastLine file = []
  nodup : (freshKeys keys file).Nodup
  stripped : Known keys file ∨ ∀ key ∈ filterAuthorizedKeys keys, rstrip key = key

/-- The file ends with blanks, which make another key of the first new one. This
one is given twice. -/
structure OnBlanks (keys : List Line) (file : List Char) (first : Line) (rest : List Line) : Prop where
  fresh : freshKeys keys file = first :: rest
  longer : lastLine file ≠ []
  blank : rstrip (lastLine file) = []
  known : Known keys file
  again : first ∈ rest
  nodup : rest.Nodup
  other : lastLine file ++ first ∉ rest
  count : (getAuthorizedKeys file).count (lastLine file ++ first) ≠ 1

/-- The new keys make lines of their own. -/
def OwnLines (keys : List Line) (file : List Char) : Prop :=
  freshKeys keys file = [] ∨ (∀ key ∈ freshKeys keys file, key ≠ [] ∧ '\n' ∉ key) ∧
    (OnNewLine keys file ∨ ∃ first rest, OnBlanks keys file first rest)

theorem mem_listedKeys : key ∈ listedKeys keys ↔ key ∈ (filterAuthorizedKeys keys).map rstrip ∧ key ≠ [] := by
  rw [listedKeys, List.mem_filter, decide_eq_true_eq]

/-- A listed key is new, or in the file. -/
theorem mem_freshKeys_of_listed (listed : key ∈ listedKeys keys) (unknown : key ∉ getAuthorizedKeys file) :
    key ∈ freshKeys keys file :=
  List.mem_filter.mpr ⟨(mem_listedKeys.mp listed).1, by simpa using unknown⟩

theorem getAuthorizedKeys_removed (keys : List Line) (file : List Char) :
    getAuthorizedKeys (removeAuthorizedKeys keys file).2 =
      (getAuthorizedKeys file).filter (· ∉ filterAuthorizedKeys keys) :=
  getAuthorizedKeys_of_keys fun _ member => of_mem_getAuthorizedKeys (List.mem_filter.mp member).1

/-- A file without the listed keys is restored when all that was added is found
in the list again. -/
theorem getAuthorizedKeys_restored_iff {tail : List Line} (unknown : ¬ Known keys file)
    (added : getAuthorizedKeys (addAuthorizedKeys keys file).2 = getAuthorizedKeys file ++ tail) :
    getAuthorizedKeys (removeAuthorizedKeys keys (addAuthorizedKeys keys file).2).2 = getAuthorizedKeys file ↔
      ∀ key ∈ tail, key ∈ filterAuthorizedKeys keys := by
  have old : (getAuthorizedKeys file).filter (· ∉ filterAuthorizedKeys keys) = getAuthorizedKeys file := by
    refine List.filter_eq_self.mpr fun key member => decide_eq_true fun listed => unknown ⟨key, ?_, member⟩
    obtain ⟨stripped, more, -⟩ := of_mem_getAuthorizedKeys member
    exact mem_listedKeys.mpr ⟨List.mem_map.mpr ⟨key, listed, stripped⟩, more⟩
  rw [getAuthorizedKeys_removed, added, List.filter_append, old, List.append_right_eq_self, List.filter_eq_nil_iff]
  simp

theorem added_fst (keys : List Line) (file : List Char) :
    (addAuthorizedKeys keys file).1 = (freshKeys keys file).length := by
  rw [addAuthorizedKeys_eq]

theorem keepsKeys_of_added {tail : List Line}
    (added : getAuthorizedKeys (addAuthorizedKeys keys file).2 = getAuthorizedKeys file ++ tail)
    (length : tail.length = (freshKeys keys file).length) (present : ∀ key ∈ freshKeys keys file, key ∈ tail)
    (nodup : tail.Nodup) (count : ∀ key ∈ tail, (getAuthorizedKeys file).count key ≠ 1)
    (removed : ¬ Known keys file → ∀ key ∈ tail, key ∈ filterAuthorizedKeys keys) : KeepsKeys keys file where
  present key listed := by
    rw [added, List.mem_append]
    by_cases old : key ∈ getAuthorizedKeys file
    · exact Or.inl old
    · exact Or.inr (present key (mem_freshKeys_of_listed listed old))
  once key twice := by
    rw [added, List.count_append] at twice
    by_cases new : key ∈ tail
    · have one := List.count_eq_one_of_mem nodup new
      have other := count key new
      omega
    · rwa [List.count_eq_zero.mpr new] at twice
  grown := by rw [added, List.length_append, length, added_fst]
  removed new := by
    have unknown : ¬ Known keys file := fun ⟨key, listed, old⟩ => new key listed old
    exact (getAuthorizedKeys_restored_iff unknown added).mpr (removed unknown)

/-- When no listed key is in the file, all are new. -/
theorem freshKeys_of_unknown (unknown : ¬ Known keys file) :
    freshKeys keys file = (filterAuthorizedKeys keys).map rstrip :=
  List.filter_eq_self.mpr fun key member => decide_eq_true fun old =>
    unknown ⟨key, mem_listedKeys.mpr ⟨member, (of_mem_getAuthorizedKeys old).2.1⟩, old⟩

theorem OwnLines.keepsKeys (own : OwnLines keys file) : KeepsKeys keys file := by
  cases fresh : freshKeys keys file with
  | nil =>
    have same : (addAuthorizedKeys keys file).2 = file := by
      rw [addAuthorizedKeys_eq, fresh]
      exact List.append_nil file
    exact keepsKeys_of_added (by rw [same, List.append_nil]) (by rw [fresh]) (by simp [fresh]) List.nodup_nil nofun
      fun _ => nofun
  | cons first rest =>
    obtain ⟨plain, lines⟩ := own.resolve_left (by simp [fresh])
    rw [fresh] at plain
    have unknown : ∀ key ∈ first :: rest, (getAuthorizedKeys file).count key ≠ 1 := fun key member => by
      rw [List.count_eq_zero.mpr (of_mem_freshKeys (fresh ▸ member)).2.2]
      exact Nat.zero_ne_one
    rcases lines with newLine | ⟨_, _, blanks⟩
    · have added := getAuthorizedKeys_added_blank fresh plain (by rw [newLine.ended]; rfl)
      rw [newLine.ended, List.nil_append] at added
      refine keepsKeys_of_added added (by rw [fresh]) (by simp [fresh]) (fresh ▸ newLine.nodup) unknown
        fun new key member => ?_
      rw [← fresh, freshKeys_of_unknown new] at member
      obtain ⟨given, listed, rfl⟩ := List.mem_map.mp member
      rwa [newLine.stripped.resolve_left new given listed]
    · obtain ⟨rfl, rfl⟩ := List.cons.inj (fresh.symm.trans blanks.fresh)
      refine keepsKeys_of_added (getAuthorizedKeys_added_blank fresh plain blanks.blank) (by rw [fresh]; rfl) ?_
        (List.nodup_cons.mpr ⟨blanks.other, blanks.nodup⟩) (List.forall_mem_cons.mpr ⟨blanks.count, ?_⟩)
        (absurd blanks.known)
      · rw [fresh]
        exact List.forall_mem_cons.mpr ⟨List.mem_cons_of_mem _ blanks.again, fun key => List.mem_cons_of_mem _⟩
      · exact fun key member => unknown key (List.mem_cons_of_mem _ member)

/-- Keys that are all found in the list again are written as they are given. -/
theorem stripped_of_restored (unknown : ¬ Known keys file) (nodup : (freshKeys keys file).Nodup)
    (restored : ∀ key ∈ freshKeys keys file, key ∈ filterAuthorizedKeys keys) :
    ∀ key ∈ filterAuthorizedKeys keys, rstrip key = key := by
  rw [freshKeys_of_unknown unknown] at nodup restored
  intro key listed
  have again := restored (rstrip key) (List.mem_map_of_mem listed)
  exact List.inj_on_of_nodup_map nodup again listed (rstrip_rstrip key)

/-- Where the keys are kept, the last line is blank and the new ones are lines. -/
theorem KeepsKeys.blank (keeps : KeepsKeys keys file) (fresh : freshKeys keys file = first :: rest) :
    rstrip (lastLine file) = [] ∧ ∀ key ∈ first :: rest, key ≠ [] ∧ '\n' ∉ key := by
  have whole : ∀ key ∈ first :: rest, '\n' ∉ key := by
    intro key member broken
    rw [← fresh] at member
    have listed := mem_listedKeys.mpr ⟨(List.mem_filter.mp member).1, List.ne_nil_of_mem broken⟩
    exact (of_mem_getAuthorizedKeys (keeps.present key listed)).2.2.2 broken
  obtain ⟨blank, more⟩ := blank_of_grown fresh whole (by rw [keeps.grown, added_fst, fresh])
  exact ⟨blank, fun key member => ⟨more key member, whole key member⟩⟩

/-- A key that is not in the file is not added twice. -/
theorem KeepsKeys.count_le_one (keeps : KeepsKeys keys file) {tail : List Line}
    (added : getAuthorizedKeys (addAuthorizedKeys keys file).2 = getAuthorizedKeys file ++ tail)
    (missing : key ∉ getAuthorizedKeys file) : tail.count key ≤ 1 := by
  by_contra twice
  have old := keeps.once key (by rw [added, List.count_append]; omega)
  exact missing (List.count_pos_iff.mp (by omega))

theorem KeepsKeys.restored (keeps : KeepsKeys keys file) {tail : List Line}
    (added : getAuthorizedKeys (addAuthorizedKeys keys file).2 = getAuthorizedKeys file ++ tail)
    (unknown : ¬ Known keys file) : ∀ key ∈ tail, key ∈ filterAuthorizedKeys keys :=
  (getAuthorizedKeys_restored_iff unknown added).mp (keeps.removed fun key listed old => unknown ⟨key, listed, old⟩)

/-- Where the keys are kept after blanks, it is because the key that is spoilt by
them is given again. -/
theorem KeepsKeys.onBlanks (keeps : KeepsKeys keys file) (fresh : freshKeys keys file = first :: rest)
    (longer : lastLine file ≠ []) : OnBlanks keys file first rest := by
  obtain ⟨blank, plain⟩ := keeps.blank fresh
  have added := getAuthorizedKeys_added_blank fresh plain blank
  have unknown : ∀ key ∈ first :: rest, key ∉ getAuthorizedKeys file := fun key member =>
    (of_mem_freshKeys (fresh ▸ member)).2.2
  have apart : first ≠ lastLine file ++ first := fun same => longer (List.append_left_eq_self.mp same.symm)
  have other : lastLine file ++ first ∉ rest := by
    intro again
    have twice := keeps.count_le_one added (unknown _ (List.mem_cons_of_mem _ again))
    rw [List.count_cons_self] at twice
    exact absurd (List.count_pos_iff.mpr again) (by omega)
  refine ⟨fresh, longer, blank, ?_, ?_, List.nodup_iff_count_le_one.mpr fun key => ?_, other, fun one => ?_⟩
  · by_contra new
    have spoilt : lastLine file ++ first ∈ getAuthorizedKeys (addAuthorizedKeys keys file).2 := by
      rw [added]
      exact List.mem_append_right _ (List.mem_cons_self ..)
    obtain ⟨stripped, more, -⟩ := of_mem_getAuthorizedKeys spoilt
    have given := keeps.restored added new _ (List.mem_cons_self ..)
    have listed := mem_listedKeys.mpr ⟨List.mem_map.mpr ⟨_, given, stripped⟩, more⟩
    have member := mem_freshKeys_of_listed listed fun old => new ⟨_, listed, old⟩
    rw [fresh] at member
    rcases List.mem_cons.mp member with same | again
    · exact apart same.symm
    · exact other again
  · have mine : first ∈ freshKeys keys file := fresh ▸ List.mem_cons_self ..
    have more := (plain first (List.mem_cons_self ..)).1
    have present := keeps.present first (mem_listedKeys.mpr ⟨(List.mem_filter.mp mine).1, more⟩)
    rw [added, List.mem_append, List.mem_cons] at present
    exact (present.resolve_left (unknown first (List.mem_cons_self ..))).resolve_left apart
  · by_cases member : key ∈ rest
    · exact ((List.sublist_cons_self _ _).count_le key).trans
        (keeps.count_le_one added (unknown key (List.mem_cons_of_mem _ member)))
    · rw [List.count_eq_zero.mpr member]
      exact Nat.zero_le 1
  · have twice := keeps.once (lastLine file ++ first) (by
      rw [added, List.count_append, List.count_cons_self]
      omega)
    omega

theorem KeepsKeys.ownLines (keeps : KeepsKeys keys file) : OwnLines keys file := by
  cases fresh : freshKeys keys file with
  | nil => exact Or.inl fresh
  | cons first rest =>
    obtain ⟨blank, plain⟩ := keeps.blank fresh
    refine Or.inr ⟨fresh ▸ plain, ?_⟩
    by_cases ended : lastLine file = []
    · have added := getAuthorizedKeys_added_blank fresh plain blank
      rw [ended, List.nil_append, ← fresh] at added
      have nodup : (freshKeys keys file).Nodup := List.nodup_iff_count_le_one.mpr fun key => by
        by_cases member : key ∈ freshKeys keys file
        · exact keeps.count_le_one added (of_mem_freshKeys member).2.2
        · rw [List.count_eq_zero.mpr member]
          exact Nat.zero_le 1
      refine Or.inl ⟨ended, nodup, or_iff_not_imp_left.mpr fun new => ?_⟩
      exact stripped_of_restored new nodup (keeps.restored added new)
    · exact Or.inr ⟨first, rest, keeps.onBlanks fresh ended⟩

theorem keepsKeys_iff (keys : List Line) (file : List Char) : KeepsKeys keys file ↔ OwnLines keys file :=
  ⟨KeepsKeys.ownLines, OwnLines.keepsKeys⟩

/-- One key, given twice to an empty file. -/
theorem repeated_not_kept : ¬ KeepsKeys ["ssh-rsa test ema@mars".toList, "ssh-rsa test ema@mars".toList] [] := by
  intro keeps
  exact absurd (keeps.once "ssh-rsa test ema@mars".toList (by decide)) (by decide)

end ConPaaS.Git
