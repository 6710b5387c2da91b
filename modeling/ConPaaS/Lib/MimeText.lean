import Mathlib.Data.List.TakeWhile

namespace Mime

/-- A byte string, one character a byte. -/
abbrev Bytes := List Char

def crlf : Bytes := ['\r', '\n']

/-- The lines of a text, which end in CRLF. -/
def lines : Bytes → List Bytes
  | [] => [[]]
  | '\r' :: '\n' :: rest => [] :: lines rest
  | c :: rest =>
    match lines rest with
    | line :: later => (c :: line) :: later
    | [] => [[c]]

/-- A text without the end of a line. -/
def OneLine (text : Bytes) : Prop := lines text = [text]

/-- A line goes on in the next one, which starts with a blank. -/
def goesOn : Bytes → Bool
  | ' ' :: _ | '\t' :: _ => true
  | _ => false

/-- A header with the lines in which it goes on. -/
def unfolded : List Bytes → Bytes
  | [] => []
  | line :: rest => line ++ (rest.takeWhile goesOn).flatten

/-- The text of a quoted string up to the quote that ends it, and what is after
it. A backslash stands before a character that is taken as it is. -/
def quotedString : Bool → Bytes → Option (Bytes × Bytes)
  | _, [] => none
  | true, c :: rest => (quotedString false rest).map fun (value, later) => (c :: value, later)
  | false, c :: rest =>
    if c = '"' then some ([], rest)
    else if c = '\\' then quotedString true rest
    else (quotedString false rest).map fun (value, later) => (c :: value, later)

/-- What the text of a header is read for next. -/
inductive Reading
  | skip
  | attribute (name : Bytes)
  | value (name : Bytes)
  | token (name value : Bytes)
  | quoted (name value : Bytes)
  | escaped (name value : Bytes)

/-- The parameters of a header. -/
def parameters : Reading → Bytes → List (Bytes × Bytes)
  | .token name value, [] => [(name, value)]
  | _, [] => []
  | .skip, c :: rest => if c = ';' then parameters (.attribute []) rest else parameters .skip rest
  | .attribute name, c :: rest =>
    if c = '=' then parameters (.value name) rest
    else if c = ';' then parameters (.attribute []) rest
    else if c = ' ' ∨ c = '\t' then parameters (.attribute name) rest
    else parameters (.attribute (name ++ [c.toLower])) rest
  | .value name, c :: rest =>
    if c = '"' then parameters (.quoted name []) rest
    else if c = ';' then (name, []) :: parameters (.attribute []) rest
    else parameters (.token name [c]) rest
  | .token name value, c :: rest =>
    if c = ';' then (name, value) :: parameters (.attribute []) rest
    else parameters (.token name (value ++ [c])) rest
  | .quoted name value, c :: rest =>
    if c = '"' then (name, value) :: parameters .skip rest
    else if c = '\\' then parameters (.escaped name value) rest
    else parameters (.quoted name (value ++ [c])) rest
  | .escaped name value, c :: rest => parameters (.quoted name (value ++ [c])) rest

/-- What is before the first line of a kind, and each such line with what is
after it. -/
def sections (starts : Bytes → Bool) : List Bytes → List Bytes × List (Bytes × List Bytes)
  | [] => ([], [])
  | line :: rest =>
    let (lead, later) := sections starts rest
    if starts line then ([], (line, lead) :: later) else (line :: lead, later)

/-- A part of a message in parts: the name and the file name it is given, and
its content. -/
structure BodyPart where
  name : Option Bytes
  filename : Option Bytes
  content : Bytes
  deriving DecidableEq, Repr

def dispositionField : Bytes := "content-disposition:".toList

/-- The text of the header that gives the name. -/
def disposition : List Bytes → Bytes
  | [] => []
  | line :: rest =>
    if (line.take dispositionField.length).map Char.toLower = dispositionField then
      (unfolded (line :: rest)).drop dispositionField.length
    else disposition rest

/-- A part from its lines. An empty line ends the headers. -/
def readPart (part : List Bytes) : BodyPart :=
  let given := parameters .skip (disposition (part.takeWhile fun line => !line.isEmpty))
  { name := given.lookup "name".toList
    filename := given.lookup "filename".toList
    content := crlf.intercalate (part.dropWhile fun line => !line.isEmpty).tail }

/-- A line that ends a message. -/
def closes (dashBoundary line : Bytes) : Bool := (dashBoundary ++ ['-', '-']).isPrefixOf line

/-- The parts in the lines of a message. A line that begins with two dashes and
the boundary starts a part, and ends the message when two dashes follow. -/
def readLines (dashBoundary : Bytes) (list : List Bytes) : List BodyPart :=
  ((sections dashBoundary.isPrefixOf list).2.takeWhile fun part => !closes dashBoundary part.1).map fun part => readPart part.2

/-- The parts of a message whose type gives the boundary. -/
def readForm (contentType body : Bytes) : List BodyPart :=
  match (parameters .skip contentType).lookup "boundary".toList with
  | some boundary => readLines ("--".toList ++ boundary) (lines body)
  | none => []

section TakeWhile

variable {α : Type} {keep : α → Bool}

theorem takeWhile_append_stop {rest : List α} (none : rest.takeWhile keep = []) (list : List α) :
    (list ++ rest).takeWhile keep = list.takeWhile keep := by
  rw [List.takeWhile_append, none, List.append_nil]
  split
  · rename_i all
    exact ((List.takeWhile_prefix _).eq_of_length all).symm
  · rfl

theorem takeWhile_of_imp {first : α → Bool} (implies : ∀ a, first a = true → keep a = true) (list : List α) :
    (list.takeWhile keep).takeWhile first = list.takeWhile first := by
  rw [List.takeWhile_takeWhile]
  congr 1
  funext a
  rw [Bool.eq_iff_iff, decide_eq_true_iff]
  exact and_iff_left_of_imp (implies a)

end TakeWhile

section Lines

variable {c : Char} {text rest line : Bytes} {later : List Bytes}

theorem lines_ne_nil (text : Bytes) : lines text ≠ [] := by
  fun_cases lines text <;> simp_all

theorem lines_crlf (rest : Bytes) : lines ('\r' :: '\n' :: rest) = [] :: lines rest := rfl

theorem lines_cons (split : lines rest = line :: later) (apart : c = '\r' → rest.head? ≠ some '\n') :
    lines (c :: rest) = (c :: line) :: later := by
  rw [lines.eq_3]
  · rw [split]
  · rintro more rfl rfl
    exact apart rfl rfl

/-- A text that is one character longer has one more in its first line, unless
an end of a line is complete. -/
theorem lines_cases (c : Char) (rest : Bytes) :
    (∃ more, c = '\r' ∧ rest = '\n' :: more ∧ lines (c :: rest) = [] :: lines more) ∨
      ∃ line later, (c = '\r' → rest.head? ≠ some '\n') ∧ lines rest = line :: later ∧ lines (c :: rest) = (c :: line) :: later := by
  by_cases ends : c = '\r' ∧ rest.head? = some '\n'
  · obtain ⟨rfl, head⟩ := ends
    obtain ⟨more, rfl⟩ := List.head?_eq_some_iff.mp head
    exact .inl ⟨more, rfl, rfl, lines_crlf more⟩
  · have apart : c = '\r' → rest.head? ≠ some '\n' := fun cr head => ends ⟨cr, head⟩
    obtain ⟨line, later, split⟩ := List.exists_cons_of_ne_nil (lines_ne_nil rest)
    exact .inr ⟨line, later, apart, split, lines_cons split apart⟩

/-- Induction on a text, an end of a line in one step. -/
theorem lines_induction {P : Bytes → Prop} (nil : P []) (ends : ∀ more, P more → P ('\r' :: '\n' :: more))
    (inside : ∀ c more line later, (c = '\r' → more.head? ≠ some '\n') → lines more = line :: later →
      lines (c :: more) = (c :: line) :: later → P more → P (c :: more)) (text : Bytes) : P text := by
  induction size : text.length using Nat.strong_induction_on generalizing text with
  | _ n ih =>
    subst size
    cases text with
    | nil => exact nil
    | cons c rest =>
      rcases lines_cases c rest with ⟨more, rfl, rfl, _⟩ | ⟨line, later, apart, split, whole⟩
      · exact ends more (ih _ (by simp only [List.length_cons]; omega) more rfl)
      · exact inside c rest line later apart split whole (ih _ (by simp) rest rfl)

theorem lines_append_crlf (text rest : Bytes) : lines (text ++ crlf ++ rest) = lines text ++ lines rest := by
  induction text using lines_induction with
  | nil => rfl
  | ends more ih => exact congrArg ([] :: ·) ih
  | inside c more line later apart split whole ih =>
    have apart' : c = '\r' → (more ++ crlf ++ rest).head? ≠ some '\n' := by
      cases more with
      | nil => simp [crlf]
      | cons first after => exact apart
    rw [whole]
    exact lines_cons (ih.trans (congrArg (· ++ lines rest) split)) apart'

/-- The lines of texts with CRLF between them are the lines of the texts. -/
theorem lines_intercalate {texts : List Bytes} (some : texts ≠ []) : lines (crlf.intercalate texts) = texts.flatMap lines := by
  induction texts with
  | nil => exact absurd rfl some
  | cons text others ih =>
    by_cases last : others = []
    · simp [last]
    · rw [List.intercalate_cons_of_ne_nil last, lines_append_crlf, ih last, List.flatMap_cons]

/-- A text is its lines with CRLF between them. -/
theorem intercalate_lines (text : Bytes) : crlf.intercalate (lines text) = text := by
  induction text using lines_induction with
  | nil => rfl
  | ends more ih =>
    rw [lines_crlf, List.intercalate_cons_of_ne_nil (lines_ne_nil more), ih]
    rfl
  | inside c more line later apart split whole ih => rw [whole, List.intercalate_cons_cons_left, ← split, ih]

theorem head?_of_lines (split : lines text = line :: later) (head : line.head? = some c) : text.head? = some c := by
  cases text with
  | nil =>
    cases split
    cases head
  | cons first rest =>
    rcases lines_cases first rest with ⟨more, _, _, whole⟩ | ⟨more, after, _, _, whole⟩
    · cases split.symm.trans whole
      cases head
    · cases split.symm.trans whole
      exact head

theorem oneLine_nil : OneLine [] := rfl

theorem oneLine_cons : OneLine (c :: text) ↔ OneLine text ∧ (c = '\r' → text.head? ≠ some '\n') := by
  rcases lines_cases c text with ⟨more, rfl, rfl, whole⟩ | ⟨line, after, apart, split, whole⟩
  · refine iff_of_false (fun one => ?_) fun both => both.2 rfl rfl
    cases whole.symm.trans one
  · rw [OneLine, OneLine, whole, split]
    simpa using fun _ _ => apart

/-- A line has no end of a line in it. -/
theorem oneLine_of_mem (member : line ∈ lines text) : OneLine line := by
  induction text using lines_induction generalizing line with
  | nil =>
    cases List.mem_singleton.mp member
    rfl
  | ends more ih =>
    rw [lines_crlf] at member
    rcases List.mem_cons.mp member with rfl | member
    · rfl
    · exact ih member
  | inside c more first later apart split whole ih =>
    rw [whole] at member
    rcases List.mem_cons.mp member with rfl | member
    · exact oneLine_cons.mpr ⟨ih (split ▸ List.mem_cons_self), fun cr head => apart cr (head?_of_lines split head)⟩
    · exact ih (split ▸ List.mem_cons_of_mem first member)

theorem flatMap_lines {texts : List Bytes} (one : ∀ text ∈ texts, OneLine text) : texts.flatMap lines = texts := by
  induction texts with
  | nil => rfl
  | cons text others ih =>
    obtain ⟨here, later⟩ := List.forall_mem_cons.mp one
    rw [List.flatMap_cons, ih later, here]
    rfl

/-- A text without an end of a line is in front of the first line of what
follows it. -/
theorem lines_append (one : OneLine text) (split : lines rest = line :: later)
    (apart : text.getLast? = some '\r' → rest.head? ≠ some '\n') : lines (text ++ rest) = (text ++ line) :: later := by
  induction text with
  | nil => exact split
  | cons c more ih =>
    obtain ⟨one, inside⟩ := oneLine_cons.mp one
    cases more with
    | nil =>
      refine lines_cons split fun cr => apart ?_
      rw [cr, List.getLast?_singleton]
    | cons first after =>
      rw [List.getLast?_cons_cons] at apart
      exact lines_cons (ih one apart) inside

theorem oneLine_append (one : OneLine text) (one' : OneLine rest) (apart : text.getLast? = some '\r' → rest.head? ≠ some '\n') :
    OneLine (text ++ rest) := lines_append one one' apart

theorem oneLine_left (one : OneLine (text ++ rest)) : OneLine text := by
  induction text with
  | nil => rfl
  | cons c more ih =>
    obtain ⟨one, apart⟩ := oneLine_cons.mp one
    refine oneLine_cons.mpr ⟨ih one, fun cr head => apart cr ?_⟩
    obtain ⟨after, rfl⟩ := List.head?_eq_some_iff.mp head
    rfl

end Lines

section Unfolded

variable {c : Char} {text rest line : Bytes} {later : List Bytes}

theorem unfolded_cons (c : Char) (line : Bytes) (later : List Bytes) :
    unfolded ((c :: line) :: later) = c :: unfolded (line :: later) := rfl

/-- An empty first line, and what it goes on in. -/
theorem unfolded_empty (line : Bytes) (later : List Bytes) :
    unfolded ([] :: line :: later) = if goesOn line then unfolded (line :: later) else [] := by
  simp only [unfolded, List.nil_append, List.takeWhile_cons]
  split <;> simp

theorem unfolded_append (text line : Bytes) (later : List Bytes) :
    unfolded ((text ++ line) :: later) = text ++ unfolded (line :: later) :=
  List.append_assoc text line _

theorem goesOn_head (goes : goesOn line = true) (later : List Bytes) : (unfolded (line :: later)).head? ≠ some '\n' := by
  unfold goesOn at goes
  split at goes
  · simp [unfolded]
  · simp [unfolded]
  · cases goes

/-- What a header begins with is what its text begins with. -/
theorem head?_of_unfolded (head : (unfolded (lines text)).head? = some '\n') : text.head? = some '\n' := by
  cases text with
  | nil => cases head
  | cons c rest =>
    rcases lines_cases c rest with ⟨more, _, _, whole⟩ | ⟨line, later, _, _, whole⟩
    · obtain ⟨line, later, split⟩ := List.exists_cons_of_ne_nil (lines_ne_nil more)
      rw [whole, split, unfolded_empty] at head
      split at head
      · rename_i goes
        exact absurd head (goesOn_head goes later)
      · cases head
    · rw [whole, unfolded_cons] at head
      exact head

/-- A header has no end of a line in it. -/
theorem oneLine_unfolded (text : Bytes) : OneLine (unfolded (lines text)) := by
  induction text using lines_induction with
  | nil => rfl
  | ends more ih =>
    obtain ⟨line, later, split⟩ := List.exists_cons_of_ne_nil (lines_ne_nil more)
    rw [split] at ih
    rw [lines_crlf, split, unfolded_empty]
    split
    · exact ih
    · rfl
  | inside c more line later apart split whole ih =>
    rw [whole, unfolded_cons, ← split]
    exact oneLine_cons.mpr ⟨ih, fun cr head => apart cr (head?_of_unfolded head)⟩

/-- Up to the first character of a kind a header is not longer than its text. -/
theorem unfolded_takeWhile (keep : Char → Bool) (text : Bytes) (ends : keep '\r' = true ∧ keep '\n' = true) :
    ((unfolded (lines text)).takeWhile keep).length ≤ (text.takeWhile keep).length := by
  induction text using lines_induction with
  | nil => exact Nat.le_refl 0
  | ends more ih =>
    obtain ⟨line, later, split⟩ := List.exists_cons_of_ne_nil (lines_ne_nil more)
    rw [split] at ih
    rw [lines_crlf, split, unfolded_empty, List.takeWhile_cons_of_pos ends.1, List.takeWhile_cons_of_pos ends.2]
    split
    · simp only [List.length_cons]
      omega
    · exact Nat.zero_le _
  | inside c more line later apart split whole ih =>
    rw [whole, unfolded_cons, ← split, List.takeWhile_cons, List.takeWhile_cons]
    cases keep c with
    | true => simpa using ih
    | false => exact Nat.zero_le _

end Unfolded

section Quoted

variable {text : Bytes}

/-- What a quoted string gives back as it is. -/
structure Quotable (text : Bytes) : Prop where
  oneLine : OneLine text
  quote : '"' ∉ text
  backslash : '\\' ∉ text

/-- The parameters from a quoted string on, and from a backslash in it on. -/
theorem parameters_quotedString (text name value : Bytes) (escaped : Bool) :
    parameters (if escaped then .escaped name value else .quoted name value) text =
      match quotedString escaped text with
      | some (v, rest) => (name, value ++ v) :: parameters .skip rest
      | none => [] := by
  induction text generalizing value escaped with
  | nil => cases escaped <;> rfl
  | cons c rest ih =>
    cases escaped with
    | true =>
      have later := ih (value ++ [c]) false
      simp only [if_true, parameters, quotedString, Bool.false_eq_true, if_false] at later ⊢
      rw [later]
      cases quotedString false rest <;> simp
    | false =>
      simp only [Bool.false_eq_true, if_false, parameters, quotedString]
      by_cases quote : c = '"'
      · simp [quote]
      · by_cases backslash : c = '\\'
        · simpa [backslash] using ih value true
        · have later := ih (value ++ [c]) false
          simp only [Bool.false_eq_true, if_false] at later
          simp only [quote, backslash, if_false, later]
          cases quotedString false rest <;> simp

theorem parameters_quoted (text name : Bytes) :
    parameters (.quoted name []) text =
      match quotedString false text with
      | some (value, rest) => (name, value) :: parameters .skip rest
      | none => [] :=
  parameters_quotedString text name [] false

theorem quotedString_quotable (quote : '"' ∉ text) (backslash : '\\' ∉ text) (rest : Bytes) :
    quotedString false (text ++ '"' :: rest) = some (text, rest) := by
  induction text with
  | nil => rfl
  | cons c more ih =>
    obtain ⟨other, quote⟩ := not_or.mp (fun either => quote (List.mem_cons.mpr either))
    obtain ⟨other', backslash⟩ := not_or.mp (fun either => backslash (List.mem_cons.mpr either))
    simp only [List.cons_append, quotedString, Ne.symm other, Ne.symm other', if_false, ih quote backslash, Option.map_some]

/-- The text up to the first quote. -/
def unquoted (text : Bytes) : Bytes := text.takeWhile (· ≠ '"')

theorem unquoted_cons {c : Char} (other : c ≠ '"') (rest : Bytes) : unquoted (c :: rest) = c :: unquoted rest :=
  List.takeWhile_cons_of_pos (decide_eq_true other)

/-- What is read of a quoted string is the text up to the first quote, or is
shorter, or has a quote in it that the text does not have. -/
def ReadOf (text value : Bytes) : Prop :=
  (value = unquoted text ∧ '\\' ∉ value) ∨ value.length < (unquoted text).length ∨ '"' ∈ value.take (unquoted text).length

theorem ReadOf.cons {c : Char} {rest value : Bytes} (read : ReadOf rest value) (quote : c ≠ '"') (backslash : c ≠ '\\') :
    ReadOf (c :: rest) (c :: value) := by
  rw [ReadOf, unquoted_cons quote]
  rcases read with ⟨rfl, none⟩ | shorter | quoted
  · exact .inl ⟨rfl, by simp [none, backslash.symm]⟩
  · exact .inr (.inl (by simpa using shorter))
  · exact .inr (.inr (List.mem_cons_of_mem c quoted))

/-- A character after a backslash. The text has the backslash as well. -/
theorem ReadOf.escaped {c : Char} {rest value : Bytes} (read : ReadOf rest value) : ReadOf ('\\' :: c :: rest) (c :: value) := by
  rw [ReadOf, unquoted_cons (by decide)]
  by_cases quote : c = '"'
  · exact .inr (.inr (by simp [quote]))
  · rw [unquoted_cons quote]
    rcases read with ⟨rfl, none⟩ | shorter | quoted
    · exact .inr (.inl (by simp))
    · refine .inr (.inl ?_)
      simp only [List.length_cons]
      omega
    · exact .inr (.inr (List.mem_cons_of_mem c (List.take_subset_take_left _ (Nat.le_succ _) quoted)))

theorem quotedString_read {text rest value : Bytes} (read : quotedString false text = some (value, rest)) : ReadOf text value := by
  induction size : text.length using Nat.strong_induction_on generalizing text value with
  | _ n ih =>
    subst size
    cases text with
    | nil => cases read
    | cons c more =>
      rw [quotedString] at read
      split at read
      · rename_i quote
        cases read
        exact .inl ⟨by simp [unquoted, quote], nofun⟩
      · rename_i quote
        split at read
        · rename_i backslash
          cases more with
          | nil => cases read
          | cons c' after =>
            obtain ⟨⟨value', later⟩, read', same⟩ := Option.map_eq_some_iff.mp read
            cases same
            exact backslash ▸ (ih after.length (by simp only [List.length_cons]; omega) read' rfl).escaped
        · rename_i backslash
          obtain ⟨⟨value', later⟩, read', same⟩ := Option.map_eq_some_iff.mp read
          cases same
          exact (ih _ (by simp) read' rfl).cons quote backslash

theorem not_mem_unquoted (text : Bytes) : '"' ∉ unquoted text := by
  intro member
  simpa using List.mem_takeWhile_imp member

theorem take_unquoted {n : Nat} (bound : n ≤ (unquoted text).length) : text.take n ⊆ unquoted text := by
  intro c member
  have split : text = unquoted text ++ text.dropWhile (· ≠ '"') := List.takeWhile_append_dropWhile.symm
  rw [split, List.take_append_of_le_length bound] at member
  exact List.mem_of_mem_take member

theorem unquoted_quote (text rest : Bytes) : unquoted (text ++ '"' :: rest) = unquoted text := by
  exact takeWhile_append_stop (List.takeWhile_cons_of_neg (by decide)) text

/-- A name in a header that a receiver reads back can be quoted. -/
theorem quotable_of_read {name more rest : Bytes}
    (read : quotedString false (unfolded (lines (name ++ '"' :: more))) = some (name, rest)) : Quotable name := by
  have one := oneLine_unfolded (name ++ '"' :: more)
  have bound := unfolded_takeWhile (· ≠ '"') (name ++ '"' :: more) ⟨by decide, by decide⟩
  rw [← unquoted, ← unquoted, unquoted_quote] at bound
  have inside : (unquoted name).length ≤ name.length := (List.takeWhile_prefix _).length_le
  rcases quotedString_read read with ⟨whole, backslash⟩ | shorter | quoted
  · refine ⟨?_, ?_, backslash⟩
    · rw [← List.takeWhile_append_dropWhile (p := (· ≠ '"')) (l := unfolded (lines (name ++ '"' :: more)))] at one
      exact whole ▸ oneLine_left one
    · rw [whole]
      exact not_mem_unquoted _
  · omega
  · exact absurd (take_unquoted bound quoted) (not_mem_unquoted name)

/-- The header of a name that can be quoted. -/
theorem unfolded_quotable {name : Bytes} (one : OneLine name) (more : Bytes) :
    unfolded (lines (name ++ '"' :: more)) = name ++ '"' :: unfolded (lines more) := by
  obtain ⟨line, later, split⟩ := List.exists_cons_of_ne_nil (lines_ne_nil more)
  have quoted := lines_cons (c := '"') split fun cr => absurd cr (by decide)
  rw [lines_append one quoted fun _ => by simp, unfolded_append, unfolded_cons, split]

/-- A receiver reads a name between quotes back when it can be quoted. -/
theorem lookup_quoted (field name more : Bytes) :
    (parameters (.quoted field []) (unfolded (lines (name ++ '"' :: more)))).lookup field = some name ↔ Quotable name := by
  rw [parameters_quoted]
  constructor
  · intro read
    split at read
    · rename_i value rest found
      have same : value = name := by simpa using read
      exact quotable_of_read (same ▸ found)
    · cases read
  · intro quotable
    rw [unfolded_quotable quotable.oneLine, quotedString_quotable quotable.quote quotable.backslash]
    exact List.lookup_cons_self

end Quoted

section Parts

variable {starts : Bytes → Bool} {line : Bytes} {rest : List Bytes}

theorem sections_fst (starts : Bytes → Bool) (list : List Bytes) :
    (sections starts list).1 = list.takeWhile fun line => !starts line := by
  induction list with
  | nil => rfl
  | cons line rest ih =>
    rw [sections, List.takeWhile_cons]
    cases starts line <;> simp [ih]

theorem sections_start (start : starts line = true) :
    (sections starts (line :: rest)).2 = (line, rest.takeWhile fun line => !starts line) :: (sections starts rest).2 := by
  simp only [sections, start, if_true, sections_fst]

theorem sections_append {list : List Bytes} (none : ∀ line ∈ list, starts line = false) :
    (sections starts (list ++ rest)).2 = (sections starts rest).2 := by
  induction list with
  | nil => rfl
  | cons line others ih =>
    obtain ⟨here, later⟩ := List.forall_mem_cons.mp none
    simp only [List.cons_append, sections, here, Bool.false_eq_true, if_false, ih later]

/-- What is left of a text up to the first line that is not kept is the text
when all lines are kept. -/
theorem content_eq_iff {keep : Bytes → Bool} (empty : keep [] = true) (text : Bytes) :
    crlf.intercalate ((lines text).takeWhile keep) = text ↔ ∀ line ∈ lines text, keep line = true := by
  constructor
  · intro same
    by_cases none : (lines text).takeWhile keep = []
    · rw [none] at same
      subst same
      simpa [lines] using empty
    · have kept : ((lines text).takeWhile keep).flatMap lines = (lines text).takeWhile keep :=
        flatMap_lines fun line member => oneLine_of_mem ((List.takeWhile_prefix _).mem member)
      have split := lines_intercalate none
      rw [same, kept] at split
      exact split ▸ fun line member => List.mem_takeWhile_imp member
  · intro all
    rw [List.takeWhile_eq_self_iff.mpr all, intercalate_lines]

variable {dashBoundary : Bytes} {part : List Bytes}

theorem readLines_close (rest : List Bytes) : readLines dashBoundary ((dashBoundary ++ ['-', '-']) :: rest) = [] := by
  have start : dashBoundary.isPrefixOf (dashBoundary ++ ['-', '-']) = true := by simp
  have close : closes dashBoundary (dashBoundary ++ ['-', '-']) = true := by simp [closes]
  rw [readLines, sections_start start, List.takeWhile_cons_of_neg (by simpa using close)]
  rfl

theorem closes_self (dashBoundary : Bytes) : closes dashBoundary dashBoundary = false := by
  refine Bool.eq_false_iff.mpr fun close => ?_
  have shorter := (List.isPrefixOf_iff_prefix.mp close).length_le
  simp only [List.length_append, List.length_cons, List.length_nil] at shorter
  omega

/-- A part begins with a boundary and ends at the next one. -/
theorem readLines_part (part rest : List Bytes) (next : ∀ line ∈ rest.head?, dashBoundary.isPrefixOf line = true) :
    ∃ later, readLines dashBoundary (dashBoundary :: (part ++ rest)) =
      readPart (part.takeWhile fun line => !dashBoundary.isPrefixOf line) :: later ∧
        ((∀ line ∈ part, dashBoundary.isPrefixOf line = false) → later = readLines dashBoundary rest) := by
  have start : dashBoundary.isPrefixOf dashBoundary = true := by simp
  have stop : (part ++ rest).takeWhile (fun line => !dashBoundary.isPrefixOf line) =
      part.takeWhile fun line => !dashBoundary.isPrefixOf line := by
    have none : rest.takeWhile (fun line => !dashBoundary.isPrefixOf line) = [] := by
      cases rest with
      | nil => rfl
      | cons line more => exact List.takeWhile_cons_of_neg (by simp [next line rfl])
    exact takeWhile_append_stop none part
  rw [readLines, sections_start start, stop,
    List.takeWhile_cons_of_pos (p := fun part : Bytes × List Bytes => !closes dashBoundary part.1) (by simp [closes_self]), List.map_cons]
  refine ⟨_, rfl, fun none => ?_⟩
  rw [sections_append none, readLines]

/-- Parts are read as they were sent where each of them is, and then what
follows them. -/
theorem readLines_items {ι : Type} {part : ι → List Bytes} {sent : ι → BodyPart} {good : ι → Prop} {rest : List Bytes}
    (reads : ∀ item, readPart ((part item).takeWhile fun line => !dashBoundary.isPrefixOf line) = sent item ↔ good item)
    (inside : ∀ item, good item → ∀ line ∈ part item, dashBoundary.isPrefixOf line = false)
    (next : ∀ line ∈ rest.head?, dashBoundary.isPrefixOf line = true) (items : List ι) (expected : List BodyPart) :
    readLines dashBoundary (items.flatMap (fun item => dashBoundary :: part item) ++ rest) = items.map sent ++ expected ↔
      (∀ item ∈ items, good item) ∧ readLines dashBoundary rest = expected := by
  induction items with
  | nil => simp
  | cons item others ih =>
    have next' : ∀ line ∈ (others.flatMap (fun item => dashBoundary :: part item) ++ rest).head?, dashBoundary.isPrefixOf line = true := by
      cases others with
      | nil => exact next
      | cons other more =>
        intro line first
        cases first
        simp
    obtain ⟨later, read, whole⟩ := readLines_part (part item) _ next'
    rw [List.flatMap_cons, List.cons_append, List.cons_append, List.append_assoc, read, List.map_cons, List.cons_append,
      List.cons.injEq, reads, List.forall_mem_cons, and_assoc]
    exact and_congr_right fun fine => whole (inside item fine) ▸ ih

theorem goesOn_filled (goes : goesOn line = true) : (!line.isEmpty) = true := by
  cases line with
  | nil => cases goes
  | cons c more => rfl

/-- The header a part begins with, which gives its name. -/
theorem disposition_part {keep : Bytes → Bool} {first : Bytes} {others tail : List Bytes}
    (field : (first.take dispositionField.length).map Char.toLower = dispositionField) (kept : keep first = true)
    (blanks : ∀ line, goesOn line = true → keep line = true) (next : tail.takeWhile goesOn = []) :
    disposition (((first :: others ++ tail).takeWhile keep).takeWhile fun line => !line.isEmpty) =
      (unfolded (first :: others)).drop dispositionField.length := by
  have filled : (!first.isEmpty) = true := by
    cases first with
    | nil => cases field
    | cons c more => rfl
  rw [List.cons_append, List.takeWhile_cons_of_pos kept, List.takeWhile_cons_of_pos (p := fun line : Bytes => !line.isEmpty) filled, disposition, if_pos field]
  simp only [unfolded]
  rw [takeWhile_of_imp (fun _ => goesOn_filled), takeWhile_of_imp blanks, takeWhile_append_stop next]

end Parts

end Mime
