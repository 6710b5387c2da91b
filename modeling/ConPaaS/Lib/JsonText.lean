import ConPaaS.Lib.Json
import Mathlib.Tactic.Common

namespace Json

/-- How a writer puts strings, constants and integers. -/
structure Style (σ : Type) where
  literal : σ → List Char
  null : List Char
  bool : Bool → List Char
  int : Int → List Char

/-- The texts of some items with commas and blanks between them. -/
def join : List (List Char) → List Char
  | [] => []
  | [text] => text
  | text :: rest => text ++ ',' :: ' ' :: join rest

mutual

/-- A document as a writer puts it. -/
def render {σ : Type} (style : Style σ) : Doc σ Empty → List Char
  | .null => style.null
  | .bool value => style.bool value
  | .int value => style.int value
  | .float value => value.elim
  | .str text => style.literal text
  | .arr items => '[' :: join (renderItems style items) ++ [']']
  | .obj entries => '{' :: join (renderEntries style entries) ++ ['}']

def renderItems {σ : Type} (style : Style σ) : List (Doc σ Empty) → List (List Char)
  | [] => []
  | item :: rest => render style item :: renderItems style rest

def renderEntries {σ : Type} (style : Style σ) : List (σ × Doc σ Empty) → List (List Char)
  | [] => []
  | (key, value) :: rest => (style.literal key ++ ':' :: ' ' :: render style value) :: renderEntries style rest

end

/-- The digits of an integer. -/
def integer (value : Int) : List Char :=
  if value < 0 then '-' :: Nat.toDigits 10 value.natAbs else Nat.toDigits 10 value.natAbs

/-- What a reader makes of the parts of a text: the strings and the integers it
reads, and whether it knows the constants. -/
structure Reading (σ : Type) where
  str : σ → Option (List Char)
  int : Int → Bool
  constants : Bool

mutual

/-- What a reader makes of a document, if it can read it. -/
def reading {σ : Type} (reader : Reading σ) : Doc σ Empty → Option Value
  | .null => if reader.constants then some .null else none
  | .bool value => if reader.constants then some (.bool value) else none
  | .int value => if reader.int value then some (.int value) else none
  | .float value => value.elim
  | .str text => (reader.str text).map .str
  | .arr items => (readingItems reader items).map .arr
  | .obj entries => (readingEntries reader entries).map fun entries => .obj (dictOf entries)

def readingItems {σ : Type} (reader : Reading σ) : List (Doc σ Empty) → Option (List Value)
  | [] => some []
  | item :: rest =>
    match reading reader item with
    | none => none
    | some item => (readingItems reader rest).map (item :: ·)

def readingEntries {σ : Type} (reader : Reading σ) : List (σ × Doc σ Empty) → Option (List (List Char × Value))
  | [] => some []
  | (key, value) :: rest =>
    match reader.str key with
    | none => none
    | some key =>
      match reading reader value with
      | none => none
      | some value => (readingEntries reader rest).map ((key, value) :: ·)

end

/-- A text at which a value can end. -/
def Stop (text : List Char) : Prop := ∀ c rest, text = c :: rest → c = ',' ∨ c = ']' ∨ c = '}'

/-- A text at which nothing can go on after a value. -/
def Misses (text : List Char) : Prop :=
  ∃ c rest, text = c :: rest ∧ isSpace c = false ∧ c ≠ ',' ∧ c ≠ ']' ∧ c ≠ '}'

/-- A reader goes over a text as expected: it gets a value and stops where its
text ends, or, where it has no value to get, fails at the latest with what it
leaves. -/
def Gets {α : Type} (result : Option (α × List Char)) (value : Option α) (rest : List Char) : Prop :=
  match value with
  | some value => result = some (value, rest)
  | none => ∀ value after, result = some (value, after) → Misses after

/-- A reader of values reads the parts a writer puts. -/
structure Reads {σ : Type} (style : Style σ) (reader : Reading σ) : Prop where
  literal : ∀ text, ∃ body, style.literal text = '"' :: body ∧ ∀ fuel rest, body.length ≤ fuel →
    parseString fuel (body ++ rest) = (reader.str text).map fun text => (text, rest)
  null : ∃ c more, style.null = c :: more ∧ c ≠ '"' ∧ c ≠ '[' ∧ c ≠ '{' ∧ c ≠ ']' ∧ isSpace c = false
  bool : ∀ value, ∃ c more, style.bool value = c :: more ∧ c ≠ '"' ∧ c ≠ '[' ∧ c ≠ '{' ∧ c ≠ ']' ∧ isSpace c = false
  nullAtom : ∀ rest, parseAtom (style.null ++ rest) = if reader.constants then some (.null, rest) else none
  boolAtom : ∀ value rest, parseAtom (style.bool value ++ rest) = if reader.constants then some (.bool value, rest) else none
  int : ∀ value, reader.int value = true → style.int value = integer value
  noInt : ∀ value, reader.int value = false → ∃ c more, style.int value = integer value ++ c :: more ∧ Misses (c :: more) ∧
    c.isDigit = false ∧ c ≠ '.' ∧ c ≠ 'e' ∧ c ≠ 'E'

theorem renderItems_eq {σ : Type} (style : Style σ) (items : List (Doc σ Empty)) :
    renderItems style items = items.map (render style) := by
  induction items with
  | nil => rfl
  | cons item rest ih => rw [renderItems, ih, List.map_cons]

theorem renderEntries_eq {σ : Type} (style : Style σ) (entries : List (σ × Doc σ Empty)) :
    renderEntries style entries = entries.map fun entry => style.literal entry.1 ++ ':' :: ' ' :: render style entry.2 := by
  induction entries with
  | nil => rfl
  | cons entry rest ih => rw [renderEntries, ih, List.map_cons]

/-- What comes after the first digits does not belong to a number. -/
def Ends (text : List Char) : Prop :=
  ∀ c rest, text = c :: rest → c.isDigit = false ∧ c ≠ '.' ∧ c ≠ 'e' ∧ c ≠ 'E'

theorem Stop.ends {text : List Char} (stop : Stop text) : Ends text := by
  intro c rest same
  rcases stop c rest same with rfl | rfl | rfl <;> decide

theorem digits_append {list rest : List Char} (all : ∀ c ∈ list, c.isDigit = true) (ends : Ends rest) :
    digits (list ++ rest) = (list, rest) := by
  have stop : rest.takeWhile Char.isDigit = [] ∧ rest.dropWhile Char.isDigit = rest := by
    cases rest with
    | nil => exact ⟨rfl, rfl⟩
    | cons c rest => simp [(ends c rest rfl).1]
  rw [digits, List.takeWhile_append_of_pos all, List.dropWhile_append_of_pos all, stop.1, stop.2, List.append_nil]

theorem toDigits_digit (n : Nat) : ∀ c ∈ Nat.toDigits 10 n, c.isDigit = true := fun _ member =>
  Nat.isDigit_of_mem_toDigits (by decide) (by decide) member

/-- No digits of a positive number begin with a zero. -/
theorem toDigits_head {n : Nat} (positive : 0 < n) : ∀ more, Nat.toDigits 10 n ≠ '0' :: more := by
  induction n using Nat.strongRecOn with
  | ind n ih =>
    intro more zero
    rcases Nat.lt_or_ge n 10 with small | large
    · rw [Nat.toDigits_of_lt_base small] at zero
      have nonzero : ∀ digit < 10, 0 < digit → Nat.digitChar digit ≠ '0' := by decide
      exact nonzero n small positive (List.cons.inj zero).1
    · rw [Nat.toDigits_of_base_le (by decide) large] at zero
      have tens : 0 < n / 10 := Nat.div_pos large (by decide)
      cases first : Nat.toDigits 10 (n / 10) with
      | nil => exact Nat.toDigits_ne_nil first
      | cons c rest =>
        rw [first, List.cons_append] at zero
        have same : c = '0' := (List.cons.inj zero).1
        exact ih (n / 10) (Nat.div_lt_self positive (by decide)) tens rest (same ▸ first)

theorem parseDigits_toDigits (n : Nat) {rest : List Char} (ends : Ends rest) :
    parseDigits (Nat.toDigits 10 n ++ rest) = some (Nat.toDigits 10 n, rest) := by
  unfold parseDigits
  rw [digits_append (toDigits_digit n) ends]
  split
  · rename_i none
    exact absurd (congrArg Prod.fst none) Nat.toDigits_ne_nil
  · rename_i more _ zero
    obtain ⟨list, -⟩ := Prod.mk.inj zero
    rcases Nat.eq_zero_or_pos n with rfl | positive
    · rw [Nat.toDigits_zero] at list
      obtain ⟨-, empty⟩ := List.cons.inj list
      cases empty
      cases zero
      rfl
    · exact absurd list (toDigits_head positive more)
  · rename_i same
    cases same
    rfl

theorem parseFraction_ends {rest : List Char} (ends : Ends rest) : parseFraction rest = ([], rest) := by
  unfold parseFraction
  split
  · exact absurd rfl (ends _ _ rfl).2.1
  · rfl

theorem parseExponent_ends {rest : List Char} (ends : Ends rest) : parseExponent rest = ([], rest) := by
  cases rest with
  | nil => rfl
  | cons e rest =>
    obtain ⟨-, -, small, large⟩ := ends e rest rfl
    simp [parseExponent, small, large]

theorem parseUnsigned_toDigits (sign : List Char) (n : Nat) {rest : List Char} (ends : Ends rest) :
    parseUnsigned sign (Nat.toDigits 10 n ++ rest) = some (.int (if sign = [] then (n : Int) else -n), rest) := by
  simp only [parseUnsigned, parseDigits_toDigits n ends, Option.map_some, parseFraction_ends ends, parseExponent_ends ends,
    Nat.ofDigitChars_ten_toDigits, and_self, if_true]

theorem integer_digit {value : Int} {c : Char} (member : c ∈ integer value) : c = '-' ∨ c.isDigit = true := by
  unfold integer at member
  split at member
  · exact (List.mem_cons.mp member).imp_right (toDigits_digit _ c)
  · exact .inr (toDigits_digit _ c member)

/-- The first digit of a number. -/
theorem toDigits_cons (n : Nat) : ∃ c more, Nat.toDigits 10 n = c :: more ∧ c.isDigit = true := by
  cases text : Nat.toDigits 10 n with
  | nil => exact absurd text Nat.toDigits_ne_nil
  | cons c more => exact ⟨c, more, rfl, toDigits_digit n c (text ▸ List.mem_cons_self ..)⟩

theorem parseNumber_integer (value : Int) {rest : List Char} (ends : Ends rest) :
    parseNumber (integer value ++ rest) = some (.int value, rest) := by
  unfold integer
  split
  · rename_i negative
    have own : -(value.natAbs : Int) = value := by omega
    simp only [List.cons_append, parseNumber, parseUnsigned_toDigits ['-'] value.natAbs ends, List.cons_ne_nil, if_false, own]
  · rename_i nonneg
    have own : (value.natAbs : Int) = value := by omega
    have unsigned := parseUnsigned_toDigits [] value.natAbs ends
    obtain ⟨c, more, text, digit⟩ := toDigits_cons value.natAbs
    rw [text] at unsigned ⊢
    rw [if_pos rfl, own] at unsigned
    unfold parseNumber
    split
    · rename_i same
      cases same
      cases digit
    · exact unsigned

/-- The first characters of an integer. -/
theorem integer_cons (value : Int) : ∃ digit more, digit.isDigit = true ∧
    (integer value = digit :: more ∨ integer value = '-' :: digit :: more) := by
  obtain ⟨digit, more, text, first⟩ := toDigits_cons value.natAbs
  refine ⟨digit, more, first, ?_⟩
  unfold integer
  rw [text]
  split
  · exact Or.inr rfl
  · exact Or.inl rfl

theorem parseAtom_integer (value : Int) {rest : List Char} (ends : Ends rest) :
    parseAtom (integer value ++ rest) = some (.int value, rest) := by
  have number := parseNumber_integer value ends
  obtain ⟨digit, more, first, text⟩ := integer_cons value
  have other (letter : Char) (no : letter.isDigit = false) : digit ≠ letter := by
    rintro rfl
    exact Bool.false_ne_true (no.symm.trans first)
  unfold parseAtom
  split
  case h_7 => exact number
  all_goals
    rename_i same
    rcases text with text | text
    · rw [text] at same
      exact absurd (List.cons.inj same).1 (other _ rfl)
    · rw [text] at same
      obtain ⟨sign, later⟩ := List.cons.inj same
      first
        | exact absurd sign (by decide)
        | exact absurd (List.cons.inj later).1 (other _ rfl)

theorem skipSpace_cons {c : Char} (solid : isSpace c = false) (rest : List Char) : skipSpace (c :: rest) = c :: rest := by
  simp [skipSpace, solid]

theorem parseValue_atom {c : Char} (quote : c ≠ '"') (bracket : c ≠ '[') (brace : c ≠ '{') (fuel : Nat) (rest : List Char) :
    parseValue (fuel + 1) (c :: rest) = parseAtom (c :: rest) := by
  simp only [parseValue, quote, bracket, brace, if_false]

theorem parseValue_arr {c : Char} (solid : isSpace c = false) (filled : c ≠ ']') (fuel : Nat) (rest : List Char) :
    parseValue (fuel + 1) ('[' :: c :: rest) = (parseItems fuel (c :: rest)).map fun (items, rest) => (.arr items, rest) := by
  have bracket : ¬ '[' = '"' := by decide
  rw [parseValue, if_neg bracket, if_pos rfl, skipSpace_cons solid]
  split
  · rename_i same
    exact absurd (List.cons.inj same).1 filled
  · rfl

theorem parseValue_obj {c : Char} (solid : isSpace c = false) (filled : c ≠ '}') (fuel : Nat) (rest : List Char) :
    parseValue (fuel + 1) ('{' :: c :: rest) =
      (parseEntries fuel (c :: rest)).map fun (entries, rest) => (.obj (dictOf entries), rest) := by
  have quote : ¬ '{' = '"' := by decide
  have bracket : ¬ '{' = '[' := by decide
  rw [parseValue, if_neg quote, if_neg bracket, if_pos rfl, skipSpace_cons solid]
  split
  · rename_i same
    exact absurd (List.cons.inj same).1 filled
  · rfl

section

variable {σ : Type} {style : Style σ} {reader : Reading σ}

/-- The first character of a document. -/
theorem render_cons (reads : Reads style reader) (doc : Doc σ Empty) :
    ∃ c more, render style doc = c :: more ∧ isSpace c = false ∧ c ≠ ']' := by
  cases doc with
  | null =>
    obtain ⟨c, more, text, -, -, -, filled, solid⟩ := reads.null
    exact ⟨c, more, text, solid, filled⟩
  | bool value =>
    obtain ⟨c, more, text, -, -, -, filled, solid⟩ := reads.bool value
    exact ⟨c, more, text, solid, filled⟩
  | int value =>
    obtain ⟨more, text⟩ : ∃ more, style.int value = integer value ++ more := by
      cases known : reader.int value with
      | true => exact ⟨[], by rw [reads.int value known, List.append_nil]⟩
      | false =>
        obtain ⟨c, more, text, -⟩ := reads.noInt value known
        exact ⟨c :: more, text⟩
    obtain ⟨digit, rest, first, form⟩ := integer_cons value
    rw [render, text]
    rcases form with form | form
    · rw [form]
      refine ⟨digit, rest ++ more, rfl, ?_, ?_⟩
      · cases space : isSpace digit with
        | false => rfl
        | true =>
          simp only [isSpace, Bool.or_eq_true, decide_eq_true_eq] at space
          rcases space with ((rfl | rfl) | rfl) | rfl <;> cases first
      · rintro rfl
        cases first
    · rw [form]
      exact ⟨'-', digit :: (rest ++ more), rfl, rfl, by decide⟩
  | float value => exact value.elim
  | str text =>
    obtain ⟨body, literal, -⟩ := reads.literal text
    exact ⟨'"', body, literal, rfl, by decide⟩
  | arr items => exact ⟨'[', _, rfl, rfl, by decide⟩
  | obj entries => exact ⟨'{', _, rfl, rfl, by decide⟩

theorem join_cons (text : List Char) {rest : List (List Char)} (more : rest ≠ []) :
    join (text :: rest) = text ++ ',' :: ' ' :: join rest := by
  cases rest with
  | nil => exact absurd rfl more
  | cons => rfl

/-- How the items of an array go on after one of them. -/
def moreItems (fuel : Nat) (item : Value) (rest : List Char) : Option (List Value × List Char) :=
  match skipSpace rest with
  | ',' :: rest => (parseItems fuel (skipSpace rest)).map fun (items, rest) => (item :: items, rest)
  | ']' :: rest => some ([item], rest)
  | _ => none

/-- How the entries of an object go on after one of them. -/
def moreEntries (fuel : Nat) (key : List Char) (value : Value) (rest : List Char) :
    Option (List (List Char × Value) × List Char) :=
  match skipSpace rest with
  | ',' :: rest => (parseEntries fuel (skipSpace rest)).map fun (entries, rest) => ((key, value) :: entries, rest)
  | '}' :: rest => some ([(key, value)], rest)
  | _ => none

theorem parseItems_step {fuel : Nat} {text rest : List Char} {value : Option Value}
    (gets : Gets (parseValue fuel text) value rest) :
    parseItems (fuel + 1) text = value.bind fun item => moreItems fuel item rest := by
  rw [parseItems]
  cases value with
  | some item =>
    have parsed : parseValue fuel text = some (item, rest) := gets
    rw [parsed]
    rfl
  | none =>
    cases parsed : parseValue fuel text with
    | none => rfl
    | some result =>
      obtain ⟨c, more, left, solid, comma, bracket, -⟩ := gets result.1 result.2 parsed
      simp only [left, skipSpace_cons solid]
      split
      · rename_i same
        exact absurd (List.cons.inj same).1 comma
      · rename_i same
        exact absurd (List.cons.inj same).1 bracket
      · rfl

theorem parseEntries_step {fuel : Nat} {body text rest : List Char} {key : Option (List Char)} {value : Option Value}
    (named : parseString (body.length + 1) body = key.map fun key => (key, ':' :: ' ' :: text))
    (start : skipSpace text = text) (gets : Gets (parseValue fuel text) value rest) :
    parseEntries (fuel + 1) ('"' :: body) =
      key.bind fun key => value.bind fun value => moreEntries fuel key value rest := by
  rw [parseEntries, named]
  cases key with
  | none => rfl
  | some key =>
    have colon : skipSpace (':' :: ' ' :: text) = ':' :: ' ' :: text := rfl
    have blank : skipSpace (' ' :: text) = text := start
    simp only [Option.map_some, colon, blank, Option.bind_some]
    cases value with
    | some value =>
      have parsed : parseValue fuel text = some (value, rest) := gets
      rw [parsed]
      rfl
    | none =>
      cases parsed : parseValue fuel text with
      | none => rfl
      | some result =>
        obtain ⟨c, more, left, solid, comma, -, brace⟩ := gets result.1 result.2 parsed
        simp only [left, skipSpace_cons solid]
        split
        · rename_i same
          exact absurd (List.cons.inj same).1 comma
        · rename_i same
          exact absurd (List.cons.inj same).1 brace
        · rfl

theorem stop_cons {c : Char} (ends : c = ',' ∨ c = ']' ∨ c = '}') (rest : List Char) : Stop (c :: rest) :=
  fun _ _ same => (List.cons.inj same).1 ▸ ends

theorem renderItems_ne (style : Style σ) (item : Doc σ Empty) (rest : List (Doc σ Empty)) : renderItems style (item :: rest) ≠ [] :=
  List.cons_ne_nil _ _

/-- The first character of several documents. -/
theorem join_render_cons (reads : Reads style reader) (item : Doc σ Empty) (items : List (Doc σ Empty)) :
    ∃ c more, join (renderItems style (item :: items)) = c :: more ∧ isSpace c = false ∧ c ≠ ']' := by
  obtain ⟨c, more, text, solid, filled⟩ := render_cons reads item
  rw [renderItems, text]
  cases items with
  | nil => exact ⟨c, more, rfl, solid, filled⟩
  | cons second items =>
    rw [join_cons _ (renderItems_ne style second items)]
    exact ⟨c, _, rfl, solid, filled⟩

/-- The items of an array are read if each of them is. -/
theorem parseItems_render (reads : Reads style reader) {items : List (Doc σ Empty)} (filled : items ≠ [])
    (each : ∀ item ∈ items, ∀ fuel rest, (render style item).length ≤ fuel → Stop rest →
      Gets (parseValue fuel (render style item ++ rest)) (reading reader item) rest)
    {fuel : Nat} {rest : List Char} (bound : (join (renderItems style items)).length < fuel) :
    parseItems fuel (join (renderItems style items) ++ ']' :: rest) =
      (readingItems reader items).map fun items => (items, rest) := by
  induction items generalizing fuel with
  | nil => exact absurd rfl filled
  | cons item others ih =>
    obtain ⟨fuel, rfl⟩ : ∃ less, fuel = less + 1 := ⟨fuel - 1, by omega⟩
    have own := each item (List.mem_cons_self ..) fuel
    cases others with
    | nil =>
      simp only [renderItems, join] at bound ⊢
      rw [parseItems_step (own (']' :: rest) (by omega) (stop_cons (by decide) rest)), readingItems]
      cases reading reader item <;> rfl
    | cons second others =>
      rw [renderItems, join_cons _ (renderItems_ne style second others)] at bound ⊢
      rw [List.length_append, List.length_cons, List.length_cons] at bound
      have room : (join (renderItems style (second :: others))).length < fuel := by omega
      have later := ih (List.cons_ne_nil _ _) (fun other member => each other (List.mem_cons_of_mem _ member)) room
      obtain ⟨c, more, text, solid, -⟩ := join_render_cons reads second others
      have start : skipSpace (' ' :: (join (renderItems style (second :: others)) ++ ']' :: rest)) =
          join (renderItems style (second :: others)) ++ ']' :: rest := by
        rw [text]
        exact skipSpace_cons solid _
      rw [List.append_assoc, List.cons_append, List.cons_append,
        parseItems_step (own _ (by omega) (stop_cons (by decide) _)), readingItems]
      cases reading reader item with
      | none => rfl
      | some value =>
        have comma (text : List Char) : skipSpace (',' :: text) = ',' :: text := rfl
        simp only [Option.bind_some, moreItems, comma, start, later]
        cases readingItems reader (second :: others) <;> rfl

theorem renderEntries_ne (style : Style σ) (entry : σ × Doc σ Empty) (rest : List (σ × Doc σ Empty)) :
    renderEntries style (entry :: rest) ≠ [] := List.cons_ne_nil _ _

/-- The first character of several entries. -/
theorem join_entries_cons (reads : Reads style reader) (entry : σ × Doc σ Empty) (entries : List (σ × Doc σ Empty)) :
    ∃ more, join (renderEntries style (entry :: entries)) = '"' :: more := by
  obtain ⟨key, value⟩ := entry
  obtain ⟨body, literal, -⟩ := reads.literal key
  rw [renderEntries, literal]
  cases entries with
  | nil => exact ⟨_, rfl⟩
  | cons second entries =>
    rw [join_cons _ (renderEntries_ne style second entries)]
    exact ⟨_, rfl⟩

/-- The entries of an object are read if each of them is. -/
theorem parseEntries_render (reads : Reads style reader) {entries : List (σ × Doc σ Empty)} (filled : entries ≠ [])
    (each : ∀ entry ∈ entries, ∀ fuel rest, (render style entry.2).length ≤ fuel → Stop rest →
      Gets (parseValue fuel (render style entry.2 ++ rest)) (reading reader entry.2) rest)
    {fuel : Nat} {rest : List Char} (bound : (join (renderEntries style entries)).length < fuel) :
    parseEntries fuel (join (renderEntries style entries) ++ '}' :: rest) =
      (readingEntries reader entries).map fun entries => (entries, rest) := by
  induction entries generalizing fuel with
  | nil => exact absurd rfl filled
  | cons entry others ih =>
    obtain ⟨fuel, rfl⟩ : ∃ less, fuel = less + 1 := ⟨fuel - 1, by omega⟩
    obtain ⟨key, value⟩ := entry
    have own := each (key, value) (List.mem_cons_self ..) fuel
    obtain ⟨body, literal, read⟩ := reads.literal key
    obtain ⟨c, more, text, solid, -⟩ := render_cons reads value
    have start (rest : List Char) : skipSpace (render style value ++ rest) = render style value ++ rest := by
      rw [text]
      exact skipSpace_cons solid _
    have named (rest : List Char) : parseString ((body ++ ':' :: ' ' :: rest).length + 1) (body ++ ':' :: ' ' :: rest) =
        (reader.str key).map fun key => (key, ':' :: ' ' :: rest) := by
      refine read _ _ ?_
      rw [List.length_append]
      omega
    cases others with
    | nil =>
      simp only [renderEntries, join, literal, List.length_append, List.length_cons] at bound
      simp only [renderEntries, join, literal, List.cons_append, List.append_assoc]
      rw [parseEntries_step (named _) (start _) (own ('}' :: rest) (by dsimp only; omega) (stop_cons (by decide) rest)), readingEntries]
      cases reader.str key with
      | none => rfl
      | some key => cases reading reader value <;> rfl
    | cons second others =>
      rw [renderEntries, join_cons _ (renderEntries_ne style second others), literal] at bound ⊢
      simp only [List.length_append, List.length_cons] at bound
      have room : (join (renderEntries style (second :: others))).length < fuel := by omega
      have later := ih (List.cons_ne_nil _ _) (fun other member => each other (List.mem_cons_of_mem _ member)) room
      obtain ⟨more, text⟩ := join_entries_cons reads second others
      have next : skipSpace (' ' :: (join (renderEntries style (second :: others)) ++ '}' :: rest)) =
          join (renderEntries style (second :: others)) ++ '}' :: rest := by
        rw [text]
        rfl
      simp only [List.cons_append, List.append_assoc]
      rw [parseEntries_step (named _) (start _) (own _ (by dsimp only; omega) (stop_cons (by decide) _)), readingEntries]
      cases reader.str key with
      | none => rfl
      | some key =>
        dsimp only
        cases reading reader value with
        | none => rfl
        | some value =>
          have comma (text : List Char) : skipSpace (',' :: text) = ',' :: text := rfl
          simp only [Option.bind_some, moreEntries, comma, next, later]
          cases readingEntries reader (second :: others) <;> rfl

/-- A reader gets from the text of a document what it can read of it. -/
theorem parseValue_render (reads : Reads style reader) (doc : Doc σ Empty) : ∀ fuel rest, (render style doc).length ≤ fuel →
    Stop rest → Gets (parseValue fuel (render style doc ++ rest)) (reading reader doc) rest := by
  induction doc with
  | null =>
    intro fuel rest bound _
    obtain ⟨c, more, text, quote, bracket, brace, -⟩ := reads.null
    have atom := reads.nullAtom rest
    simp only [render, reading, text, List.cons_append, List.length_cons] at bound atom ⊢
    obtain ⟨fuel, rfl⟩ : ∃ less, fuel = less + 1 := ⟨fuel - 1, by omega⟩
    rw [parseValue_atom quote bracket brace, atom]
    cases reader.constants with
    | true => rfl
    | false => exact nofun
  | bool value =>
    intro fuel rest bound _
    obtain ⟨c, more, text, quote, bracket, brace, -⟩ := reads.bool value
    have atom := reads.boolAtom value rest
    simp only [render, reading, text, List.cons_append, List.length_cons] at bound atom ⊢
    obtain ⟨fuel, rfl⟩ : ∃ less, fuel = less + 1 := ⟨fuel - 1, by omega⟩
    rw [parseValue_atom quote bracket brace, atom]
    cases reader.constants with
    | true => rfl
    | false => exact nofun
  | int value =>
    intro fuel rest bound stop
    obtain ⟨digit, more, first, form⟩ := integer_cons value
    have atom (fuel : Nat) (after : List Char) (ends : Ends after) :
        parseValue (fuel + 1) (integer value ++ after) = some (.int value, after) := by
      rw [← parseAtom_integer value ends]
      have other (mark : Char) (no : mark.isDigit = false) : digit ≠ mark := by
        rintro rfl
        exact Bool.false_ne_true (no.symm.trans first)
      rcases form with form | form
      · rw [form]
        exact parseValue_atom (other '"' rfl) (other '[' rfl) (other '{' rfl) fuel _
      · rw [form]
        exact parseValue_atom (by decide) (by decide) (by decide) fuel _
    have long : 1 ≤ (integer value).length := by
      rcases form with form | form <;> simp [form]
    simp only [render, reading] at bound ⊢
    cases known : reader.int value with
    | true =>
      rw [reads.int value known] at bound ⊢
      obtain ⟨fuel, rfl⟩ : ∃ less, fuel = less + 1 := ⟨fuel - 1, by omega⟩
      exact atom fuel rest stop.ends
    | false =>
      obtain ⟨c, more, text, misses, plain⟩ := reads.noInt value known
      rw [text, List.length_append] at bound
      rw [text, List.append_assoc]
      obtain ⟨fuel, rfl⟩ : ∃ less, fuel = less + 1 := ⟨fuel - 1, by omega⟩
      rw [List.cons_append, atom fuel _ fun _ _ same => (List.cons.inj same).1 ▸ plain]
      rintro _ _ ⟨⟩
      obtain ⟨_, _, same, marks⟩ := misses
      exact ⟨c, more ++ rest, rfl, (List.cons.inj same).1 ▸ marks⟩
  | float value => exact value.elim
  | str text =>
    intro fuel rest bound _
    obtain ⟨body, literal, read⟩ := reads.literal text
    simp only [render, reading, literal, List.cons_append, List.length_cons] at bound ⊢
    obtain ⟨fuel, rfl⟩ : ∃ less, fuel = less + 1 := ⟨fuel - 1, by omega⟩
    have parsed := read ((body ++ rest).length + 1) rest (by rw [List.length_append]; omega)
    rw [parseValue, if_pos rfl, parsed]
    cases reader.str text with
    | some => rfl
    | none => exact nofun
  | arr items each =>
    intro fuel rest bound _
    simp only [render, reading, List.cons_append, List.append_assoc, List.length_cons, List.length_append, List.length_nil] at bound ⊢
    obtain ⟨fuel, rfl⟩ : ∃ less, fuel = less + 1 := ⟨fuel - 1, by omega⟩
    cases items with
    | nil => rfl
    | cons item items =>
      have parsed := @parseItems_render _ _ _ reads (item :: items) (List.cons_ne_nil _ _) each fuel rest (by omega)
      obtain ⟨c, more, text, solid, filled⟩ := join_render_cons reads item items
      rw [text] at parsed ⊢
      rw [List.nil_append, List.cons_append, parseValue_arr solid filled, ← List.cons_append, parsed]
      cases readingItems reader (item :: items) with
      | some => rfl
      | none => exact nofun
  | obj entries each =>
    intro fuel rest bound _
    simp only [render, reading, List.cons_append, List.append_assoc, List.length_cons, List.length_append, List.length_nil] at bound ⊢
    obtain ⟨fuel, rfl⟩ : ∃ less, fuel = less + 1 := ⟨fuel - 1, by omega⟩
    cases entries with
    | nil => rfl
    | cons entry entries =>
      have parsed := @parseEntries_render _ _ _ reads (entry :: entries) (List.cons_ne_nil _ _) each fuel rest (by omega)
      obtain ⟨more, text⟩ := join_entries_cons reads entry entries
      rw [text] at parsed ⊢
      rw [List.nil_append, List.cons_append, parseValue_obj rfl (by decide), ← List.cons_append, parsed]
      cases readingEntries reader (entry :: entries) with
      | some => rfl
      | none => exact nofun

/-- A text that consists of a document is read as what the reader can read of
it. -/
theorem loads_render (reads : Reads style reader) (doc : Doc σ Empty) : loads (render style doc) = reading reader doc := by
  obtain ⟨c, more, text, solid, -⟩ := render_cons reads doc
  have start : skipSpace (render style doc) = render style doc := by
    rw [text]
    exact skipSpace_cons solid more
  have gets := parseValue_render reads doc ((render style doc).length + 1) [] (by omega) nofun
  rw [List.append_nil] at gets
  rw [loads, start]
  cases known : reading reader doc with
  | some value =>
    rw [known] at gets
    have parsed : parseValue ((render style doc).length + 1) (render style doc) = some (value, []) := gets
    rw [parsed]
    rfl
  | none =>
    rw [known] at gets
    cases parsed : parseValue ((render style doc).length + 1) (render style doc) with
    | none => rfl
    | some result =>
      obtain ⟨c, more, left, solid, -⟩ := gets result.1 result.2 parsed
      simp [left, skipSpace_cons solid]

/-- A piece of a string from which a reader takes one character. -/
def Puts (piece : List Char) (c : Char) : Prop :=
  ∀ fuel rest, parseString (fuel + 1) (piece ++ rest) = (parseString fuel rest).map fun (text, rest) => (c :: text, rest)

/-- A piece of a string that a reader refuses. -/
def Stops (piece : List Char) : Prop := ∀ fuel rest, parseString fuel (piece ++ rest) = none

theorem puts_plain {c : Char} (closing : c ≠ '"') (backslash : c ≠ '\\') (plain : 0x20 ≤ c.toNat) : Puts [c] c := by
  intro fuel rest
  rw [List.singleton_append, parseString, if_neg closing, if_neg backslash, if_neg (by omega)]

theorem puts_escape {body : List Char} {c : Char} (known : ∀ rest, unescape (body ++ rest) = some (c, rest)) : Puts ('\\' :: body) c := by
  intro fuel rest
  have quote : ¬ '\\' = '"' := by decide
  rw [List.cons_append, parseString, if_neg quote, if_pos rfl, known, Option.bind_some]

theorem stops_escape {body : List Char} (unknown : ∀ rest, unescape (body ++ rest) = none) : Stops ('\\' :: body) := by
  intro fuel rest
  have quote : ¬ '\\' = '"' := by decide
  cases fuel with
  | zero => rfl
  | succ fuel => rw [List.cons_append, parseString, if_neg quote, if_pos rfl, unknown, Option.bind_none]

/-- A reader takes from a string the characters that are put into it, if it
refuses none of them. -/
theorem parseString_put {put : Char → List Char} {good : Char → Bool} (puts : ∀ c, good c = true → Puts (put c) c)
    (stops : ∀ c, good c = false → Stops (put c)) (filled : ∀ c, put c ≠ []) (text : List Char) {fuel : Nat} {rest : List Char}
    (bound : (text.flatMap put).length < fuel) :
    parseString fuel (text.flatMap put ++ '"' :: rest) = if text.all good then some (text, rest) else none := by
  induction text generalizing fuel with
  | nil =>
    obtain ⟨fuel, rfl⟩ : ∃ less, fuel = less + 1 := ⟨fuel - 1, by omega⟩
    rfl
  | cons c text ih =>
    rw [List.flatMap_cons, List.length_append] at bound
    have long := List.length_pos_of_ne_nil (filled c)
    obtain ⟨fuel, rfl⟩ : ∃ less, fuel = less + 1 := ⟨fuel - 1, by omega⟩
    rw [List.flatMap_cons, List.append_assoc, List.all_cons]
    cases known : good c with
    | true =>
      rw [puts c known, ih (by omega), Bool.true_and]
      split <;> rfl
    | false => rw [stops c known, Bool.false_and, if_neg Bool.false_ne_true]

/-- A relation between texts that goes over from parts to what is put together
of them holds of the texts of two writers. -/
theorem render_lift (related : List Char → List Char → Prop) (other : Style σ) (nil : related [] [])
    (append : ∀ {a a' b b'}, related a a' → related b b' → related (a ++ b) (a' ++ b'))
    (mark : ∀ c ∈ ['[', ']', '{', '}', ',', ':', ' '], related [c] [c]) {doc : Doc σ Empty}
    (literal : ∀ text ∈ doc.strings, related (style.literal text) (other.literal text)) (null : related style.null other.null)
    (bool : ∀ value, related (style.bool value) (other.bool value)) (int : ∀ value, related (style.int value) (other.int value)) :
    related (render style doc) (render other doc) := by
  have cons {c : Char} (known : c ∈ ['[', ']', '{', '}', ',', ':', ' ']) {a a' : List Char} (rest : related a a') :
      related (c :: a) (c :: a') := append (mark c known) rest
  have joined {α : Type} {text text' : α → List Char} (items : List α)
      (each : ∀ item ∈ items, related (text item) (text' item)) : related (join (items.map text)) (join (items.map text')) := by
    induction items with
    | nil => exact nil
    | cons item rest ih =>
      have own := each item (List.mem_cons_self ..)
      cases rest with
      | nil => exact own
      | cons second rest =>
        have later := ih fun other member => each other (List.mem_cons_of_mem _ member)
        exact append own (cons (by decide) (cons (by decide) later))
  induction doc with
  | null => exact null
  | bool value => exact bool value
  | int value => exact int value
  | float value => exact value.elim
  | str text => exact literal text (List.mem_singleton_self text)
  | arr items ih =>
    rw [render, render, renderItems_eq, renderItems_eq]
    refine append (cons (by decide) (joined items fun item member => ?_)) (mark ']' (by decide))
    refine ih item member fun text inside => literal text ?_
    rw [Doc.strings_arr]
    exact List.mem_flatMap.mpr ⟨item, member, inside⟩
  | obj entries ih =>
    rw [render, render, renderEntries_eq, renderEntries_eq]
    refine append (cons (by decide) (joined entries fun entry member => ?_)) (mark '}' (by decide))
    have strings {text : σ} (inside : text ∈ entry.1 :: entry.2.strings) : text ∈ (Doc.obj entries).strings := by
      rw [Doc.strings_obj]
      exact List.mem_flatMap.mpr ⟨entry, member, inside⟩
    refine append (literal entry.1 (strings (List.mem_cons_self ..))) (cons (by decide) (cons (by decide) ?_))
    exact ih entry member fun text inside => literal text (strings (List.mem_cons_of_mem _ inside))

end

end Json
