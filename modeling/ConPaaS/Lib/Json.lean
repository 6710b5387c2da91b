import Mathlib.Data.List.Basic

namespace Json

/-- Structured data as it is written in a text, with strings in `σ` and numbers
that are no integers in `φ`. The entries of an object are in the order in which
they are enumerated. -/
inductive Doc (σ φ : Type)
  | null
  | bool (value : Bool)
  | int (value : Int)
  | float (value : φ)
  | str (value : σ)
  | arr (items : List (Doc σ φ))
  | obj (entries : List (σ × Doc σ φ))

/-- What a reader makes of a text: strings are characters, and a number that is
no integer is left as it is written. -/
abbrev Value := Doc (List Char) (List Char)

/-- The four digits of a code after `\u`. -/
def hexValue (digit : Char) : Option Nat :=
  if digit.isDigit then some (digit.toNat - 48)
  else if 'a' ≤ digit ∧ digit ≤ 'f' then some (digit.toNat - 87)
  else if 'A' ≤ digit ∧ digit ≤ 'F' then some (digit.toNat - 55)
  else none

def codeOf (a b c d : Char) : Option Nat :=
  match hexValue a, hexValue b, hexValue c, hexValue d with
  | some a, some b, some c, some d => some (((a * 16 + b) * 16 + c) * 16 + d)
  | _, _, _, _ => none

/-- The first of the two codes of a character beyond the basic plane. -/
def isHigh (code : Nat) : Bool := 0xd800 ≤ code && code ≤ 0xdbff

def isLow (code : Nat) : Bool := 0xdc00 ≤ code && code ≤ 0xdfff

/-- The character a code stands for. Two codes that belong together stand for
one character, and one of them alone for none. -/
def ofCode (code : Nat) (rest : List Char) : Option (Char × List Char) :=
  if isHigh code then
    match rest with
    | '\\' :: 'u' :: a :: b :: c :: d :: rest =>
      (codeOf a b c d).bind fun low =>
        if isLow low then some (Char.ofNat (0x10000 + (code - 0xd800) * 0x400 + (low - 0xdc00)), rest) else none
    | _ => none
  else if isLow code then none
  else some (Char.ofNat code, rest)

/-- The character an escape sequence stands for, read after its backslash. -/
def unescape : List Char → Option (Char × List Char)
  | '"' :: rest => some ('"', rest)
  | '\\' :: rest => some ('\\', rest)
  | '/' :: rest => some ('/', rest)
  | 'b' :: rest => some ('\x08', rest)
  | 'f' :: rest => some ('\x0c', rest)
  | 'n' :: rest => some ('\n', rest)
  | 'r' :: rest => some ('\r', rest)
  | 't' :: rest => some ('\t', rest)
  | 'u' :: a :: b :: c :: d :: rest => (codeOf a b c d).bind fun code => ofCode code rest
  | _ => none

/-- The rest of a string after its first quotation mark, for texts not longer
than the bound. -/
def parseString : Nat → List Char → Option (List Char × List Char)
  | 0, _ => none
  | _ + 1, [] => none
  | fuel + 1, c :: rest =>
    if c = '"' then some ([], rest)
    else if c = '\\' then
      (unescape rest).bind fun (c, rest) => (parseString fuel rest).map fun (text, rest) => (c :: text, rest)
    else if c.toNat < 0x20 then none
    else (parseString fuel rest).map fun (text, rest) => (c :: text, rest)

/-- The digits a text begins with. -/
def digits (text : List Char) : List Char × List Char := (text.takeWhile Char.isDigit, text.dropWhile Char.isDigit)

/-- The digits of an integer, of which none follow a zero at the beginning. -/
def parseDigits (text : List Char) : Option (List Char × List Char) :=
  match digits text with
  | ([], _) => none
  | ('0' :: more, rest) => some (['0'], more ++ rest)
  | (digits, rest) => some (digits, rest)

/-- A decimal part, which may be missing. -/
def parseFraction : List Char → List Char × List Char
  | '.' :: rest =>
    match digits rest with
    | ([], _) => ([], '.' :: rest)
    | (digits, rest) => ('.' :: digits, rest)
  | rest => ([], rest)

/-- The sign of an exponent. -/
def parseSign : List Char → List Char × List Char
  | '+' :: rest => (['+'], rest)
  | '-' :: rest => (['-'], rest)
  | rest => ([], rest)

/-- An exponent, which may be missing. -/
def parseExponent : List Char → List Char × List Char
  | [] => ([], [])
  | e :: rest =>
    if e = 'e' ∨ e = 'E' then
      match digits (parseSign rest).2 with
      | ([], _) => ([], e :: rest)
      | (digits, after) => (e :: (parseSign rest).1 ++ digits, after)
    else ([], e :: rest)

/-- A number after its sign. -/
def parseUnsigned (sign text : List Char) : Option (Value × List Char) :=
  (parseDigits text).map fun (digits, rest) =>
    let (fraction, rest) := parseFraction rest
    let (exponent, rest) := parseExponent rest
    if fraction = [] ∧ exponent = [] then
      let value : Int := Nat.ofDigitChars 10 digits 0
      (.int (if sign = [] then value else -value), rest)
    else (.float (sign ++ digits ++ fraction ++ exponent), rest)

def parseNumber : List Char → Option (Value × List Char)
  | '-' :: rest => parseUnsigned ['-'] rest
  | text => parseUnsigned [] text

def isSpace (c : Char) : Bool := c = ' ' || c = '\t' || c = '\n' || c = '\r'

def skipSpace (text : List Char) : List Char := text.dropWhile isSpace

/-- A dictionary of some entries: a later entry takes the place of an earlier
one with its key. -/
def dictOf {σ α : Type} [DecidableEq σ] (entries : List (σ × α)) : List (σ × α) :=
  entries.foldl (fun dict entry => dict.filter (fun other => other.1 ≠ entry.1) ++ [entry]) []

mutual

/-- A value at the beginning of a text and what comes after it, for values that
are not nested deeper than the bound. -/
def parseValue : Nat → List Char → Option (Value × List Char)
  | 0, _ => none
  | _ + 1, [] => none
  | fuel + 1, c :: rest =>
    if c = '"' then (parseString (rest.length + 1) rest).map fun (text, rest) => (.str text, rest)
    else if c = '[' then
      match skipSpace rest with
      | ']' :: rest => some (.arr [], rest)
      | rest => (parseItems fuel rest).map fun (items, rest) => (.arr items, rest)
    else if c = '{' then
      match skipSpace rest with
      | '}' :: rest => some (.obj [], rest)
      | rest => (parseEntries fuel rest).map fun (entries, rest) => (.obj (dictOf entries), rest)
    else parseAtom (c :: rest)

/-- The items of an array from one of them on. -/
def parseItems : Nat → List Char → Option (List Value × List Char)
  | 0, _ => none
  | fuel + 1, text =>
    match parseValue fuel text with
    | none => none
    | some (item, rest) =>
      match skipSpace rest with
      | ',' :: rest => (parseItems fuel (skipSpace rest)).map fun (items, rest) => (item :: items, rest)
      | ']' :: rest => some ([item], rest)
      | _ => none

/-- The entries of an object from one of them on. -/
def parseEntries : Nat → List Char → Option (List (List Char × Value) × List Char)
  | 0, _ => none
  | fuel + 1, '"' :: text =>
    match parseString (text.length + 1) text with
    | none => none
    | some (key, rest) =>
      match skipSpace rest with
      | ':' :: rest =>
        match parseValue fuel (skipSpace rest) with
        | none => none
        | some (value, rest) =>
          match skipSpace rest with
          | ',' :: rest => (parseEntries fuel (skipSpace rest)).map fun (entries, rest) => ((key, value) :: entries, rest)
          | '}' :: rest => some ([(key, value)], rest)
          | _ => none
      | _ => none
  | _ + 1, _ => none

/-- The constants and the numbers. -/
def parseAtom : List Char → Option (Value × List Char)
  | 'n' :: 'u' :: 'l' :: 'l' :: rest => some (.null, rest)
  | 't' :: 'r' :: 'u' :: 'e' :: rest => some (.bool true, rest)
  | 'f' :: 'a' :: 'l' :: 's' :: 'e' :: rest => some (.bool false, rest)
  | 'N' :: 'a' :: 'N' :: rest => some (.float "NaN".toList, rest)
  | 'I' :: 'n' :: 'f' :: 'i' :: 'n' :: 'i' :: 't' :: 'y' :: rest => some (.float "Infinity".toList, rest)
  | '-' :: 'I' :: 'n' :: 'f' :: 'i' :: 'n' :: 'i' :: 't' :: 'y' :: rest => some (.float "-Infinity".toList, rest)
  | text => parseNumber text

end

/-- The value a text consists of. -/
def loads (text : List Char) : Option Value :=
  match parseValue (text.length + 1) (skipSpace text) with
  | none => none
  | some (value, rest) => if skipSpace rest = [] then some value else none

namespace Doc

variable {σ τ φ ψ : Type}

/-- What holds of a document when it holds of its parts. -/
@[induction_eliminator]
theorem induct {motive : Doc σ φ → Prop} (null : motive .null) (bool : ∀ value, motive (.bool value))
    (int : ∀ value, motive (.int value)) (float : ∀ value, motive (.float value)) (str : ∀ value, motive (.str value))
    (arr : ∀ items, (∀ item ∈ items, motive item) → motive (.arr items))
    (obj : ∀ entries, (∀ entry ∈ entries, motive entry.2) → motive (.obj entries)) (doc : Doc σ φ) : motive doc :=
  @Doc.rec σ φ motive (fun items => ∀ item ∈ items, motive item) (fun entries => ∀ entry ∈ entries, motive entry.2)
    (fun entry => motive entry.2) null bool int float str arr obj nofun
    (fun _ _ head tail => List.forall_mem_cons.mpr ⟨head, tail⟩) nofun
    (fun _ _ head tail => List.forall_mem_cons.mpr ⟨head, tail⟩) (fun _ _ value => value) doc

mutual

/-- All strings, keys included, in the order in which they are enumerated. -/
def strings : Doc σ φ → List σ
  | .str text => [text]
  | .arr items => itemStrings items
  | .obj entries => entryStrings entries
  | .null | .bool _ | .int _ | .float _ => []

def itemStrings : List (Doc σ φ) → List σ
  | [] => []
  | item :: rest => item.strings ++ itemStrings rest

def entryStrings : List (σ × Doc σ φ) → List σ
  | [] => []
  | (key, value) :: rest => key :: value.strings ++ entryStrings rest

end

mutual

/-- The document with other strings and numbers. -/
def map (f : σ → τ) (g : φ → ψ) : Doc σ φ → Doc τ ψ
  | .null => .null
  | .bool value => .bool value
  | .int value => .int value
  | .float value => .float (g value)
  | .str text => .str (f text)
  | .arr items => .arr (mapItems f g items)
  | .obj entries => .obj (mapEntries f g entries)

def mapItems (f : σ → τ) (g : φ → ψ) : List (Doc σ φ) → List (Doc τ ψ)
  | [] => []
  | item :: rest => item.map f g :: mapItems f g rest

def mapEntries (f : σ → τ) (g : φ → ψ) : List (σ × Doc σ φ) → List (τ × Doc τ ψ)
  | [] => []
  | (key, value) :: rest => (f key, value.map f g) :: mapEntries f g rest

end

theorem itemStrings_eq (items : List (Doc σ φ)) : itemStrings items = items.flatMap strings := by
  induction items with
  | nil => rfl
  | cons item rest ih => rw [itemStrings, ih, List.flatMap_cons]

theorem entryStrings_eq (entries : List (σ × Doc σ φ)) :
    entryStrings entries = entries.flatMap fun entry => entry.1 :: entry.2.strings := by
  induction entries with
  | nil => rfl
  | cons entry rest ih => rw [entryStrings, ih, List.flatMap_cons]

theorem mapItems_eq (f : σ → τ) (g : φ → ψ) (items : List (Doc σ φ)) : mapItems f g items = items.map (map f g) := by
  induction items with
  | nil => rfl
  | cons item rest ih => rw [mapItems, ih, List.map_cons]

theorem mapEntries_eq (f : σ → τ) (g : φ → ψ) (entries : List (σ × Doc σ φ)) :
    mapEntries f g entries = entries.map fun entry => (f entry.1, entry.2.map f g) := by
  induction entries with
  | nil => rfl
  | cons entry rest ih => rw [mapEntries, ih, List.map_cons]

theorem strings_arr (items : List (Doc σ φ)) : (arr items).strings = items.flatMap strings := itemStrings_eq items

theorem strings_obj (entries : List (σ × Doc σ φ)) :
    (obj entries).strings = entries.flatMap fun entry => entry.1 :: entry.2.strings := entryStrings_eq entries

theorem map_arr (f : σ → τ) (g : φ → ψ) (items : List (Doc σ φ)) : (arr items).map f g = .arr (items.map (map f g)) :=
  congrArg Doc.arr (mapItems_eq f g items)

theorem map_obj (f : σ → τ) (g : φ → ψ) (entries : List (σ × Doc σ φ)) :
    (obj entries).map f g = .obj (entries.map fun entry => (f entry.1, entry.2.map f g)) :=
  congrArg Doc.obj (mapEntries_eq f g entries)

theorem strings_map (f : σ → τ) (g : φ → ψ) (doc : Doc σ φ) : (doc.map f g).strings = doc.strings.map f := by
  induction doc with
  | null | bool | int | float | str => rfl
  | arr items ih =>
    simp only [map_arr, strings_arr, List.flatMap_map, List.map_flatMap]
    exact List.flatMap_congr ih
  | obj entries ih =>
    simp only [map_obj, strings_obj, List.flatMap_map, List.map_flatMap]
    exact List.flatMap_congr fun entry member => by rw [ih entry member, List.map_cons]

/-- Two changes that agree on the strings of a document make one document. -/
theorem map_congr {f f' : σ → τ} (g : φ → ψ) {doc : Doc σ φ} (same : ∀ text ∈ doc.strings, f text = f' text) :
    doc.map f g = doc.map f' g := by
  induction doc with
  | null | bool | int | float => rfl
  | str text => exact congrArg Doc.str (same text (List.mem_singleton_self text))
  | arr items ih =>
    rw [strings_arr] at same
    rw [map_arr, map_arr]
    congr 1
    refine List.map_congr_left fun item member => ih item member fun text inside => ?_
    exact same text (List.mem_flatMap.mpr ⟨item, member, inside⟩)
  | obj entries ih =>
    rw [strings_obj] at same
    rw [map_obj, map_obj]
    congr 1
    refine List.map_congr_left fun entry member => ?_
    have inside (text : σ) (among : text ∈ entry.1 :: entry.2.strings) : f text = f' text :=
      same text (List.mem_flatMap.mpr ⟨entry, member, among⟩)
    rw [inside entry.1 (List.mem_cons_self ..), ih entry member fun text among => inside text (List.mem_cons_of_mem _ among)]

mutual

/-- Two documents with the same values, where entries of an object may be
enumerated in another order. -/
inductive Same : Doc σ φ → Doc σ φ → Prop
  | refl (doc) : Same doc doc
  | arr {left right} : SameItems left right → Same (.arr left) (.arr right)
  | obj {left right} : SameEntries left right → Same (.obj left) (.obj right)

inductive SameItems : List (Doc σ φ) → List (Doc σ φ) → Prop
  | nil : SameItems [] []
  | cons {left right lefts rights} : Same left right → SameItems lefts rights → SameItems (left :: lefts) (right :: rights)

inductive SameEntries : List (σ × Doc σ φ) → List (σ × Doc σ φ) → Prop
  | nil : SameEntries [] []
  | cons {key left right lefts rights} : Same left right → SameEntries lefts rights →
      SameEntries ((key, left) :: lefts) ((key, right) :: rights)
  | swap (first second rest) : SameEntries (first :: second :: rest) (second :: first :: rest)
  | trans {left middle right} : SameEntries left middle → SameEntries middle right → SameEntries left right

end

mutual

/-- Such documents have the same strings. -/
theorem Same.strings {left right : Doc σ φ} : Same left right → left.strings.Perm right.strings
  | .refl _ => .refl _
  | .arr items => items.strings
  | .obj entries => entries.strings

theorem SameItems.strings {left right : List (Doc σ φ)} : SameItems left right → (itemStrings left).Perm (itemStrings right)
  | .nil => .refl _
  | .cons head tail => head.strings.append tail.strings

theorem SameEntries.strings {left right : List (σ × Doc σ φ)} :
    SameEntries left right → (entryStrings left).Perm (entryStrings right)
  | .nil => .refl _
  | .cons head tail => (head.strings.append tail.strings).cons _
  | .swap (a, first) (b, second) rest => by
    simp only [entryStrings, ← List.append_assoc]
    exact List.perm_append_comm.append_right _
  | .trans first second => first.strings.trans second.strings

end

end Doc

end Json
