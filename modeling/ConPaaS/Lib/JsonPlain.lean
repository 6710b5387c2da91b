import ConPaaS.Lib.JsonReading

/-! Strings that stand in a text as they are, and how long the text of a value
is at least. -/

namespace Json

/-- A text that can stand between quotation marks as it is. -/
def Plain (text : List Char) : Prop := ∀ c ∈ text, c ≠ '"' ∧ c ≠ '\\' ∧ 0x20 ≤ c.toNat

instance (text : List Char) : Decidable (Plain text) := List.decidableBAll _ text

section

variable {fuel : Nat} {text own rest more tail : List Char} {c : Char}

theorem plain_nil : Plain [] := List.forall_mem_nil _

theorem plain_cons : Plain (c :: text) ↔ (c ≠ '"' ∧ c ≠ '\\' ∧ 0x20 ≤ c.toNat) ∧ Plain text := List.forall_mem_cons

theorem Plain.newline_notMem (plain : Plain text) : '\n' ∉ text :=
  fun inside => absurd (plain '\n' inside).2.2 (by decide)

theorem parseString_plain (plain : Plain text) (enough : text.length < fuel) :
    parseString fuel (text ++ '"' :: rest) = some (text, rest) := by
  induction text generalizing fuel with
  | nil =>
    obtain ⟨fuel, rfl⟩ : ∃ n, fuel = n + 1 := ⟨fuel - 1, by simp at enough; omega⟩
    rfl
  | cons c text ih =>
    obtain ⟨fuel, rfl⟩ : ∃ n, fuel = n + 1 := ⟨fuel - 1, by simp at enough; omega⟩
    obtain ⟨⟨quote, backslash, visible⟩, plain⟩ := plain_cons.mp plain
    have later := ih plain (by simpa using enough)
    rw [List.cons_append, parseString, if_neg quote, if_neg backslash, if_neg (Nat.not_lt.mpr visible), later]
    rfl

theorem hexValue_quote : hexValue '"' = none := by decide

/-- The four digits of a code are no quotation marks. -/
theorem codeOf_digits {a b c d : Char} {code : Nat} (known : codeOf a b c d = some code) : '"' ∉ [a, b, c, d] := by
  unfold codeOf at known
  split at known
  · rename_i first second third fourth
    intro inside
    simp only [List.mem_cons, List.not_mem_nil, or_false] at inside
    rcases inside with rfl | rfl | rfl | rfl
    · exact nomatch hexValue_quote.symm.trans first
    · exact nomatch hexValue_quote.symm.trans second
    · exact nomatch hexValue_quote.symm.trans third
    · exact nomatch hexValue_quote.symm.trans fourth
  · cases known

/-- Of what an escape sequence takes only the first character may be a
quotation mark. -/
theorem unescape_used (read : unescape text = some (c, rest)) : ∃ first used, text = first :: (used ++ rest) ∧ '"' ∉ used := by
  unfold unescape at read
  split at read
  case h_9 a b c d after =>
    obtain ⟨code, known, taken⟩ := Option.bind_eq_some_iff.mp read
    have digits := codeOf_digits known
    unfold ofCode at taken
    split at taken
    · split at taken
      · rename_i a' b' c' d' after
        obtain ⟨low, second, taken⟩ := Option.bind_eq_some_iff.mp taken
        split at taken
        · obtain ⟨-, rfl⟩ := Prod.mk.inj (Option.some.inj taken)
          refine ⟨'u', [a, b, c, d] ++ ['\\', 'u'] ++ [a', b', c', d'], rfl, ?_⟩
          simp only [List.mem_append, not_or]
          exact ⟨⟨digits, by decide⟩, codeOf_digits second⟩
        · cases taken
      · cases taken
    · split at taken
      · cases taken
      · obtain ⟨-, rfl⟩ := Prod.mk.inj (Option.some.inj taken)
        exact ⟨'u', [a, b, c, d], rfl, digits⟩
  case h_10 => cases read
  all_goals
    cases read
    exact ⟨_, [], rfl, by simp⟩

/-- A quotation mark after an escape sequence is left to read, but right after
the backslash. -/
theorem unescape_split (read : unescape (text ++ '"' :: tail) = some (c, rest)) :
    text = [] ∧ c = '"' ∧ rest = tail ∨ ∃ first used after, text = first :: used ++ after ∧ rest = after ++ '"' :: tail := by
  obtain ⟨first, used, whole, quote⟩ := unescape_used read
  cases text with
  | nil =>
    cases read
    exact .inl ⟨rfl, rfl, rfl⟩
  | cons other text =>
    obtain ⟨rfl, split⟩ := List.cons.inj whole
    rcases List.append_eq_append_iff.mp split with ⟨after, rfl, same⟩ | ⟨after, rfl, same⟩
    · cases after with
      | nil => exact .inr ⟨other, text, [], by simp, by simpa using same.symm⟩
      | cons mark after =>
        obtain ⟨rfl, -⟩ := List.cons.inj same
        exact absurd (List.mem_append_right _ (List.mem_cons_self ..)) quote
    · exact .inr ⟨other, used, after, rfl, same⟩

/-- A string read from a text with a quotation mark behind it is the text, or is
shorter, or goes on behind the quotation mark, as the text ends with a backslash. -/
theorem parseString_ends (read : parseString fuel (text ++ '"' :: tail) = some (own, rest)) :
    Plain text ∧ own = text ∧ rest = tail ∨ own.length < text.length ∨
      ∃ fuel first last, text.getLast? = some '\\' ∧ own = first ++ '"' :: last ∧ parseString fuel tail = some (last, rest) := by
  induction fuel generalizing text own with
  | zero => cases read
  | succ fuel ih =>
    cases text with
    | nil =>
      cases read
      exact .inl ⟨plain_nil, rfl, rfl⟩
    | cons c text =>
      rw [List.cons_append, parseString] at read
      split at read
      · cases read
        exact .inr (.inl (Nat.succ_pos _))
      · rename_i quote
        split at read
        · rename_i backslash
          obtain ⟨⟨taken, after⟩, escaped, later⟩ := Option.bind_eq_some_iff.mp read
          obtain ⟨⟨others, end_⟩, parsed, same⟩ := Option.map_eq_some_iff.mp later
          cases same
          rcases unescape_split escaped with ⟨rfl, rfl, rfl⟩ | ⟨first, used, left, rfl, rfl⟩
          · exact .inr (.inr ⟨fuel, [], others, by rw [backslash]; rfl, rfl, parsed⟩)
          · rcases ih parsed with ⟨-, rfl, -⟩ | less | ⟨n, before, last, ends, rfl, onward⟩
            · refine .inr (.inl ?_)
              simp only [List.length_cons, List.length_append]
              omega
            · refine .inr (.inl ?_)
              simp only [List.length_cons, List.length_append]
              omega
            · refine .inr (.inr ⟨n, taken :: before, last, ?_, rfl, onward⟩)
              rw [List.getLast?_cons, List.getLast?_append, ends]
              rfl
        · rename_i backslash
          split at read
          · cases read
          · rename_i visible
            obtain ⟨⟨others, end_⟩, parsed, same⟩ := Option.map_eq_some_iff.mp read
            cases same
            rcases ih parsed with ⟨plain, rfl, rfl⟩ | less | ⟨n, before, last, ends, rfl, onward⟩
            · exact .inl ⟨plain_cons.mpr ⟨⟨quote, backslash, Nat.not_lt.mp visible⟩, plain⟩, rfl, rfl⟩
            · exact .inr (.inl (Nat.succ_lt_succ less))
            · exact .inr (.inr ⟨n, c :: before, last, by simp [List.getLast?_cons, ends], rfl, onward⟩)

/-- Whatever is read from a plain text with a quotation mark behind it is the text. -/
theorem parseString_of_plain (plain : Plain text) (read : parseString fuel (text ++ '"' :: tail) = some (own, rest)) :
    own = text ∧ rest = tail := by
  induction text generalizing fuel own with
  | nil =>
    cases fuel with
    | zero => cases read
    | succ fuel =>
      cases read
      exact ⟨rfl, rfl⟩
  | cons c text ih =>
    cases fuel with
    | zero => cases read
    | succ fuel =>
      obtain ⟨⟨quote, backslash, visible⟩, plain⟩ := plain_cons.mp plain
      rw [List.cons_append, parseString, if_neg quote, if_neg backslash, if_neg (Nat.not_lt.mpr visible)] at read
      obtain ⟨⟨others, end_⟩, parsed, same⟩ := Option.map_eq_some_iff.mp read
      cases same
      obtain ⟨rfl, rfl⟩ := ih plain parsed
      exact ⟨rfl, rfl⟩

/-- A text that is read as itself is plain, when what follows it up to the next
quotation mark is plain. -/
theorem parseString_whole {between : List Char} (plain : Plain between)
    (read : parseString fuel (text ++ '"' :: (between ++ '"' :: more)) = some (text, rest)) :
    Plain text ∧ rest = between ++ '"' :: more := by
  rcases parseString_ends read with ⟨own, -, same⟩ | less | ⟨n, first, last, ends, whole, onward⟩
  · exact ⟨own, same⟩
  · exact absurd less (Nat.lt_irrefl _)
  · obtain ⟨rfl, -⟩ := parseString_of_plain plain onward
    have inside : '\\' ∈ '"' :: last := by
      rw [whole, List.getLast?_append, List.getLast?_cons, Option.some_or] at ends
      rw [← Option.some.inj ends]
      cases end_ : last.getLast? with
      | none => exact List.mem_cons_self ..
      | some c => exact List.mem_cons_of_mem _ (List.mem_of_getLast? end_)
    rcases List.mem_cons.mp inside with quote | inside
    · cases quote
    · exact absurd rfl (plain _ inside).2.1

end

namespace Doc

variable {φ : Type}

mutual

/-- How long the text of a document is at least. -/
def least : Doc (List Char) φ → Nat
  | .str text => text.length + 2
  | .arr items => 1 + leastItems items
  | .obj entries => 1 + leastEntries entries
  | .null | .bool _ | .int _ | .float _ => 0

def leastItems : List (Doc (List Char) φ) → Nat
  | [] => 0
  | item :: rest => item.least + 1 + leastItems rest

def leastEntries : List (List Char × Doc (List Char) φ) → Nat
  | [] => 0
  | (key, value) :: rest => key.length + value.least + 4 + leastEntries rest

end

theorem leastEntries_sublist {left right : List (List Char × Doc (List Char) φ)} (sub : left.Sublist right) :
    leastEntries left ≤ leastEntries right := by
  induction sub with
  | slnil => rfl
  | cons entry _ ih =>
    rw [leastEntries]
    omega
  | cons_cons entry _ ih =>
    rw [leastEntries, leastEntries]
    omega

theorem leastEntries_mem {entries : List (List Char × Doc (List Char) φ)} {key : List Char} {value : Doc (List Char) φ}
    (member : (key, value) ∈ entries) : key.length + value.least + 4 ≤ leastEntries entries := by
  have sub := leastEntries_sublist (List.singleton_sublist.mpr member)
  rwa [leastEntries, leastEntries, Nat.add_zero] at sub

/-- Two entries with different keys. -/
theorem leastEntries_two {entries : List (List Char × Doc (List Char) φ)} {first second : List Char}
    {left right : Doc (List Char) φ} (apart : first ≠ second) (one : (first, left) ∈ entries) (other : (second, right) ∈ entries) :
    first.length + left.least + 4 + (second.length + right.least + 4) ≤ leastEntries entries := by
  induction entries with
  | nil => cases one
  | cons entry rest ih =>
    obtain ⟨key, value⟩ := entry
    rw [leastEntries]
    rcases List.mem_cons.mp one with same | before
    · cases same
      rcases List.mem_cons.mp other with same | after
      · cases same
        exact absurd rfl apart
      · have := leastEntries_mem after
        omega
    · rcases List.mem_cons.mp other with same | after
      · cases same
        have := leastEntries_mem before
        omega
      · have := ih before after
        omega

end Doc

section

open Doc

theorem Skips.length_le {text rest : List Char} (skips : Skips text rest) : rest.length ≤ text.length := by
  obtain ⟨skipped, rfl, -⟩ := skips
  simp

theorem parseString_length {fuel : Nat} {text own rest : List Char} (read : parseString fuel text = some (own, rest)) :
    rest.length + own.length + 1 ≤ text.length := by
  induction fuel generalizing text own with
  | zero => cases read
  | succ fuel ih =>
    cases text with
    | nil => cases read
    | cons c text =>
      rw [parseString] at read
      split at read
      · cases read
        simp
      · split at read
        · obtain ⟨⟨taken, after⟩, escaped, later⟩ := Option.bind_eq_some_iff.mp read
          obtain ⟨⟨others, end_⟩, parsed, same⟩ := Option.map_eq_some_iff.mp later
          cases same
          obtain ⟨first, used, rfl, -⟩ := unescape_used escaped
          have := ih parsed
          simp only [List.length_cons, List.length_append]
          omega
        · split at read
          · cases read
          · obtain ⟨⟨others, end_⟩, parsed, same⟩ := Option.map_eq_some_iff.mp read
            cases same
            have := ih parsed
            simp only [List.length_cons]
            omega

theorem least_parseUnsigned {sign text rest : List Char} {value : Value} (read : parseUnsigned sign text = some (value, rest)) :
    value.least = 0 := by
  obtain ⟨⟨first, after⟩, -, result⟩ := Option.map_eq_some_iff.mp read
  dsimp only at result
  split at result
  · cases result
    rfl
  · cases result
    rfl

theorem least_parseAtom {text rest : List Char} {value : Value} (read : parseAtom text = some (value, rest)) :
    value.least = 0 := by
  unfold parseAtom at read
  split at read
  case h_7 =>
    unfold parseNumber at read
    split at read
    · exact least_parseUnsigned read
    · exact least_parseUnsigned read
  all_goals
    cases read
    rfl

/-- What is read of a text is not longer than the text. -/
theorem least_nested (fuel : Nat) :
    (∀ {text value rest}, parseValue fuel text = some (value, rest) → rest.length + value.least ≤ text.length) ∧
    (∀ {text items rest}, parseItems fuel text = some (items, rest) → rest.length + leastItems items ≤ text.length) ∧
    ∀ {text entries rest}, parseEntries fuel text = some (entries, rest) → rest.length + leastEntries entries ≤ text.length := by
  induction fuel with
  | zero => exact ⟨by rintro _ _ _ ⟨⟩, by rintro _ _ _ ⟨⟩, by rintro _ _ _ ⟨⟩⟩
  | succ fuel ih =>
    obtain ⟨values, items, entries⟩ := ih
    have space (text : List Char) := (skips_space text).length_le
    refine ⟨?_, ?_, ?_⟩
    · intro text value rest read
      cases text with
      | nil => cases read
      | cons c text =>
        have skipped := space text
        rw [parseValue] at read
        rw [List.length_cons]
        split at read
        · obtain ⟨⟨own, after⟩, parsed, same⟩ := Option.map_eq_some_iff.mp read
          cases same
          have := parseString_length parsed
          rw [least]
          omega
        · split at read
          · split at read
            · rename_i empty
              cases read
              rw [empty, List.length_cons] at skipped
              rw [least, leastItems]
              omega
            · obtain ⟨⟨own, after⟩, parsed, same⟩ := Option.map_eq_some_iff.mp read
              cases same
              have := items parsed
              rw [least]
              omega
          · split at read
            · split at read
              · rename_i empty
                cases read
                rw [empty, List.length_cons] at skipped
                rw [least, leastEntries]
                omega
              · obtain ⟨⟨own, after⟩, parsed, same⟩ := Option.map_eq_some_iff.mp read
                cases same
                have := entries parsed
                have := leastEntries_sublist (dictOf_sublist own)
                rw [least]
                omega
            · rw [least_parseAtom read]
              exact (skips_parseAtom read).1.length_le
    · intro text own rest read
      rw [parseItems] at read
      split at read
      · cases read
      · rename_i item after parsed
        have := values parsed
        have skipped := space after
        split at read
        · rename_i more comma
          obtain ⟨⟨others, end_⟩, later, same⟩ := Option.map_eq_some_iff.mp read
          cases same
          have := items later
          have := space more
          rw [comma, List.length_cons] at skipped
          rw [leastItems]
          omega
        · rename_i closing
          cases read
          rw [closing, List.length_cons] at skipped
          rw [leastItems, leastItems]
          omega
        · cases read
    · intro text own rest read
      unfold parseEntries at read
      split at read
      · cases read
      · rename_i text same
        cases same
        split at read
        · cases read
        · rename_i key after named
          have := parseString_length named
          have colons := space after
          split at read
          · rename_i more colon
            have := space more
            rw [colon, List.length_cons] at colons
            split at read
            · cases read
            · rename_i value left parsed
              have := values parsed
              have skipped := space left
              split at read
              · rename_i more comma
                obtain ⟨⟨others, end_⟩, later, same⟩ := Option.map_eq_some_iff.mp read
                cases same
                have := entries later
                have := space more
                rw [comma, List.length_cons] at skipped
                rw [leastEntries, List.length_cons]
                omega
              · rename_i closing
                cases read
                rw [closing, List.length_cons] at skipped
                rw [leastEntries, leastEntries, List.length_cons]
                omega
              · cases read
          · cases read
      · cases read

end

section

variable {fuel : Nat} {key text left more rest : List Char} {value : Value} {entries others : List (List Char × Value)}

/-- A plain name and its colon. -/
theorem parseString_name (plain : Plain key) :
    parseString ((key ++ '"' :: ':' :: text).length + 1) (key ++ '"' :: ':' :: text) = some (key, ':' :: text) := by
  apply parseString_plain plain
  simp only [List.length_append, List.length_cons]
  omega

/-- An entry of an object that others follow. -/
theorem parseEntries_next (plain : Plain key) (first : parseValue fuel (skipSpace text) = some (value, left))
    (comma : skipSpace left = ',' :: more) :
    parseEntries (fuel + 1) ('"' :: (key ++ '"' :: ':' :: text)) =
      (parseEntries fuel (skipSpace more)).map fun (entries, rest) => ((key, value) :: entries, rest) := by
  simp only [parseEntries, parseString_name plain, skipSpace_cons (show isSpace ':' = false from rfl), first, comma]

/-- The last entry of an object. -/
theorem parseEntries_last (plain : Plain key) (only : parseValue fuel (skipSpace text) = some (value, left))
    (brace : skipSpace left = '}' :: rest) :
    parseEntries (fuel + 1) ('"' :: (key ++ '"' :: ':' :: text)) = some ([(key, value)], rest) := by
  simp only [parseEntries, parseString_name plain, skipSpace_cons (show isSpace ':' = false from rfl), only, brace]

/-- What a reader of entries reads after a plain key. -/
theorem parseEntries_cases (plain : Plain key) (read : parseEntries fuel ('"' :: (key ++ '"' :: ':' :: text)) = some (entries, rest)) :
    ∃ fuel value left others, parseValue fuel (skipSpace text) = some (value, left) ∧ entries = (key, value) :: others ∧
      (others = [] ∨ ∃ more, skipSpace left = ',' :: more ∧ parseEntries fuel (skipSpace more) = some (others, rest)) := by
  cases fuel with
  | zero => cases read
  | succ fuel =>
    simp only [parseEntries, parseString_name plain, skipSpace_cons (show isSpace ':' = false from rfl)] at read
    split at read
    · cases read
    · rename_i value left parsed
      split at read
      · rename_i more comma
        obtain ⟨⟨others, end_⟩, later, same⟩ := Option.map_eq_some_iff.mp read
        cases same
        exact ⟨fuel, value, left, others, parsed, rfl, .inr ⟨more, comma, later⟩⟩
      · cases read
        exact ⟨fuel, value, left, [], parsed, rfl, .inl rfl⟩
      · cases read

theorem parseValue_plain (plain : Plain text) : parseValue (fuel + 1) ('"' :: (text ++ '"' :: rest)) = some (.str text, rest) := by
  rw [parseValue, if_pos rfl, parseString_plain plain (by simp only [List.length_append, List.length_cons]; omega)]
  rfl

/-- What a reader of items reads. -/
theorem parseItems_cases {items : List Value} (read : parseItems fuel text = some (items, rest)) :
    ∃ fuel item left others, parseValue fuel text = some (item, left) ∧ items = item :: others ∧
      (others = [] ∨ ∃ more, skipSpace left = ',' :: more ∧ parseItems fuel (skipSpace more) = some (others, rest)) := by
  cases fuel with
  | zero => cases read
  | succ fuel =>
    rw [parseItems] at read
    split at read
    · cases read
    · rename_i item left parsed
      split at read
      · rename_i more comma
        obtain ⟨⟨others, end_⟩, later, same⟩ := Option.map_eq_some_iff.mp read
        cases same
        exact ⟨fuel, item, left, others, parsed, rfl, .inr ⟨more, comma, later⟩⟩
      · cases read
        exact ⟨fuel, item, left, [], parsed, rfl, .inl rfl⟩
      · cases read

theorem parseValue_string (read : parseValue fuel ('"' :: text) = some (value, rest)) :
    ∃ own, value = .str own ∧ parseString (text.length + 1) text = some (own, rest) := by
  cases fuel with
  | zero => cases read
  | succ fuel =>
    rw [parseValue, if_pos rfl] at read
    obtain ⟨⟨own, after⟩, parsed, same⟩ := Option.map_eq_some_iff.mp read
    cases same
    exact ⟨own, rfl, parsed⟩

/-- A document is read as an object of entries that its text has room for. -/
theorem least_loads {doc : Value} (read : loads text = some doc) : doc.least ≤ text.length := by
  unfold loads at read
  split at read
  · cases read
  · rename_i value rest parsed
    split at read
    · cases read
      have := (least_nested _).1 parsed
      have := (skips_space text).length_le
      omega
    · cases read

theorem mem_of_lookup {α : Type} {entries : List (List Char × α)} {key : List Char} {value : α}
    (found : entries.lookup key = some value) : (key, value) ∈ entries := by
  obtain ⟨before, after, rfl, -⟩ := List.lookup_eq_some_iff.mp found
  exact List.mem_append_right _ (List.mem_cons_self ..)

end

end Json
