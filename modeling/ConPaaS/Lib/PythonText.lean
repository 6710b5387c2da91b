import ConPaaS.Lib.JsonReading
import Mathlib.Algebra.Group.Int.Defs

namespace Python

open Json (Doc Style Reading Reads render integer)

/-- A string of Python 2: Unicode text, or bytes. -/
structure PyString where
  unicode : Bool
  text : List Char
  bytes : unicode = false → ∀ c ∈ text, c.toNat < 0x100
  deriving DecidableEq

/-- A string of bytes. -/
def ofBytes (value : String) (known : (value.toList.all fun c => c.toNat < 0x100) = true) : PyString where
  unicode := false
  text := value.toList
  bytes := fun _ c member => of_decide_eq_true (List.all_eq_true.mp known c member)

/-- What equal strings have in common. A Unicode text and a string of bytes are
equal only in ASCII. -/
def PyString.value (string : PyString) : Bool × List Char :=
  (string.unicode && string.text.any fun c => 0x80 ≤ c.toNat, string.text)

/-- A number in digits to the base sixteen. -/
def hex2 (code : Nat) : List Char := [Nat.digitChar (code / 0x10 % 16), Nat.digitChar (code % 16)]

def hex4 (code : Nat) : List Char :=
  [Nat.digitChar (code / 0x1000 % 16), Nat.digitChar (code / 0x100 % 16), Nat.digitChar (code / 0x10 % 16),
    Nat.digitChar (code % 16)]

def hex8 (code : Nat) : List Char := hex4 (code / 0x10000) ++ hex4 (code % 0x10000)

/-- A character that is put as it is. -/
def printable (c : Char) : Bool := 0x20 ≤ c.toNat && c.toNat < 0x7f

/-- `repr` of one character of a string between some quotation marks. -/
def reprChar (quote c : Char) : List Char :=
  if c = quote ∨ c = '\\' then ['\\', c]
  else if c = '\t' then ['\\', 't']
  else if c = '\n' then ['\\', 'n']
  else if c = '\r' then ['\\', 'r']
  else if printable c then [c]
  else if c.toNat < 0x100 then '\\' :: 'x' :: hex2 c.toNat
  else if c.toNat < 0x10000 then '\\' :: 'u' :: hex4 c.toNat
  else '\\' :: 'U' :: hex8 c.toNat

/-- The quotation marks of a string: the double ones only if that saves a
backslash. -/
def reprQuote (text : List Char) : Char := if '\'' ∈ text ∧ '"' ∉ text then '"' else '\''

def reprString (string : PyString) : List Char :=
  (if string.unicode then ['u'] else []) ++ reprQuote string.text :: string.text.flatMap (reprChar (reprQuote string.text)) ++
    [reprQuote string.text]

/-- An integer that a machine word holds. Others are of another type, which
shows in their `repr`. -/
def isWord (value : Int) : Bool := -2 ^ 63 ≤ value && value < 2 ^ 63

/-- `repr` of structured data. -/
def reprStyle : Style PyString where
  literal := reprString
  null := ['N', 'o', 'n', 'e']
  bool := fun value => if value then ['T', 'r', 'u', 'e'] else ['F', 'a', 'l', 's', 'e']
  int := fun value => integer value ++ if isWord value then [] else ['L']

/-- One character of a string that `json.dumps` writes. Beyond the basic plane
a character has two codes. -/
def dumpChar (c : Char) : List Char :=
  if c = '"' ∨ c = '\\' then ['\\', c]
  else if c = '\x08' then ['\\', 'b']
  else if c = '\x0c' then ['\\', 'f']
  else if c = '\n' then ['\\', 'n']
  else if c = '\r' then ['\\', 'r']
  else if c = '\t' then ['\\', 't']
  else if 0x20 ≤ c.toNat ∧ c.toNat ≤ 0x7e then [c]
  else if c.toNat < 0x10000 then '\\' :: 'u' :: hex4 c.toNat
  else ('\\' :: 'u' :: hex4 (0xd800 + (c.toNat - 0x10000) / 0x400)) ++
    ('\\' :: 'u' :: hex4 (0xdc00 + (c.toNat - 0x10000) % 0x400))

/-- `json.dumps`. -/
def dumpStyle : Style (List Char) where
  literal := fun text => '"' :: text.flatMap dumpChar ++ ['"']
  null := "null".toList
  bool := fun value => if value then "true".toList else "false".toList
  int := integer

/-- `str.replace` from where a number of characters belong to a text that was
replaced. -/
def replaceFrom (old new : List Char) : Nat → List Char → List Char
  | _, [] => []
  | skip + 1, _ :: rest => replaceFrom old new skip rest
  | 0, c :: rest =>
    if old.isPrefixOf (c :: rest) then new ++ replaceFrom old new (old.length - 1) rest
    else c :: replaceFrom old new 0 rest

/-- `str.replace`. -/
def replace (old new text : List Char) : List Char := replaceFrom old new 0 text

theorem hexValue_digitChar {n : Nat} (bound : n < 16) : Json.hexValue (Nat.digitChar n) = some n := by
  have all : ∀ n < 16, Json.hexValue (Nat.digitChar n) = some n := by decide
  exact all n bound

theorem printable_digitChar {n : Nat} (bound : n < 16) : printable (Nat.digitChar n) = true := by
  have all : ∀ n < 16, printable (Nat.digitChar n) = true := by decide
  exact all n bound

theorem printable_hex4 {code : Nat} : ∀ c ∈ hex4 code, printable c = true := by
  intro c member
  simp only [hex4, List.mem_cons, List.not_mem_nil, or_false] at member
  rcases member with rfl | rfl | rfl | rfl <;> exact printable_digitChar (Nat.mod_lt _ (by decide))

theorem printable_hex2 {code : Nat} : ∀ c ∈ hex2 code, printable c = true := by
  intro c member
  simp only [hex2, List.mem_cons, List.not_mem_nil, or_false] at member
  rcases member with rfl | rfl <;> exact printable_digitChar (Nat.mod_lt _ (by decide))

theorem printable_hex8 {code : Nat} : ∀ c ∈ hex8 code, printable c = true := by
  intro c member
  exact (List.mem_append.mp member).elim (printable_hex4 c) (printable_hex4 c)

/-- The four digits of a code are read as the code. -/
theorem codeOf_hex4 {code : Nat} (bound : code < 0x10000) :
    Json.codeOf (Nat.digitChar (code / 0x1000 % 16)) (Nat.digitChar (code / 0x100 % 16)) (Nat.digitChar (code / 0x10 % 16))
      (Nat.digitChar (code % 16)) = some code := by
  have digit (n : Nat) : Json.hexValue (Nat.digitChar (n % 16)) = some (n % 16) := hexValue_digitChar (Nat.mod_lt _ (by decide))
  have whole : ((code / 0x1000 % 16 * 16 + code / 0x100 % 16) * 16 + code / 0x10 % 16) * 16 + code % 16 = code := by omega
  simp only [Json.codeOf, digit, whole]

theorem unescape_hex4 {code : Nat} (bound : code < 0x10000) (rest : List Char) :
    Json.unescape ('u' :: (hex4 code ++ rest)) = Json.ofCode code rest := by
  have parsed := codeOf_hex4 bound
  simp only [hex4, List.cons_append, List.nil_append, Json.unescape, parsed, Option.bind_some]

theorem code_valid (c : Char) : c.toNat < 0xd800 ∨ 0xdfff < c.toNat ∧ c.toNat < 0x110000 := c.valid

/-- A character of the basic plane is read from its code. -/
theorem ofCode_char {c : Char} (basic : c.toNat < 0x10000) (rest : List Char) : Json.ofCode c.toNat rest = some (c, rest) := by
  have valid := code_valid c
  have high : Json.isHigh c.toNat = false := by
    simp only [Json.isHigh, Bool.and_eq_false_iff, decide_eq_false_iff_not]
    omega
  have low : Json.isLow c.toNat = false := by
    simp only [Json.isLow, Bool.and_eq_false_iff, decide_eq_false_iff_not]
    omega
  simp only [Json.ofCode, high, low, Bool.false_eq_true, if_false, Char.ofNat_toNat]

/-- Another one is read from its two codes. -/
theorem ofCode_pair {c : Char} {first second : Nat} (high : Json.isHigh first = true) (low : Json.isLow second = true)
    (whole : 0x10000 + (first - 0xd800) * 0x400 + (second - 0xdc00) = c.toNat) (rest : List Char) :
    Json.ofCode first ('\\' :: 'u' :: (hex4 second ++ rest)) = some (c, rest) := by
  have parsed := @codeOf_hex4 second (by
    simp only [Json.isLow, Bool.and_eq_true, decide_eq_true_eq] at low
    omega)
  simp only [Json.ofCode, high, if_true, hex4, List.cons_append, List.nil_append, parsed, Option.bind_some, low, whole,
    Char.ofNat_toNat]

/-- The two codes of a character. -/
theorem dump_pair {n : Nat} (beyond : 0x10000 ≤ n) (valid : n < 0x110000) :
    Json.isHigh (0xd800 + (n - 0x10000) / 0x400) = true ∧ Json.isLow (0xdc00 + (n - 0x10000) % 0x400) = true ∧
      0x10000 + (0xd800 + (n - 0x10000) / 0x400 - 0xd800) * 0x400 + (0xdc00 + (n - 0x10000) % 0x400 - 0xdc00) = n := by
  simp only [Json.isHigh, Json.isLow, Bool.and_eq_true, decide_eq_true_eq]
  refine ⟨⟨?_, ?_⟩, ⟨?_, ?_⟩, ?_⟩ <;> omega

theorem dumpChar_ne (c : Char) : dumpChar c ≠ [] := by
  unfold dumpChar
  repeat' split
  all_goals exact List.cons_ne_nil _ _

/-- A reader takes from what `json.dumps` writes for a character the character. -/
theorem puts_dumpChar (c : Char) : Json.Puts (dumpChar c) c := by
  have valid := code_valid c
  unfold dumpChar
  split
  · rename_i mark
    rcases mark with rfl | rfl
    · exact Json.puts_escape fun _ => rfl
    · exact Json.puts_escape fun _ => rfl
  rename_i mark
  rw [not_or] at mark
  split
  · rename_i same
    exact same ▸ Json.puts_escape fun _ => rfl
  split
  · rename_i same
    exact same ▸ Json.puts_escape fun _ => rfl
  split
  · rename_i same
    exact same ▸ Json.puts_escape fun _ => rfl
  split
  · rename_i same
    exact same ▸ Json.puts_escape fun _ => rfl
  split
  · rename_i same
    exact same ▸ Json.puts_escape fun _ => rfl
  split
  · rename_i plain
    exact Json.puts_plain mark.1 mark.2 plain.1
  split
  · rename_i basic
    refine Json.puts_escape fun rest => ?_
    rw [List.cons_append, unescape_hex4 basic, ofCode_char basic]
  · rename_i beyond
    obtain ⟨high, low, whole⟩ := dump_pair (by omega : 0x10000 ≤ c.toNat) (by omega)
    rw [List.cons_append]
    refine Json.puts_escape fun rest => ?_
    have first : 0xd800 + (c.toNat - 0x10000) / 0x400 < 0x10000 := by omega
    rw [List.cons_append, List.cons_append, List.append_assoc, unescape_hex4 first, List.cons_append, List.cons_append, ofCode_pair high low whole]

/-- A reader gets back what `json.dumps` writes. -/
theorem reads_dump : Reads dumpStyle ⟨some, fun _ => true, true⟩ where
  literal := by
    intro text
    refine ⟨text.flatMap dumpChar ++ ['"'], rfl, fun fuel rest bound => ?_⟩
    rw [List.length_append, List.length_singleton] at bound
    rw [List.append_assoc, List.singleton_append,
      Json.parseString_put (fun c _ => puts_dumpChar c) (fun _ never => absurd never Bool.true_eq_false.mp) dumpChar_ne text (by omega)]
    simp
  null := ⟨'n', _, rfl, by decide, by decide, by decide, by decide, rfl⟩
  bool := fun value => by cases value <;> exact ⟨_, _, rfl, by decide, by decide, by decide, by decide, rfl⟩
  nullAtom := fun _ => rfl
  boolAtom := fun value _ => by cases value <;> rfl
  int := fun _ _ => rfl
  noInt := nofun

/-- `json.loads` of `json.dumps`. -/
theorem loads_dump {doc : Doc (List Char) Empty} (distinct : doc.Distinct id) :
    Json.loads (render dumpStyle doc) = some (doc.map id Empty.elim) := by
  rw [Json.loads_render reads_dump]
  refine Json.reading_map (fun part _ => ?_) (fun _ _ => rfl) distinct
  cases part <;> first | exact rfl | exact trivial

theorem printable_integer {value : Int} : ∀ c ∈ integer value, printable c = true := by
  intro c member
  rcases Json.integer_digit member with rfl | digit
  · rfl
  · simp only [Char.isDigit, Bool.and_eq_true, decide_eq_true_eq, UInt32.le_iff_toNat_le] at digit
    have low : 48 ≤ c.toNat := digit.1
    have high : c.toNat ≤ 57 := digit.2
    simp only [printable, Bool.and_eq_true, decide_eq_true_eq]
    omega

theorem printable_reprChar {quote : Char} (mark : printable quote = true) (c : Char) : ∀ d ∈ reprChar quote c, printable d = true := by
  unfold reprChar
  split
  · rename_i special
    refine List.forall_mem_cons.mpr ⟨rfl, List.forall_mem_singleton.mpr ?_⟩
    rcases special with rfl | rfl
    · exact mark
    · rfl
  split
  · exact List.all_eq_true.mp rfl
  split
  · exact List.all_eq_true.mp rfl
  split
  · exact List.all_eq_true.mp rfl
  split
  · rename_i plain
    exact List.forall_mem_singleton.mpr plain
  split
  · exact List.forall_mem_cons.mpr ⟨rfl, List.forall_mem_cons.mpr ⟨rfl, printable_hex2⟩⟩
  split
  · exact List.forall_mem_cons.mpr ⟨rfl, List.forall_mem_cons.mpr ⟨rfl, printable_hex4⟩⟩
  · exact List.forall_mem_cons.mpr ⟨rfl, List.forall_mem_cons.mpr ⟨rfl, printable_hex8⟩⟩

theorem printable_dumpChar (c : Char) : ∀ d ∈ dumpChar c, printable d = true := by
  have code (n : Nat) : ∀ d ∈ '\\' :: 'u' :: hex4 n, printable d = true :=
    List.forall_mem_cons.mpr ⟨rfl, List.forall_mem_cons.mpr ⟨rfl, printable_hex4⟩⟩
  unfold dumpChar
  split
  · rename_i special
    refine List.forall_mem_cons.mpr ⟨rfl, List.forall_mem_singleton.mpr ?_⟩
    rcases special with rfl | rfl <;> rfl
  split
  · exact List.all_eq_true.mp rfl
  split
  · exact List.all_eq_true.mp rfl
  split
  · exact List.all_eq_true.mp rfl
  split
  · exact List.all_eq_true.mp rfl
  split
  · exact List.all_eq_true.mp rfl
  split
  · rename_i plain
    refine List.forall_mem_singleton.mpr ?_
    simp only [printable, Bool.and_eq_true, decide_eq_true_eq]
    omega
  split
  · exact code _
  · exact fun d member => (List.mem_append.mp member).elim (code _ d) (code _ d)

/-- A text of characters that are put as they are. -/
theorem printable_render {σ : Type} {style : Style σ} (literal : ∀ text, ∀ c ∈ style.literal text, printable c = true)
    (null : ∀ c ∈ style.null, printable c = true) (bool : ∀ value, ∀ c ∈ style.bool value, printable c = true)
    (int : ∀ value, ∀ c ∈ style.int value, printable c = true) (doc : Doc σ Empty) :
    ∀ c ∈ render style doc, printable c = true := by
  refine Json.render_lift (fun text _ => ∀ c ∈ text, printable c = true) style nofun
    (fun first second c member => (List.mem_append.mp member).elim (first c) (second c)) ?_ (fun text _ => literal text) null bool int
  intro c member d same
  cases List.mem_singleton.mp same
  exact List.all_eq_true.mp (rfl : ['[', ']', '{', '}', ',', ':', ' '].all printable = true) c member

/-- `repr` writes such a text, whatever the strings are. -/
theorem printable_repr (doc : Doc PyString Empty) : ∀ c ∈ render reprStyle doc, printable c = true := by
  refine printable_render (fun string => ?_) (List.all_eq_true.mp rfl) (fun value => by cases value <;> exact List.all_eq_true.mp rfl) (fun value c member => ?_) doc
  · have quote : printable (reprQuote string.text) = true := by
      unfold reprQuote
      split <;> rfl
    have body : ∀ c ∈ string.text.flatMap (reprChar (reprQuote string.text)), printable c = true := by
      intro c member
      obtain ⟨own, -, inside⟩ := List.mem_flatMap.mp member
      exact printable_reprChar quote own c inside
    intro c member
    simp only [reprStyle, reprString, List.mem_append, List.mem_cons, List.not_mem_nil, or_false] at member
    rcases member with (start | rfl | inside) | rfl
    · split at start
      · cases List.mem_singleton.mp start
        rfl
      · cases start
    · exact quote
    · exact body c inside
    · exact quote
  · rcases List.mem_append.mp member with member | member
    · exact printable_integer c member
    · split at member
      · cases member
      · cases List.mem_singleton.mp member
        rfl

theorem printable_dump (doc : Doc (List Char) Empty) : ∀ c ∈ render dumpStyle doc, printable c = true := by
  refine printable_render (fun text => ?_) (List.all_eq_true.mp rfl) (fun value => by cases value <;> exact List.all_eq_true.mp rfl) (fun _ => printable_integer) doc
  intro c member
  simp only [dumpStyle, List.mem_append, List.mem_cons, List.not_mem_nil, or_false] at member
  rcases member with (rfl | inside) | rfl
  · rfl
  · obtain ⟨own, -, inside⟩ := List.mem_flatMap.mp inside
    exact printable_dumpChar own c inside
  · rfl

end Python
