import ConPaaS.Lib.Json
import Mathlib.Data.List.DropRight

/-! The parts of a URL and the parameters in its query, as strings of bytes. A
byte is written as the character with its code. -/

namespace QueryString

/-- A character that stands for itself in a query. -/
def isSafe (c : Char) : Bool := c.isAlphanum || c = '_' || c = '.' || c = '-'

def hexDigit (n : Nat) : Char := if n < 10 then Char.ofNat (0x30 + n) else Char.ofNat (0x37 + n)

def quoteChar (c : Char) : List Char :=
  if isSafe c then [c]
  else if c = ' ' then ['+']
  else ['%', hexDigit (c.toNat / 0x10), hexDigit (c.toNat % 0x10)]

/-- `quote_plus` -/
def quotePlus (text : List Char) : List Char := text.flatMap quoteChar

/-- `urlencode` of parameters in the order in which they are enumerated. -/
def urlencode (entries : List (List Char × List Char)) : List Char :=
  ['&'].intercalate (entries.map fun entry => quotePlus entry.1 ++ '=' :: quotePlus entry.2)

/-- `unquote`. A `%` without two digits after it stays. -/
def unquote : List Char → List Char
  | '%' :: a :: b :: rest =>
    match Json.hexValue a, Json.hexValue b with
    | some high, some low => Char.ofNat (high * 0x10 + low) :: unquote rest
    | _, _ => '%' :: unquote (a :: b :: rest)
  | c :: rest => c :: unquote rest
  | [] => []

/-- The name or the value of a parameter as it is read. -/
def unquotePlus (text : List Char) : List Char := unquote (text.map fun c => if c = '+' then ' ' else c)

/-- A parameter in a part of a query. One without a value is left out. -/
def parsePair (part : List Char) : Option (List Char × List Char) :=
  match part.dropWhile (· ≠ '=') with
  | _ :: c :: value => some (unquotePlus (part.takeWhile (· ≠ '=')), unquotePlus (c :: value))
  | _ => none

/-- `parse_qsl` -/
def parseQsl (query : List Char) : List (List Char × List Char) :=
  ((query.splitOn '&').flatMap fun part => part.splitOn ';').filterMap parsePair

def isSchemeChar (c : Char) : Bool := c.isAlphanum || c = '+' || c = '-' || c = '.'

/-- The schemes whose paths may have parameters. -/
def usesParams : List (List Char) :=
  ["", "ftp", "hdl", "prospero", "http", "imap", "https", "shttp", "rtsp", "rtspu", "sip", "sips", "mms", "sftp", "tel"].map
    String.toList

/-- The scheme of a URL and what comes after it. Digits after the colon are
taken for a port. -/
def splitScheme (url : List Char) : List Char × List Char :=
  match url.takeWhile (· ≠ ':'), url.dropWhile (· ≠ ':') with
  | c :: name, _ :: rest =>
    if c :: name = "http".toList ∨ (c :: name).all isSchemeChar = true ∧ (rest = [] ∨ rest.all Char.isDigit = false) then
      ((c :: name).map Char.toLower, rest)
    else ([], url)
  | _, _ => ([], url)

/-- The host in a URL and what comes after it. -/
def splitNetloc : List Char → List Char × List Char
  | '/' :: '/' :: rest => (rest.takeWhile (· ∉ ['/', '?', '#']), rest.dropWhile (· ∉ ['/', '?', '#']))
  | url => ([], url)

/-- `_splitparams`: a path without the parameters of its last part. -/
def splitParams (path : List Char) : List Char :=
  path.rdropWhile (· ≠ '/') ++ (path.rtakeWhile (· ≠ '/')).takeWhile (· ≠ ';')

/-- `urlparse`: the path and the query of a URL. It raises where a host has only
one of two brackets. -/
def urlparse (url : List Char) : Option (List Char × List Char) :=
  let (scheme, url) := splitScheme url
  let (netloc, url) := splitNetloc url
  if ('[' ∈ netloc) ↔ (']' ∈ netloc) then
    let url := url.takeWhile (· ≠ '#')
    let path := url.takeWhile (· ≠ '?')
    some (if usesParams.contains scheme then splitParams path else path, (url.dropWhile (· ≠ '?')).tail)
  else none

/-- A string of bytes. -/
def Bytes (text : List Char) : Prop := ∀ c ∈ text, c.toNat < 0x100

variable {c : Char} {text rest : List Char} {n : Nat}

theorem bytes_of_ascii (ascii : ∀ c ∈ text, c.toNat < 0x80) : Bytes text :=
  fun c member => Nat.lt_trans (ascii c member) (by decide)

/-- What the characters of a quoted text are. -/
def isQuoted (c : Char) : Bool := isSafe c || c = '+' || c = '%'

theorem hexDigit_spec (bound : n < 16) : isSafe (hexDigit n) = true ∧ hexDigit n ≠ '+' ∧ Json.hexValue (hexDigit n) = some n := by
  have all : ∀ n < 16, isSafe (hexDigit n) = true ∧ hexDigit n ≠ '+' ∧ Json.hexValue (hexDigit n) = some n := by decide
  exact all n bound

theorem quoteChar_quoted (byte : c.toNat < 0x100) : ∀ d ∈ quoteChar c, isQuoted d = true := by
  unfold quoteChar
  split
  · rename_i safe
    simp [isQuoted, safe]
  · split
    · simp [isQuoted]
    · have high := (hexDigit_spec (by omega : c.toNat / 0x10 < 16)).1
      have low := (hexDigit_spec (by omega : c.toNat % 0x10 < 16)).1
      simp [isQuoted, high, low]

theorem quotePlus_quoted (bytes : Bytes text) : ∀ c ∈ quotePlus text, isQuoted c = true := by
  intro c member
  obtain ⟨d, inside, quoted⟩ := List.mem_flatMap.mp member
  exact quoteChar_quoted (bytes d inside) c quoted

theorem quoteChar_ne (c : Char) : quoteChar c ≠ [] := by
  unfold quoteChar
  split
  · simp
  · split <;> simp

theorem quotePlus_eq_nil : quotePlus text = [] ↔ text = [] := by
  cases text with
  | nil => simp [quotePlus]
  | cons c rest => simp [quotePlus, quoteChar_ne]

theorem unquote_cons (plain : c ≠ '%') (rest : List Char) : unquote (c :: rest) = c :: unquote rest := by
  rw [unquote]
  intro a b more same
  cases same
  exact absurd rfl plain

/-- What is read of a quoted byte. -/
theorem unquote_quoteChar (byte : c.toNat < 0x100) (rest : List Char) :
    unquotePlus (quoteChar c ++ rest) = c :: unquotePlus rest := by
  unfold quoteChar
  split
  · rename_i safe
    have plus : c ≠ '+' := by rintro rfl; exact absurd safe (by decide)
    have percent : c ≠ '%' := by rintro rfl; exact absurd safe (by decide)
    rw [unquotePlus, List.singleton_append, List.map_cons, if_neg plus, unquote_cons percent, unquotePlus]
  · split
    · rename_i space
      subst space
      rw [unquotePlus, List.singleton_append, List.map_cons, if_pos rfl, unquote_cons (by decide), unquotePlus]
    · obtain ⟨-, high, readHigh⟩ := hexDigit_spec (by omega : c.toNat / 0x10 < 16)
      obtain ⟨-, low, readLow⟩ := hexDigit_spec (by omega : c.toNat % 0x10 < 16)
      have whole : Char.ofNat (c.toNat / 0x10 * 0x10 + c.toNat % 0x10) = c := by
        rw [Nat.div_add_mod', Char.ofNat_toNat]
      simp only [unquotePlus, List.cons_append, List.nil_append, List.map_cons, if_neg high, if_neg low,
        if_neg (by decide : ('%' : Char) ≠ '+'), unquote, readHigh, readLow, whole]

/-- `unquote` takes back what `quote_plus` has done. -/
theorem unquotePlus_quotePlus (bytes : Bytes text) : unquotePlus (quotePlus text) = text := by
  induction text with
  | nil => rfl
  | cons c rest ih =>
    obtain ⟨byte, bytes⟩ := List.forall_mem_cons.mp bytes
    rw [quotePlus, List.flatMap_cons, unquote_quoteChar byte]
    exact congrArg (c :: ·) (ih bytes)

theorem notMem_quotePlus (bytes : Bytes text) (apart : isQuoted c = false) : c ∉ quotePlus text := fun member =>
  absurd ((quotePlus_quoted bytes c member).symm.trans apart) Bool.noConfusion

/-- A parameter is read as it was written, unless its value is empty. -/
theorem parsePair_quoted {name value : List Char} (named : Bytes name) (valued : Bytes value) :
    parsePair (quotePlus name ++ '=' :: quotePlus value) = if value = [] then none else some (name, value) := by
  have apart : ∀ c ∈ quotePlus name, decide (c ≠ '=') = true := fun c member =>
    decide_eq_true (by rintro rfl; exact notMem_quotePlus named (by decide) member)
  unfold parsePair
  rw [List.dropWhile_append_of_pos apart, List.takeWhile_append_of_pos apart, List.dropWhile_cons_of_neg (by simp),
    List.takeWhile_cons_of_neg (by simp), List.append_nil, unquotePlus_quotePlus named]
  have read := unquotePlus_quotePlus valued
  cases quoted : quotePlus value with
  | nil => rw [if_pos (quotePlus_eq_nil.mp quoted)]
  | cons c rest =>
    have filled : value ≠ [] := by
      rintro rfl
      cases quoted
    rw [quoted] at read
    rw [if_neg filled]
    exact congrArg (fun value => some (name, value)) read

/-- A query gives back the parameters that were encoded, but for those with an
empty value. -/
theorem parseQsl_urlencode {entries : List (List Char × List Char)}
    (bytes : ∀ entry ∈ entries, Bytes entry.1 ∧ Bytes entry.2) :
    parseQsl (urlencode entries) = entries.filter fun entry => entry.2 ≠ [] := by
  have part (entry : List Char × List Char) (member : entry ∈ entries) (c : Char) (apart : isQuoted c = false) (other : c ≠ '=') :
      c ∉ quotePlus entry.1 ++ '=' :: quotePlus entry.2 := by
    rw [List.mem_append, List.mem_cons, not_or, not_or]
    exact ⟨notMem_quotePlus (bytes entry member).1 apart, other, notMem_quotePlus (bytes entry member).2 apart⟩
  have parts : (['&'].intercalate (entries.map fun entry => quotePlus entry.1 ++ '=' :: quotePlus entry.2)).splitOn '&' =
      (if entries = [] then [[]] else entries.map fun entry => quotePlus entry.1 ++ '=' :: quotePlus entry.2) := by
    split
    · rename_i empty
      rw [empty]
      rfl
    · rename_i filled
      refine List.splitOn_intercalate '&' ?_ (by simpa using filled)
      rintro written member
      obtain ⟨entry, inside, rfl⟩ := List.mem_map.mp member
      exact part entry inside '&' (by decide) (by decide)
  rw [parseQsl, urlencode, parts]
  split
  · rename_i empty
    rw [empty]
    rfl
  · have whole : (entries.map fun entry => quotePlus entry.1 ++ '=' :: quotePlus entry.2).flatMap (fun part => part.splitOn ';') =
        entries.map fun entry => quotePlus entry.1 ++ '=' :: quotePlus entry.2 := by
      rw [List.flatMap_map, List.map_eq_flatMap]
      exact List.flatMap_congr fun entry member => List.splitOn_eq_singleton (part entry member ';' (by decide) (by decide))
    rw [whole, List.filterMap_map, ← List.filterMap_eq_filter]
    refine List.filterMap_congr fun entry member => ?_
    rw [Function.comp_apply, parsePair_quoted (bytes entry member).1 (bytes entry member).2, Option.guard]
    by_cases empty : entry.2 = [] <;> simp [empty]

theorem mem_intercalate {parts : List (List Char)} {separator : List Char} (member : c ∈ separator.intercalate parts) :
    c ∈ separator ∨ ∃ part ∈ parts, c ∈ part := by
  induction parts with
  | nil => cases member
  | cons part rest ih =>
    cases rest with
    | nil =>
      rw [List.intercalate_singleton] at member
      exact Or.inr ⟨part, List.mem_singleton_self part, member⟩
    | cons next rest =>
      rw [List.intercalate_cons_cons, List.mem_append, List.mem_append] at member
      rcases member with (here | between) | later
      · exact Or.inr ⟨part, List.mem_cons_self .., here⟩
      · exact Or.inl between
      · exact (ih later).imp_right fun ⟨other, inside, here⟩ => ⟨other, List.mem_cons_of_mem _ inside, here⟩

theorem notMem_urlencode {entries : List (List Char × List Char)} (bytes : ∀ entry ∈ entries, Bytes entry.1 ∧ Bytes entry.2)
    (apart : isQuoted c = false) (equals : c ≠ '=') (ampersand : c ≠ '&') : c ∉ urlencode entries := by
  intro member
  rcases mem_intercalate member with between | ⟨part, inside, here⟩
  · exact ampersand (List.mem_singleton.mp between)
  · obtain ⟨entry, among, rfl⟩ := List.mem_map.mp inside
    obtain ⟨name, value⟩ := bytes entry among
    rcases List.mem_append.mp here with early | late
    · exact notMem_quotePlus name apart early
    · rcases List.mem_cons.mp late with sign | late
      · exact equals sign
      · exact notMem_quotePlus value apart late

theorem splitScheme_slash (url : List Char) : splitScheme ('/' :: url) = ([], '/' :: url) := by
  have apart : ¬ ('/' :: url.takeWhile (· ≠ ':') = "http".toList) := fun same => absurd (List.cons.inj same).1 (by decide)
  have named : ('/' :: url.takeWhile (· ≠ ':')).all isSchemeChar = false := rfl
  unfold splitScheme
  rw [List.takeWhile_cons_of_pos (by decide), List.dropWhile_cons_of_pos (by decide)]
  split
  · rename_i same _
    obtain ⟨rfl, rfl⟩ := List.cons.inj same
    rw [if_neg]
    rintro (http | ⟨scheme, -⟩)
    · exact apart http
    · exact Bool.false_ne_true (named.symm.trans scheme)
  · rfl

/-- The parts of a URL that has a query after the root. -/
theorem urlparse_root {query : List Char} (whole : '#' ∉ query) : urlparse ('/' :: '?' :: query) = some (['/'], query) := by
  have fragment : ('/' :: '?' :: query).takeWhile (· ≠ '#') = '/' :: '?' :: query :=
    List.takeWhile_eq_self_iff.mpr fun c member => by
      rw [decide_eq_true_eq]
      rintro rfl
      simp [whole] at member
  have netloc : splitNetloc ('/' :: '?' :: query) = ([], '/' :: '?' :: query) := rfl
  simp only [urlparse, splitScheme_slash, netloc]
  rw [fragment, if_pos (by simp), if_pos (by decide)]
  rfl

end QueryString
