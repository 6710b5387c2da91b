import ConPaaS.Lib.PythonText
import ConPaaS.Core.Node
import Mathlib.Algebra.GroupWithZero.Nat
import Mathlib.Algebra.Order.BigOperators.Group.List
import Mathlib.Algebra.Order.Group.Nat
import Mathlib.Data.List.Nodup

namespace ConPaaS

open Json Python

/-- The description of a node that a manager asks for, a dictionary with the
cloud of the node among its entries. -/
structure NodeDescription where
  entries : List (PyString × Doc PyString Empty)
  distinct : (Doc.obj entries).Distinct PyString.value
  cloud : ∃ entry ∈ entries, entry.1.text = "cloud".toList

/-- What Python takes for false. -/
def falsy : Doc PyString Empty → Bool
  | .null => true
  | .bool value => !value
  | .int value => value = 0
  | .float value => value.elim
  | .str string => string.text.isEmpty
  | .arr items => items.isEmpty
  | .obj entries => entries.isEmpty

def defaultCloud : PyString := ofBytes "default" rfl

/-- An entry once the cloud is set if it was not. -/
def withCloud (entry : PyString × Doc PyString Empty) : PyString × Doc PyString Empty :=
  if entry.1.text = "cloud".toList ∧ falsy entry.2 then (entry.1, .str defaultCloud) else entry

theorem withCloud_key (entry : PyString × Doc PyString Empty) : (withCloud entry).1 = entry.1 := by
  unfold withCloud
  split <;> rfl

/-- The description a manager sends. -/
def NodeDescription.setCloud (info : NodeDescription) : NodeDescription where
  entries := info.entries.map withCloud
  distinct := by
    obtain ⟨keys, values⟩ := Doc.distinct_obj.mp info.distinct
    refine Doc.distinct_obj.mpr ⟨?_, fun entry member => ?_⟩
    · simpa only [List.map_map, Function.comp_def, withCloud_key] using keys
    · obtain ⟨old, among, rfl⟩ := List.mem_map.mp member
      unfold withCloud
      split
      · exact List.forall_mem_singleton.mpr List.nodup_nil
      · exact values old among
  cloud := by
    obtain ⟨entry, member, named⟩ := info.cloud
    exact ⟨withCloud entry, List.mem_map_of_mem member, by rw [withCloud_key, named]⟩

/-- A dictionary of one's own names. -/
def asDict (entries : List (String × Doc (List Char) Empty)) : Doc (List Char) Empty :=
  .obj (entries.map fun entry => (entry.1.toList, entry.2))

def asText (value : String) : Doc (List Char) Empty := .str value.toList

def asTextOrNone (value : Option String) : Doc (List Char) Empty := (value.map asText).getD .null

/-- `ServiceVolume.to_dict`. -/
def ServiceVolume.toDict (volume : ServiceVolume) : Doc (List Char) Empty :=
  asDict [("vol_name", asText volume.volName), ("vol_size", .int volume.volSize), ("vol_id", asTextOrNone volume.volId),
    ("vm_id", asTextOrNone volume.vmId), ("dev_name", asTextOrNone volume.devName), ("cloud", asTextOrNone volume.cloud)]

/-- `ServiceNode.to_dict`. -/
def ServiceNode.toDict (node : ServiceNode) : Doc (List Char) Empty :=
  asDict [("id", asText node.id), ("vmid", asText node.vmid), ("ip", asText node.ip), ("private_ip", asText node.privateIp),
    ("cloud_name", asText node.cloudName), ("weight_backend", .int node.weightNode), ("role", asText node.role),
    ("volumes", .arr (node.volumes.map ServiceVolume.toDict))]

/-- What a manager asks of the director about nodes. -/
inductive NodeRequest
  | createNodes (nodesInfo : List NodeDescription)
  | removeNodes (nodes : List ServiceNode)

/-- The descriptions a manager sends, in one document. -/
def described (nodesInfo : List NodeDescription) : Doc PyString Empty :=
  .arr (nodesInfo.map fun info => .obj info.setCloud.entries)

/-- The value a manager passes. -/
def NodeRequest.value : NodeRequest → Value
  | .createNodes nodesInfo => (described nodesInfo).map PyString.text Empty.elim
  | .removeNodes nodes => (Doc.arr (nodes.map ServiceNode.toDict)).map id Empty.elim

/-- The text of the request parameter. The callback passes the descriptions as
they are, of which `_encode_multipart_formdata` takes the `str`. -/
def NodeRequest.parameter : NodeRequest → List Char
  | .createNodes nodesInfo => render reprStyle (described nodesInfo)
  | .removeNodes nodes => render dumpStyle (.arr (nodes.map ServiceNode.toDict))

/-- What makes JSON of a `repr` in `create_nodes`. -/
def requoted (text : List Char) : List Char := replace ['\''] ['"'] (replace ['u', '\''] ['"'] text)

/-- What the director makes of the request parameter. -/
def NodeRequest.decode : NodeRequest → List Char → Option Value
  | .createNodes _, text => loads (requoted text)
  | .removeNodes _, text => loads text

theorem replace_char (old new : Char) (text : List Char) :
    replace [old] [new] text = text.map fun c => if c = old then new else c := by
  unfold replace
  induction text with
  | nil => rfl
  | cons c rest ih =>
    rw [replaceFrom, List.map_cons]
    by_cases same : c = old
    · subst same
      simp only [List.isPrefixOf, BEq.rfl, Bool.true_and, if_true, List.length_singleton, Nat.sub_self, ih, List.singleton_append]
    · have other : (old == c) = false := beq_false_of_ne fun equal => same equal.symm
      simp only [List.isPrefixOf, other, Bool.false_and, Bool.false_eq_true, if_false, ih, same]

/-- No apostrophe is left. -/
theorem requoted_apostrophe (text : List Char) : '\'' ∉ requoted text := by
  rw [requoted, replace_char]
  intro member
  obtain ⟨c, -, same⟩ := List.mem_map.mp member
  split at same
  · exact absurd same (by decide)
  · contradiction

@[simp]
theorem requoted_nil : requoted [] = [] := rfl

@[simp]
theorem requoted_quote (rest : List Char) : requoted ('\'' :: rest) = '"' :: requoted rest := rfl

theorem requoted_prefix (rest : List Char) : requoted ('u' :: '\'' :: rest) = '"' :: requoted rest := rfl

theorem requoted_cons {c : Char} {rest : List Char} (quote : c ≠ '\'') (apart : c = 'u' → rest.head? ≠ some '\'') :
    requoted (c :: rest) = c :: requoted rest := by
  have kept : replace ['u', '\''] ['"'] (c :: rest) = c :: replace ['u', '\''] ['"'] rest := by
    have other : ['u', '\''].isPrefixOf (c :: rest) = false := by
      cases rest with
      | nil => simp [List.isPrefixOf]
      | cons second rest =>
        by_cases same : c = 'u'
        · have other : second ≠ '\'' := fun equal => apart same (equal ▸ rfl)
          simp [List.isPrefixOf, other.symm]
        · simp [List.isPrefixOf, Ne.symm same]
    rw [replace, replaceFrom, other, if_neg Bool.false_ne_true, replace]
  rw [requoted, kept, replace_char, List.map_cons, if_neg quote, requoted, replace_char]

theorem requoted_other {c : Char} {rest : List Char} (quote : c ≠ '\'') (apart : c ≠ 'u') :
    requoted (c :: rest) = c :: requoted rest :=
  requoted_cons quote fun same => absurd same apart

theorem requoted_digit (n : Nat) (rest : List Char) :
    requoted (Nat.digitChar (n % 16) :: rest) = Nat.digitChar (n % 16) :: requoted rest := by
  have all : ∀ n < 16, Nat.digitChar n ≠ '\'' ∧ Nat.digitChar n ≠ 'u' := by decide
  obtain ⟨quote, apart⟩ := all _ (Nat.mod_lt n (by decide))
  exact requoted_other quote apart

theorem requoted_hex4 (n : Nat) (rest : List Char) : requoted (hex4 n ++ rest) = hex4 n ++ requoted rest := by
  simp only [hex4, List.cons_append, List.nil_append, requoted_digit]

theorem requoted_code (n : Nat) (rest : List Char) :
    requoted ('\\' :: 'u' :: (hex4 n ++ rest)) = '\\' :: 'u' :: (hex4 n ++ requoted rest) := by
  rw [requoted_other (by decide) (by decide), requoted_cons (by decide), requoted_hex4]
  have all : ∀ n < 16, Nat.digitChar n ≠ '\'' := by decide
  rintro - head
  exact all _ (Nat.mod_lt _ (by decide)) (Option.some.inj head)

/-- Texts in which each backslash begins what `repr` puts for a character, or
what it puts for a quotation mark of some kind. -/
inductive Escapes (mark : Char → Prop) : List Char → Prop
  | nil : Escapes mark []
  | plain {c rest} : c ≠ '\\' → Escapes mark rest → Escapes mark (c :: rest)
  | sign {c rest} : c ∈ ['\\', 'n', 'r', 't', 'x', 'U'] ∨ mark c → Escapes mark rest → Escapes mark ('\\' :: c :: rest)
  | code {n rest} : 0x100 ≤ n → n < 0x10000 → Escapes mark rest → Escapes mark ('\\' :: 'u' :: (hex4 n ++ rest))

section

variable {mark : Char → Prop}

theorem Escapes.append {before after : List Char} (first : Escapes mark before) (second : Escapes mark after) :
    Escapes mark (before ++ after) := by
  induction first with
  | nil => exact second
  | plain other _ ih => exact .plain other ih
  | sign known _ ih => exact .sign known ih
  | code low high _ ih => 
    rw [List.cons_append, List.cons_append, List.append_assoc]
    exact .code low high ih

theorem Escapes.of_code {a b c d : Char} {rest : List Char} (other : ¬mark 'u')
    (escapes : Escapes mark ('\\' :: 'u' :: a :: b :: c :: d :: rest)) : Escapes mark rest := by
  generalize whole : '\\' :: 'u' :: a :: b :: c :: d :: rest = text at escapes
  cases escapes with
  | nil => cases whole
  | plain plain => exact absurd (List.cons.inj whole).1.symm plain
  | sign known =>
    obtain ⟨rfl, -⟩ := List.cons.inj (List.cons.inj whole).2
    exact known.elim (fun listed => absurd listed (by decide)) (fun mark => absurd mark other)
  | @code n more _ _ kept =>
    simp only [hex4, List.cons_append, List.nil_append, List.cons.injEq] at whole
    obtain ⟨-, -, -, -, -, -, rfl⟩ := whole
    exact kept

theorem Escapes.of_plain {text : List Char} (plain : '\\' ∉ text) : Escapes mark text := by
  induction text with
  | nil => exact .nil
  | cons c rest ih =>
    exact .plain (fun same => plain (same ▸ List.mem_cons_self ..)) (ih fun member => plain (List.mem_cons_of_mem _ member))

theorem hexDigit_ne {c : Char} (n : Nat) (other : ∀ n < 16, Nat.digitChar n ≠ c) : Nat.digitChar (n % 16) ≠ c :=
  other _ (Nat.mod_lt n (by decide))

/-- What `repr` puts for a character. -/
theorem escapes_reprChar {quote c : Char} (marked : c = quote → mark c) : Escapes mark (reprChar quote c) := by
  have digits (n : Nat) : Nat.digitChar (n % 16) ≠ '\\' := hexDigit_ne n (by decide)
  have digits4 (n : Nat) : '\\' ∉ hex4 n := by
    simp only [hex4, List.mem_cons, List.not_mem_nil, or_false, not_or]
    exact ⟨(digits _).symm, (digits _).symm, (digits _).symm, (digits _).symm⟩
  unfold reprChar
  split
  · rename_i special
    refine .sign ?_ .nil
    rcases special with same | rfl
    · exact .inr (marked same)
    · exact .inl (by decide)
  rename_i special
  split
  · exact .sign (.inl (by decide)) .nil
  split
  · exact .sign (.inl (by decide)) .nil
  split
  · exact .sign (.inl (by decide)) .nil
  split
  · exact .plain (fun same => special (.inr same)) .nil
  split
  · refine .sign (.inl (by decide)) (.of_plain ?_)
    simp only [hex2, List.mem_cons, List.not_mem_nil, or_false, not_or]
    exact ⟨(digits _).symm, (digits _).symm⟩
  split
  · rename_i _ low high
    rw [← List.append_nil (hex4 c.toNat)]
    exact .code (by omega) high .nil
  · refine .sign (.inl (by decide)) (.of_plain fun member => ?_)
    exact (List.mem_append.mp member).elim (digits4 _) (digits4 _)

/-- An apostrophe that `repr` puts after a backslash becomes a double one, and
the other backslashes keep their meaning. -/
theorem Escapes.requoted {quotes : Bool} {text : List Char} (escapes : Escapes (fun c => c = '\'' ∧ quotes = true) text) :
    Escapes (fun c => c = '"' ∧ quotes = true) (requoted text) := by
  induction escapes with
  | nil => exact .nil
  | @plain c rest other _ ih =>
    by_cases quote : c = '\''
    · subst quote
      exact .plain (by decide) ih
    · by_cases prefix_ : c = 'u' ∧ rest.head? = some '\''
      · obtain ⟨rfl, head⟩ := prefix_
        obtain ⟨more, rfl⟩ : ∃ more, rest = '\'' :: more := by
          cases rest with
          | nil => cases head
          | cons => exact ⟨_, by rw [Option.some.inj head]⟩
        exact ih
      · rw [requoted_cons quote fun same head => prefix_ ⟨same, head⟩]
        exact .plain other ih
  | @sign c rest known _ ih =>
    rw [requoted_other (by decide) (by decide)]
    rcases known with known | ⟨rfl, on⟩
    · have apart : c ≠ '\'' ∧ c ≠ 'u' := by
        constructor
        · rintro rfl
          exact absurd known (by decide)
        · rintro rfl
          exact absurd known (by decide)
      rw [requoted_other apart.1 apart.2]
      exact .sign (.inl known) ih
    · exact .sign (.inr ⟨rfl, on⟩) ih
  | @code n rest low high _ ih =>
    rw [requoted_code]
    exact .code low high ih

theorem Escapes.flatMap {put : Char → List Char} {text : List Char} (each : ∀ c ∈ text, Escapes mark (put c)) :
    Escapes mark (text.flatMap put) := by
  induction text with
  | nil => exact .nil
  | cons c rest ih =>
    rw [List.flatMap_cons]
    exact (each c (List.mem_cons_self ..)).append (ih fun other member => each other (List.mem_cons_of_mem _ member))

end

theorem reprQuote_cases (text : List Char) :
    reprQuote text = '"' ∧ '\'' ∈ text ∧ '"' ∉ text ∨ reprQuote text = '\'' := by
  unfold reprQuote
  split
  · exact .inl ⟨rfl, ‹_›⟩
  · exact .inr rfl

/-- A quotation mark follows a backslash in the `repr` only if a string holds an
apostrophe. -/
theorem escapes_repr {doc : Doc PyString Empty} {quotes : Bool}
    (apostrophes : ∀ string ∈ doc.strings, '\'' ∈ string.text → quotes = true) :
    Escapes (fun c => c = '\'' ∧ quotes = true) (render reprStyle doc) := by
  refine render_lift (fun text _ => Escapes (fun c => c = '\'' ∧ quotes = true) text) reprStyle .nil
    (fun first second => first.append second) (fun c member => .of_plain ?_) (fun string member => ?_) (.of_plain (by decide))
    (fun value => .of_plain (by cases value <;> decide)) (fun value => .of_plain ?_)
  · intro same
    cases List.mem_singleton.mp same
    exact absurd member (by decide)
  · have quote : reprQuote string.text ≠ '\\' := by
      rcases reprQuote_cases string.text with ⟨quote, -⟩ | quote <;> rw [quote] <;> decide
    have each (c) (inside : c ∈ string.text) :
        Escapes (fun c => c = '\'' ∧ quotes = true) (reprChar (reprQuote string.text) c) := by
      refine escapes_reprChar ?_
      rintro rfl
      rcases reprQuote_cases string.text with ⟨quote, -, without⟩ | quote
      · exact absurd inside (quote ▸ without)
      · exact ⟨quote, apostrophes string member (quote ▸ inside)⟩
    refine Escapes.append (Escapes.append (.of_plain ?_) (.plain quote (.flatMap each))) (.plain quote .nil)
    split <;> decide
  · intro inside
    rcases List.mem_append.mp inside with inside | inside
    · rcases integer_digit inside with same | digit
      · exact absurd same (by decide)
      · exact absurd digit (by decide)
    · split at inside <;> revert inside <;> decide

theorem ofNat_ne {n : Nat} (low : 0x100 ≤ n) {c : Char} (ascii : c.toNat < 0x100) (filled : c ≠ Char.ofNat 0) :
    Char.ofNat n ≠ c := by
  rintro rfl
  by_cases valid : n.isValidChar
  · have kept : (Char.ofNat n).toNat = n := by
      rw [Char.ofNat, dif_pos valid]
      rfl
    omega
  · refine filled ?_
    rw [Char.ofNat, dif_neg valid]
    rfl

/-- What a reader takes from such a text: no apostrophe, as none is in it, and a
quotation mark only from behind a backslash. -/
theorem keeps_escapes (quotes : Bool) :
    Keeps (fun text => Escapes (fun c => c = '"' ∧ quotes = true) text ∧ '\'' ∉ text)
      (fun c => c ≠ '\'' ∧ (c = '"' → quotes = true)) where
  skip := by
    rintro c rest ⟨escapes, without⟩ plain
    refine ⟨?_, fun member => without (List.mem_cons_of_mem _ member)⟩
    cases escapes with
    | plain _ more => exact more
    | sign => exact absurd rfl plain
    | code => exact absurd rfl plain
  take := by
    rintro c rest ⟨-, without⟩ - quote
    exact ⟨fun same => without (same ▸ List.mem_cons_self ..), fun same => absurd same quote⟩
  escape := by
    rintro rest c after ⟨escapes, without⟩ read
    have known (ascii : Char) (more : List Char) (kept : Escapes (fun c => c = '"' ∧ quotes = true) more)
        (inside : more.Subset rest) (mark : ascii ≠ '\'' ∧ (ascii = '"' → quotes = true)) (taken : some (ascii, more) = some (c, after)) :
        (c ≠ '\'' ∧ (c = '"' → quotes = true)) ∧ Escapes (fun c => c = '"' ∧ quotes = true) after ∧ '\'' ∉ after := by
      cases taken
      exact ⟨mark, kept, fun member => without (List.mem_cons_of_mem _ (inside member))⟩
    cases escapes with
    | plain other => exact absurd rfl other
    | @sign mark more sign kept =>
      have inside : more.Subset (mark :: more) := fun _ member => List.mem_cons_of_mem _ member
      rcases sign with sign | ⟨rfl, on⟩
      · simp only [List.mem_cons, List.not_mem_nil, or_false] at sign
        rcases sign with rfl | rfl | rfl | rfl | rfl | rfl
        · exact known '\\' more kept inside ⟨by decide, fun same => absurd same (by decide)⟩ read
        · exact known '\n' more kept inside ⟨by decide, fun same => absurd same (by decide)⟩ read
        · exact known '\r' more kept inside ⟨by decide, fun same => absurd same (by decide)⟩ read
        · exact known '\t' more kept inside ⟨by decide, fun same => absurd same (by decide)⟩ read
        · cases read
        · cases read
      · exact known '"' more kept inside ⟨by decide, fun _ => on⟩ read
    | @code n more low high kept =>
      rw [unescape_hex4 high] at read
      unfold ofCode at read
      have inside : more.Subset ('u' :: (hex4 n ++ more)) := fun _ member =>
        List.mem_cons_of_mem _ (List.mem_append_right _ member)
      have beyond {n : Nat} (low : 0x100 ≤ n) : Char.ofNat n ≠ '\'' ∧ (Char.ofNat n = '"' → quotes = true) :=
        ⟨ofNat_ne low (by decide) (by decide), fun same => absurd same (ofNat_ne low (by decide) (by decide))⟩
      split at read
      · split at read
        · rename_i a b c d last
          obtain ⟨code, _, read⟩ := Option.bind_eq_some_iff.mp read
          split at read
          · refine known _ last (kept.of_code fun mark => absurd mark.1 (by decide)) (fun _ member => inside ?_) (beyond (by omega)) read
            simp only [List.mem_cons]
            tauto
          · cases read
        · cases read
      · split at read
        · cases read
        · exact known _ more kept inside (beyond low) read

/-- A string once its quotation marks are replaced. The prefix of a Unicode
string looks like its last letter. -/
def trimmed : List Char → List Char
  | [] => []
  | [c] => if c = 'u' then [] else [c]
  | c :: second :: rest => c :: trimmed (second :: rest)

/-- The characters that `repr` and JSON write in the same way. -/
def sharedChar (c : Char) : Bool :=
  printable c || c = '\n' || c = '\r' || c = '\t' || (0x100 ≤ c.toNat && c.toNat < 0x10000)

/-- The `repr` of data without quotation marks in its strings, once its own ones
are replaced. -/
def requotedStyle : Style PyString where
  literal := fun string => '"' :: (trimmed string.text).flatMap (reprChar '"') ++ ['"']
  null := reprStyle.null
  bool := reprStyle.bool
  int := reprStyle.int

/-- What the director reads of it. -/
def requotedReading : Reading PyString where
  str := fun string => if (trimmed string.text).all sharedChar then some (trimmed string.text) else none
  int := isWord
  constants := false

theorem reprChar_ne (quote c : Char) : reprChar quote c ≠ [] := by
  unfold reprChar
  repeat' split
  all_goals exact List.cons_ne_nil _ _

theorem puts_reprChar {c : Char} (shared : sharedChar c = true) : Puts (reprChar '"' c) c := by
  unfold reprChar
  split
  · rename_i special
    rcases special with rfl | rfl
    · exact puts_escape fun _ => rfl
    · exact puts_escape fun _ => rfl
  rename_i special
  rw [not_or] at special
  split
  · rename_i same
    exact same ▸ puts_escape fun _ => rfl
  split
  · rename_i same
    exact same ▸ puts_escape fun _ => rfl
  split
  · rename_i same
    exact same ▸ puts_escape fun _ => rfl
  rename_i tab newline back
  split
  · rename_i plain
    simp only [printable, Bool.and_eq_true, decide_eq_true_eq] at plain
    exact puts_plain special.1 special.2 plain.1
  rename_i strange
  have beyond : 0x100 ≤ c.toNat ∧ c.toNat < 0x10000 := by
    simpa only [sharedChar, strange, tab, newline, back, decide_false, Bool.false_or, Bool.and_eq_true, decide_eq_true_eq] using shared
  rw [if_neg (by omega), if_pos beyond.2]
  refine puts_escape fun rest => ?_
  rw [List.cons_append, unescape_hex4 beyond.2, ofCode_char beyond.2]

theorem stops_reprChar {c : Char} (other : sharedChar c = false) : Stops (reprChar '"' c) := by
  simp only [sharedChar, Bool.or_eq_false_iff, decide_eq_false_iff_not, Bool.and_eq_false_iff] at other
  obtain ⟨⟨⟨⟨strange, newline⟩, back⟩, tab⟩, beyond⟩ := other
  have special : ¬(c = '"' ∨ c = '\\') := by
    rintro (rfl | rfl) <;> cases strange
  unfold reprChar
  rw [if_neg special, if_neg tab, if_neg newline, if_neg back, strange, if_neg Bool.false_ne_true]
  split
  · exact stops_escape fun _ => rfl
  · rw [if_neg (by omega)]
    exact stops_escape fun _ => rfl

/-- Integers of a word are read, and others are followed by a letter. -/
theorem reads_requoted : Reads requotedStyle requotedReading where
  literal := by
    intro string
    refine ⟨(trimmed string.text).flatMap (reprChar '"') ++ ['"'], rfl, fun fuel rest bound => ?_⟩
    rw [List.length_append, List.length_singleton] at bound
    rw [List.append_assoc, List.singleton_append, @parseString_put (reprChar '"') sharedChar (fun _ => puts_reprChar) (fun _ => stops_reprChar)
      (reprChar_ne '"') (trimmed string.text) _ _ (by omega), requotedReading]
    dsimp only
    split <;> rfl
  null := ⟨'N', _, rfl, by decide, by decide, by decide, by decide, rfl⟩
  bool := fun value => by cases value <;> exact ⟨_, _, rfl, by decide, by decide, by decide, by decide, rfl⟩
  nullAtom := fun _ => rfl
  boolAtom := fun value _ => by cases value <;> rfl
  int := fun value word => by
    have word : isWord value = true := word
    simp only [requotedStyle, reprStyle, word, if_true, List.append_nil]
  noInt := fun value long => by
    have long : isWord value = false := long
    refine ⟨'L', [], ?_, ⟨'L', [], rfl, rfl, by decide, by decide, by decide⟩, rfl, by decide, by decide, by decide⟩
    simp only [requotedStyle, reprStyle, long, Bool.false_eq_true, if_false]

/-- The marks of one character are left as they are. -/
theorem requoted_reprChar {c : Char} {rest : List Char} (apostrophe : c ≠ '\'') (quote : c ≠ '"')
    (apart : c = 'u' → rest.head? ≠ some '\'') : requoted (reprChar '"' c ++ rest) = reprChar '"' c ++ requoted rest := by
  have sign {mark : Char} (quote : mark ≠ '\'') (apart : mark ≠ 'u') (rest : List Char) :
      requoted ('\\' :: mark :: rest) = '\\' :: mark :: requoted rest := by
    rw [requoted_other (by decide) (by decide), requoted_other quote apart]
  unfold reprChar
  split
  · rename_i special
    rcases special with same | rfl
    · exact absurd same quote
    · exact sign (by decide) (by decide) rest
  split
  · exact sign (by decide) (by decide) rest
  split
  · exact sign (by decide) (by decide) rest
  split
  · exact sign (by decide) (by decide) rest
  split
  · exact requoted_cons apostrophe apart
  split
  · simp only [hex2, List.cons_append, List.nil_append]
    rw [sign (by decide) (by decide), requoted_digit, requoted_digit]
  split
  · rw [List.cons_append, List.cons_append, requoted_code, List.cons_append, List.cons_append]
  · rw [hex8, List.cons_append, List.cons_append, sign (by decide) (by decide), List.append_assoc, requoted_hex4, requoted_hex4,
      List.cons_append, List.cons_append, List.append_assoc]

theorem reprChar_head {c : Char} (apostrophe : c ≠ '\'') (rest : List Char) : (reprChar '"' c ++ rest).head? ≠ some '\'' := by
  have other : ¬ '\\' = '\'' := by decide
  unfold reprChar
  repeat' split
  all_goals simp [apostrophe]

/-- The text of a string up to its end. -/
theorem requoted_body {text : List Char} (quotes : ∀ c ∈ text, c ≠ '\'' ∧ c ≠ '"') (rest : List Char) :
    requoted (text.flatMap (reprChar '"') ++ '\'' :: rest) = (trimmed text).flatMap (reprChar '"') ++ '"' :: requoted rest := by
  induction text with
  | nil => exact requoted_quote rest
  | cons c text ih =>
    obtain ⟨own, others⟩ := List.forall_mem_cons.mp quotes
    cases text with
    | nil =>
      rw [List.flatMap_cons, List.flatMap_nil, List.append_nil, trimmed]
      split
      · rename_i last
        exact last ▸ requoted_prefix rest
      · rename_i last
        rw [requoted_reprChar own.1 own.2 fun same => absurd same last, requoted_quote, List.flatMap_cons, List.flatMap_nil,
          List.append_nil]
    | cons second text =>
      have apart : ((second :: text).flatMap (reprChar '"') ++ '\'' :: rest).head? ≠ some '\'' := by
        rw [List.flatMap_cons, List.append_assoc]
        exact reprChar_head (others second (List.mem_cons_self ..)).1 _
      have head : (trimmed (c :: second :: text)).flatMap (reprChar '"') =
          reprChar '"' c ++ (trimmed (second :: text)).flatMap (reprChar '"') := List.flatMap_cons
      rw [head, List.flatMap_cons, List.append_assoc, requoted_reprChar own.1 own.2 fun _ => apart, ih others, List.append_assoc]

theorem trimmed_length (text : List Char) :
    (trimmed text).length ≤ text.length ∧ ((trimmed text).length = text.length ↔ text.getLast? ≠ some 'u') := by
  fun_induction trimmed text with
  | case1 => simp
  | case2 => simp
  | case3 c other => simpa using other
  | case4 c second rest ih =>
    rw [List.getLast?_cons_cons]
    exact ⟨Nat.succ_le_succ ih.1, Nat.succ_inj.trans ih.2⟩

theorem trimmed_same {text : List Char} (last : text.getLast? ≠ some 'u') : trimmed text = text := by
  fun_induction trimmed text with
  | case1 => rfl
  | case2 => exact absurd rfl last
  | case3 => rfl
  | case4 c second rest ih =>
    rw [List.getLast?_cons_cons] at last
    rw [ih last]

/-- What comes of data without quotation marks in its strings. -/
theorem loads_requoted {doc : Doc PyString Empty} (quotes : ∀ string ∈ doc.strings, ∀ c ∈ string.text, c ≠ '\'' ∧ c ≠ '"') :
    loads (requoted (render reprStyle doc)) = reading requotedReading doc := by
  have turned : ∀ rest, requoted (render reprStyle doc ++ rest) = render requotedStyle doc ++ requoted rest := by
    refine render_lift (fun text text' => ∀ rest, requoted (text ++ rest) = text' ++ requoted rest) requotedStyle
      (fun _ => rfl) ?_ ?_ ?_ ?_ ?_ ?_
    · intro a a' b b' first second rest
      rw [List.append_assoc, first, second, List.append_assoc]
    · intro c member rest
      refine requoted_other ?_ ?_
      · rintro rfl
        exact absurd member (by decide)
      · rintro rfl
        exact absurd member (by decide)
    · intro string member rest
      have own := quotes string member
      have quote : reprQuote string.text = '\'' := by
        rw [reprQuote, if_neg]
        rintro ⟨inside, -⟩
        exact (own _ inside).1 rfl
      have body : string.text.flatMap (reprChar '\'') = string.text.flatMap (reprChar '"') := by
        refine List.flatMap_congr fun c inside => ?_
        obtain ⟨apostrophe, mark⟩ := own c inside
        simp only [reprChar, apostrophe, mark, false_or]
      have start (more : List Char) : requoted ((if string.unicode then ['u'] else []) ++ '\'' :: more) = '"' :: requoted more := by
        cases string.unicode with
        | true => exact requoted_prefix more
        | false => exact requoted_quote more
      have whole : reprStyle.literal string ++ rest =
          (if string.unicode then ['u'] else []) ++ '\'' :: (string.text.flatMap (reprChar '"') ++ '\'' :: rest) := by
        simp only [reprStyle, reprString, quote, body, List.append_assoc, List.cons_append, List.nil_append]
      rw [whole, start, requoted_body own]
      simp only [requotedStyle, List.append_assoc, List.cons_append, List.nil_append]
    · intro rest
      rfl
    · intro value rest
      cases value <;> rfl
    · intro value rest
      have kept {text : List Char} (other : ∀ c ∈ text, c ≠ '\'' ∧ c ≠ 'u') : requoted (text ++ rest) = text ++ requoted rest := by
        induction text with
        | nil => rfl
        | cons c text ih =>
          obtain ⟨own, others⟩ := List.forall_mem_cons.mp other
          rw [List.cons_append, requoted_other own.1 own.2, ih others, List.cons_append]
      refine kept fun c member => ?_
      have digit : c = '-' ∨ c.isDigit = true ∨ c = 'L' := by
        rcases List.mem_append.mp member with member | member
        · exact (integer_digit member).imp_right Or.inl
        · split at member
          · cases member
          · exact .inr (.inr (List.mem_singleton.mp member))
      constructor
      · rintro rfl
        rcases digit with same | digit | same
        all_goals contradiction
      · rintro rfl
        rcases digit with same | digit | same
        all_goals contradiction
  have whole := turned []
  rw [List.append_nil, requoted_nil, List.append_nil] at whole
  rw [whole, loads_render reads_requoted]

/-- Characters that the replacement of the quotation marks leaves as they are. -/
def carriedChar (c : Char) : Bool := sharedChar c && c ≠ '\'' && c ≠ '"'

def Carried (string : PyString) : Prop := string.text.all carriedChar ∧ string.text.getLast? ≠ some 'u'

/-- A part whose `repr` is JSON. -/
def CarriedPart : Doc PyString Empty → Prop
  | .null | .bool _ => False
  | .int value => isWord value
  | _ => True

/-- Data that come through: no `None`, no booleans, only integers of a word, and
strings of characters that `repr` and JSON write in the same way, without
quotation marks and without a `u` at their end. -/
def CarriedDoc (doc : Doc PyString Empty) : Prop :=
  (∀ part ∈ doc.parts, CarriedPart part) ∧ ∀ string ∈ doc.strings, Carried string

instance (string : PyString) : Decidable (Carried string) := inferInstanceAs (Decidable (_ ∧ _))

instance (part : Doc PyString Empty) : Decidable (CarriedPart part) :=
  match part with
  | .null | .bool _ => isFalse id
  | .int value => inferInstanceAs (Decidable (isWord value = true))
  | .float _ | .str _ | .arr _ | .obj _ => isTrue trivial

instance (doc : Doc PyString Empty) : Decidable (CarriedDoc doc) := inferInstanceAs (Decidable (_ ∧ _))

theorem sum_lengths {α : Type} {f g : α → Nat} {list : List α} (le : ∀ a ∈ list, f a ≤ g a)
    (same : (list.map f).sum = (list.map g).sum) : ∀ a ∈ list, f a = g a := by
  intro a member
  by_contra other
  exact absurd same (List.sum_lt_sum _ _ le ⟨a, member, lt_of_le_of_ne (le a member) other⟩).ne

/-- Strings with other lengths are not those that were sent. -/
theorem trimmed_strings {strings : List PyString} {read : List (List Char)}
    (kept : read.Sublist (strings.map fun string => trimmed string.text)) (same : read.Perm (strings.map PyString.text)) :
    ∀ string ∈ strings, trimmed string.text = string.text := by
  have whole : read = strings.map fun string => trimmed string.text := by
    refine kept.eq_of_length ?_
    rw [same.length_eq, List.length_map, List.length_map]
  have lengths := (same.map List.length).sum_eq
  rw [whole, List.map_map, List.map_map] at lengths
  intro string member
  have equal := sum_lengths (fun string _ => (trimmed_length string.text).1) lengths string member
  exact trimmed_same ((trimmed_length string.text).2.mp equal)

/-- Strings of such characters are equal if they have one text. -/
theorem carried_value {string : PyString} (shared : ∀ c ∈ string.text, sharedChar c = true) :
    string.value = (string.text.any fun c => 0x80 ≤ c.toNat, string.text) := by
  cases unicode : string.unicode with
  | true => simp only [PyString.value, unicode, Bool.true_and]
  | false =>
    have ascii : (string.text.any fun c => 0x80 ≤ c.toNat) = false := by
      refine List.any_eq_false.mpr fun c member => ?_
      have byte := string.bytes unicode c member
      have own := shared c member
      simp only [sharedChar, printable, Bool.or_eq_true, Bool.and_eq_true, decide_eq_true_eq] at own ⊢
      rcases own with (((own | rfl) | rfl) | rfl) | own
      · omega
      · decide
      · decide
      · decide
      · omega
    simp only [PyString.value, unicode, Bool.false_and, ascii]

/-- The director gets what it was sent exactly if it comes through. -/
theorem loads_requoted_iff {doc : Doc PyString Empty} (distinct : doc.Distinct PyString.value) :
    (∃ value, loads (requoted (render reprStyle doc)) = some value ∧ value.Same (doc.map PyString.text Empty.elim)) ↔
      CarriedDoc doc := by
  constructor
  · rintro ⟨value, read, same⟩
    have strings := same.strings
    rw [Doc.strings_map] at strings
    have sent (string : PyString) (member : string ∈ doc.strings) : string.text ∈ value.strings :=
      strings.mem_iff.mpr (List.mem_map_of_mem member)
    -- no apostrophe is ever read
    have apostrophes : ∀ string ∈ doc.strings, '\'' ∉ string.text := by
      intro string member inside
      have kept := (keeps_escapes true).loads ⟨(escapes_repr fun _ _ _ => rfl).requoted, requoted_apostrophe _⟩ read
      exact (kept _ (sent string member) _ inside).1 rfl
    -- and without apostrophes no quotation mark
    have quotes : ∀ string ∈ doc.strings, '"' ∉ string.text := by
      intro string member inside
      have without : ∀ string ∈ doc.strings, '\'' ∈ string.text → false = true := fun other member inside =>
        absurd inside (apostrophes other member)
      have kept := (keeps_escapes false).loads ⟨(escapes_repr without).requoted, requoted_apostrophe _⟩ read
      exact Bool.false_ne_true ((kept _ (sent string member) _ inside).2 rfl)
    have plain : ∀ string ∈ doc.strings, ∀ c ∈ string.text, c ≠ '\'' ∧ c ≠ '"' := fun string member c inside =>
      ⟨fun same => apostrophes string member (same ▸ inside), fun same => quotes string member (same ▸ inside)⟩
    rw [loads_requoted plain] at read
    obtain ⟨knows, readable⟩ := reading_knows read
    have read_ (string : PyString) (member : string ∈ doc.strings) :
        (trimmed string.text).all sharedChar = true ∧ (requotedReading.str string).getD [] = trimmed string.text := by
      obtain ⟨own, known⟩ := readable string member
      have known : (if (trimmed string.text).all sharedChar then some (trimmed string.text) else none) = some own := known
      by_cases shared : (trimmed string.text).all sharedChar = true
      · exact ⟨shared, by simp only [requotedReading, shared, if_true, Option.getD_some]⟩
      · rw [if_neg shared] at known
        cases known
    have kept := reading_strings read
    rw [List.map_congr_left fun string member => (read_ string member).2] at kept
    have trims := trimmed_strings kept strings
    refine ⟨fun part member => ?_, fun string member => ?_⟩
    · have known := knows part member
      cases part with
      | null | bool => cases known
      | int => exact known
      | float | str | arr | obj => exact trivial
    · have shared := (read_ string member).1
      rw [trims string member, List.all_eq_true] at shared
      refine ⟨List.all_eq_true.mpr fun c inside => ?_, ?_⟩
      · obtain ⟨apostrophe, quote⟩ := plain string member c inside
        simp only [carriedChar, shared c inside, apostrophe, quote, ne_eq, not_false_eq_true, decide_true, Bool.and_self]
      · exact (trimmed_length string.text).2.mp (congrArg List.length (trims string member))
  · rintro ⟨parts, strings⟩
    have chars {string : PyString} (member : string ∈ doc.strings) (c) (inside : c ∈ string.text) :
        sharedChar c = true ∧ c ≠ '\'' ∧ c ≠ '"' := by
      have own := List.all_eq_true.mp (strings string member).1 c inside
      simpa only [carriedChar, Bool.and_eq_true, decide_eq_true_eq, and_assoc] using own
    rw [loads_requoted fun string member c inside => (chars member c inside).2]
    refine ⟨_, reading_map (fun part member => ?_) (fun string member => ?_) ?_, .refl _⟩
    · have own := parts part member
      cases part with
      | null | bool => cases own
      | int => exact own
      | float | str | arr | obj => exact trivial
    · have whole := trimmed_same (strings string member).2
      have shared : string.text.all sharedChar = true := List.all_eq_true.mpr fun c inside => (chars member c inside).1
      simp only [requotedReading, whole, shared, if_true]
    · intro part member
      have keys := distinct part member
      cases part with
      | null | bool | int | float | str | arr => exact List.nodup_nil
      | obj entries =>
        have ascii (entry) (among : entry ∈ entries) :
            entry.1.value = (entry.1.text.any fun c => 0x80 ≤ c.toNat, entry.1.text) := by
          have inside := Doc.parts_strings member (Doc.strings_key among)
          exact carried_value fun c listed => (chars inside c listed).1
        rw [Doc.keys, List.map_congr_left ascii] at keys
        refine List.Nodup.of_map (fun text : List Char => (text.any fun c => 0x80 ≤ c.toNat, text)) ?_
        rwa [Doc.keys, List.map_map]

/-- What comes through of a request. -/
def NodeRequest.Carried : NodeRequest → Prop
  | .createNodes nodesInfo => ∀ info ∈ nodesInfo, CarriedDoc (.obj info.setCloud.entries)
  | .removeNodes _ => True

/-- The director works on the value the manager passed, whose dictionaries may
be enumerated in another order. A form hands the text of a field on. -/
def NodeRequest.Transported (form : List Char → List Char) (request : NodeRequest) : Prop :=
  ∃ value, request.decode (form request.parameter) = some value ∧ value.Same request.value

theorem carriedDoc_described {nodesInfo : List NodeDescription} :
    CarriedDoc (described nodesInfo) ↔ ∀ info ∈ nodesInfo, CarriedDoc (.obj info.setCloud.entries) := by
  constructor
  · rintro ⟨parts, strings⟩ info member
    have among : Doc.obj info.setCloud.entries ∈ nodesInfo.map fun info => Doc.obj info.setCloud.entries :=
      List.mem_map_of_mem member
    exact ⟨fun part inside => parts part (Doc.parts_item among inside),
      fun string inside => strings string (Doc.strings_item among inside)⟩
  · intro each
    refine ⟨fun part member => ?_, fun string member => ?_⟩
    · rw [described, Doc.parts_arr, List.flatMap_map] at member
      rcases List.mem_cons.mp member with rfl | member
      · exact trivial
      · obtain ⟨info, among, inside⟩ := List.mem_flatMap.mp member
        exact (each info among).1 part inside
    · rw [described, Doc.strings_arr, List.flatMap_map] at member
      obtain ⟨info, among, inside⟩ := List.mem_flatMap.mp member
      exact (each info among).2 string inside

theorem distinct_asDict {entries : List (String × Doc (List Char) Empty)} (names : (entries.map fun entry => entry.1.toList).Nodup)
    (values : ∀ entry ∈ entries, entry.2.Distinct id) : (asDict entries).Distinct id := by
  refine Doc.distinct_obj.mpr ⟨by simpa only [List.map_map, Function.comp_def, id_eq] using names, fun entry member => ?_⟩
  obtain ⟨own, among, rfl⟩ := List.mem_map.mp member
  exact values own among

theorem distinct_asText (value : String) : (asText value).Distinct id := List.forall_mem_singleton.mpr List.nodup_nil

theorem distinct_int (value : Int) : (Doc.int value : Doc (List Char) Empty).Distinct id :=
  List.forall_mem_singleton.mpr List.nodup_nil

theorem distinct_asTextOrNone (value : Option String) : (asTextOrNone value).Distinct id := by
  cases value <;> exact List.forall_mem_singleton.mpr List.nodup_nil

theorem distinct_volumeDict (volume : ServiceVolume) : volume.toDict.Distinct id := by
  refine distinct_asDict ?_ ?_
  · simp only [List.map_cons, List.map_nil]
    decide
  simp only [List.forall_mem_cons, List.not_mem_nil, false_imp_iff, implies_true, and_true]
  exact ⟨distinct_asText _, distinct_int _, distinct_asTextOrNone _, distinct_asTextOrNone _, distinct_asTextOrNone _,
    distinct_asTextOrNone _⟩

theorem distinct_nodeDict (node : ServiceNode) : node.toDict.Distinct id := by
  refine distinct_asDict ?_ ?_
  · simp only [List.map_cons, List.map_nil]
    decide
  simp only [List.forall_mem_cons, List.not_mem_nil, false_imp_iff, implies_true, and_true]
  refine ⟨distinct_asText _, distinct_asText _, distinct_asText _, distinct_asText _, distinct_asText _, distinct_int _,
    distinct_asText _, Doc.distinct_arr fun item member => ?_⟩
  obtain ⟨volume, -, rfl⟩ := List.mem_map.mp member
  exact distinct_volumeDict volume

/-- A request reaches the director as it is exactly if its descriptions come
through the replacement of the quotation marks. Nodes that are removed are sent
as JSON and always come through. -/
theorem NodeRequest.transported_iff {form : List Char → List Char}
    (carries : ∀ text, (∀ c ∈ text, printable c = true) → form text = text) (request : NodeRequest) :
    request.Transported form ↔ request.Carried := by
  cases request with
  | createNodes nodesInfo =>
    have distinct : (described nodesInfo).Distinct PyString.value := by
      refine Doc.distinct_arr fun item member => ?_
      obtain ⟨info, -, rfl⟩ := List.mem_map.mp member
      exact info.setCloud.distinct
    have kept := carries _ (printable_repr (described nodesInfo))
    simp only [NodeRequest.Transported, NodeRequest.decode, NodeRequest.parameter, NodeRequest.value, NodeRequest.Carried, kept]
    exact (loads_requoted_iff distinct).trans carriedDoc_described
  | removeNodes nodes =>
    have distinct : (Doc.arr (nodes.map ServiceNode.toDict)).Distinct id := by
      refine Doc.distinct_arr fun item member => ?_
      obtain ⟨node, -, rfl⟩ := List.mem_map.mp member
      exact distinct_nodeDict node
    have kept := carries _ (printable_dump (.arr (nodes.map ServiceNode.toDict)))
    simp only [NodeRequest.Transported, NodeRequest.decode, NodeRequest.parameter, NodeRequest.value, NodeRequest.Carried, kept,
      iff_true]
    exact ⟨_, loads_dump distinct, .refl _⟩

/-- A node with a volume, on the cloud that is set if none is. -/
def mysqlNode : NodeDescription where
  entries := [(ofBytes "role" rfl, .str (ofBytes "mysql" rfl)), (ofBytes "cloud" rfl, .null),
    (ofBytes "volumes" rfl, .arr [.obj [(ofBytes "vol_name" rfl, .str ⟨true, ['d', 'b', 'λ'], nofun⟩),
      (ofBytes "vol_size" rfl, .int 1024)]])]
  distinct := by decide
  cloud := ⟨_, List.mem_cons_of_mem _ (List.mem_cons_self ..), rfl⟩

theorem mysqlNode_transported : NodeRequest.Transported id (.createNodes [mysqlNode]) :=
  (NodeRequest.transported_iff (fun _ _ => rfl) (.createNodes [mysqlNode])).mpr (List.forall_mem_singleton.mpr (by decide))

/-- A node of a web service on the cloud `edu`. -/
def eduNode : NodeDescription where
  entries := [(ofBytes "role" rfl, .str (ofBytes "web" rfl)),
    (ofBytes "cloud" rfl, .str (ofBytes "edu" rfl))]
  distinct := by decide
  cloud := ⟨_, List.mem_cons_of_mem _ (List.mem_cons_self ..), rfl⟩

/-- The director reads the cloud `ed` for it. -/
theorem eduNode_changed : ¬NodeRequest.Transported id (.createNodes [eduNode]) := by
  rintro ⟨value, read, same⟩
  have known : ((NodeRequest.createNodes [eduNode]).decode (NodeRequest.createNodes [eduNode]).parameter).map Doc.strings =
      some ["role".toList, "web".toList, "cloud".toList, "ed".toList] := by decide +kernel
  rw [id_eq] at read
  rw [read, Option.map_some, Option.some.injEq] at known
  have sent : "edu".toList ∈ value.strings := same.strings.mem_iff.mpr (by decide)
  rw [known] at sent
  exact absurd sent (by decide)

end ConPaaS
