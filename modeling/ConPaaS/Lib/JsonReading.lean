import ConPaaS.Lib.JsonText
import Mathlib.Data.List.Flatten
import Mathlib.Data.List.TakeWhile

namespace Json

namespace Doc

variable {σ τ φ ψ : Type}

mutual

/-- All documents that are parts of a document, itself included. -/
def parts : Doc σ φ → List (Doc σ φ)
  | .null => [.null]
  | .bool value => [.bool value]
  | .int value => [.int value]
  | .float value => [.float value]
  | .str text => [.str text]
  | .arr items => .arr items :: itemParts items
  | .obj entries => .obj entries :: entryParts entries

def itemParts : List (Doc σ φ) → List (Doc σ φ)
  | [] => []
  | item :: rest => item.parts ++ itemParts rest

def entryParts : List (σ × Doc σ φ) → List (Doc σ φ)
  | [] => []
  | (_, value) :: rest => value.parts ++ entryParts rest

end

/-- The keys of an object, as far as a reader of keys tells them apart. -/
def keys (key : σ → τ) : Doc σ φ → List τ
  | .obj entries => entries.map fun entry => key entry.1
  | _ => []

/-- No object has two entries with what the reader of keys takes for one key. -/
def Distinct (key : σ → τ) (doc : Doc σ φ) : Prop := ∀ part ∈ doc.parts, (part.keys key).Nodup

instance [DecidableEq τ] (key : σ → τ) (doc : Doc σ φ) : Decidable (doc.Distinct key) :=
  inferInstanceAs (Decidable (∀ part ∈ doc.parts, (part.keys key).Nodup))

theorem itemParts_eq (items : List (Doc σ φ)) : itemParts items = items.flatMap parts := by
  induction items with
  | nil => rfl
  | cons item rest ih => rw [itemParts, ih, List.flatMap_cons]

theorem entryParts_eq (entries : List (σ × Doc σ φ)) : entryParts entries = entries.flatMap fun entry => entry.2.parts := by
  induction entries with
  | nil => rfl
  | cons entry rest ih => rw [entryParts, ih, List.flatMap_cons]

theorem parts_arr (items : List (Doc σ φ)) : (arr items).parts = .arr items :: items.flatMap parts :=
  congrArg (List.cons (Doc.arr items)) (itemParts_eq items)

theorem parts_obj (entries : List (σ × Doc σ φ)) :
    (obj entries).parts = .obj entries :: entries.flatMap fun entry => entry.2.parts :=
  congrArg (List.cons (Doc.obj entries)) (entryParts_eq entries)

theorem parts_item {items : List (Doc σ φ)} {item part : Doc σ φ} (member : item ∈ items) (inside : part ∈ item.parts) :
    part ∈ (Doc.arr items).parts := by
  rw [parts_arr]
  exact List.mem_cons_of_mem _ (List.mem_flatMap.mpr ⟨item, member, inside⟩)

theorem parts_entry {entries : List (σ × Doc σ φ)} {entry : σ × Doc σ φ} {part : Doc σ φ} (member : entry ∈ entries)
    (inside : part ∈ entry.2.parts) : part ∈ (Doc.obj entries).parts := by
  rw [parts_obj]
  exact List.mem_cons_of_mem _ (List.mem_flatMap.mpr ⟨entry, member, inside⟩)

/-- The keys of a document are distinct if those of its parts are. -/
theorem distinct_arr {key : σ → τ} {items : List (Doc σ φ)} (each : ∀ item ∈ items, item.Distinct key) :
    (Doc.arr items).Distinct key := by
  intro part member
  rw [parts_arr] at member
  rcases List.mem_cons.mp member with rfl | member
  · exact List.nodup_nil
  · obtain ⟨item, among, inside⟩ := List.mem_flatMap.mp member
    exact each item among part inside

theorem distinct_obj {key : σ → τ} {entries : List (σ × Doc σ φ)} :
    (Doc.obj entries).Distinct key ↔
      (entries.map fun entry => key entry.1).Nodup ∧ ∀ entry ∈ entries, entry.2.Distinct key := by
  constructor
  · intro distinct
    refine ⟨distinct (.obj entries) ?_, fun entry member part inside => distinct part (parts_entry member inside)⟩
    rw [parts_obj]
    exact List.mem_cons_self ..
  · rintro ⟨own, each⟩ part member
    rw [parts_obj] at member
    rcases List.mem_cons.mp member with rfl | member
    · exact own
    · obtain ⟨entry, among, inside⟩ := List.mem_flatMap.mp member
      exact each entry among part inside

theorem strings_item {items : List (Doc σ φ)} {item : Doc σ φ} {text : σ} (member : item ∈ items)
    (inside : text ∈ item.strings) : text ∈ (Doc.arr items).strings := by
  rw [strings_arr]
  exact List.mem_flatMap.mpr ⟨item, member, inside⟩

theorem strings_key {entries : List (σ × Doc σ φ)} {entry : σ × Doc σ φ} (member : entry ∈ entries) :
    entry.1 ∈ (Doc.obj entries).strings := by
  rw [strings_obj]
  exact List.mem_flatMap.mpr ⟨entry, member, List.mem_cons_self ..⟩

theorem strings_entry {entries : List (σ × Doc σ φ)} {entry : σ × Doc σ φ} {text : σ} (member : entry ∈ entries)
    (inside : text ∈ entry.2.strings) : text ∈ (Doc.obj entries).strings := by
  rw [strings_obj]
  exact List.mem_flatMap.mpr ⟨entry, member, List.mem_cons_of_mem _ inside⟩

/-- The strings of a part are strings of the whole. -/
theorem parts_strings {doc part : Doc σ φ} (member : part ∈ doc.parts) {text : σ} (inside : text ∈ part.strings) :
    text ∈ doc.strings := by
  induction doc with
  | null | bool | int | float | str => exact List.mem_singleton.mp member ▸ inside
  | arr items ih =>
    rw [parts_arr] at member
    rcases List.mem_cons.mp member with rfl | member
    · exact inside
    · obtain ⟨item, among, member⟩ := List.mem_flatMap.mp member
      exact strings_item among (ih item among member)
  | obj entries ih =>
    rw [parts_obj] at member
    rcases List.mem_cons.mp member with rfl | member
    · exact inside
    · obtain ⟨entry, among, member⟩ := List.mem_flatMap.mp member
      exact strings_entry among (ih entry among member)

end Doc

section

variable {σ α : Type} [DecidableEq σ]

/-- A dictionary keeps some of the entries it is made of, in their order. -/
theorem dictOf_sublist (entries : List (σ × α)) : (dictOf entries).Sublist entries := by
  suffices from_ : ∀ dict : List (σ × α),
      (entries.foldl (fun dict entry => dict.filter (fun other => other.1 ≠ entry.1) ++ [entry]) dict).Sublist (dict ++ entries) from
    from_ []
  induction entries with
  | nil =>
    intro dict
    rw [List.append_nil]
    exact List.Sublist.refl dict
  | cons entry rest ih =>
    intro dict
    refine (ih _).trans ?_
    rw [List.append_assoc, List.singleton_append]
    exact List.filter_sublist.append_right _

/-- With one entry for each key it keeps all of them. -/
theorem dictOf_distinct {entries : List (σ × α)} (distinct : (entries.map Prod.fst).Nodup) : dictOf entries = entries := by
  suffices from_ : ∀ dict : List (σ × α), ((dict ++ entries).map Prod.fst).Nodup →
      entries.foldl (fun dict entry => dict.filter (fun other => other.1 ≠ entry.1) ++ [entry]) dict = dict ++ entries from
    from_ [] distinct
  clear distinct
  induction entries with
  | nil =>
    intro dict _
    rw [List.append_nil]
    rfl
  | cons entry rest ih =>
    intro dict distinct
    have other : ∀ old ∈ dict, old.1 ≠ entry.1 := by
      rw [List.map_append, List.nodup_append] at distinct
      exact fun old member => distinct.2.2 old.1 (List.mem_map_of_mem member) entry.1 (List.mem_cons_self ..)
    have all : dict.filter (fun old => old.1 ≠ entry.1) = dict :=
      List.filter_eq_self.mpr fun old member => decide_eq_true (other old member)
    rw [List.foldl_cons, all, ih, List.append_assoc, List.singleton_append]
    rwa [List.append_assoc, List.singleton_append]

end

section

variable {σ : Type} {reader : Reading σ}

/-- What a reader has to know for a part that is no string. -/
def Reading.Knows (reader : Reading σ) : Doc σ Empty → Prop
  | .null | .bool _ => reader.constants = true
  | .int value => reader.int value = true
  | _ => True

theorem readingItems_forall {items : List (Doc σ Empty)} {values : List Value}
    (read : readingItems reader items = some values) : List.Forall₂ (fun item value => reading reader item = some value) items values := by
  induction items generalizing values with
  | nil =>
    cases read
    exact .nil
  | cons item rest ih =>
    rw [readingItems] at read
    cases own : reading reader item with
    | none =>
      rw [own] at read
      cases read
    | some value =>
      rw [own] at read
      obtain ⟨others, later, rfl⟩ := Option.map_eq_some_iff.mp read
      exact .cons own (ih later)

theorem readingEntries_forall {entries : List (σ × Doc σ Empty)} {values : List (List Char × Value)}
    (read : readingEntries reader entries = some values) :
    List.Forall₂ (fun entry value => reader.str entry.1 = some value.1 ∧ reading reader entry.2 = some value.2) entries values := by
  induction entries generalizing values with
  | nil =>
    cases read
    exact .nil
  | cons entry rest ih =>
    obtain ⟨key, doc⟩ := entry
    rw [readingEntries] at read
    cases named : reader.str key with
    | none =>
      rw [named] at read
      cases read
    | some text =>
      rw [named] at read
      cases own : reading reader doc with
      | none =>
        rw [own] at read
        cases read
      | some value =>
        rw [own] at read
        obtain ⟨others, later, rfl⟩ := Option.map_eq_some_iff.mp read
        exact .cons ⟨named, own⟩ (ih later)

theorem forall_of_forall₂ {α β : Type} {R : α → β → Prop} {left : List α} {right : List β} (related : List.Forall₂ R left right)
    {a : α} (member : a ∈ left) : ∃ b ∈ right, R a b := by
  induction related with
  | nil => cases member
  | cons head _ ih =>
    rcases List.mem_cons.mp member with rfl | member
    · exact ⟨_, List.mem_cons_self .., head⟩
    · obtain ⟨b, inside, holds⟩ := ih member
      exact ⟨b, List.mem_cons_of_mem _ inside, holds⟩

/-- A reader that reads a document knows all its parts. -/
theorem reading_knows {doc : Doc σ Empty} {value : Value} (read : reading reader doc = some value) :
    (∀ part ∈ doc.parts, reader.Knows part) ∧ ∀ text ∈ doc.strings, ∃ own, reader.str text = some own := by
  induction doc generalizing value with
  | null | bool =>
    refine ⟨fun part member => ?_, nofun⟩
    cases List.mem_singleton.mp member
    exact (Option.ite_none_right_eq_some.mp read).1
  | int value =>
    refine ⟨fun part member => ?_, nofun⟩
    cases List.mem_singleton.mp member
    exact (Option.ite_none_right_eq_some.mp read).1
  | float number => exact number.elim
  | str text =>
    obtain ⟨own, named, -⟩ := Option.map_eq_some_iff.mp read
    refine ⟨fun part member => ?_, fun other member => ?_⟩
    · cases List.mem_singleton.mp member
      exact trivial
    · cases List.mem_singleton.mp member
      exact ⟨own, named⟩
  | arr items ih =>
    obtain ⟨values, listed, -⟩ := Option.map_eq_some_iff.mp read
    have each := readingItems_forall listed
    refine ⟨fun part member => ?_, fun text member => ?_⟩
    · rw [Doc.parts_arr] at member
      rcases List.mem_cons.mp member with rfl | member
      · exact trivial
      · obtain ⟨item, among, inside⟩ := List.mem_flatMap.mp member
        obtain ⟨_, -, own⟩ := forall_of_forall₂ each among
        exact (ih item among own).1 part inside
    · rw [Doc.strings_arr] at member
      obtain ⟨item, among, inside⟩ := List.mem_flatMap.mp member
      obtain ⟨_, -, own⟩ := forall_of_forall₂ each among
      exact (ih item among own).2 text inside
  | obj entries ih =>
    obtain ⟨values, listed, -⟩ := Option.map_eq_some_iff.mp read
    have each := readingEntries_forall listed
    refine ⟨fun part member => ?_, fun text member => ?_⟩
    · rw [Doc.parts_obj] at member
      rcases List.mem_cons.mp member with rfl | member
      · exact trivial
      · obtain ⟨entry, among, inside⟩ := List.mem_flatMap.mp member
        obtain ⟨_, -, -, own⟩ := forall_of_forall₂ each among
        exact (ih entry among own).1 part inside
    · rw [Doc.strings_obj] at member
      obtain ⟨entry, among, inside⟩ := List.mem_flatMap.mp member
      obtain ⟨_, -, named, own⟩ := forall_of_forall₂ each among
      rcases List.mem_cons.mp inside with rfl | inside
      · exact ⟨_, named⟩
      · exact (ih entry among own).2 text inside

/-- The strings a reader gets are those it reads, less those of the entries that
a later entry takes the place of. -/
theorem reading_strings {doc : Doc σ Empty} {value : Value} (read : reading reader doc = some value) :
    value.strings.Sublist (doc.strings.map fun text => (reader.str text).getD []) := by
  induction doc generalizing value with
  | null | bool | int =>
    obtain ⟨-, same⟩ := Option.ite_none_right_eq_some.mp read
    cases same
    exact List.Sublist.refl _
  | float number => exact number.elim
  | str text =>
    obtain ⟨own, named, rfl⟩ := Option.map_eq_some_iff.mp read
    simp only [Doc.strings, List.map_cons, List.map_nil, named, Option.getD_some]
    exact List.Sublist.refl _
  | arr items ih =>
    obtain ⟨values, listed, rfl⟩ := Option.map_eq_some_iff.mp read
    have each := readingItems_forall listed
    clear read listed
    rw [Doc.strings, Doc.strings]
    induction each with
    | nil => exact List.Sublist.refl _
    | cons own _ later =>
      rw [Doc.itemStrings, Doc.itemStrings, List.map_append]
      exact (ih _ (List.mem_cons_self ..) own).append (later fun item member => ih item (List.mem_cons_of_mem _ member))
  | obj entries ih =>
    obtain ⟨values, listed, rfl⟩ := Option.map_eq_some_iff.mp read
    have each := readingEntries_forall listed
    clear read listed
    rw [Doc.strings, Doc.strings]
    have kept : (Doc.entryStrings (dictOf values)).Sublist (Doc.entryStrings values) := by
      rw [Doc.entryStrings_eq, Doc.entryStrings_eq]
      exact (dictOf_sublist values).flatMap _
    refine kept.trans ?_
    clear kept
    induction each with
    | nil => exact List.Sublist.refl _
    | @cons entry result _ _ own _ later =>
      obtain ⟨named, own⟩ := own
      rw [Doc.entryStrings, Doc.entryStrings, List.cons_append, List.cons_append, List.map_cons, List.map_append, named, Option.getD_some]
      exact ((ih _ (List.mem_cons_self ..) own).append
        (later fun entry member => ih entry (List.mem_cons_of_mem _ member))).cons_cons _

/-- A reader that knows all parts of a document, and reads different keys
differently, reads it as it is. -/
theorem reading_map {doc : Doc σ Empty} {read : σ → List Char} (knows : ∀ part ∈ doc.parts, reader.Knows part)
    (strings : ∀ text ∈ doc.strings, reader.str text = some (read text)) (distinct : doc.Distinct read) :
    reading reader doc = some (doc.map read Empty.elim) := by
  induction doc with
  | null | bool =>
    exact if_pos (knows _ (List.mem_singleton_self _))
  | int value =>
    exact if_pos (knows _ (List.mem_singleton_self _))
  | float number => exact number.elim
  | str text =>
    exact congrArg (Option.map Doc.str) (strings text (List.mem_singleton_self text))
  | arr items ih =>
    have each (item) (member : item ∈ items) : reading reader item = some (item.map read Empty.elim) :=
      ih item member (fun part inside => knows part (Doc.parts_item member inside))
        (fun text inside => strings text (Doc.strings_item member inside))
        (fun part inside => distinct part (Doc.parts_item member inside))
    have all : readingItems reader items = some (items.map (Doc.map read Empty.elim)) := by
      clear ih knows strings distinct
      induction items with
      | nil => rfl
      | cons item rest later =>
        rw [readingItems, each item (List.mem_cons_self ..), later fun item member => each item (List.mem_cons_of_mem _ member)]
        rfl
    rw [Doc.map_arr]
    exact congrArg (Option.map Doc.arr) all
  | obj entries ih =>
    have each (entry) (member : entry ∈ entries) : reading reader entry.2 = some (entry.2.map read Empty.elim) :=
      ih entry member (fun part inside => knows part (Doc.parts_entry member inside))
        (fun text inside => strings text (Doc.strings_entry member inside))
        (fun part inside => distinct part (Doc.parts_entry member inside))
    have named (entry) (member : entry ∈ entries) : reader.str entry.1 = some (read entry.1) :=
      strings entry.1 (Doc.strings_key member)
    have own := (Doc.distinct_obj.mp distinct).1
    have all : readingEntries reader entries = some (entries.map fun entry => (read entry.1, entry.2.map read Empty.elim)) := by
      clear ih knows strings distinct own
      induction entries with
      | nil => rfl
      | cons entry rest later =>
        rw [readingEntries, named entry (List.mem_cons_self ..)]
        dsimp only
        rw [each entry (List.mem_cons_self ..), later (fun entry member => each entry (List.mem_cons_of_mem _ member))
          fun entry member => named entry (List.mem_cons_of_mem _ member)]
        rfl
    rw [Doc.map_obj, ← @dictOf_distinct _ _ _ (entries.map _) (by rwa [List.map_map])]
    exact congrArg (Option.map fun entries => Doc.obj (dictOf entries)) all

end

/-- A reader has gone over the beginning of a text, where it met no backslash. -/
def Skips (text rest : List Char) : Prop := ∃ skipped, text = skipped ++ rest ∧ ∀ c ∈ skipped, c ≠ '\\'

theorem Skips.refl (text : List Char) : Skips text text := ⟨[], rfl, nofun⟩

theorem Skips.trans {text middle rest : List Char} (first : Skips text middle) (second : Skips middle rest) : Skips text rest := by
  obtain ⟨before, rfl, plain⟩ := first
  obtain ⟨skipped, rfl, more⟩ := second
  refine ⟨before ++ skipped, (List.append_assoc ..).symm, fun c member => ?_⟩
  exact (List.mem_append.mp member).elim (plain c) (more c)

theorem Skips.cons {c : Char} (plain : c ≠ '\\') {text rest : List Char} (more : Skips text rest) : Skips (c :: text) rest := by
  refine Skips.trans ⟨[c], rfl, fun other member => ?_⟩ more
  cases List.mem_singleton.mp member
  exact plain

theorem skips_space (text : List Char) : Skips text (skipSpace text) := by
  refine ⟨text.takeWhile isSpace, (List.takeWhile_append_dropWhile ..).symm, ?_⟩
  rintro _ member rfl
  cases List.mem_takeWhile_imp member

theorem skips_digits {text first rest : List Char} (parted : digits text = (first, rest)) : Skips text rest := by
  cases parted
  refine ⟨text.takeWhile Char.isDigit, (List.takeWhile_append_dropWhile ..).symm, ?_⟩
  rintro _ member rfl
  cases List.mem_takeWhile_imp member

theorem skips_parseDigits {text first rest : List Char} (read : parseDigits text = some (first, rest)) : Skips text rest := by
  unfold parseDigits at read
  split at read
  · cases read
  · rename_i more after parted
    cases read
    have whole : text = '0' :: (more ++ after) := by
      rw [← List.cons_append]
      exact (congrArg (fun pair => pair.1 ++ pair.2) parted).symm.trans (List.takeWhile_append_dropWhile ..) |>.symm
    rw [whole]
    exact Skips.cons (by decide) (Skips.refl _)
  · cases read
    exact skips_digits ‹_›

theorem skips_parseFraction (text : List Char) : Skips text (parseFraction text).2 := by
  unfold parseFraction
  split
  · split
    · exact Skips.refl _
    · exact Skips.cons (by decide) (skips_digits ‹_›)
  · exact Skips.refl _

theorem skips_parseSign (text : List Char) : Skips text (parseSign text).2 := by
  unfold parseSign
  split
  · exact Skips.cons (by decide) (Skips.refl _)
  · exact Skips.cons (by decide) (Skips.refl _)
  · exact Skips.refl _

theorem skips_parseExponent (text : List Char) : Skips text (parseExponent text).2 := by
  unfold parseExponent
  split
  · exact Skips.refl _
  · rename_i e rest
    split
    · rename_i mark
      split
      · exact Skips.refl _
      · refine Skips.cons ?_ ((skips_parseSign rest).trans (skips_digits ‹_›))
        rintro rfl
        exact absurd mark (by decide)
    · exact Skips.refl _

theorem skips_parseUnsigned {sign text rest : List Char} {value : Value} (read : parseUnsigned sign text = some (value, rest)) :
    Skips text rest ∧ value.strings = [] := by
  obtain ⟨⟨first, after⟩, parted, result⟩ := Option.map_eq_some_iff.mp read
  have skips := (skips_parseDigits parted).trans ((skips_parseFraction after).trans (skips_parseExponent _))
  dsimp only at result
  split at result
  · cases result
    exact ⟨skips, rfl⟩
  · cases result
    exact ⟨skips, rfl⟩

theorem skips_parseNumber {text rest : List Char} {value : Value} (read : parseNumber text = some (value, rest)) :
    Skips text rest ∧ value.strings = [] := by
  unfold parseNumber at read
  split at read
  · exact ⟨Skips.cons (by decide) (skips_parseUnsigned read).1, (skips_parseUnsigned read).2⟩
  · exact skips_parseUnsigned read

/-- The constants and the numbers hold no strings. -/
theorem skips_parseAtom {text rest : List Char} {value : Value} (read : parseAtom text = some (value, rest)) :
    Skips text rest ∧ value.strings = [] := by
  have constant (word : List Char) (plain : '\\' ∉ word) (rest : List Char) : Skips (word ++ rest) rest :=
    ⟨word, rfl, fun _ member same => plain (same ▸ member)⟩
  unfold parseAtom at read
  split at read
  · cases read
    exact ⟨constant "null".toList (by decide) rest, rfl⟩
  · cases read
    exact ⟨constant "true".toList (by decide) rest, rfl⟩
  · cases read
    exact ⟨constant "false".toList (by decide) rest, rfl⟩
  · cases read
    exact ⟨constant "NaN".toList (by decide) rest, rfl⟩
  · cases read
    exact ⟨constant "Infinity".toList (by decide) rest, rfl⟩
  · cases read
    exact ⟨constant "-Infinity".toList (by decide) rest, rfl⟩
  · exact skips_parseNumber read

/-- Texts that stay good while a reader goes over them, and the characters it
takes from them. -/
structure Keeps (good : List Char → Prop) (takes : Char → Prop) : Prop where
  skip : ∀ {c rest}, good (c :: rest) → c ≠ '\\' → good rest
  take : ∀ {c rest}, good (c :: rest) → c ≠ '\\' → c ≠ '"' → takes c
  escape : ∀ {rest c after}, good ('\\' :: rest) → unescape rest = some (c, after) → takes c ∧ good after

section

variable {good : List Char → Prop} {takes : Char → Prop}

theorem Keeps.skips (keeps : Keeps good takes) {text rest : List Char} (skips : Skips text rest) (start : good text) : good rest := by
  obtain ⟨skipped, rfl, plain⟩ := skips
  induction skipped with
  | nil => exact start
  | cons c skipped ih =>
    exact ih (fun other member => plain other (List.mem_cons_of_mem _ member)) (keeps.skip start (plain c (List.mem_cons_self ..)))

theorem Keeps.string (keeps : Keeps good takes) {fuel : Nat} {text own rest : List Char} (start : good text)
    (read : parseString fuel text = some (own, rest)) : (∀ c ∈ own, takes c) ∧ good rest := by
  induction fuel generalizing text own with
  | zero => cases read
  | succ fuel ih =>
    cases text with
    | nil => cases read
    | cons c text =>
      rw [parseString] at read
      split at read
      · rename_i closing
        cases read
        exact ⟨List.forall_mem_nil _, keeps.skip start (closing ▸ by decide)⟩
      · rename_i inside
        split at read
        · rename_i backslash
          obtain ⟨⟨taken, after⟩, escaped, later⟩ := Option.bind_eq_some_iff.mp read
          obtain ⟨⟨others, end_⟩, parsed, same⟩ := Option.map_eq_some_iff.mp later
          cases same
          rw [backslash] at start
          obtain ⟨takes, good⟩ := keeps.escape start escaped
          obtain ⟨all, last⟩ := ih good parsed
          exact ⟨List.forall_mem_cons.mpr ⟨takes, all⟩, last⟩
        · rename_i plain
          split at read
          · cases read
          · obtain ⟨⟨others, end_⟩, parsed, same⟩ := Option.map_eq_some_iff.mp read
            cases same
            obtain ⟨all, last⟩ := ih (keeps.skip start plain) parsed
            exact ⟨List.forall_mem_cons.mpr ⟨keeps.take start plain inside, all⟩, last⟩

/-- What a reader of good texts gets: all characters of its strings are taken
from them, and they stay good. -/
def Taken (good : List Char → Prop) (takes : Char → Prop) (strings : List (List Char)) (rest : List Char) : Prop :=
  (∀ text ∈ strings, ∀ c ∈ text, takes c) ∧ good rest

/-- It is so for the values, the items and the entries that are nested less
deeply than a bound. -/
theorem Keeps.nested (keeps : Keeps good takes) (fuel : Nat) :
    (∀ {text value rest}, good text → parseValue fuel text = some (value, rest) → Taken good takes value.strings rest) ∧
    (∀ {text items rest}, good text → parseItems fuel text = some (items, rest) →
      Taken good takes (Doc.itemStrings items) rest) ∧
    ∀ {text entries rest}, good text → parseEntries fuel text = some (entries, rest) →
      Taken good takes (Doc.entryStrings entries) rest := by
  induction fuel with
  | zero => exact ⟨by rintro _ _ _ _ ⟨⟩, by rintro _ _ _ _ ⟨⟩, by rintro _ _ _ _ ⟨⟩⟩
  | succ fuel ih =>
    obtain ⟨values, items, entries⟩ := ih
    refine ⟨?_, ?_, ?_⟩
    · intro text value rest start read
      cases text with
      | nil => cases read
      | cons c text =>
        rw [parseValue] at read
        split at read
        · rename_i quote
          obtain ⟨⟨own, after⟩, parsed, same⟩ := Option.map_eq_some_iff.mp read
          cases same
          obtain ⟨taken, good⟩ := keeps.string (keeps.skip start (quote ▸ by decide)) parsed
          exact ⟨fun text member => List.mem_singleton.mp member ▸ taken, good⟩
        · split at read
          · rename_i bracket
            have inside := keeps.skips (skips_space text) (keeps.skip start (bracket ▸ by decide))
            split at read
            · rename_i empty
              cases read
              rw [empty] at inside
              exact ⟨List.forall_mem_nil _, keeps.skip inside (by decide)⟩
            · obtain ⟨⟨own, after⟩, parsed, same⟩ := Option.map_eq_some_iff.mp read
              cases same
              exact items inside parsed
          · split at read
            · rename_i brace
              have inside := keeps.skips (skips_space text) (keeps.skip start (brace ▸ by decide))
              split at read
              · rename_i empty
                cases read
                rw [empty] at inside
                exact ⟨List.forall_mem_nil _, keeps.skip inside (by decide)⟩
              · obtain ⟨⟨own, after⟩, parsed, same⟩ := Option.map_eq_some_iff.mp read
                cases same
                obtain ⟨taken, good⟩ := entries inside parsed
                refine ⟨fun text member => taken text ?_, good⟩
                rw [Doc.strings_obj] at member
                rw [Doc.entryStrings_eq]
                exact ((dictOf_sublist own).flatMap _).subset member
            · obtain ⟨skips, none_⟩ := skips_parseAtom read
              rw [none_]
              exact ⟨List.forall_mem_nil _, keeps.skips skips start⟩
    · intro text own rest start read
      rw [parseItems] at read
      split at read
      · cases read
      · rename_i item after parsed
        obtain ⟨taken, good⟩ := values start parsed
        have next := keeps.skips (skips_space after) good
        split at read
        · rename_i more comma
          rw [comma] at next
          obtain ⟨⟨others, end_⟩, later, same⟩ := Option.map_eq_some_iff.mp read
          cases same
          obtain ⟨all, last⟩ := items (keeps.skips (skips_space more) (keeps.skip next (by decide))) later
          exact ⟨fun text member => (List.mem_append.mp member).elim (taken text) (all text), last⟩
        · rename_i closing
          cases read
          rw [closing] at next
          exact ⟨fun text member => (List.mem_append.mp member).elim (taken text) (by rintro ⟨⟩), keeps.skip next (by decide)⟩
        · cases read
    · intro text own rest start read
      unfold parseEntries at read
      split at read
      · cases read
      · rename_i text same
        cases same
        split at read
        · cases read
        · rename_i key after named
          obtain ⟨keyTaken, good⟩ := keeps.string (keeps.skip start (by decide)) named
          have next := keeps.skips (skips_space after) good
          split at read
          · rename_i more colon
            rw [colon] at next
            split at read
            · cases read
            · rename_i value left parsed
              obtain ⟨taken, good⟩ := values (keeps.skips (skips_space more) (keeps.skip next (by decide))) parsed
              have next := keeps.skips (skips_space left) good
              have head (text) (member : text ∈ key :: value.strings) : ∀ c ∈ text, takes c :=
                (List.mem_cons.mp member).elim (fun same => same ▸ keyTaken) (taken text)
              split at read
              · rename_i more comma
                rw [comma] at next
                obtain ⟨⟨others, end_⟩, later, same⟩ := Option.map_eq_some_iff.mp read
                cases same
                obtain ⟨all, last⟩ := entries (keeps.skips (skips_space more) (keeps.skip next (by decide))) later
                exact ⟨fun text member => (List.mem_append.mp member).elim (head text) (all text), last⟩
              · rename_i closing
                cases read
                rw [closing] at next
                exact ⟨fun text member => (List.mem_append.mp member).elim (head text) (by rintro ⟨⟩), keeps.skip next (by decide)⟩
              · cases read
          · cases read
      · cases read

/-- All characters of the strings of a value are taken from the text it is read
from. -/
theorem Keeps.loads (keeps : Keeps good takes) {text : List Char} {value : Value} (start : good text) (read : loads text = some value) :
    ∀ own ∈ value.strings, ∀ c ∈ own, takes c := by
  unfold Json.loads at read
  split at read
  · cases read
  · rename_i own rest parsed
    split at read
    · cases read
      exact ((keeps.nested _).1 (keeps.skips (skips_space text) start) parsed).1
    · cases read

end

end Json
