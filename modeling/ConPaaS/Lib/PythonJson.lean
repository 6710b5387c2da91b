import ConPaaS.Lib.PythonText
import Mathlib.Tactic.Choose

/-! `json.dumps` and `json.loads` of values that were read from JSON, in strings
of bytes. -/

namespace Python

open Json

/-- What Python makes of the numbers that are no integers, by their texts in
JSON. -/
structure Floats where
  repr : List Char → List Char
  isZero : List Char → Bool
  toInt : List Char → Option Int

section Dumps

variable (floats : Floats)

mutual

/-- `json.dumps` -/
def dumps : Value → List Char
  | .null => dumpStyle.null
  | .bool value => dumpStyle.bool value
  | .int value => dumpStyle.int value
  | .float text => floats.repr text
  | .str text => dumpStyle.literal text
  | .arr items => '[' :: join (dumpItems items) ++ [']']
  | .obj entries => '{' :: join (dumpEntries entries) ++ ['}']

def dumpItems : List Value → List (List Char)
  | [] => []
  | item :: rest => dumps item :: dumpItems rest

def dumpEntries : List (List Char × Value) → List (List Char)
  | [] => []
  | (key, value) :: rest => (dumpStyle.literal key ++ ':' :: ' ' :: dumps value) :: dumpEntries rest

end

/-- What Python takes for true. -/
def truthy : Value → Bool
  | .null => false
  | .bool value => value
  | .int value => value ≠ 0
  | .float text => !floats.isZero text
  | .str text => !text.isEmpty
  | .arr items => !items.isEmpty
  | .obj entries => !entries.isEmpty

end Dumps

/-- The order in which a dictionary is gone through. -/
structure Enumeration where
  entries : (α : Type) → List (List Char × α) → List (List Char × α)
  perm : ∀ α list, (entries α list).Perm list

/-- The characters of a string of bytes in UTF-8. -/
def utf8 (bytes : List Char) : Option (List Char) :=
  (ByteArray.mk (bytes.map fun c => UInt8.ofNat c.toNat).toArray).utf8Decode?.map Array.toList

/-- `json.loads` of a string of bytes. -/
def loadsBytes (bytes : List Char) : Option Value := (utf8 bytes).bind loads

variable {floats : Floats} {text : List Char}

theorem encode_ascii {c : Char} (ascii : c.toNat < 0x80) : String.utf8EncodeChar c = [UInt8.ofNat c.toNat] := by
  have small : c.val.toNat < 0x80 := ascii
  rw [String.utf8EncodeChar, if_pos (by omega)]
  rfl

theorem utf8_ascii (ascii : ∀ c ∈ text, c.toNat < 0x80) : utf8 text = some text := by
  have bytes : ByteArray.mk (text.map fun c => UInt8.ofNat c.toNat).toArray = text.utf8Encode := by
    rw [List.utf8Encode, List.flatMap_congr fun c member => encode_ascii (ascii c member), ← List.map_eq_flatMap]
    ext1
    exact (List.data_toByteArray ..).symm
  rw [utf8, bytes, List.utf8Decode?_utf8Encode]
  rfl

/-- A value that comes through JSON as it is: it has no numbers but integers, and
no object has a key twice. -/
def Exact (value : Value) : Prop :=
  value.Distinct id ∧ ∀ part ∈ value.parts, ∀ text, part ≠ .float text

theorem exact_single {value : Value} (parts : value.parts = [value]) (keys : value.keys id = []) (plain : ∀ text, value ≠ .float text) :
    Exact value := by
  refine ⟨fun part member => ?_, fun part member text => ?_⟩
  · rw [parts, List.mem_singleton] at member
    rw [member, keys]
    exact List.nodup_nil
  · rw [parts, List.mem_singleton] at member
    rw [member]
    exact plain text

theorem exact_null : Exact .null := exact_single rfl rfl fun _ same => by cases same

theorem exact_int (value : Int) : Exact (.int value) := exact_single rfl rfl fun _ same => by cases same

theorem exact_str (text : List Char) : Exact (.str text) := exact_single rfl rfl fun _ same => by cases same

theorem exact_arr {items : List Value} (each : ∀ item ∈ items, Exact item) : Exact (.arr items) := by
  refine ⟨Doc.distinct_arr fun item member => (each item member).1, fun part member => ?_⟩
  rw [Doc.parts_arr] at member
  rcases List.mem_cons.mp member with rfl | inside
  · exact fun _ same => by cases same
  · obtain ⟨item, among, inside⟩ := List.mem_flatMap.mp inside
    exact (each item among).2 part inside

theorem exact_item {items : List Value} {item : Value} (exact : Exact (.arr items)) (member : item ∈ items) : Exact item :=
  ⟨fun part inside => exact.1 part (Doc.parts_item member inside), fun part inside => exact.2 part (Doc.parts_item member inside)⟩

theorem exact_obj {entries : List (List Char × Value)} :
    Exact (.obj entries) ↔ (entries.map Prod.fst).Nodup ∧ ∀ entry ∈ entries, Exact entry.2 := by
  constructor
  · rintro ⟨distinct, plain⟩
    obtain ⟨keys, values⟩ := Doc.distinct_obj.mp distinct
    exact ⟨keys, fun entry member => ⟨values entry member, fun part inside => plain part (Doc.parts_entry member inside)⟩⟩
  · rintro ⟨keys, each⟩
    refine ⟨Doc.distinct_obj.mpr ⟨keys, fun entry member => (each entry member).1⟩, fun part member => ?_⟩
    rw [Doc.parts_obj] at member
    rcases List.mem_cons.mp member with rfl | inside
    · exact fun _ same => by cases same
    · obtain ⟨entry, among, inside⟩ := List.mem_flatMap.mp inside
      exact (each entry among).2 part inside

theorem dumpItems_eq (items : List Value) : dumpItems floats items = items.map (dumps floats) := by
  induction items with
  | nil => rfl
  | cons item rest ih => rw [dumpItems, ih, List.map_cons]

theorem dumpEntries_eq (entries : List (List Char × Value)) :
    dumpEntries floats entries = entries.map fun entry => dumpStyle.literal entry.1 ++ ':' :: ' ' :: dumps floats entry.2 := by
  induction entries with
  | nil => rfl
  | cons entry rest ih => rw [dumpEntries, ih, List.map_cons]

/-- Such a value is a document without other numbers. -/
theorem exact_doc {value : Value} (exact : Exact value) :
    ∃ doc : Doc (List Char) Empty, doc.Distinct id ∧ doc.map id Empty.elim = value := by
  have single (doc : Doc (List Char) Empty) (own : doc.parts = [doc]) (keys : doc.keys id = []) : doc.Distinct id := by
    intro part member
    rw [own, List.mem_singleton] at member
    rw [member, keys]
    exact List.nodup_nil
  induction value using Doc.induct with
  | null => exact ⟨.null, single _ rfl rfl, rfl⟩
  | bool value => exact ⟨.bool value, single _ rfl rfl, rfl⟩
  | int value => exact ⟨.int value, single _ rfl rfl, rfl⟩
  | float text => exact absurd rfl (exact.2 (.float text) (List.mem_singleton_self _) text)
  | str text => exact ⟨.str text, single _ rfl rfl, rfl⟩
  | arr items ih =>
    have : Inhabited (Doc (List Char) Empty) := ⟨.null⟩
    choose! doc distinct same using fun item member => ih item member (exact_item exact member)
    refine ⟨.arr (items.map doc), Doc.distinct_arr (List.forall_mem_map.mpr distinct), ?_⟩
    rw [Doc.map_arr, List.map_map]
    exact congrArg Doc.arr ((List.map_congr_left same).trans (List.map_id _))
  | obj entries ih =>
    obtain ⟨keys, each⟩ := exact_obj.mp exact
    have : Inhabited (Doc (List Char) Empty) := ⟨.null⟩
    choose! doc distinct same using fun entry member => ih entry member (each entry member)
    refine ⟨.obj (entries.map fun entry => (entry.1, doc entry)), Doc.distinct_obj.mpr ⟨?_, List.forall_mem_map.mpr distinct⟩, ?_⟩
    · rw [List.map_map]
      exact keys
    · have whole (entry) (member : entry ∈ entries) : (id entry.1, (doc entry).map id Empty.elim) = entry :=
        Prod.ext rfl (same entry member)
      rw [Doc.map_obj, List.map_map]
      exact congrArg Doc.obj ((List.map_congr_left whole).trans (List.map_id _))

theorem dumps_map (doc : Doc (List Char) Empty) : dumps floats (doc.map id Empty.elim) = render dumpStyle doc := by
  induction doc with
  | null | bool | int | str => rfl
  | float value => exact value.elim
  | arr items ih =>
    have texts : items.map (dumps floats ∘ Doc.map id Empty.elim) = items.map (render dumpStyle) := List.map_congr_left ih
    rw [Doc.map_arr, dumps, dumpItems_eq, List.map_map, texts, render, Json.renderItems_eq]
  | obj entries ih =>
    rw [Doc.map_obj, dumps, dumpEntries_eq, List.map_map, render, Json.renderEntries_eq]
    have texts : entries.map ((fun entry => dumpStyle.literal entry.1 ++ ':' :: ' ' :: dumps floats entry.2) ∘
        fun entry => (id entry.1, entry.2.map id Empty.elim)) =
        entries.map fun entry => dumpStyle.literal entry.1 ++ ':' :: ' ' :: render dumpStyle entry.2 :=
      List.map_congr_left fun entry member => by rw [Function.comp_apply, ih entry member]; rfl
    rw [texts]

theorem dumps_ascii {value : Value} (exact : Exact value) : ∀ c ∈ dumps floats value, c.toNat < 0x80 := by
  obtain ⟨doc, -, rfl⟩ := exact_doc exact
  rw [dumps_map]
  intro c member
  have visible := printable_dump doc c member
  simp only [printable, Bool.and_eq_true, decide_eq_true_eq] at visible
  omega

/-- `json.loads` gives back what `json.dumps` was given. -/
theorem loadsBytes_dumps {value : Value} (exact : Exact value) : loadsBytes (dumps floats value) = some value := by
  rw [loadsBytes, utf8_ascii (dumps_ascii exact)]
  obtain ⟨doc, distinct, rfl⟩ := exact_doc exact
  rw [dumps_map]
  exact loads_dump distinct

theorem dumps_ne_nil {value : Value} (exact : Exact value) : dumps floats value ≠ [] := by
  intro empty
  have read : loadsBytes (dumps floats value) = some value := loadsBytes_dumps exact
  rw [empty, loadsBytes, utf8_ascii (List.forall_mem_nil _)] at read
  cases read

section Lookup

variable {κ α : Type} [BEq κ] [LawfulBEq κ] {entries : List (κ × α)} {key : κ} {value : α}

theorem lookup_of_mem (distinct : (entries.map Prod.fst).Nodup) (member : (key, value) ∈ entries) :
    entries.lookup key = some value := by
  induction entries with
  | nil => cases member
  | cons entry rest ih =>
    obtain ⟨apart, distinct⟩ := List.nodup_cons.mp distinct
    rcases List.mem_cons.mp member with rfl | later
    · exact List.lookup_cons_self
    · have other : key ≠ entry.1 := fun same => apart (same ▸ List.mem_map_of_mem later)
      rw [List.lookup_cons, beq_false_of_ne other, ih distinct later]

theorem lookup_of_notMem (absent : key ∉ entries.map Prod.fst) : entries.lookup key = none := by
  rw [List.lookup_eq_none_iff]
  intro entry member
  rw [bne_iff_ne]
  rintro rfl
  exact absent (List.mem_map_of_mem member)

end Lookup

namespace Enumeration

variable (enumeration : Enumeration) {α : Type} {list : List (List Char × α)} {key : List Char} {value : α}

theorem distinct (distinct : (list.map Prod.fst).Nodup) : ((enumeration.entries α list).map Prod.fst).Nodup :=
  ((enumeration.perm α list).map Prod.fst).nodup_iff.mpr distinct

theorem lookup_some (distinct : (list.map Prod.fst).Nodup) (member : (key, value) ∈ list) :
    (enumeration.entries α list).lookup key = some value :=
  lookup_of_mem (enumeration.distinct distinct) ((enumeration.perm α list).mem_iff.mpr member)

theorem lookup_none (absent : key ∉ list.map Prod.fst) : (enumeration.entries α list).lookup key = none :=
  lookup_of_notMem fun member => absent (((enumeration.perm α list).map Prod.fst).mem_iff.mp member)

/-- An object keeps its values in any order of its entries. -/
theorem exact {entries : List (List Char × Value)} (distinct : (entries.map Prod.fst).Nodup)
    (each : ∀ entry ∈ entries, Exact entry.2) : Exact (.obj (enumeration.entries Value entries)) :=
  exact_obj.mpr ⟨enumeration.distinct distinct, fun entry member => each entry ((enumeration.perm Value entries).mem_iff.mp member)⟩

end Enumeration

end Python
