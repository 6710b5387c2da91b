import Mathlib.Data.List.Perm.Basic
import Mathlib.Data.List.Nodup
import Mathlib.Algebra.BigOperators.Group.List.Basic

namespace Keyed

/-- Rows with distinct keys: a database table under its primary key, or a
dictionary whose values know the key they are stored under. The order of the
rows is the order in which they are enumerated. -/
structure Table {α κ : Type} (key : α → κ) where
  rows : List α
  keyed : (rows.map key).Nodup

namespace Table

variable {α κ : Type} {key : α → κ}

theorem ext {s t : Table key} (same : s.rows = t.rows) : s = t := by
  cases s
  cases t
  cases same
  rfl

instance [DecidableEq α] : DecidableEq (Table key) := fun s t =>
  decidable_of_iff (s.rows = t.rows) ⟨ext, congrArg rows⟩

/-- The table without rows. -/
def empty : Table key := ⟨[], .nil⟩

/-- The rows that meet a condition. -/
def filter (t : Table key) (keep : α → Bool) : Table key :=
  ⟨t.rows.filter keep, t.keyed.sublist (List.filter_sublist.map key)⟩

/-- The rows under a change that leaves their keys alone. -/
def map (t : Table key) (change : α → α) (same : ∀ a, key (change a) = key a := by intro _; rfl) : Table key :=
  ⟨t.rows.map change, by
    rw [List.map_map, show key ∘ change = key from funext same]
    exact t.keyed⟩

/-- The table with rows under new keys after its own. -/
def append (t : Table key) (rows : List α) (fresh : ((t.rows ++ rows).map key).Nodup) : Table key :=
  ⟨t.rows ++ rows, fresh⟩

@[simp] theorem append_rows (t : Table key) (rows : List α) (fresh : ((t.rows ++ rows).map key).Nodup) :
    (t.append rows fresh).rows = t.rows ++ rows := rfl

@[simp] theorem empty_rows : (empty : Table key).rows = [] := rfl

@[simp] theorem filter_rows (t : Table key) (keep : α → Bool) : (t.filter keep).rows = t.rows.filter keep := rfl

@[simp] theorem map_rows (t : Table key) (change : α → α) (same : ∀ a, key (change a) = key a := by intro _; rfl) :
    (t.map change same).rows = t.rows.map change := rfl

theorem rows_nodup (t : Table key) : t.rows.Nodup := List.Nodup.of_map key t.keyed

theorem keys_map (t : Table key) (change : α → α) (same : ∀ a, key (change a) = key a := by intro _; rfl) :
    (t.map change same).rows.map key = t.rows.map key := by
  rw [map_rows t change same, List.map_map]
  exact List.map_congr_left fun a _ => same a

/-- Two rows with one key are one row. -/
theorem unique (t : Table key) {a b : α} (left : a ∈ t.rows) (right : b ∈ t.rows) (same : key a = key b) : a = b :=
  List.inj_on_of_nodup_map t.keyed left right same

variable [DecidableEq κ]

/-- The row stored under a key. -/
def get? (t : Table key) (k : κ) : Option α := t.rows.find? fun a => key a = k

/-- The table without the row stored under a key. -/
def erase (t : Table key) (k : κ) : Table key := t.filter fun a => key a ≠ k

/-- The table with one row stored under its key, in place of what was there. -/
def put (t : Table key) (a : α) : Table key :=
  ⟨a :: (t.erase (key a)).rows, by
    refine List.nodup_cons.mpr ⟨?_, (t.erase (key a)).keyed⟩
    intro member
    obtain ⟨b, inside, same⟩ := List.mem_map.mp member
    simp only [erase, filter_rows, List.mem_filter, decide_eq_true_eq] at inside
    exact inside.2 same⟩

/-- The table with the row under one key changed. -/
def modify (t : Table key) (k : κ) (change : α → α) (same : ∀ a, key (change a) = key a := by intro _; rfl) : Table key :=
  t.map (fun a => if key a = k then change a else a) fun a => by
    split
    · exact same a
    · rfl

/-- The table with a row added unless its key is taken, as a set of values
compared by their keys adds one. -/
def add (t : Table key) (a : α) : Table key :=
  match t.get? (key a) with
  | some _ => t
  | none => t.put a

@[simp] theorem erase_rows (t : Table key) (k : κ) :
    (t.erase k).rows = t.rows.filter fun a => key a ≠ k := rfl

@[simp] theorem put_rows (t : Table key) (a : α) : (t.put a).rows = a :: (t.erase (key a)).rows := rfl

@[simp] theorem modify_rows (t : Table key) (k : κ) (change : α → α) (same : ∀ a, key (change a) = key a := by intro _; rfl) :
    (t.modify k change same).rows = t.rows.map fun a => if key a = k then change a else a := rfl

theorem get?_iff {t : Table key} {k : κ} {a : α} : t.get? k = some a ↔ a ∈ t.rows ∧ key a = k := by
  constructor
  · intro found
    exact ⟨List.mem_of_find?_eq_some found, by simpa using List.find?_some found⟩
  · rintro ⟨member, rfl⟩
    cases found : t.get? (key a) with
    | none =>
      have absent := List.find?_eq_none.mp found a member
      simp at absent
    | some b =>
      have inside := List.mem_of_find?_eq_some found
      have same : key b = key a := by simpa using List.find?_some found
      rw [t.unique inside member same]

theorem get?_none_iff {t : Table key} {k : κ} : t.get? k = none ↔ ∀ a ∈ t.rows, key a ≠ k := by
  simp [get?, List.find?_eq_none]

theorem get?_mem {t : Table key} {k : κ} {a : α} (found : t.get? k = some a) : a ∈ t.rows :=
  (get?_iff.mp found).1

theorem get?_key {t : Table key} {k : κ} {a : α} (found : t.get? k = some a) : key a = k :=
  (get?_iff.mp found).2

theorem get?_of_mem {t : Table key} {a : α} (member : a ∈ t.rows) : t.get? (key a) = some a :=
  get?_iff.mpr ⟨member, rfl⟩

theorem mem_erase {t : Table key} {k : κ} {a : α} : a ∈ (t.erase k).rows ↔ a ∈ t.rows ∧ key a ≠ k := by
  simp [List.mem_filter]

theorem get?_erase_self (t : Table key) (k : κ) : (t.erase k).get? k = none :=
  get?_none_iff.mpr fun _ member => (mem_erase.mp member).2

theorem get?_erase_ne (t : Table key) {k l : κ} (other : l ≠ k) : (t.erase k).get? l = t.get? l := by
  ext a
  constructor
  · intro found
    obtain ⟨member, same⟩ := get?_iff.mp found
    exact get?_iff.mpr ⟨(mem_erase.mp member).1, same⟩
  · intro found
    obtain ⟨member, same⟩ := get?_iff.mp found
    exact get?_iff.mpr ⟨mem_erase.mpr ⟨member, same ▸ other⟩, same⟩

theorem get?_put_self (t : Table key) (a : α) : (t.put a).get? (key a) = some a :=
  get?_of_mem (by simp)

theorem erase_put (t : Table key) (a : α) : (t.put a).erase (key a) = t.erase (key a) := by
  refine ext ?_
  rw [erase_rows, put_rows, List.filter_cons_of_neg (by simp)]
  exact List.filter_eq_self.mpr fun b inside => by simpa using (mem_erase.mp inside).2

theorem erase_erase (t : Table key) (k : κ) : (t.erase k).erase k = t.erase k :=
  ext (List.filter_eq_self.mpr fun b inside => by simpa using (mem_erase.mp inside).2)

theorem mem_put {t : Table key} {a b : α} : b ∈ (t.put a).rows ↔ b = a ∨ b ∈ t.rows ∧ key b ≠ key a := by
  rw [put_rows, List.mem_cons, mem_erase]

theorem get?_put_ne (t : Table key) {a : α} {k : κ} (other : k ≠ key a) : (t.put a).get? k = t.get? k := by
  have skip : (t.put a).get? k = (t.erase (key a)).get? k := by
    simp [get?, put, Ne.symm other]
  rw [skip, get?_erase_ne t other]

theorem get?_modify_self {t : Table key} {k : κ} {a : α} (found : t.get? k = some a) (change : α → α)
    (same : ∀ a, key (change a) = key a := by intro _; rfl) : (t.modify k change same).get? k = some (change a) := by
  obtain ⟨member, owned⟩ := get?_iff.mp found
  refine get?_iff.mpr ⟨?_, (same a).trans owned⟩
  simp only [modify_rows, List.mem_map]
  exact ⟨a, member, by simp [owned]⟩

theorem get?_modify_ne (t : Table key) {k l : κ} (other : l ≠ k) (change : α → α)
    (same : ∀ a, key (change a) = key a := by intro _; rfl) : (t.modify k change same).get? l = t.get? l := by
  ext a
  constructor
  · intro found
    obtain ⟨member, owned⟩ := get?_iff.mp found
    obtain ⟨b, inside, value⟩ := List.mem_map.mp member
    by_cases here : key b = k
    · simp only [here, if_true] at value
      exact absurd (owned.symm.trans ((congrArg key value).symm.trans ((same b).trans here))) other
    · simp only [here, if_false] at value
      exact get?_iff.mpr ⟨value ▸ inside, owned⟩
  · intro found
    obtain ⟨member, owned⟩ := get?_iff.mp found
    refine get?_iff.mpr ⟨List.mem_map.mpr ⟨a, member, ?_⟩, owned⟩
    simp [owned ▸ other]

theorem get?_modify_of {t : Table key} {k l : κ} {a : α} (found : t.get? l = some a) (change : α → α)
    (same : ∀ a, key (change a) = key a := by intro _; rfl) :
    (t.modify k change same).get? l = some (if l = k then change a else a) := by
  split
  · rename_i here
    subst here
    exact get?_modify_self found change same
  · rename_i other
    rw [get?_modify_ne t other change same, found]

theorem get?_modify (t : Table key) (k : κ) (change : α → α) (same : ∀ a, key (change a) = key a := by intro _; rfl) :
    (t.modify k change same).get? k = (t.get? k).map change := by
  cases found : t.get? k with
  | none =>
    refine get?_none_iff.mpr fun a member => ?_
    obtain ⟨b, inside, rfl⟩ := List.mem_map.mp member
    rw [if_neg (get?_none_iff.mp found b inside)]
    exact get?_none_iff.mp found b inside
  | some a => exact get?_modify_self found change same

theorem get?_modify_map (t : Table key) (k l : κ) (change : α → α) (same : ∀ a, key (change a) = key a := by intro _; rfl) :
    (t.modify k change same).get? l = (t.get? l).map fun a => if l = k then change a else a := by
  cases found : t.get? l with
  | some a => exact get?_modify_of found change same
  | none =>
    by_cases here : l = k
    · subst here
      rw [get?_modify t l change same, found, Option.map_none, Option.map_none]
    · rw [get?_modify_ne t here change same, found, Option.map_none]

/-- A stored row stands apart from the rows stored under other keys. -/
theorem rows_perm {t : Table key} {k : κ} {a : α} (found : t.get? k = some a) :
    t.rows.Perm (a :: (t.erase k).rows) := by
  obtain ⟨member, owned⟩ := get?_iff.mp found
  refine (List.perm_ext_iff_of_nodup t.rows_nodup ?_).mpr ?_
  · refine List.nodup_cons.mpr ⟨?_, (t.erase k).rows_nodup⟩
    intro inside
    exact (mem_erase.mp inside).2 owned
  · intro b
    rw [List.mem_cons, mem_erase]
    constructor
    · intro inside
      by_cases here : key b = k
      · exact Or.inl (t.unique inside member (here.trans owned.symm))
      · exact Or.inr ⟨inside, here⟩
    · rintro (rfl | ⟨inside, _⟩)
      · exact member
      · exact inside

/-- Changing a row replaces it and leaves the others. -/
theorem modify_perm {t : Table key} {k : κ} {a : α} (found : t.get? k = some a) (change : α → α)
    (same : ∀ a, key (change a) = key a := by intro _; rfl) :
    (t.modify k change same).rows.Perm (change a :: (t.erase k).rows) := by
  have split := (rows_perm found).map fun b => if key b = k then change b else b
  rw [List.map_cons, if_pos (get?_key found)] at split
  have fixed : (t.erase k).rows.map (fun b => if key b = k then change b else b) = (t.erase k).rows := by
    refine (List.map_congr_left ?_).trans (List.map_id _)
    intro b inside
    simp [(mem_erase.mp inside).2]
  rwa [fixed] at split

/-- What is gathered from all rows changes by what it changes in one row. -/
theorem flatMap_modify {β : Type*} {t : Table key} {k : κ} {a : α} (found : t.get? k = some a) (change : α → α)
    (parts : α → List β) (before after : List β) (changed : (before ++ parts (change a)).Perm (after ++ parts a))
    (same : ∀ a, key (change a) = key a := by intro _; rfl) :
    (before ++ (t.modify k change same).rows.flatMap parts).Perm (after ++ t.rows.flatMap parts) := by
  have old := (rows_perm found).flatMap_right parts
  have new := (modify_perm found change same).flatMap_right parts
  rw [List.flatMap_cons] at old new
  refine (new.append_left before).trans (.trans ?_ (old.append_left after).symm)
  rw [← List.append_assoc, ← List.append_assoc]
  exact changed.append_right _

theorem flatMap_modify_same {β : Type*} (t : Table key) (k : κ) (change : α → α) (parts : α → List β)
    (kept : ∀ a, parts (change a) = parts a) (same : ∀ a, key (change a) = key a := by intro _; rfl) :
    (t.modify k change same).rows.flatMap parts = t.rows.flatMap parts := by
  rw [modify_rows t k change same, List.flatMap_map]
  refine List.flatMap_congr fun a _ => ?_
  split
  · exact kept a
  · rfl

/-- The same for what is counted in the rows. -/
theorem countP_modify {β : Type*} {t : Table key} {k : κ} {a : α} (found : t.get? k = some a) (change : α → α)
    (parts : α → List β) (p : β → Bool) {more less : Nat}
    (changed : (parts (change a)).countP p + less = (parts a).countP p + more)
    (same : ∀ a, key (change a) = key a := by intro _; rfl) :
    ((t.modify k change same).rows.flatMap parts).countP p + less = (t.rows.flatMap parts).countP p + more := by
  have old := ((rows_perm found).flatMap_right parts).countP_eq p
  have new := ((modify_perm found change same).flatMap_right parts).countP_eq p
  rw [List.flatMap_cons, List.countP_append] at old new
  omega

/-- What is gathered without repetition comes from one row. -/
theorem flatMap_unique {β : Type*} {t : Table key} {parts : α → List β} (distinct : (t.rows.flatMap parts).Nodup)
    {a b : α} (left : a ∈ t.rows) (right : b ∈ t.rows) {x : β} (inA : x ∈ parts a) (inB : x ∈ parts b) : a = b := by
  have split := (rows_perm (get?_of_mem left)).flatMap_right parts
  rw [List.flatMap_cons] at split
  have apart := (List.nodup_append.mp (split.nodup_iff.mp distinct)).2.2 x inA
  by_contra other
  have elsewhere : key b ≠ key a := fun same => other (t.unique left right same.symm)
  exact apart x (List.mem_flatMap.mpr ⟨b, mem_erase.mpr ⟨right, elsewhere⟩, inB⟩) rfl

/-- Changing a row that is not there changes nothing. -/
theorem modify_absent {t : Table key} {k : κ} (absent : t.get? k = none) (change : α → α)
    (same : ∀ a, key (change a) = key a := by intro _; rfl) : t.modify k change same = t := by
  refine ext ((List.map_congr_left ?_).trans (List.map_id _))
  intro b inside
  simp [get?_none_iff.mp absent b inside]

/-- Storing a row under a new key adds it to the others. -/
theorem put_fresh {t : Table key} {a : α} (fresh : t.get? (key a) = none) : (t.put a).rows = a :: t.rows := by
  rw [put_rows, erase_rows]
  congr 1
  exact List.filter_eq_self.mpr fun b inside => by simpa using get?_none_iff.mp fresh b inside

/-- Storing rows under new keys adds all of them. -/
theorem foldl_put_perm {t : Table key} {list : List α} (fresh : ((list ++ t.rows).map key).Nodup) :
    (list.foldl put t).rows.Perm (list ++ t.rows) := by
  induction list generalizing t with
  | nil => exact .refl _
  | cons a rest ih =>
    have absent : t.get? (key a) = none := by
      rw [List.cons_append, List.map_cons, List.nodup_cons] at fresh
      refine get?_none_iff.mpr fun b member same => fresh.1 ?_
      exact List.mem_map.mpr ⟨b, List.mem_append_right rest member, same⟩
    have middle : (rest ++ (t.put a).rows).Perm (a :: rest ++ t.rows) := by
      rw [put_fresh absent]
      exact List.perm_middle
    exact (ih ((middle.map key).nodup_iff.mpr fresh)).trans middle

theorem add_fresh {t : Table key} {a : α} (fresh : t.get? (key a) = none) : (t.add a).rows = a :: t.rows := by
  simp only [add, fresh, put_fresh fresh]

theorem mem_add {κ : Type} [DecidableEq κ] {t : Table (id : κ → κ)} {k l : κ} : l ∈ (t.add k).rows ↔ l = k ∨ l ∈ t.rows := by
  unfold add
  split
  · rename_i present found
    have same : present = k := get?_key found
    have inside : k ∈ t.rows := same ▸ get?_mem found
    constructor
    · exact Or.inr
    · rintro (rfl | member)
      · exact inside
      · exact member
  · rename_i absent
    rw [put_fresh absent, List.mem_cons]

theorem get?_map {t : Table key} {k : κ} {a : α} (found : t.get? k = some a) (change : α → α)
    (same : ∀ a, key (change a) = key a := by intro _; rfl) : (t.map change same).get? k = some (change a) :=
  get?_iff.mpr ⟨List.mem_map_of_mem (get?_mem found), (same a).trans (get?_key found)⟩

theorem keys_modify (t : Table key) (k : κ) (change : α → α) (same : ∀ a, key (change a) = key a := by intro _; rfl) :
    (t.modify k change same).rows.map key = t.rows.map key := keys_map _ _ _

/-- Two changes of one row are one. -/
theorem modify_modify (t : Table key) (k : κ) (first second : α → α) (same : ∀ a, key (first a) = key a := by intro _; rfl)
    (same' : ∀ a, key (second a) = key a := by intro _; rfl) :
    (t.modify k first same).modify k second same' = t.modify k (second ∘ first) fun a => (same' _).trans (same a) := by
  refine ext ?_
  simp only [modify_rows, List.map_map]
  refine List.map_congr_left fun a _ => ?_
  by_cases here : key a = k
  · simp [here, same]
  · simp [here]

/-- The rows of a table of which one is changed. -/
theorem mem_modify {t : Table key} {k : κ} {change : α → α} {same : ∀ a, key (change a) = key a} {b : α} :
    b ∈ (t.modify k change same).rows ↔ b ∈ t.rows ∧ key b ≠ k ∨ ∃ a ∈ t.rows, key a = k ∧ b = change a := by
  rw [modify_rows t k change same, List.mem_map]
  constructor
  · rintro ⟨a, inside, rfl⟩
    by_cases here : key a = k
    · rw [if_pos here]
      exact .inr ⟨a, inside, here, rfl⟩
    · rw [if_neg here]
      exact .inl ⟨inside, here⟩
  · rintro (⟨inside, other⟩ | ⟨a, inside, here, rfl⟩)
    · exact ⟨b, inside, if_neg other⟩
    · exact ⟨a, inside, if_pos here⟩

/-- What holds of the changed row and of the others holds of every row. -/
theorem forall_modify {t : Table key} {k : κ} {change : α → α} (same : ∀ a, key (change a) = key a := by intro _; rfl) {p : α → Prop}
    (changed : ∀ a ∈ t.rows, key a = k → p (change a)) (others : ∀ a ∈ t.rows, key a ≠ k → p a) :
    ∀ a ∈ (t.modify k change same).rows, p a := by
  intro b member
  obtain ⟨a, inside, rfl⟩ := List.mem_map.mp member
  split
  · rename_i here
    exact changed a inside here
  · rename_i other
    exact others a inside other

theorem erase_modify (t : Table key) (k : κ) (change : α → α) (same : ∀ a, key (change a) = key a := by intro _; rfl) :
    (t.modify k change same).erase k = t.erase k := by
  refine ext ?_
  rw [erase_rows, modify_rows t k change same, erase_rows, List.filter_map]
  have kept : t.rows.filter ((fun a => decide (key a ≠ k)) ∘ fun a => if key a = k then change a else a) =
      t.rows.filter fun a => key a ≠ k := by
    refine List.filter_congr fun a _ => ?_
    by_cases here : key a = k
    · simp [here, same]
    · simp [here]
  rw [kept]
  refine (List.map_congr_left fun a member => ?_).trans (List.map_id _)
  rw [if_neg (of_decide_eq_true (List.mem_filter.mp member).2), id_eq]

theorem erase_absent {t : Table key} {k : κ} (absent : t.get? k = none) : t.erase k = t :=
  ext (List.filter_eq_self.mpr fun b inside => by simpa using get?_none_iff.mp absent b inside)

end Table

end Keyed
