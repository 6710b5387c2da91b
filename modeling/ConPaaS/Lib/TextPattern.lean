import Mathlib.Data.List.Infix

/-- A regular expression over characters, in which only a set of characters is
repeated. The two anchors stand for the ends of the whole text. -/
inductive TextPattern
  | start
  | finish
  | text (word : List Char)
  | one (set : Char → Bool)
  | repeated (set : Char → Bool)
  | optional (p : TextPattern)
  | next (p q : TextPattern)
  | either (p q : TextPattern)

namespace TextPattern

/-- What may be left after one or more characters of a set, the shortest rest
first. -/
def afterSome (set : Char → Bool) : List Char → List (List Char)
  | [] => []
  | c :: rest => if set c then afterSome set rest ++ [rest] else []

/-- What a pattern may leave of the rest of a text. -/
def rests (whole : List Char) : TextPattern → List Char → List (List Char)
  | start, rest => if rest.length = whole.length then [rest] else []
  | finish, rest => if rest = [] then [rest] else []
  | text word, rest => if word <+: rest then [rest.drop word.length] else []
  | one set, rest =>
    match rest with
    | [] => []
    | c :: rest => if set c then [rest] else []
  | repeated set, rest => afterSome set rest
  | optional p, rest => rests whole p rest ++ [rest]
  | next p q, rest => (rests whole p rest).flatMap (rests whole q)
  | either p q, rest => rests whole p rest ++ rests whole q rest

/-- `re.match`, which starts at the beginning and may leave a rest. -/
def isMatch (p : TextPattern) (whole : List Char) : Bool := !(p.rests whole whole).isEmpty

variable {whole before after word : List Char} {set : Char → Bool} {p q : TextPattern}

theorem isMatch_iff : p.isMatch whole = true ↔ ∃ after, after ∈ p.rests whole whole := by
  rw [isMatch, Bool.not_eq_true', List.isEmpty_eq_false_iff_exists_mem]

theorem mem_afterSome :
    after ∈ afterSome set before ↔ ∃ taken, taken ≠ [] ∧ (∀ c ∈ taken, set c = true) ∧ taken ++ after = before := by
  induction before with
  | nil =>
    refine ⟨nofun, ?_⟩
    rintro ⟨taken, more, -, same⟩
    exact absurd (List.append_eq_nil_iff.mp same).1 more
  | cons c rest ih =>
    rw [afterSome]
    constructor
    · intro member
      split at member
      · rename_i inside
        rcases List.mem_append.mp member with later | now
        · obtain ⟨taken, -, all, same⟩ := ih.mp later
          exact ⟨c :: taken, List.cons_ne_nil _ _, List.forall_mem_cons.mpr ⟨inside, all⟩, by rw [← same]; rfl⟩
        · obtain rfl := List.mem_singleton.mp now
          exact ⟨[c], List.cons_ne_nil _ _, List.forall_mem_singleton.mpr inside, rfl⟩
      · cases member
    · rintro ⟨taken, more, all, same⟩
      cases taken with
      | nil => exact absurd rfl more
      | cons first taken =>
        obtain ⟨rfl, left⟩ := List.cons.inj same
        change taken ++ after = rest at left
        rw [if_pos (all first (List.mem_cons_self ..)), List.mem_append, List.mem_singleton]
        by_cases more : taken = []
        · exact Or.inr (by rw [← left, more, List.nil_append])
        · exact Or.inl (ih.mpr ⟨taken, more, fun d member => all d (List.mem_cons_of_mem _ member), left⟩)

@[simp] theorem mem_rests_start : after ∈ rests whole start before ↔ after = before ∧ before.length = whole.length := by
  change after ∈ (if before.length = whole.length then [before] else []) ↔ _
  split
  · simp [*]
  · simp [*]

@[simp] theorem mem_rests_finish : after ∈ rests whole finish before ↔ after = [] ∧ before = [] := by
  change after ∈ (if before = [] then [before] else []) ↔ _
  split
  · simp [*]
  · simp [*]

@[simp] theorem mem_rests_text : after ∈ rests whole (text word) before ↔ word ++ after = before := by
  change after ∈ (if word <+: before then [before.drop word.length] else []) ↔ _
  split
  · rename_i found
    obtain ⟨rest, rfl⟩ := found
    rw [List.drop_left, List.mem_singleton, List.append_cancel_left_eq]
  · rename_i missing
    exact ⟨nofun, fun same => absurd ⟨after, same⟩ missing⟩

@[simp] theorem mem_rests_one : after ∈ rests whole (one set) before ↔ ∃ c, set c = true ∧ before = c :: after := by
  cases before with
  | nil => exact ⟨nofun, nofun⟩
  | cons c rest =>
    change after ∈ (if set c then [rest] else []) ↔ _
    constructor
    · intro member
      split at member
      · rename_i inside
        exact ⟨c, inside, by rw [List.mem_singleton.mp member]⟩
      · cases member
    · rintro ⟨_, inside, same⟩
      obtain ⟨rfl, rfl⟩ := List.cons.inj same
      rw [if_pos inside]
      exact List.mem_singleton_self _

@[simp] theorem mem_rests_repeated : after ∈ rests whole (repeated set) before ↔
    ∃ taken, taken ≠ [] ∧ (∀ c ∈ taken, set c = true) ∧ taken ++ after = before :=
  mem_afterSome

@[simp] theorem mem_rests_optional : after ∈ rests whole (optional p) before ↔
    after ∈ rests whole p before ∨ after = before :=
  List.mem_append.trans (or_congr_right List.mem_singleton)

@[simp] theorem mem_rests_next : after ∈ rests whole (next p q) before ↔
    ∃ rest ∈ rests whole p before, after ∈ rests whole q rest :=
  List.mem_flatMap

@[simp] theorem mem_rests_either : after ∈ rests whole (either p q) before ↔
    after ∈ rests whole p before ∨ after ∈ rests whole q before :=
  List.mem_append

/-- At the beginning of the text the first anchor takes nothing. -/
theorem isMatch_start : (next start p).isMatch whole = true ↔ ∃ after, after ∈ p.rests whole whole := by
  rw [isMatch_iff]
  refine exists_congr fun after => ?_
  rw [mem_rests_next]
  constructor
  · rintro ⟨_, begun, left⟩
    rwa [(mem_rests_start.mp begun).1] at left
  · exact fun left => ⟨whole, mem_rests_start.mpr ⟨rfl, rfl⟩, left⟩

/-- Before the last anchor all the text has been taken. -/
theorem exists_mem_rests_finish : (∃ after, after ∈ rests whole (next p finish) before) ↔ [] ∈ rests whole p before := by
  constructor
  · rintro ⟨after, left⟩
    obtain ⟨rest, taken, ended⟩ := mem_rests_next.mp left
    rwa [(mem_rests_finish.mp ended).2] at taken
  · exact fun taken => ⟨[], mem_rests_next.mpr ⟨[], taken, mem_rests_finish.mpr ⟨rfl, rfl⟩⟩⟩

/-- A pattern for the whole text. -/
theorem isMatch_repeated : (next start (next (repeated set) finish)).isMatch whole = true ↔
    whole ≠ [] ∧ ∀ c ∈ whole, set c = true := by
  rw [isMatch_start, exists_mem_rests_finish, mem_rests_repeated]
  constructor
  · rintro ⟨taken, more, all, rfl⟩
    rw [List.append_nil]
    exact ⟨more, all⟩
  · rintro ⟨more, all⟩
    exact ⟨whole, more, all, List.append_nil _⟩

end TextPattern
