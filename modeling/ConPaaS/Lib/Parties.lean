import Mathlib.Data.List.Nodup
import Mathlib.Logic.Function.Basic

namespace Parties

variable {ι σ α : Type*} [DecidableEq ι] {place : α → ι} {handle : α → σ → Option σ} {list : List α}
  {parties middle after : ι → σ} {i : ι}

/-- One call to the party at a place. A party that cannot serve it leaves
nothing. -/
def call (i : ι) (handle : σ → Option σ) (parties : ι → σ) : Option (ι → σ) :=
  (handle (parties i)).map (Function.update parties i)

/-- Calls to the parties of a list, one after the other, until one of them
fails. -/
def callAll (place : α → ι) (handle : α → σ → Option σ) : List α → (ι → σ) → Option (ι → σ)
  | [], parties => some parties
  | a :: rest, parties => (call (place a) (handle a) parties).bind (callAll place handle rest)

theorem call_some {serve : σ → Option σ} :
    call i serve parties = some after ↔ ∃ s, serve (parties i) = some s ∧ after = Function.update parties i s := by
  unfold call
  rw [Option.map_eq_some_iff]
  simp only [eq_comm]

/-- Parties that are not called stay as they are. -/
theorem callAll_other (called : callAll place handle list parties = some after) (apart : i ∉ list.map place) :
    after i = parties i := by
  induction list generalizing parties with
  | nil =>
    cases called
    rfl
  | cons a rest ih =>
    obtain ⟨other, later⟩ := List.ne_and_not_mem_of_not_mem_cons apart
    obtain ⟨middle, first, called⟩ := Option.bind_eq_some_iff.mp called
    obtain ⟨s, -, rfl⟩ := call_some.mp first
    rw [ih called later, Function.update_of_ne other]

/-- Parties at distinct places serve one call each. -/
theorem callAll_called (called : callAll place handle list parties = some after) (distinct : (list.map place).Nodup)
    {a : α} (member : a ∈ list) : handle a (parties (place a)) = some (after (place a)) := by
  induction list generalizing parties with
  | nil => cases member
  | cons b rest ih =>
    obtain ⟨apart, distinct⟩ := List.nodup_cons.mp distinct
    obtain ⟨middle, first, called⟩ := Option.bind_eq_some_iff.mp called
    obtain ⟨s, served, rfl⟩ := call_some.mp first
    rcases List.mem_cons.mp member with rfl | later
    · rw [callAll_other called apart, Function.update_self, served]
    · have other : place a ≠ place b := fun same => apart (same ▸ List.mem_map_of_mem later)
      have serves := ih called distinct later
      rwa [Function.update_of_ne other] at serves

/-- One party serves calls one after the other, until it fails. -/
def serve (handle : α → σ → Option σ) : List α → σ → Option σ
  | [], s => some s
  | a :: rest, s => (handle a s).bind (serve handle rest)

theorem serve_append (first second : List α) (s : σ) :
    serve handle (first ++ second) s = (serve handle first s).bind (serve handle second) := by
  induction first generalizing s with
  | nil => rfl
  | cons a rest ih =>
    rw [List.cons_append, serve, serve, Option.bind_assoc]
    exact congrArg _ (funext ih)

/-- Calls to different parties do not meet: they are all served when each party
serves those to its own place. -/
theorem callAll_some : callAll place handle list parties = some after ↔
    ∀ i, serve handle (list.filter fun a => place a = i) (parties i) = some (after i) := by
  induction list generalizing parties with
  | nil =>
    simp only [callAll, List.filter_nil, serve, Option.some.injEq]
    exact funext_iff
  | cons a rest ih =>
    rw [callAll, call]
    cases served : handle a (parties (place a)) with
    | none =>
      simp only [Option.map_none, Option.bind_none, reduceCtorEq, false_iff, not_forall]
      refine ⟨place a, ?_⟩
      rw [List.filter_cons_of_pos (by simp), serve, served]
      simp
    | some s =>
      simp only [Option.map_some, Option.bind_some, ih]
      refine forall_congr' fun i => ?_
      by_cases here : place a = i
      · subst here
        rw [List.filter_cons_of_pos (by simp), serve, served, Function.update_self, Option.bind_some]
      · rw [List.filter_cons_of_neg (by simpa using here), Function.update_of_ne (Ne.symm here)]

section Loop

variable {β : Type*} {rows : List β} {f : β → List α}

/-- In a loop over parties at other places there are no calls to a place. -/
theorem filter_flatMap_other (key : β → ι) (own : ∀ b ∈ rows, ∀ a ∈ f b, place a = key b) (apart : i ∉ rows.map key) :
    (rows.flatMap f).filter (fun a => place a = i) = [] := by
  refine List.filter_eq_nil_iff.mpr fun a member => ?_
  obtain ⟨b, among, called⟩ := List.mem_flatMap.mp member
  have here := own b among a called
  simp only [decide_eq_true_eq]
  rintro rfl
  exact apart (here ▸ List.mem_map_of_mem among)

/-- In a loop over parties at distinct places each has its own calls. -/
theorem filter_flatMap (key : β → ι) (own : ∀ b ∈ rows, ∀ a ∈ f b, place a = key b) (distinct : (rows.map key).Nodup) {b : β} (member : b ∈ rows) :
    (rows.flatMap f).filter (fun a => place a = key b) = f b := by
  induction rows with
  | nil => cases member
  | cons c rest ih =>
    obtain ⟨apart, distinct⟩ := List.nodup_cons.mp distinct
    obtain ⟨here, others⟩ := List.forall_mem_cons.mp own
    rw [List.flatMap_cons, List.filter_append]
    rcases List.mem_cons.mp member with rfl | later
    · rw [filter_flatMap_other key others apart, List.append_nil]
      exact List.filter_eq_self.mpr fun a called => by simpa using here a called
    · have first : (f c).filter (fun a => place a = key b) = [] := by
        refine List.filter_eq_nil_iff.mpr fun a called => ?_
        have there := here a called
        simp only [decide_eq_true_eq]
        intro same
        exact apart (there.symm.trans same ▸ List.mem_map_of_mem later)
      rw [first, List.nil_append, ih others distinct later]

end Loop

end Parties
