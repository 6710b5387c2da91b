import ConPaaS.Lib.Transition
import Mathlib.Data.Set.Insert
import Mathlib.Order.BooleanAlgebra.Set

/-! A store, and the record that a client keeps of it. The client asks for changes
and learns that they were made from acknowledgements, which come late, in any
order, or never. -/

namespace Acknowledged

open Transition

/-- The keys in the store and those it has been asked to let go, the keys that
are not given again, the record of the client, and the acknowledgements that the
client has not had. -/
@[ext]
structure State (κ : Type*) where
  held : Set κ
  leaving : Set κ
  used : Set κ
  recorded : Set κ
  adding : Set κ
  removing : Set κ

inductive Event (κ : Type*)
  | use
  | add (key : κ)
  | remove (key : κ)
  | finish (key : κ)
  | recordAdd (key : κ)
  | recordRemove (key : κ)

variable {κ : Type*}

/-- Removals of one key may be acknowledged several times, additions once. -/
inductive Step : State κ → Event κ → State κ → Prop
  | use {s : State κ} {used : Set κ} (more : s.used ⊆ used) : Step s .use { s with used }
  | add {s : State κ} {key : κ} {used : Set κ} (fresh : key ∉ s.used) (more : insert key s.used ⊆ used) :
      Step s (.add key) { s with held := insert key s.held, used, adding := insert key s.adding }
  | remove {s : State κ} {key : κ} (known : key ∈ s.used) :
      Step s (.remove key) { s with leaving := insert key s.leaving, removing := insert key s.removing }
  | finish {s : State κ} {key : κ} (accepted : key ∈ s.leaving) : Step s (.finish key) { s with held := s.held \ {key} }
  | recordAdd {s : State κ} {key : κ} (acknowledged : key ∈ s.adding) :
      Step s (.recordAdd key) { s with recorded := insert key s.recorded, adding := s.adding \ {key} }
  | recordRemove {s : State κ} {key : κ} {removing : Set κ} (acknowledged : key ∈ s.removing) (fewer : removing ⊆ s.removing)
      (others : s.removing ⊆ insert key removing) :
      Step s (.recordRemove key) { s with recorded := s.recorded \ {key}, removing }

variable {s before after : State κ} {event : Event κ} {events : List (Event κ)}

/-- The client asks to remove what it has on record. -/
def Known (s : State κ) (event : Event κ) : Prop := ∀ key, event = .remove key → key ∈ s.recorded

/-- Nothing is in the store. -/
structure Starts (s : State κ) : Prop where
  held : s.held = ∅
  leaving : s.leaving = ∅
  recorded : s.recorded = ∅
  adding : s.adding = ∅
  removing : s.removing = ∅

/-- Whatever stays in the store is on record once its addition is acknowledged. -/
structure Complete (s : State κ) : Prop where
  kept : s.held ⊆ s.leaving ∪ (s.recorded ∪ s.adding)
  held : s.held ⊆ s.used
  leaving : s.leaving ⊆ s.used
  recorded : s.recorded ⊆ s.used
  adding : s.adding ⊆ s.used
  removing : s.removing ⊆ s.leaving
  apart : ∀ key ∈ s.adding, key ∉ s.recorded

/-- Whatever is on record stays in the store until a removal is acknowledged. -/
structure Sound (s : State κ) : Prop where
  recorded : s.recorded ⊆ s.held \ s.leaving ∪ s.removing
  adding : s.adding ⊆ s.held \ s.leaving

theorem Starts.complete (starts : Starts s) : Complete s := by
  obtain ⟨held, leaving, recorded, adding, removing⟩ := starts
  constructor <;> simp [held, leaving, recorded, adding, removing]

theorem Starts.sound (starts : Starts s) : Sound s := by
  constructor <;> simp [starts.recorded, starts.adding]

theorem Complete.step (complete : Complete before) (taken : Step before event after) : Complete after := by
  obtain ⟨kept, held, leaving, recorded, adding, removing, apart⟩ := complete
  cases taken with
  | use more => exact ⟨kept, held.trans more, leaving.trans more, recorded.trans more, adding.trans more, removing, apart⟩
  | @add key _ fresh more =>
    have older : before.used ⊆ _ := (Set.subset_insert key _).trans more
    refine ⟨?_, (Set.insert_subset_insert held).trans more, leaving.trans older, recorded.trans older,
      (Set.insert_subset_insert adding).trans more, removing, ?_⟩
    · rw [Set.union_insert, Set.union_insert]
      exact Set.insert_subset_insert kept
    · rintro other (rfl | member) listed
      · exact fresh (recorded listed)
      · exact apart other member listed
  | @remove key known =>
    refine ⟨?_, held, Set.insert_subset known leaving, recorded, adding, Set.insert_subset_insert removing, apart⟩
    exact kept.trans (Set.union_subset_union_left _ (Set.subset_insert ..))
  | finish _ => exact ⟨Set.sdiff_subset.trans kept, Set.sdiff_subset.trans held, leaving, recorded, adding, removing, apart⟩
  | @recordAdd key acknowledged =>
    refine ⟨?_, held, leaving, Set.insert_subset (adding acknowledged) recorded, Set.sdiff_subset.trans adding, removing, ?_⟩
    · have same : insert key before.recorded ∪ before.adding \ {key} = before.recorded ∪ before.adding := by
        rw [Set.insert_union, ← Set.union_insert, Set.insert_sdiff_singleton, Set.insert_eq_of_mem acknowledged]
      exact same ▸ kept
    · rintro other ⟨member, other_ne⟩ (same | listed)
      · exact other_ne same
      · exact apart other member listed
  | @recordRemove key _ acknowledged fewer others =>
    refine ⟨fun other member => ?_, held, leaving, Set.sdiff_subset.trans recorded, adding, fewer.trans removing,
      fun other member listed => apart other member listed.1⟩
    by_cases same : other = key
    · exact Or.inl (removing (same.symm ▸ acknowledged))
    · exact (kept member).imp_right fun listed => listed.imp_left fun recorded => ⟨recorded, same⟩

theorem Sound.step (complete : Complete before) (sound : Sound before) (known : Known before event)
    (taken : Step before event after) : Sound after := by
  obtain ⟨recorded, adding⟩ := sound
  cases taken with
  | use _ => exact ⟨recorded, adding⟩
  | @add key _ fresh _ =>
    have staying : key ∉ before.leaving := fun member => fresh (complete.leaving member)
    have more : before.held \ before.leaving ⊆ insert key before.held \ before.leaving :=
      Set.sdiff_subset_sdiff_left (Set.subset_insert ..)
    exact ⟨recorded.trans (Set.union_subset_union_left _ more),
      Set.insert_subset ⟨Set.mem_insert .., staying⟩ (adding.trans more)⟩
  | @remove key _ =>
    have listed : key ∈ before.recorded := known key rfl
    refine ⟨fun other member => ?_, fun other member => ?_⟩
    · by_cases same : other = key
      · exact Or.inr (Or.inl same)
      · exact (recorded member).imp (fun staying => ⟨staying.1, not_or_intro same staying.2⟩) Or.inr
    · have other_ne : other ≠ key := fun same => complete.apart other member (same ▸ listed)
      exact ⟨(adding member).1, not_or_intro other_ne (adding member).2⟩
  | @finish key accepted =>
    have same : (before.held \ {key}) \ before.leaving = before.held \ before.leaving := by
      rw [Set.sdiff_sdiff, Set.singleton_union, Set.insert_eq_of_mem accepted]
    exact ⟨same ▸ recorded, same ▸ adding⟩
  | recordAdd acknowledged =>
    exact ⟨Set.insert_subset (Or.inl (adding acknowledged)) recorded, Set.sdiff_subset.trans adding⟩
  | recordRemove _ _ others =>
    refine ⟨fun other member => ?_, adding⟩
    exact (recorded member.1).imp_right fun owed => (others owed).resolve_left member.2

theorem complete_of_run {start : State κ} (starts : Starts start) (run : Run Step start events s) : Complete s :=
  run.invariant starts.complete fun complete taken => complete.step taken

theorem sound_of_run {start : State κ} (starts : Starts start) (run : Run (Guarded Known Step) start events s) :
    Complete s ∧ Sound s := by
  let Agrees (s : State κ) : Prop := Complete s ∧ Sound s
  have first : Agrees start := ⟨starts.complete, starts.sound⟩
  have agrees : Agrees s := run.guarded_invariant first fun held known taken =>
    ⟨held.1.step taken, held.2.step held.1 known taken⟩
  exact agrees

/-- Once the client has had every acknowledgement its record is right. -/
theorem recorded_eq (complete : Complete s) (sound : Sound s) (adding : s.adding = ∅) (removing : s.removing = ∅) :
    s.recorded = s.held \ s.leaving := by
  refine Set.Subset.antisymm ?_ fun key member => ?_
  · simpa [removing] using sound.recorded
  · simpa [adding, member.2] using complete.kept member.1

end Acknowledged
