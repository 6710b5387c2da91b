import ConPaaS.Autoscaling.Strategies
import Mathlib.Algebra.Order.Group.Multiset
import Mathlib.Data.List.Induction
import Mathlib.Data.List.TakeWhile

namespace ConPaaS

variable {scalingDecision : List (Combination × Rat)} {offers before later : List (Rat × Combination)} {combination : Combination}

/-- One of the decisions has as many machines of each type. -/
def Represented (scalingDecision : List (Combination × Rat)) (combination : Combination) : Prop :=
  ∃ decided ∈ scalingDecision, decided.1.Perm combination

theorem timesIn_eq_length_iff (decision combination : Combination) :
    timesIn decision combination = combination.length ↔ combination ⊆ decision := by
  rw [timesIn]
  constructor
  · intro all x member
    have whole : combination.takeWhile (· ∈ decision) = combination :=
      (List.takeWhile_prefix _).eq_of_length all
    rw [← whole] at member
    have found := List.mem_takeWhile_imp member
    exact of_decide_eq_true found
  · intro inside
    rw [List.takeWhile_eq_self_iff.mpr fun x member => decide_eq_true (inside member)]

theorem isDecided_iff : isDecided scalingDecision combination = true ↔
    ∃ decided ∈ scalingDecision, decided.1.length = combination.length ∧ combination ⊆ decided.1 := by
  simp only [isDecided, List.any_eq_true, Bool.and_eq_true, decide_eq_true_eq, timesIn_eq_length_iff]

theorem decisionsOf_append (offer : Rat × Combination) :
    decisionsOf (before ++ [offer]) = insertCombination (decisionsOf before) offer := by
  rw [decisionsOf, List.foldl_append, List.foldl_cons, List.foldl_nil, decisionsOf]

/-- An offer is left out, or it is the last decision. -/
theorem mem_insertCombination {offer : Rat × Combination} {decided : Combination × Rat} :
    decided ∈ insertCombination scalingDecision offer ↔
      decided ∈ scalingDecision ∨ isDecided scalingDecision offer.2 = false ∧ decided = (offer.2, offer.1) := by
  by_cases known : isDecided scalingDecision offer.2
  · simp [insertCombination, known]
  · simp [insertCombination, Bool.not_eq_true _ ▸ known]

theorem mem_decisionsOf_mono {decided : Combination × Rat} (member : decided ∈ decisionsOf before) :
    decided ∈ decisionsOf (before ++ later) := by
  induction later using List.reverseRecOn with
  | nil => rwa [List.append_nil]
  | append_singleton more offer ih =>
    rw [← List.append_assoc, decisionsOf_append]
    exact mem_insertCombination.mpr (.inl ih)

/-- Decisions are offers. -/
theorem offered_of_mem {decided : Combination × Rat} (member : decided ∈ decisionsOf offers) :
    (decided.2, decided.1) ∈ offers := by
  induction offers using List.reverseRecOn with
  | nil => cases member
  | append_singleton before offer ih =>
    rw [decisionsOf_append] at member
    rcases mem_insertCombination.mp member with old | ⟨-, rfl⟩
    · exact List.mem_append_left _ (ih old)
    · exact List.mem_append_right _ (List.mem_singleton_self _)

/-- Each offer has a decision it is taken for. -/
theorem decided_of_offered {offer : Rat × Combination} (member : offer ∈ offers) :
    ∃ decided ∈ decisionsOf offers, decided.1.length = offer.2.length ∧ offer.2 ⊆ decided.1 := by
  obtain ⟨before, later, rfl⟩ := List.append_of_mem member
  have now : ∃ decided ∈ decisionsOf (before ++ [offer]), decided.1.length = offer.2.length ∧ offer.2 ⊆ decided.1 := by
    rw [decisionsOf_append]
    by_cases known : isDecided (decisionsOf before) offer.2
    · obtain ⟨decided, old, same⟩ := isDecided_iff.mp known
      exact ⟨decided, mem_insertCombination.mpr (.inl old), same⟩
    · refine ⟨(offer.2, offer.1), mem_insertCombination.mpr (.inr ⟨?_, rfl⟩), rfl, List.Subset.refl _⟩
      exact Bool.not_eq_true _ ▸ known
  obtain ⟨decided, inside, same⟩ := now
  refine ⟨decided, ?_, same⟩
  have grown : decided ∈ decisionsOf (before ++ [offer] ++ later) := mem_decisionsOf_mono inside
  rwa [List.append_assoc] at grown

/-- What is taken for a decision is never added. -/
theorem mem_of_decided {decided known : Combination × Rat} (there : known ∈ decisionsOf before)
    (same : known.1.length = decided.1.length) (inside : decided.1 ⊆ known.1)
    (member : decided ∈ decisionsOf (before ++ later)) : decided ∈ decisionsOf before := by
  induction later using List.reverseRecOn with
  | nil => rwa [List.append_nil] at member
  | append_singleton more offer ih =>
    rw [← List.append_assoc, decisionsOf_append] at member
    rcases mem_insertCombination.mp member with old | ⟨new, rfl⟩
    · exact ih old
    · have taken : isDecided (decisionsOf (before ++ more)) offer.2 = true :=
        isDecided_iff.mpr ⟨known, mem_decisionsOf_mono there, same, inside⟩
      exact absurd (new.symm.trans taken) Bool.false_ne_true

/-- No two decisions are the same combination in another order. -/
theorem decisionsOf_apart (offers : List (Rat × Combination)) :
    (decisionsOf offers).Pairwise fun decided other => ¬ decided.1.Perm other.1 := by
  induction offers using List.reverseRecOn with
  | nil => exact List.Pairwise.nil
  | append_singleton before offer ih =>
    rw [decisionsOf_append, insertCombination]
    split
    · exact ih
    · rename_i new
      refine List.pairwise_append.mpr ⟨ih, List.pairwise_singleton .., fun decided old other last same => ?_⟩
      rw [List.mem_singleton.mp last] at same
      exact new (isDecided_iff.mpr ⟨decided, old, same.length_eq, same.symm.subset⟩)

theorem countP_perm_le_one (apart : scalingDecision.Pairwise fun decided other => ¬ decided.1.Perm other.1)
    (combination : Combination) : scalingDecision.countP (fun decided => decided.1.isPerm combination) ≤ 1 := by
  induction scalingDecision with
  | nil => simp
  | cons first rest ih =>
    obtain ⟨away, apart⟩ := List.pairwise_cons.mp apart
    rw [List.countP_cons]
    split
    · rename_i same
      have none : rest.countP (fun decided => decided.1.isPerm combination) = 0 := by
        rw [List.countP_eq_zero]
        intro other member other'
        exact away other member ((List.isPerm_iff.mp same).trans (List.isPerm_iff.mp other').symm)
      omega
    · exact ih apart

/-- How many decisions have the machines of a combination. -/
def representatives (scalingDecision : List (Combination × Rat)) (combination : Combination) : Nat :=
  scalingDecision.countP fun decided => decided.1.isPerm combination

theorem representatives_iff (combination : Combination) :
    representatives (decisionsOf offers) combination = 1 ↔ Represented (decisionsOf offers) combination := by
  have most : representatives (decisionsOf offers) combination ≤ 1 := countP_perm_le_one (decisionsOf_apart offers) combination
  have some : 0 < representatives (decisionsOf offers) combination ↔ Represented (decisionsOf offers) combination := by
    simp only [representatives, List.countP_pos_iff, List.isPerm_iff, Represented]
  rw [← some]
  omega

/-- Before a combination whose types are all in an earlier one of its length,
one with the same machines was offered. -/
def Discerned (offers : List (Rat × Combination)) : Prop :=
  ∀ before offer later, offers = before ++ offer :: later →
    (∃ earlier ∈ before, earlier.2.length = offer.2.length ∧ offer.2 ⊆ earlier.2) →
    ∃ earlier ∈ before, earlier.2.Perm offer.2

theorem Discerned.init {offer : Rat × Combination} (discerned : Discerned (before ++ [offer])) : Discerned before := by
  intro first one later split
  exact discerned first one (later ++ [offer]) (by rw [split, List.append_assoc, List.cons_append])

theorem Discerned.represented (discerned : Discerned offers) {offer : Rat × Combination} (member : offer ∈ offers) :
    Represented (decisionsOf offers) offer.2 := by
  induction offers using List.reverseRecOn generalizing offer with
  | nil => cases member
  | append_singleton before last ih =>
    have old {earlier : Rat × Combination} (there : earlier ∈ before) :
        Represented (decisionsOf (before ++ [last])) earlier.2 := by
      obtain ⟨decided, inside, same⟩ := ih discerned.init there
      exact ⟨decided, mem_decisionsOf_mono inside, same⟩
    rcases List.mem_append.mp member with there | last'
    · exact old there
    · obtain rfl := List.mem_singleton.mp last'
      by_cases known : isDecided (decisionsOf before) offer.2
      · obtain ⟨decided, inside, same, subset⟩ := isDecided_iff.mp known
        obtain ⟨earlier, there, perm⟩ := discerned before offer [] rfl ⟨_, offered_of_mem inside, same, subset⟩
        obtain ⟨rep, among, perm'⟩ := old there
        exact ⟨rep, among, perm'.trans perm⟩
      · refine ⟨(offer.2, offer.1), ?_, .refl _⟩
        rw [decisionsOf_append]
        exact mem_insertCombination.mpr (.inr ⟨Bool.not_eq_true _ ▸ known, rfl⟩)

/-- There is one decision for each combination that was offered, whatever the
order of its machines, unless one was taken for another. -/
theorem decisions_representative_iff (offers : List (Rat × Combination)) :
    (∀ offer ∈ offers, representatives (decisionsOf offers) offer.2 = 1) ↔ Discerned offers := by
  simp only [representatives_iff]
  constructor
  · rintro represented before offer later rfl ⟨earlier, there, length, subset⟩
    obtain ⟨known, inside, same, covers⟩ := decided_of_offered there
    obtain ⟨decided, member, perm⟩ := represented offer (List.mem_append_right _ (List.mem_cons_self ..))
    have old : decided ∈ decisionsOf before :=
      mem_of_decided inside (same.trans (length.trans perm.length_eq.symm))
        (fun x among => covers (subset (perm.subset among))) member
    exact ⟨_, offered_of_mem old, perm⟩
  · intro discerned offer member
    exact discerned.represented member

/-- One small machine and two large ones are taken for two small and one large. -/
theorem smallAndLarge_identified : ¬ ∀ offers : List (Rat × Combination), ∀ offer ∈ offers,
    representatives (decisionsOf offers) offer.2 = 1 := by
  intro claim
  have one := claim [(50, ["small", "small", "large"]), (60, ["small", "large", "large"])] (60, ["small", "large", "large"])
    (List.mem_cons_of_mem _ (List.mem_singleton_self _))
  have lost : representatives (decisionsOf [(50, ["small", "small", "large"]), (60, ["small", "large", "large"])])
      ["small", "large", "large"] = 0 := by decide
  exact absurd (lost.symm.trans one) Nat.zero_ne_one

section Replacements

variable {f : StrategyFinder} {original current : Combination} {maxPerformance : Rat} {candidate : StrategyFinder.Candidate}
  {positions : List Nat} {steps : List (Nat × String)}

/-- What is left after some replacements, each of a position by a type. -/
def replaceAll : List (Nat × String) → Combination → Combination
  | [], combination => combination
  | (cb, x) :: rest, combination => replaceAll rest (replaced combination cb x)

/-- The machines that have been replaced. -/
def takenOff : List (Nat × String) → Combination → Combination
  | [], _ => []
  | (cb, x) :: rest, combination => combination[cb]?.toList ++ takenOff rest (replaced combination cb x)

/-- There are as many machines as before, and among them all that have not
been replaced. -/
def KeepsOthers (current : Combination) (steps : List (Nat × String)) : Prop :=
  (replaceAll steps current).length = current.length ∧
    (current : Multiset String) - (takenOff steps current : Multiset String) ≤ replaceAll steps current

/-- A candidate comes from replacements at later and later positions. -/
theorem replacements_of_mem (ordered : positions.Pairwise (· < ·)) (bound : ∀ cb ∈ positions, cb < searchingRange current)
    (member : candidate ∈ f.replaceFrom original maxPerformance positions current) :
    ∃ steps, steps ≠ [] ∧ (steps.map Prod.fst).Sublist positions ∧ candidate.combination = replaceAll steps current := by
  induction positions generalizing current with
  | nil => cases member
  | cons cb later ih =>
    obtain ⟨-, ordered⟩ := List.pairwise_cons.mp ordered
    have first := bound cb (List.mem_cons_self ..)
    have rest : ∀ cb' ∈ later, cb' < searchingRange current := fun cb' among => bound cb' (List.mem_cons_of_mem _ among)
    rw [StrategyFinder.replaceFrom] at member
    rcases List.mem_append.mp member with now | after
    · obtain ⟨x, -, found⟩ := List.mem_flatMap.mp now
      split at found
      · dsimp only at found
        split at found
        · cases found
        · have single (same : candidate.combination = replaced current cb x) :
              ∃ steps, steps ≠ [] ∧ (steps.map Prod.fst).Sublist (cb :: later) ∧ candidate.combination = replaceAll steps current :=
            ⟨[(cb, x)], List.cons_ne_nil _ _, (List.nil_sublist later).cons_cons cb, same⟩
          rcases List.mem_append.mp found with decided | passed
          · split at decided
            · exact single (List.mem_singleton.mp decided ▸ rfl)
            · cases decided
          · split at passed
            · have range (cb' : Nat) (among : cb' ∈ later) : cb' < searchingRange (replaced current cb x) :=
                (searchingRange_replaced first x).symm ▸ rest cb' among
              obtain ⟨steps, -, increasing, result⟩ := ih ordered range passed
              exact ⟨(cb, x) :: steps, List.cons_ne_nil _ _, increasing.cons_cons cb, result⟩
            · split at passed
              · exact single (List.mem_singleton.mp passed ▸ rfl)
              · cases passed
      · cases found
    · obtain ⟨steps, some, increasing, result⟩ := ih ordered rest after
      exact ⟨steps, some, increasing.cons cb, result⟩

theorem length_replaceAll (bound : ∀ step ∈ steps, step.1 < searchingRange current) (some : steps ≠ []) :
    (replaceAll steps current).length = searchingRange current := by
  induction steps generalizing current with
  | nil => exact absurd rfl some
  | cons step rest ih =>
    have first := bound step (List.mem_cons_self ..)
    cases rest with
    | nil => exact length_replaced first step.2
    | cons next more =>
      rw [replaceAll, ih (fun other among => ?_) (List.cons_ne_nil _ _), searchingRange_replaced first]
      rw [searchingRange_replaced first]
      exact bound other (List.mem_cons_of_mem _ among)

/-- Where everything is searched, a replacement takes one machine off. -/
theorem replaced_perm {cb : Nat} (small : current.length ≤ 6) (bound : cb < current.length) (x : String) :
    (current[cb]?.toList ++ replaced current cb x).Perm (current ++ [x]) := by
  have whole : current.take (searchingRange current) = current := by
    rw [List.take_of_length_le]
    have range := searchingRange_eq current
    omega
  rw [replaced, whole, ← List.append_assoc, List.getElem?_eq_getElem bound, Option.toList_some]
  exact (List.getElem_cons_eraseIdx_perm bound).append_right [x]

theorem replaceAll_perm (small : current.length ≤ 6) (bound : ∀ step ∈ steps, step.1 < current.length) :
    (takenOff steps current ++ replaceAll steps current).Perm (current ++ steps.map Prod.snd) := by
  induction steps generalizing current with
  | nil => simp [takenOff, replaceAll]
  | cons step rest ih =>
    obtain ⟨cb, x⟩ := step
    have first : cb < current.length := bound (cb, x) (List.mem_cons_self ..)
    have range : searchingRange current = current.length := by
      rw [searchingRange_eq]
      omega
    have length : (replaced current cb x).length = current.length := (length_replaced (range ▸ first) x).trans range
    have later := @ih (replaced current cb x) (length.trans_le small) fun step among => by
      rw [length]
      exact bound step (List.mem_cons_of_mem _ among)
    have now := replaced_perm small first x
    simp only [takenOff, replaceAll, List.append_assoc, List.map_cons]
    refine (later.append_left _).trans ?_
    rw [← List.append_assoc]
    refine (now.append_right _).trans ?_
    rw [List.append_assoc, List.singleton_append]

theorem keepsOthers_of_small (small : current.length ≤ 6) (bound : ∀ step ∈ steps, step.1 < current.length) (some : steps ≠ []) :
    KeepsOthers current steps := by
  have range : searchingRange current = current.length := by
    rw [searchingRange_eq]
    omega
  refine ⟨(length_replaceAll (range.symm ▸ bound) some).trans range, ?_⟩
  rw [tsub_le_iff_left]
  have whole := Multiset.coe_eq_coe.mpr (replaceAll_perm small bound)
  simp only [← Multiset.coe_add] at whole
  rw [whole]
  exact Multiset.le_add_right _ _

/-- A candidate of the vertical search keeps the machines it does not replace
when there are six at most. -/
theorem candidates_keep_iff (member : candidate ∈ f.replaceScalingStrategy current maxPerformance) :
    (∃ steps, (steps.map Prod.fst).Pairwise (· < ·) ∧ candidate.combination = replaceAll steps current ∧
      KeepsOthers current steps) ↔ current.length ≤ 6 := by
  have range := searchingRange_eq current
  have inside (cb : Nat) (among : cb ∈ List.range' 0 (searchingRange current)) : cb < searchingRange current := by
    have bounds := List.mem_range'_1.mp among
    omega
  obtain ⟨steps, some, increasing, result⟩ := replacements_of_mem List.pairwise_lt_range' inside member
  have bound (step : Nat × String) (among : step ∈ steps) : step.1 < searchingRange current :=
    inside step.1 (increasing.subset (List.mem_map_of_mem among))
  constructor
  · rintro ⟨others, -, same, length, -⟩
    rw [← same, result, length_replaceAll bound some] at length
    omega
  · intro small
    have all : searchingRange current = current.length := by omega
    exact ⟨steps, List.Pairwise.sublist increasing List.pairwise_lt_range', result, keepsOthers_of_small small (all ▸ bound) some⟩

/-- A finder that has only large machines to offer. -/
def largeOnly (forecast : Rat) : StrategyFinder where
  vmInstTypes := ["large"]
  capacityInstType := fun _ => 1
  forecastReqRatePredicted := forecast
  reqComplexityRate := 1
  minPerformanceThroughput := 30
  costPolicy := false
  shutdown := fun _ _ => true

theorem oneMachine_kept : ∃ candidate ∈ (largeOnly 60).replaceScalingStrategy ["small"] 70,
    ∃ steps, (steps.map Prod.fst).Pairwise (· < ·) ∧ candidate.combination = replaceAll steps ["small"] ∧
      KeepsOthers ["small"] steps := by
  have found : ((largeOnly 60).replaceScalingStrategy ["small"] 70).any fun _ => true := by decide +kernel
  obtain ⟨candidate, member, -⟩ := List.any_eq_true.mp found
  exact ⟨candidate, member, (candidates_keep_iff member).mpr (by decide)⟩

/-- Of seven machines one is lost in each candidate. -/
theorem seventhMachine_lost : ¬ ∀ (f : StrategyFinder) (current : Combination) (maxPerformance : Rat),
    ∀ candidate ∈ f.replaceScalingStrategy current maxPerformance,
      ∃ steps, (steps.map Prod.fst).Pairwise (· < ·) ∧ candidate.combination = replaceAll steps current ∧
        KeepsOthers current steps := by
  intro claim
  have some : ((largeOnly 360).replaceScalingStrategy (List.replicate 7 "small") 70).any
      (fun candidate => candidate.combination.length = 6) = true := by decide +kernel
  obtain ⟨candidate, member, length⟩ := List.any_eq_true.mp some
  obtain ⟨steps, -, same, kept, -⟩ := claim _ _ _ candidate member
  rw [← same, of_decide_eq_true length] at kept
  cases kept

end Replacements

end ConPaaS
