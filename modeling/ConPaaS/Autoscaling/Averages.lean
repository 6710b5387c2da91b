import ConPaaS.Lib.Mean
import Mathlib.Data.Rat.Defs
import Mathlib.Algebra.Order.Field.Rat
import Mathlib.Data.Rat.Floor

namespace ConPaaS

open Weighing

/-- `int` of a number. -/
def truncated (value : Rat) : Int := if 0 ≤ value then ⌊value⌋ else ⌈value⌉

/-- A sample, where missing data are set to zero. -/
def filledIn (value : Rat) : Rat := if value < 0 then 0 else value

/-- The list that is left after a call that sets missing data to zero. -/
def filled (list : List Rat) : List Rat := list.map filledIn

/-- The weight of a sample at a position. -/
def sampleWeight (factor : Rat → Rat) (sample : Rat × Nat) : Rat :=
  if sample.1 < 0 then 0 else sample.2 * factor sample.1

/-- The average of samples by their positions and a factor, unless the sum is
zero, and the list that is left. -/
def averageBy (factor : Rat → Rat) (list : List Rat) : Rat × List Rat :=
  let sum := total (fun sample => filledIn sample.1 * sampleWeight factor sample) list.zipIdx
  let sumWeights := total (sampleWeight factor) list.zipIdx
  (if sum = 0 then 0 else sum / sumWeights, filled list)

/-- `compute_average`, with the list that is left. -/
def computeAverage (list : List Rat) : Rat × List Rat :=
  let sum := total filledIn list
  let noDataValues := list.countP (· < 0)
  let elements : Nat := list.length - noDataValues
  (if sum = 0 then 0 else sum / elements, list)

def computeWeightAverage (list : List Rat) : Rat × List Rat := averageBy (fun _ => 1) list

def computeWeightAverageResponse (slo weightSlowViolation : Rat) (list : List Rat) : Rat × List Rat :=
  averageBy (fun value => if value > slo then weightSlowViolation else 1) list

/-- A value between the least and the greatest of the valid samples. -/
def Between (list : List Rat) (value : Rat) : Prop :=
  (∃ low ∈ list, 0 ≤ low ∧ low ≤ value) ∧ ∃ high ∈ list, 0 ≤ high ∧ value ≤ high

/-- A function that averages a list, and does so again. -/
def Averages (compute : List Rat → Rat × List Rat) (list : List Rat) : Prop :=
  Between list (compute list).1 ∧ (compute (compute list).2).1 = (compute list).1

variable {list : List Rat} {factor : Rat → Rat} {slo weightSlowViolation : Rat}

theorem truncated_nonneg {value : Rat} (nonneg : 0 ≤ value) : 0 ≤ truncated value := by
  rw [truncated, if_pos nonneg]
  exact Int.floor_nonneg.mpr nonneg

theorem filledIn_nonneg (value : Rat) : 0 ≤ filledIn value := by
  unfold filledIn
  split
  · exact le_rfl
  · exact not_lt.mp ‹_›

theorem filledIn_valid {value : Rat} (valid : 0 ≤ value) : filledIn value = value := if_neg (not_lt.mpr valid)

theorem filledIn_eq_zero_iff {value : Rat} : filledIn value = 0 ↔ value ≤ 0 := by
  unfold filledIn
  split
  · exact iff_of_true rfl (le_of_lt ‹_›)
  · exact ⟨fun zero => zero.le, fun low => le_antisymm low (not_lt.mp ‹_›)⟩

theorem sampleWeight_nonneg (positive : ∀ value, 0 < factor value) (sample : Rat × Nat) : 0 ≤ sampleWeight factor sample := by
  unfold sampleWeight
  split
  · exact le_rfl
  · exact mul_nonneg (Nat.cast_nonneg _) (positive _).le

theorem sampleWeight_ne_zero_iff (positive : ∀ value, 0 < factor value) {sample : Rat × Nat} :
    sampleWeight factor sample ≠ 0 ↔ 0 ≤ sample.1 ∧ sample.2 ≠ 0 := by
  unfold sampleWeight
  split
  · rename_i missing
    exact iff_of_false (fun some => some rfl) fun valid => absurd valid.1 (not_le.mpr missing)
  · rename_i valid
    rw [mul_ne_zero_iff, Nat.cast_ne_zero, and_iff_left (positive _).ne', and_iff_right (not_lt.mp valid)]

theorem averageBy_nonneg (positive : ∀ value, 0 < factor value) : 0 ≤ (averageBy factor list).1 := by
  have sum : 0 ≤ total (fun sample => filledIn sample.1 * sampleWeight factor sample) list.zipIdx := total_nonneg fun sample _ =>
    mul_nonneg (filledIn_nonneg _) (sampleWeight_nonneg positive sample)
  unfold averageBy
  dsimp only
  split
  · exact le_rfl
  · exact div_nonneg sum (total_nonneg fun sample _ => sampleWeight_nonneg positive sample)

/-- The samples that can have a weight are those after the first one. -/
theorem forall_later_iff {p : Rat → Prop} :
    (∀ sample ∈ list.zipIdx, sample.2 ≠ 0 → p sample.1) ↔ ∀ value ∈ list.tail, p value := by
  constructor
  · intro later value member
    obtain ⟨position, found⟩ := List.mem_iff_getElem?.mp member
    rw [List.getElem?_tail] at found
    exact later (value, position + 1) (List.mem_zipIdx_iff_getElem?.mpr found) (Nat.succ_ne_zero position)
  · intro all sample member some
    obtain ⟨position, at_⟩ := Nat.exists_eq_succ_of_ne_zero some
    have found := List.mem_zipIdx_iff_getElem?.mp member
    rw [at_] at found
    exact all sample.1 (List.mem_iff_getElem?.mpr ⟨position, List.getElem?_tail.trans found⟩)

theorem sum_eq_zero_iff (positive : ∀ value, 0 < factor value) :
    total (fun sample => filledIn sample.1 * sampleWeight factor sample) list.zipIdx = 0 ↔ ∀ value ∈ list.tail, value ≤ 0 := by
  rw [total_eq_zero_iff fun sample _ => mul_nonneg (filledIn_nonneg _) (sampleWeight_nonneg positive sample), ← forall_later_iff]
  refine forall₂_congr fun sample _ => ?_
  rw [mul_eq_zero, filledIn_eq_zero_iff]
  constructor
  · rintro (low | none) later
    · exact low
    · by_contra high
      exact (sampleWeight_ne_zero_iff positive).mpr ⟨(not_le.mp high).le, later⟩ none
  · intro low
    by_contra none
    obtain ⟨high, some⟩ := not_or.mp none
    exact high (low ((sampleWeight_ne_zero_iff positive).mp some).2)

/-- A mean in which only valid samples have a weight. -/
theorem between_mean {α : Type} {items : List α} {weight sample : α → Rat} (nonneg : ∀ a ∈ items, 0 ≤ weight a)
    (weighed : total weight items ≠ 0) (counts : ∀ a ∈ items, weight a ≠ 0 → sample a ∈ list ∧ 0 ≤ sample a) :
    Between list (mean weight (fun a => filledIn (sample a)) items) := by
  obtain ⟨low, member, some, le⟩ := exists_le_mean (fun a => filledIn (sample a)) nonneg weighed
  obtain ⟨high, member', some', ge⟩ := exists_mean_le (fun a => filledIn (sample a)) nonneg weighed
  obtain ⟨inside, valid⟩ := counts low member some
  obtain ⟨inside', valid'⟩ := counts high member' some'
  exact ⟨⟨sample low, inside, valid, filledIn_valid valid ▸ le⟩, sample high, inside', valid', filledIn_valid valid' ▸ ge⟩

/-- An average is in its bounds if a sample after the first one is valid, or the
first one is zero. -/
theorem between_averageBy_iff (positive : ∀ value, 0 < factor value) (valid : ∃ value ∈ list, 0 ≤ value) :
    Between list (averageBy factor list).1 ↔ (∃ value ∈ list.tail, 0 ≤ value) ∨ list.head? = some 0 := by
  have nonneg : ∀ sample ∈ list.zipIdx, 0 ≤ sampleWeight factor sample := fun sample _ => sampleWeight_nonneg positive sample
  by_cases zero : total (fun sample => filledIn sample.1 * sampleWeight factor sample) list.zipIdx = 0
  · have low := (sum_eq_zero_iff positive).mp zero
    have value : (averageBy factor list).1 = 0 := if_pos zero
    rw [value]
    obtain ⟨first, rest, rfl⟩ : ∃ first rest, list = first :: rest := List.exists_cons_of_ne_nil fun none => by simp [none] at valid
    rw [List.tail_cons] at low ⊢
    rw [List.head?_cons, Option.some.injEq]
    constructor
    · rintro ⟨⟨least, member, some, le⟩, -⟩
      obtain rfl := le_antisymm le some
      rcases List.mem_cons.mp member with same | later
      · exact .inr same.symm
      · exact .inl ⟨0, later, le_rfl⟩
    · intro either
      have member : (0 : Rat) ∈ first :: rest := by
        rcases either with ⟨value, later, some⟩ | rfl
        · exact le_antisymm (low value later) some ▸ List.mem_cons_of_mem first later
        · exact List.mem_cons_self
      exact ⟨⟨0, member, le_rfl, le_rfl⟩, 0, member, le_rfl, le_rfl⟩
  · have weighed : total (sampleWeight factor) list.zipIdx ≠ 0 := by
      intro none
      refine zero ((total_eq_zero_iff fun sample _ =>
        mul_nonneg (filledIn_nonneg _) (sampleWeight_nonneg positive sample)).mpr fun sample member => ?_)
      rw [(total_eq_zero_iff nonneg).mp none sample member, mul_zero]
    have value : (averageBy factor list).1 = mean (sampleWeight factor) (fun sample => filledIn sample.1) list.zipIdx :=
      if_neg zero
    refine iff_of_true ?_ (.inl ?_)
    · rw [value]
      exact between_mean nonneg weighed fun sample member some =>
        ⟨List.fst_mem_of_mem_zipIdx member, ((sampleWeight_ne_zero_iff positive).mp some).1⟩
    · by_contra none
      exact zero ((sum_eq_zero_iff positive).mpr fun value later => le_of_not_ge fun some => none ⟨value, later, some⟩)

theorem filledIn_idem (value : Rat) : filledIn (filledIn value) = filledIn value := filledIn_valid (filledIn_nonneg value)

theorem filled_zipIdx (list : List Rat) :
    (filled list).zipIdx = list.zipIdx.map fun sample => (filledIn sample.1, sample.2) :=
  List.zipIdx_map ..

/-- Missing data get a weight when they have been set to zero. -/
theorem sampleWeight_filledIn (positive : ∀ value, 0 < factor value) (sample : Rat × Nat) :
    sampleWeight factor sample ≤ sampleWeight factor (filledIn sample.1, sample.2) ∧
      (sampleWeight factor (filledIn sample.1, sample.2) = sampleWeight factor sample ↔ (sample.2 ≠ 0 → 0 ≤ sample.1)) := by
  by_cases missing : sample.1 < 0
  · have none : sampleWeight factor sample = 0 := if_pos missing
    rw [none]
    refine ⟨sampleWeight_nonneg positive _, ?_⟩
    constructor
    · intro zero later
      exact absurd zero ((sampleWeight_ne_zero_iff positive).mpr ⟨filledIn_nonneg _, later⟩)
    · intro valid
      by_contra some
      exact not_le.mpr missing (valid ((sampleWeight_ne_zero_iff positive).mp some).2)
  · rw [filledIn_valid (not_lt.mp missing)]
    exact ⟨le_rfl, iff_of_true rfl fun _ => not_lt.mp missing⟩

/-- The same list gives the same average again if no sample after the first one
is missing, or none of them counts. -/
theorem averageBy_again_iff (positive : ∀ value, 0 < factor value) :
    (averageBy factor (averageBy factor list).2).1 = (averageBy factor list).1 ↔
      (∀ value ∈ list.tail, 0 ≤ value) ∨ ∀ value ∈ list.tail, value ≤ 0 := by
  have sum : total (fun sample => filledIn sample.1 * sampleWeight factor sample) (filled list).zipIdx =
      total (fun sample => filledIn sample.1 * sampleWeight factor sample) list.zipIdx := by
    rw [filled_zipIdx, total_map]
    refine congrArg List.sum (List.map_congr_left fun sample _ => ?_)
    rw [filledIn_idem]
    by_cases missing : sample.1 < 0
    · rw [show filledIn sample.1 = 0 from if_pos missing, zero_mul, zero_mul]
    · rw [filledIn_valid (not_lt.mp missing)]
  have weights : total (sampleWeight factor) (filled list).zipIdx = total (sampleWeight factor) list.zipIdx ↔
      ∀ value ∈ list.tail, 0 ≤ value := by
    rw [filled_zipIdx, total_map, total_eq_iff fun sample _ => (sampleWeight_filledIn positive sample).1, ← forall_later_iff]
    exact forall₂_congr fun sample _ => (sampleWeight_filledIn positive sample).2
  rw [← sum_eq_zero_iff positive, ← weights]
  simp only [averageBy, sum]
  by_cases zero : total (fun sample => filledIn sample.1 * sampleWeight factor sample) list.zipIdx = 0
  · rw [if_pos zero, if_pos zero]
    exact iff_of_true rfl (.inr zero)
  · rw [if_neg zero, if_neg zero, div_eq_mul_inv, div_eq_mul_inv, mul_right_inj' zero, inv_inj, or_iff_left zero]

/-- `compute_average` averages all lists with a valid sample. -/
theorem averages_computeAverage (valid : ∃ value ∈ list, 0 ≤ value) : Averages computeAverage list := by
  refine ⟨?_, rfl⟩
  have elements : ((list.length - list.countP (· < 0) : Nat) : Rat) = total (fun value => if 0 ≤ value then 1 else 0) list := by
    have parts := List.length_eq_countP_add_countP (l := list) (fun value => decide (value < 0))
    simp only [decide_eq_true_eq, not_lt] at parts
    rw [parts, Nat.add_sub_cancel_left, ← total_indicator]
    simp only [decide_eq_true_eq]
  by_cases zero : total filledIn list = 0
  · have value : (computeAverage list).1 = 0 := if_pos zero
    obtain ⟨some, member, nonneg⟩ := valid
    have low := filledIn_eq_zero_iff.mp ((total_eq_zero_iff fun value _ => filledIn_nonneg value).mp zero some member)
    rw [value, ← le_antisymm low nonneg]
    exact ⟨⟨some, member, nonneg, le_rfl⟩, some, member, nonneg, le_rfl⟩
  · have nonneg : ∀ value ∈ list, (0 : Rat) ≤ if 0 ≤ value then 1 else 0 := by
      intro value _
      split
      · exact zero_le_one
      · exact le_rfl
    have sum : total (fun value => filledIn value * if 0 ≤ value then 1 else 0) list = total filledIn list := by
      refine congrArg List.sum (List.map_congr_left fun value _ => ?_)
      split
      · exact mul_one _
      · rename_i missing
        rw [mul_zero]
        exact (filledIn_eq_zero_iff.mpr (not_le.mp missing).le).symm
    have value : (computeAverage list).1 = mean (fun value => if 0 ≤ value then 1 else 0) filledIn list := by
      rw [mean, sum, ← elements]
      exact if_neg zero
    have weighed : total (fun value => if (0 : Rat) ≤ value then (1 : Rat) else 0) list ≠ 0 := by
      intro none
      obtain ⟨some, member, valid⟩ := valid
      exact one_ne_zero ((if_pos valid).symm.trans ((total_eq_zero_iff nonneg).mp none some member))
    rw [value]
    exact between_mean nonneg weighed fun value member some => ⟨member, by_contra fun missing => some (if_neg missing)⟩

/-- The three averages of a list are averages if the first sample does not
matter, or is the value they take, and no missing sample has a weight later. -/
theorem averages_iff (positive : 0 < weightSlowViolation) (valid : ∃ value ∈ list, 0 ≤ value) :
    (Averages computeAverage list ∧ Averages computeWeightAverage list ∧
        Averages (computeWeightAverageResponse slo weightSlowViolation) list) ↔
      ((∃ value ∈ list.tail, 0 ≤ value) ∨ list.head? = some 0) ∧
        ((∀ value ∈ list.tail, 0 ≤ value) ∨ ∀ value ∈ list.tail, value ≤ 0) := by
  have one : ∀ value : Rat, 0 < (fun _ : Rat => (1 : Rat)) value := fun _ => zero_lt_one
  have response : ∀ value, 0 < if value > slo then weightSlowViolation else 1 := by
    intro value
    split
    · exact positive
    · exact zero_lt_one
  have plain : Averages computeWeightAverage list ↔ _ :=
    and_congr (between_averageBy_iff one valid) (averageBy_again_iff one)
  have weighted : Averages (computeWeightAverageResponse slo weightSlowViolation) list ↔ _ :=
    and_congr (between_averageBy_iff response valid) (averageBy_again_iff response)
  rw [plain, weighted, and_iff_right (averages_computeAverage valid), and_self_iff]

theorem threeSamples_average : Averages computeAverage [-1, 2, 4] ∧ Averages computeWeightAverage [-1, 2, 4] ∧
    Averages (computeWeightAverageResponse 3 2) [-1, 2, 4] :=
  (averages_iff (by norm_num) ⟨2, by decide, by norm_num⟩).mpr ⟨.inl ⟨2, by decide, by norm_num⟩, .inl (by decide)⟩

/-- One sample is averaged to zero. -/
theorem oneSample_lost : ¬∀ (list : List Rat) (slo weight : Rat), 0 < weight → (∃ value ∈ list, 0 ≤ value) →
    Averages computeAverage list ∧ Averages computeWeightAverage list ∧ Averages (computeWeightAverageResponse slo weight) list := by
  intro law
  obtain ⟨-, ⟨⟨⟨low, member, -, le⟩, -⟩, -⟩, -⟩ := law [5] 1 1 zero_lt_one ⟨5, by decide, by norm_num⟩
  obtain rfl := List.mem_singleton.mp member
  exact absurd le (by decide +kernel)

end ConPaaS
