import Mathlib.Data.List.Basic
import Mathlib.Data.List.Nodup
import Mathlib.Data.List.Perm.Basic
import Mathlib.Order.Lattice

namespace RunningMinima

variable {α K : Type} [LinearOrder K] {f : α → K} {bound : K} {list : List α} {p q : α} {k : Nat}

/-- The elements with a value below a bound and below those of all elements
before them. -/
def minima (f : α → K) : K → List α → List α
  | _, [] => []
  | bound, a :: list => if f a < bound then a :: minima f (f a) list else minima f bound list

theorem minima_sublist (f : α → K) (bound : K) (list : List α) : (minima f bound list).Sublist list := by
  induction list generalizing bound with
  | nil => exact .slnil
  | cons a list ih =>
    rw [minima]
    split
    · exact (ih (f a)).cons_cons a
    · exact (ih bound).cons a

/-- An element stands before another one in a list. -/
def Earlier (list : List α) (p q : α) : Prop := [p, q].Sublist list

theorem Earlier.left (earlier : Earlier list p q) : p ∈ list := earlier.subset List.mem_cons_self

theorem Earlier.right (earlier : Earlier list p q) : q ∈ list := earlier.subset (List.mem_cons_of_mem p List.mem_cons_self)

theorem earlier_cons_iff {a : α} (fresh : a ∉ list) (member : p ∈ list) : Earlier (a :: list) q p ↔ q = a ∨ Earlier list q p := by
  unfold Earlier
  rw [List.sublist_cons_iff]
  constructor
  · rintro (later | ⟨tail, same, -⟩)
    · exact .inr later
    · exact .inl (List.cons.inj same).1
  · rintro (rfl | later)
    · exact .inr ⟨[p], rfl, List.singleton_sublist.mpr member⟩
    · exact .inl later

theorem not_earlier_head {a : α} (fresh : a ∉ list) : ¬ Earlier (a :: list) q a := by
  unfold Earlier
  rw [List.sublist_cons_iff]
  rintro (later | ⟨tail, same, sublist⟩)
  · exact fresh (later.subset (List.mem_cons_of_mem q List.mem_cons_self))
  · obtain rfl := (List.cons.inj same).2
    exact fresh (List.singleton_sublist.mp sublist)

theorem Earlier.asymm (distinct : list.Nodup) (earlier : Earlier list p q) : ¬ Earlier list q p := by
  induction list with
  | nil => exact fun other => absurd other.left List.not_mem_nil
  | cons a list ih =>
    obtain ⟨fresh, distinct⟩ := List.nodup_cons.mp distinct
    intro other
    have tail : ∀ {x y}, Earlier (a :: list) x y → y ∈ list := by
      intro x y earlier
      rcases List.mem_cons.mp earlier.right with rfl | later
      · exact absurd earlier (not_earlier_head fresh)
      · exact later
    have inP := tail other
    have inQ := tail earlier
    have later := ((earlier_cons_iff fresh inQ).mp earlier).resolve_left fun same => fresh (same ▸ inP)
    exact ih distinct later (((earlier_cons_iff fresh inP).mp other).resolve_left fun same => fresh (same ▸ inQ))

theorem mem_minima (distinct : list.Nodup) :
    p ∈ minima f bound list ↔ p ∈ list ∧ f p < bound ∧ ∀ q, Earlier list q p → f p < f q := by
  induction list generalizing bound with
  | nil => simp [minima]
  | cons a list ih =>
    obtain ⟨fresh, distinct⟩ := List.nodup_cons.mp distinct
    rw [minima]
    by_cases here : p = a
    · subst here
      have none : p ∉ minima f bound list := fun member => fresh ((minima_sublist f bound list).subset member)
      have first : ∀ q, Earlier (p :: list) q p → f p < f q := fun q earlier => absurd earlier (not_earlier_head fresh)
      split
      · rename_i below
        exact iff_of_true List.mem_cons_self ⟨List.mem_cons_self, below, first⟩
      · rename_i above
        exact iff_of_false none fun all => above all.2.1
    · have member : p ∈ a :: list ↔ p ∈ list := by simp [here]
      split
      · rename_i below
        rw [List.mem_cons, or_iff_right here, ih distinct, member]
        constructor
        · rintro ⟨inside, less, before⟩
          refine ⟨inside, less.trans below, fun q earlier => ?_⟩
          rcases (earlier_cons_iff fresh inside).mp earlier with rfl | later
          · exact less
          · exact before q later
        · rintro ⟨inside, -, before⟩
          exact ⟨inside, before a ((earlier_cons_iff fresh inside).mpr (.inl rfl)),
            fun q earlier => before q ((earlier_cons_iff fresh inside).mpr (.inr earlier))⟩
      · rename_i above
        rw [ih distinct, member]
        refine and_congr_right fun inside => and_congr_right fun less => forall_congr' fun q => ?_
        rw [earlier_cons_iff fresh inside]
        constructor
        · rintro before (rfl | later)
          · exact less.trans_le (not_lt.mp above)
          · exact before later
        · exact fun before later => before (.inr later)

/-- Elements that are not below the bound do not matter. -/
theorem minima_filter {least : K} (le : least ≤ bound) :
    minima f least (list.filter fun a => f a < bound) = minima f least list := by
  induction list generalizing least with
  | nil => rfl
  | cons a list ih =>
    by_cases below : f a < bound
    · rw [List.filter_cons_of_pos (by simpa using below), minima, minima, ih le]
      split
      · rw [ih below.le]
      · rfl
    · rw [List.filter_cons_of_neg (by simpa using below), ih le, minima, if_neg fun less => below (less.trans_le le)]

theorem minima_ne_nil (some : list ≠ []) (below : ∀ a ∈ list, f a < bound) : minima f bound list ≠ [] := by
  cases list with
  | nil => exact absurd rfl some
  | cons a list =>
    rw [minima, if_pos (below a List.mem_cons_self)]
    exact List.cons_ne_nil a _

/-- An element to which as many others lead, each before the next one and not
above it. -/
def Follows (f : α → K) (list : List α) : Nat → α → Prop
  | 0, p => p ∈ list
  | k + 1, p => ∃ q, Earlier list q p ∧ f q ≤ f p ∧ Follows f list k q

/-- The order in which the elements are picked: those that fewer others lead to,
and of these the one that stands first. -/
def Sooner (f : α → K) (list : List α) (p q : α) : Prop :=
  (∃ k, Follows f list k q ∧ ¬ Follows f list k p) ∨ (∀ k, Follows f list k p ↔ Follows f list k q) ∧ Earlier list p q

theorem Follows.mem (follows : Follows f list k p) : p ∈ list := by
  cases k with
  | zero => exact follows
  | succ k =>
    obtain ⟨q, earlier, -⟩ := follows
    exact earlier.right

theorem Follows.less (follows : Follows f list (k + 1) p) : Follows f list k p := by
  induction k generalizing p with
  | zero => exact follows.mem
  | succ k ih =>
    obtain ⟨q, earlier, le, before⟩ := follows
    exact ⟨q, earlier, le, ih before⟩

theorem Follows.mono {m : Nat} (follows : Follows f list k p) (le : m ≤ k) : Follows f list m p := by
  induction le with
  | refl => exact follows
  | step _ ih => exact ih follows.less

theorem Follows.one (follows : Follows f list (k + 1) p) : Follows f list 1 p := by
  obtain ⟨q, earlier, le, before⟩ := follows
  exact ⟨q, earlier, le, before.mem⟩

theorem Sooner.asymm (distinct : list.Nodup) (sooner : Sooner f list p q) : ¬ Sooner f list q p := by
  rintro (⟨m, leads, none⟩ | ⟨same', earlier'⟩)
  · rcases sooner with ⟨k, leads', none'⟩ | ⟨same, -⟩
    · rcases Nat.le_total m k with le | le
      · exact none (leads'.mono le)
      · exact none' (leads.mono le)
    · exact none ((same m).mp leads)
  · rcases sooner with ⟨k, leads, none⟩ | ⟨-, earlier⟩
    · exact none ((same' k).mp leads)
    · exact earlier.asymm distinct earlier'

variable [DecidableEq α]

/-- What is left of a list without its running minima. -/
def rest (f : α → K) (bound : K) (list : List α) : List α := list.filter fun a => a ∉ minima f bound list

/-- The running minima of a list, then those of what is left, and so on. -/
def picks (f : α → K) (bound : K) : Nat → List α → List α
  | 0, _ => []
  | k + 1, list => minima f bound list ++ picks f bound k (rest f bound list)

theorem rest_filter : rest f bound (list.filter fun a => f a < bound) = (rest f bound list).filter fun a => f a < bound := by
  rw [rest, rest, minima_filter le_rfl, List.filter_comm]

theorem mem_rest (distinct : list.Nodup) (below : ∀ a ∈ list, f a < bound) : p ∈ rest f bound list ↔ Follows f list 1 p := by
  rw [rest, List.mem_filter, decide_eq_true_eq, mem_minima distinct]
  constructor
  · rintro ⟨inside, left⟩
    by_contra none
    refine left ⟨inside, below p inside, fun q earlier => ?_⟩
    by_contra le
    exact none ⟨q, earlier, not_lt.mp le, earlier.left⟩
  · rintro ⟨q, earlier, le, -⟩
    exact ⟨earlier.right, fun least => (least.2.2 q earlier).not_ge le⟩

theorem earlier_rest (distinct : list.Nodup) (below : ∀ a ∈ list, f a < bound) (left : Follows f list 1 p) (right : Follows f list 1 q) :
    Earlier (rest f bound list) p q ↔ Earlier list p q := by
  constructor
  · exact fun earlier => earlier.trans List.filter_sublist
  · intro earlier
    have inside : ∀ a ∈ [p, q], decide (a ∉ minima f bound list) = true := by
      intro a member
      have outside : a ∈ rest f bound list := by
        rcases List.mem_pair.mp member with rfl | rfl
        · exact (mem_rest distinct below).mpr left
        · exact (mem_rest distinct below).mpr right
      exact (List.mem_filter.mp outside).2
    have both := earlier.filter fun a => decide (a ∉ minima f bound list)
    rwa [List.filter_eq_self.mpr inside] at both

/-- Without the running minima one less leads to an element. -/
theorem follows_rest (distinct : list.Nodup) (below : ∀ a ∈ list, f a < bound) :
    Follows f (rest f bound list) k p ↔ Follows f list (k + 1) p := by
  induction k generalizing p with
  | zero => exact mem_rest distinct below
  | succ k ih =>
    constructor
    · rintro ⟨q, earlier, le, follows⟩
      exact ⟨q, earlier.trans List.filter_sublist, le, ih.mp follows⟩
    · rintro ⟨q, earlier, le, follows⟩
      have last : Follows f list 1 p := ⟨q, earlier, le, earlier.left⟩
      exact ⟨q, (earlier_rest distinct below follows.one last).mpr earlier, le, ih.mpr follows⟩

theorem picks_subset (k : Nat) (list : List α) : picks f bound k list ⊆ list := by
  induction k generalizing list with
  | zero => exact List.nil_subset list
  | succ k ih =>
    refine List.append_subset.mpr ⟨(minima_sublist f bound list).subset, fun a member => ?_⟩
    exact List.mem_of_mem_filter (ih _ member)

/-- The picks are made in their order. -/
theorem picks_pairwise (distinct : list.Nodup) (below : ∀ a ∈ list, f a < bound) (k : Nat) :
    (picks f bound k list).Pairwise (Sooner f list) := by
  induction k generalizing list with
  | zero => exact .nil
  | succ k ih =>
    have fewer : (rest f bound list).Nodup := distinct.filter _
    have below' : ∀ a ∈ rest f bound list, f a < bound := fun a member => below a (List.mem_of_mem_filter member)
    have first : ∀ a ∈ minima f bound list, a ∈ list ∧ ∀ k, ¬ Follows f list (k + 1) a := by
      intro a member
      refine ⟨(minima_sublist f bound list).subset member, fun k follows => ?_⟩
      exact of_decide_eq_true (List.mem_filter.mp ((mem_rest distinct below).mpr follows.one)).2 member
    refine List.pairwise_append.mpr ⟨?_, ?_, ?_⟩
    · refine List.pairwise_iff_forall_sublist.mpr fun {a b} sublist => .inr ⟨fun k => ?_, sublist.trans (minima_sublist f bound list)⟩
      have inA := first a (sublist.subset List.mem_cons_self)
      have inB := first b (sublist.subset (List.mem_cons_of_mem a List.mem_cons_self))
      cases k with
      | zero => exact iff_of_true inA.1 inB.1
      | succ k => exact iff_of_false (inA.2 k) (inB.2 k)
    · refine (ih fewer below').imp_of_mem fun {a b} inA inB sooner => ?_
      have followsA := (mem_rest distinct below).mp (picks_subset k _ inA)
      have followsB := (mem_rest distinct below).mp (picks_subset k _ inB)
      rcases sooner with ⟨k, right, left⟩ | ⟨same, earlier⟩
      · exact .inl ⟨k + 1, (follows_rest distinct below).mp right, fun follows => left ((follows_rest distinct below).mpr follows)⟩
      · refine .inr ⟨fun k => ?_, (earlier_rest distinct below followsA followsB).mp earlier⟩
        cases k with
        | zero => exact iff_of_true followsA.mem followsB.mem
        | succ k =>
          rw [← follows_rest distinct below, ← follows_rest distinct below]
          exact same k
    · intro a inA b inB
      exact .inl ⟨1, (mem_rest distinct below).mp (picks_subset k _ inB), (first a inA).2 0⟩

theorem minima_append_rest (distinct : list.Nodup) : (minima f bound list ++ rest f bound list).Perm list := by
  have apart : (minima f bound list ++ rest f bound list).Nodup := by
    refine List.nodup_append.mpr ⟨distinct.sublist (minima_sublist f bound list), distinct.filter _, ?_⟩
    rintro a inside _ outside rfl
    exact of_decide_eq_true (List.mem_filter.mp outside).2 inside
  refine (List.perm_ext_iff_of_nodup apart distinct).mpr fun a => ?_
  rw [List.mem_append, rest, List.mem_filter, decide_eq_true_eq]
  constructor
  · rintro (inside | outside)
    · exact (minima_sublist f bound list).subset inside
    · exact outside.1
  · exact fun member => (Decidable.em _).imp_right fun outside => ⟨member, outside⟩

theorem length_rest_lt (distinct : list.Nodup) (some : list ≠ []) (below : ∀ a ∈ list, f a < bound) :
    (rest f bound list).length < list.length := by
  have split : (minima f bound list ++ rest f bound list).length = list.length := (minima_append_rest distinct).length_eq
  have positive := List.length_pos_iff.mpr (minima_ne_nil some below)
  rw [List.length_append] at split
  omega

/-- With enough rounds every element is picked. -/
theorem picks_perm (distinct : list.Nodup) (below : ∀ a ∈ list, f a < bound) (enough : list.length ≤ k) :
    (picks f bound k list).Perm list := by
  induction k generalizing list with
  | zero =>
    rw [List.eq_nil_of_length_eq_zero (Nat.le_zero.mp enough)]
    exact .nil
  | succ k ih =>
    have fewer : (rest f bound list).length ≤ k := by
      by_cases none : list = []
      · rw [none]
        exact Nat.zero_le k
      · have := length_rest_lt distinct none below
        omega
    have later := ih (distinct.filter _) (fun a member => below a (List.mem_of_mem_filter member)) fewer
    exact (later.append_left _).trans (minima_append_rest distinct)

end RunningMinima
