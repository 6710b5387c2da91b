import ConPaaS.Lib.Table
import ConPaaS.Lib.ZeroOne
import Mathlib.Algebra.Order.BigOperators.Group.List
import Mathlib.Algebra.Order.Field.Rat
import Mathlib.Data.Rat.Floor
import Mathlib.Tactic.Linarith

namespace ConPaaS

open Keyed ZeroOne

/-- One machine that can be hired. The flag `take` is the place of the item
in the list `taken` of a solution. -/
structure Item where
  profit : ℚ
  weight : Nat
  cluster : String
  deriving DecidableEq, Repr

/-- The number of machines chosen on a cluster. -/
structure Machines where
  cluster : String
  machines : Nat
  deriving DecidableEq, Repr

/-- A cell of the tables `opt` and `sol`. -/
structure Cell where
  opt : ℚ
  sol : Bool
  deriving DecidableEq, Repr

/-- What `findSol` leaves in the fields of the object and returns. -/
structure Solution where
  taken : List Item
  finalSol : Table Machines.cluster
  noATUPlan : Int
  costPlan : Int
  success : Bool
  deriving DecidableEq

structure Knapsack where
  items : List Item
  wmin : Nat
  W : Nat
  size : Int
  budget : Int
  atu : Int
  deriving DecidableEq, Repr

namespace Knapsack

def N (k : Knapsack) : Nat := k.items.length - 1

def item (k : Knapsack) (n : Nat) : Item := k.items.getD n ⟨0, 0, ""⟩

def unset : Cell := ⟨0, false⟩

/-- The body of the loop over the weights, on the row before. -/
def cell (item : Item) (previous : List Cell) (w : Nat) : Cell :=
  let option1 := (previous.getD w unset).opt
  let option2 := if item.weight ≤ w then item.profit + (previous.getD (w - item.weight) unset).opt else 0
  ⟨max option1 option2, option1 < option2⟩

/-- Row `n` of the two tables. -/
def row (k : Knapsack) : Nat → List Cell
  | 0 => List.replicate (k.W + 1) unset
  | n + 1 =>
    let previous := k.row n
    (List.range (k.W + 1)).map fun w => if w < k.wmin then unset else cell (k.item (n + 1)) previous w

def opt (k : Knapsack) (n w : Nat) : ℚ := ((k.row n).getD w unset).opt

def sol (k : Knapsack) (n w : Nat) : Bool := ((k.row n).getD w unset).sol

/-- The time units in which machines of a given profit get the tasks done. -/
def noATUs (k : Knapsack) (profit : ℚ) : Int := ⌈k.size / (k.atu * profit)⌉

/-- The test of the search. -/
def stops (k : Knapsack) (i w : Nat) : Bool := k.sol i w && decide (w * k.noATUs (k.opt i w) ≤ k.budget)

/-- The inner loop of the search, from the last item down. -/
def searchItems (k : Knapsack) (w : Nat) : Nat → Option Nat
  | 0 => none
  | i + 1 => if k.stops (i + 1) w then some (i + 1) else k.searchItems w i

/-- The search, from the largest weight down: `nminATUs` and `wminATUs`. -/
def search (k : Knapsack) : Nat → Option (Nat × Nat)
  | 0 => none
  | w + 1 =>
    match k.searchItems (w + 1) k.N with
    | some i => some (i, w + 1)
    | none => k.search w

/-- The items the last loop takes. -/
def traceback (k : Knapsack) : Nat → Nat → List Item
  | 0, _ => []
  | n + 1, w =>
    if k.sol (n + 1) w then k.item (n + 1) :: k.traceback n (w - (k.item (n + 1)).weight) else k.traceback n w

/-- One more machine of a cluster. -/
def addMachine (finalSol : Table Machines.cluster) (cluster : String) : Table Machines.cluster :=
  let crt := (finalSol.get? cluster).elim 0 Machines.machines
  finalSol.put ⟨cluster, crt + 1⟩

def maxValue : Int := 2147483647

/-- No result is the index error of tables without a column `wmin`. -/
def findSol (k : Knapsack) : Option Solution :=
  if k.W < k.wmin then none
  else
    let plan := k.search k.W
    let taken := plan.elim [] fun (i, w) => k.traceback i w
    let finalSol := (taken.map Item.cluster).foldl addMachine Table.empty
    some {
      taken
      finalSol
      noATUPlan := plan.elim maxValue fun (i, w) => k.noATUs (k.opt i w)
      costPlan := plan.elim 0 fun (i, w) => w * k.noATUs (k.opt i w)
      success := !finalSol.rows.isEmpty }

variable {k : Knapsack} {n w v i : Nat} {p q : ℚ} {S : List Item}

/-- What the tables and the search rely on. -/
structure Proper (k : Knapsack) : Prop where
  size : 0 < k.size
  atu : 0 < k.atu
  capacity : k.wmin ≤ k.W
  profits : ∀ item ∈ k.items.tail, 0 < item.profit
  weights : ∀ item ∈ k.items.tail, k.wmin ≤ item.weight

/-- The items up to a row, the last one first. -/
def upTo (k : Knapsack) : Nat → List Item
  | 0 => []
  | n + 1 => k.item (n + 1) :: k.upTo n

/-- The best profit of the items up to a row within a capacity. -/
def bestUpTo (k : Knapsack) (n w : Nat) : ℚ := best Item.weight Item.profit (k.upTo n) w

theorem item_succ (inside : n < k.items.tail.length) : k.item (n + 1) = k.items.tail[n] := by
  rw [item, List.getD_eq_getElem?_getD, ← List.getElem?_tail, List.getElem?_eq_getElem inside]
  rfl

theorem N_eq : k.N = k.items.tail.length := List.length_tail.symm

theorem item_mem (inside : n < k.N) : k.item (n + 1) ∈ k.items.tail := by
  rw [N_eq] at inside
  rw [item_succ inside]
  exact List.getElem_mem inside

theorem upTo_eq (inside : n ≤ k.N) : k.upTo n = (k.items.tail.take n).reverse := by
  induction n with
  | zero => rfl
  | succ n ih =>
    rw [N_eq] at inside ih
    rw [upTo, ih (by omega), item_succ (by omega), List.take_add_one, List.getElem?_eq_getElem (by omega)]
    simp

theorem upTo_N : k.upTo k.N = k.items.tail.reverse := by
  rw [upTo_eq le_rfl, N_eq, List.take_length]

theorem upTo_mem {item : Item} (inside : n ≤ k.N) (member : item ∈ k.upTo n) : item ∈ k.items.tail := by
  rw [upTo_eq inside, List.mem_reverse] at member
  exact List.mem_of_mem_take member

theorem upTo_sublist (inside : n ≤ k.N) : (k.upTo n).Sublist k.items.tail.reverse := by
  rw [upTo_eq inside, List.reverse_sublist]
  exact List.take_sublist n _

theorem getD_row (inside : w ≤ k.W) :
    (k.row (n + 1)).getD w unset = if w < k.wmin then unset else cell (k.item (n + 1)) (k.row n) w := by
  rw [row, List.getD_eq_getElem?_getD, List.getElem?_map, List.getElem?_range (by omega)]
  rfl

theorem bestUpTo_below (h : k.Proper) (inside : n ≤ k.N) (below : w < k.wmin) : k.bestUpTo n w = 0 :=
  best_below fun item member => lt_of_lt_of_le below (h.weights item (upTo_mem inside member))

/-- The tables hold the recursion for the best profit. -/
theorem opt_eq (h : k.Proper) (inside : n ≤ k.N) (within : w ≤ k.W) : k.opt n w = k.bestUpTo n w := by
  induction n generalizing w with
  | zero =>
    rw [opt, row, List.getD_eq_getElem?_getD, List.getElem?_replicate_of_lt (by omega)]
    rfl
  | succ n ih =>
    rw [opt, getD_row within]
    split
    · next below => exact (bestUpTo_below h inside below).symm
    · rw [bestUpTo, upTo, best]
      have left : ((k.row n).getD w unset).opt = k.bestUpTo n w := ih (by omega) within
      have right : ((k.row n).getD (w - (k.item (n + 1)).weight) unset).opt =
          k.bestUpTo n (w - (k.item (n + 1)).weight) := ih (by omega) (by omega)
      simp only [cell, left, right]
      split
      · rfl
      · exact max_eq_left best_nonneg

theorem sol_iff (h : k.Proper) (inside : n < k.N) (within : w ≤ k.W) :
    k.sol (n + 1) w = true ↔ Gains Item.weight Item.profit (k.item (n + 1)) (k.upTo n) w := by
  have heavy := h.weights _ (item_mem inside)
  rw [sol, getD_row within]
  split
  · refine iff_of_false Bool.false_ne_true fun gains => ?_
    have := gains.1
    omega
  · have left : ((k.row n).getD w unset).opt = k.bestUpTo n w := opt_eq h (by omega) within
    have right : ((k.row n).getD (w - (k.item (n + 1)).weight) unset).opt =
        k.bestUpTo n (w - (k.item (n + 1)).weight) := opt_eq h (by omega) (by omega)
    simp only [cell, left, right, decide_eq_true_eq]
    split
    · next fits => exact ⟨fun more => ⟨fits, more⟩, fun gains => gains.2⟩
    · next heavier =>
      exact iff_of_false (not_lt.mpr best_nonneg) fun gains => heavier gains.1

theorem traceback_eq (h : k.Proper) (inside : n ≤ k.N) (within : w ≤ k.W) :
    k.traceback n w = chosen Item.weight Item.profit (k.upTo n) w := by
  induction n generalizing w with
  | zero => rfl
  | succ n ih =>
    have gains := sol_iff h inside within
    rw [traceback, upTo, chosen, ih (by omega) within, ih (by omega) (by omega)]
    simp only [gains]

theorem noATUs_anti (h : k.Proper) (positive : 0 < p) (more : p ≤ q) : k.noATUs q ≤ k.noATUs p := by
  have size : (0 : ℚ) ≤ k.size := by exact_mod_cast h.size.le
  have atu : (0 : ℚ) < k.atu := by exact_mod_cast h.atu
  refine Int.ceil_le_ceil (div_le_div_of_nonneg_left size (mul_pos atu positive) ?_)
  exact mul_le_mul_of_nonneg_left more atu.le

theorem noATUs_nonneg (h : k.Proper) (positive : 0 < p) : 0 ≤ k.noATUs p := by
  have size : (0 : ℚ) ≤ k.size := by exact_mod_cast h.size.le
  have atu : (0 : ℚ) < k.atu := by exact_mod_cast h.atu
  exact Int.ceil_nonneg (div_nonneg size (mul_pos atu positive).le)

/-- The best choice within a capacity is worth taking and within the budget. -/
def Meets (k : Knapsack) (n w : Nat) : Prop :=
  0 < k.bestUpTo n w ∧ w * k.noATUs (k.bestUpTo n w) ≤ k.budget

theorem bestUpTo_lt_iff :
    k.bestUpTo n w < k.bestUpTo (n + 1) w ↔ Gains Item.weight Item.profit (k.item (n + 1)) (k.upTo n) w :=
  best_lt_cons_iff

theorem bestUpTo_le_succ : k.bestUpTo n w ≤ k.bestUpTo (n + 1) w := best_le_cons

theorem stops_iff (h : k.Proper) (inside : n < k.N) (within : w ≤ k.W) :
    k.stops (n + 1) w = true ↔
      k.bestUpTo n w < k.bestUpTo (n + 1) w ∧ w * k.noATUs (k.bestUpTo (n + 1) w) ≤ k.budget := by
  rw [stops, Bool.and_eq_true, sol_iff h inside within, opt_eq h inside within, decide_eq_true_eq, bestUpTo_lt_iff]

/-- A row within the budget that does not stop the search is no better than
the row below. -/
theorem bestUpTo_eq_of_not_stops (h : k.Proper) (inside : n < k.N) (within : w ≤ k.W)
    (on : k.stops (n + 1) w ≠ true) (payable : w * k.noATUs (k.bestUpTo (n + 1) w) ≤ k.budget) :
    k.bestUpTo (n + 1) w = k.bestUpTo n w := by
  refine le_antisymm (not_lt.mp fun more => on ?_) bestUpTo_le_succ
  exact (stops_iff h inside within).mpr ⟨more, payable⟩

theorem payable_succ (h : k.Proper) (positive : 0 < k.bestUpTo n w)
    (payable : w * k.noATUs (k.bestUpTo n w) ≤ k.budget) : w * k.noATUs (k.bestUpTo (n + 1) w) ≤ k.budget :=
  (mul_le_mul_of_nonneg_left (noATUs_anti h positive bestUpTo_le_succ) (Int.natCast_nonneg w)).trans payable

/-- The row found at a capacity is as good as the last one. -/
theorem searchItems_best (h : k.Proper) (inside : n ≤ k.N) (within : w ≤ k.W) (found : k.searchItems w n = some i) :
    i ≤ n ∧ k.bestUpTo i w = k.bestUpTo n w ∧ k.Meets n w := by
  induction n with
  | zero => cases found
  | succ n ih =>
    rw [searchItems] at found
    split at found
    · next stop =>
      obtain rfl := Option.some.inj found
      obtain ⟨more, payable⟩ := (stops_iff h inside within).mp stop
      exact ⟨le_rfl, rfl, lt_of_le_of_lt best_nonneg more, payable⟩
    · next on =>
      obtain ⟨below, same, positive, payable⟩ := ih (by omega) found
      have level := bestUpTo_eq_of_not_stops h inside within on (payable_succ h positive payable)
      rw [Meets, level]
      exact ⟨by omega, same, positive, payable⟩

theorem searchItems_some (h : k.Proper) (inside : n ≤ k.N) (within : w ≤ k.W) (meets : k.Meets n w) :
    ∃ i, k.searchItems w n = some i := by
  induction n with
  | zero => exact absurd meets.1 (lt_irrefl 0)
  | succ n ih =>
    rw [searchItems]
    split
    · exact ⟨n + 1, rfl⟩
    · next on =>
      have level := bestUpTo_eq_of_not_stops h inside within on meets.2
      rw [Meets, level] at meets
      exact ih (by omega) meets

theorem search_some (found : k.search v = some (i, w)) : 0 < w ∧ w ≤ v ∧ k.searchItems w k.N = some i := by
  induction v with
  | zero => cases found
  | succ v ih =>
    rw [search] at found
    split at found
    · next row =>
      obtain ⟨rfl, rfl⟩ := Prod.mk.inj (Option.some.inj found)
      exact ⟨by omega, le_rfl, row⟩
    · obtain ⟨positive, below, row⟩ := ih found
      exact ⟨positive, by omega, row⟩

/-- The search ends at a capacity no smaller than one that meets the budget. -/
theorem search_of_meets (h : k.Proper) (within : v ≤ k.W) (positive : 0 < w) (below : w ≤ v) (meets : k.Meets k.N w) :
    ∃ i u, k.search v = some (i, u) ∧ w ≤ u := by
  induction v with
  | zero => omega
  | succ v ih =>
    rw [search]
    cases row : k.searchItems (v + 1) k.N with
    | some i => exact ⟨i, v + 1, rfl, below⟩
    | none =>
      have other : w ≠ v + 1 := by
        rintro rfl
        obtain ⟨i, found⟩ := searchItems_some h le_rfl within meets
        rw [row] at found
        cases found
      exact ih (by omega) (by omega)

/-- The machines of a cluster in a solution. -/
def machinesOf (finalSol : Table Machines.cluster) (cluster : String) : Nat :=
  (finalSol.get? cluster).elim 0 Machines.machines

theorem machinesOf_addMachine (finalSol : Table Machines.cluster) (c d : String) :
    machinesOf (addMachine finalSol c) d = machinesOf finalSol d + if c = d then 1 else 0 := by
  by_cases same : c = d
  · subst same
    have stored : (addMachine finalSol c).get? c = some ⟨c, machinesOf finalSol c + 1⟩ := Table.get?_put_self finalSol _
    rw [machinesOf, stored, if_pos rfl]
    rfl
  · rw [machinesOf, addMachine, Table.get?_put_ne _ (Ne.symm same), if_neg same]
    rfl

theorem machinesOf_foldl (list : List String) (finalSol : Table Machines.cluster) (c : String) :
    machinesOf (list.foldl addMachine finalSol) c = machinesOf finalSol c + list.count c := by
  induction list generalizing finalSol with
  | nil => rfl
  | cons d list ih =>
    rw [List.foldl_cons, ih, machinesOf_addMachine, List.count_cons, add_assoc, add_comm (List.count c list)]
    simp only [beq_iff_eq]

theorem machinesOf_counts (list : List String) (c : String) :
    machinesOf (list.foldl addMachine Table.empty) c = list.count c := by
  rw [machinesOf_foldl]
  exact Nat.zero_add _

theorem isEmpty_counts (list : List String) : (list.foldl addMachine Table.empty).rows.isEmpty = list.isEmpty := by
  cases list with
  | nil => rfl
  | cons c list =>
    rw [List.isEmpty_cons, ← Bool.not_eq_true, List.isEmpty_iff]
    intro none
    have count := machinesOf_counts (c :: list) c
    rw [machinesOf, Table.get?, none, List.count_cons_self] at count
    exact absurd count (Nat.succ_ne_zero _).symm

def weightOf (S : List Item) : Nat := (S.map Item.weight).sum

def profitOf (S : List Item) : ℚ := (S.map Item.profit).sum

/-- Some machines that fit and can be paid until the tasks are done. -/
structure Affordable (k : Knapsack) (S : List Item) : Prop where
  some : S ≠ []
  items : S.Sublist k.items.tail
  fits : weightOf S ≤ k.W
  budget : weightOf S * k.noATUs (profitOf S) ≤ k.budget

/-- What is asked of a solution found at a capacity. -/
structure Optimal (k : Knapsack) (found : Solution) (w : Nat) : Prop where
  searched : ∃ i, k.search k.W = some (i, w)
  items : found.taken.reverse.Sublist k.items.tail
  counted : ∀ cluster, machinesOf found.finalSol cluster = (found.taken.map Item.cluster).count cluster
  fits : weightOf found.taken ≤ w
  most : IsGreatest {p | ∃ S : List Item, S.Sublist k.items.tail ∧ weightOf S ≤ w ∧ profitOf S = p} (profitOf found.taken)
  cost : found.costPlan = w * found.noATUPlan
  budget : found.costPlan ≤ k.budget
  fewest : IsLeast {a | ∃ S, k.Affordable S ∧ k.noATUs (profitOf S) = a} found.noATUPlan

theorem weightOf_reverse : weightOf S.reverse = weightOf S := by rw [weightOf, List.map_reverse, List.sum_reverse, weightOf]

theorem profitOf_reverse : profitOf S.reverse = profitOf S := by rw [profitOf, List.map_reverse, List.sum_reverse, profitOf]

theorem profitOf_le_best (sub : S.Sublist k.items.tail) (fits : weightOf S ≤ w) : profitOf S ≤ k.bestUpTo k.N w := by
  rw [← profitOf_reverse]
  refine le_best ?_ (le_of_eq_of_le weightOf_reverse fits)
  rw [upTo_N]
  exact List.reverse_sublist.mpr sub

theorem profitOf_pos (h : k.Proper) (sub : S.Sublist k.items.tail) (some : S ≠ []) : 0 < profitOf S := by
  refine List.sum_pos _ ?_ (by simpa using some)
  intro p member
  obtain ⟨item, inside, rfl⟩ := List.mem_map.mp member
  exact h.profits item (sub.subset inside)

theorem weightOf_pos (h : k.Proper) (least : 1 ≤ k.wmin) (sub : S.Sublist k.items.tail) (some : S ≠ []) :
    0 < weightOf S := by
  refine List.sum_pos _ ?_ (by simpa using some)
  intro m member
  obtain ⟨item, inside, rfl⟩ := List.mem_map.mp member
  have := h.weights item (sub.subset inside)
  omega

/-- What some affordable machines weigh is a capacity that meets the budget. -/
theorem meets_of_affordable (h : k.Proper) (affordable : k.Affordable S) : k.Meets k.N (weightOf S) := by
  have positive := profitOf_pos h affordable.items affordable.some
  have better := profitOf_le_best affordable.items le_rfl
  refine ⟨lt_of_lt_of_le positive better, le_trans ?_ affordable.budget⟩
  exact mul_le_mul_of_nonneg_left (noATUs_anti h positive better) (Int.natCast_nonneg _)

/-- What the traceback takes from the cell found. -/
theorem traceback_spec (h : k.Proper) (found : k.search k.W = some (i, w)) :
    (k.traceback i w).reverse.Sublist k.items.tail ∧ weightOf (k.traceback i w) ≤ w ∧
      profitOf (k.traceback i w) = k.bestUpTo k.N w ∧ k.opt i w = k.bestUpTo k.N w ∧ k.Meets k.N w := by
  obtain ⟨-, within, row⟩ := search_some found
  obtain ⟨inside, same, meets⟩ := searchItems_best h le_rfl within row
  rw [traceback_eq h inside within, opt_eq h inside within]
  refine ⟨?_, chosen_weight, chosen_profit.trans same, same, meets⟩
  refine List.reverse_sublist.mp ?_
  rw [List.reverse_reverse]
  exact chosen_sublist.trans (upTo_sublist inside)

theorem traceback_affordable (h : k.Proper) (found : k.search k.W = some (i, w)) :
    k.Affordable (k.traceback i w).reverse := by
  obtain ⟨sub, fits, best, -, positive, payable⟩ := traceback_spec h found
  refine ⟨fun none => ?_, sub, ?_, ?_⟩
  · rw [List.reverse_eq_nil_iff.mp none] at best
    exact absurd best.symm positive.ne'
  · rw [weightOf_reverse]
    exact fits.trans (search_some found).2.1
  · rw [weightOf_reverse, profitOf_reverse, best]
    refine le_trans (mul_le_mul_of_nonneg_right ?_ (noATUs_nonneg h positive)) payable
    exact_mod_cast fits

/-- An affordable choice keeps the search from failing, at a capacity where the
best choice needs no more time units. -/
theorem search_of_affordable (h : k.Proper) (least : 1 ≤ k.wmin) (affordable : k.Affordable S) :
    ∃ i w, k.search k.W = some (i, w) ∧ k.noATUs (k.bestUpTo k.N w) ≤ k.noATUs (profitOf S) := by
  have weight := weightOf_pos h least affordable.items affordable.some
  obtain ⟨i, w, found, above⟩ := search_of_meets h le_rfl weight affordable.fits (meets_of_affordable h affordable)
  exact ⟨i, w, found, noATUs_anti h (profitOf_pos h affordable.items affordable.some) (profitOf_le_best affordable.items above)⟩

theorem noATUs_pos (h : k.Proper) (positive : 0 < p) : 0 < k.noATUs p := by
  have size : (0 : ℚ) < k.size := by exact_mod_cast h.size
  have atu : (0 : ℚ) < k.atu := by exact_mod_cast h.atu
  exact Int.ceil_pos.mpr (div_pos size (mul_pos atu positive))

theorem bestUpTo_all (h : k.Proper) (fits : weightOf k.items.tail ≤ w) : k.bestUpTo k.N w = profitOf k.items.tail := by
  rw [bestUpTo, upTo_N, ← profitOf_reverse]
  exact best_all (fun item member => h.profits item (List.mem_reverse.mp member)) (le_of_eq_of_le weightOf_reverse fits)

/-- With room for all items the traceback takes them all. -/
theorem traceback_all (h : k.Proper) (found : k.search k.W = some (i, w)) (fits : weightOf k.items.tail ≤ w) :
    (k.traceback i w).reverse = k.items.tail := by
  obtain ⟨sub, -, best, -⟩ := traceback_spec h found
  rw [bestUpTo_all h fits, ← profitOf_reverse] at best
  exact eq_of_profit h.profits sub best.ge

/-- The search ends at the capacity that the budget just allows. -/
theorem search_all (h : k.Proper) (any : k.items.tail ≠ []) (positive : 0 < w) (fits : weightOf k.items.tail ≤ w)
    (within : w ≤ k.W) (budget : k.budget = w * k.noATUs (profitOf k.items.tail)) :
    ∃ i, k.search k.W = some (i, w) := by
  have gain := profitOf_pos h (List.Sublist.refl _) any
  have meets : k.Meets k.N w := by
    rw [Meets, bestUpTo_all h fits]
    exact ⟨gain, budget.ge⟩
  obtain ⟨i, v, found, above⟩ := search_of_meets h le_rfl positive within meets
  obtain ⟨-, -, -, -, -, payable⟩ := traceback_spec h found
  rw [bestUpTo_all h (fits.trans above), budget] at payable
  have below := le_of_mul_le_mul_right payable (noATUs_pos h gain)
  obtain rfl : w = v := by omega
  exact ⟨i, found⟩

/-- How `findSol` ends. -/
theorem findSol_cases (h : k.Proper) :
    ∃ found, k.findSol = some found ∧
      (∀ cluster, machinesOf found.finalSol cluster = (found.taken.map Item.cluster).count cluster) ∧
      (k.search k.W = none ∧ found.success = false ∨
        ∃ i w, k.search k.W = some (i, w) ∧ found.success = true ∧ found.taken = k.traceback i w ∧
          found.noATUPlan = k.noATUs (k.bestUpTo k.N w) ∧ found.costPlan = w * found.noATUPlan) := by
  refine ⟨_, if_neg (not_lt.mpr h.capacity), machinesOf_counts _, ?_⟩
  simp only [isEmpty_counts, List.isEmpty_map]
  cases found : k.search k.W with
  | none => exact .inl ⟨rfl, rfl⟩
  | some cell =>
    obtain ⟨i, w⟩ := cell
    obtain ⟨-, -, -, opt, -⟩ := traceback_spec h found
    refine .inr ⟨i, w, rfl, ?_, rfl, ?_, rfl⟩
    · simpa using (traceback_affordable h found).some
    · rw [Option.elim_some, opt]

theorem findSol_optimal (h : k.Proper) (least : 1 ≤ k.wmin) :
    ∃ found, k.findSol = some found ∧ (found.success = true ↔ ∃ S, k.Affordable S) ∧
      (found.success = true → ∃ w ≤ k.W, k.Optimal found w) := by
  obtain ⟨found, run, counted, ⟨none, failed⟩ | ⟨i, w, some, success, taken, noATUs, cost⟩⟩ := findSol_cases h
  · refine ⟨found, run, iff_of_false (by simp [failed]) ?_, by simp [failed]⟩
    rintro ⟨S, affordable⟩
    obtain ⟨i, w, some, -⟩ := search_of_affordable h least affordable
    rw [none] at some
    cases some
  · obtain ⟨sub, fits, best, -, positive, payable⟩ := traceback_spec h some
    have affordable := traceback_affordable h some
    rw [← taken] at sub fits best affordable
    refine ⟨found, run, iff_of_true success ⟨_, affordable⟩, fun _ => ⟨w, (search_some some).2.1, ?_⟩⟩
    refine ⟨⟨i, some⟩, sub, counted, fits, ⟨⟨_, sub, ?_, profitOf_reverse⟩, ?_⟩, cost, ?_, ⟨⟨_, affordable, ?_⟩, ?_⟩⟩
    · exact le_of_eq_of_le weightOf_reverse fits
    · rintro _ ⟨S, choice, light, rfl⟩
      exact (profitOf_le_best choice light).trans best.ge
    · rw [cost, noATUs]
      exact payable
    · rw [profitOf_reverse, best, noATUs]
    · rintro _ ⟨S, other, rfl⟩
      obtain ⟨j, v, again, fewer⟩ := search_of_affordable h least other
      rw [some] at again
      obtain ⟨-, rfl⟩ := Prod.mk.inj (Option.some.inj again)
      rw [noATUs]
      exact fewer

/-- One machine of each of two clusters, and ten tasks. -/
def twoClusters : Knapsack where
  items := [⟨0, 0, ""⟩, ⟨1 / 10, 3, "fast"⟩, ⟨1 / 20, 1, "slow"⟩]
  wmin := 1
  W := 4
  size := 10
  budget := 8
  atu := 60

theorem twoClusters_optimal :
    twoClusters.findSol.map Solution.costPlan = some 8 ∧
      ∃ found, twoClusters.findSol = some found ∧ (found.success = true ↔ ∃ S, twoClusters.Affordable S) ∧
        (found.success = true → ∃ w ≤ 4, twoClusters.Optimal found w) :=
  ⟨by decide +kernel, findSol_optimal ⟨by decide, by decide, by decide, by decide +kernel, by decide⟩ (by decide)⟩

end Knapsack

end ConPaaS
