import Mathlib.Data.List.Sort
import Mathlib.Order.Defs.LinearOrder

/-!
Rows in the order of a key that tells them apart: the sorted rows are determined by the rows, a
selection of the rows is sorted as the rows are, and the rows below the last one of a page are
those after the page.
-/

namespace KeysetPages

variable {α κ : Type} [LinearOrder κ] {key : α → κ} {rows sorted : List α}

def descending (key : α → κ) (rows : List α) : List α :=
  rows.mergeSort fun one other => decide (key other ≤ key one)

def ascending (key : α → κ) (rows : List α) : List α :=
  rows.mergeSort fun one other => decide (key one ≤ key other)

def Distinct (key : α → κ) (rows : List α) : Prop := (rows.map key).Nodup

def Falling (key : α → κ) (rows : List α) : Prop :=
  rows.Pairwise fun one other => key other < key one

theorem descending_perm (key : α → κ) (rows : List α) : (descending key rows).Perm rows :=
  List.mergeSort_perm rows _

theorem descending_falling (distinct : Distinct key rows) :
    Falling key (descending key rows) := by
  have weakly : (descending key rows).Pairwise fun one other =>
      decide (key other ≤ key one) = true := by
    refine List.pairwise_mergeSort (fun one other third first second => ?_)
      (fun one other => ?_) rows
    · simp only [decide_eq_true_eq] at first second ⊢
      exact le_trans second first
    · simp only [Bool.or_eq_true, decide_eq_true_eq]
      exact le_total _ _
  have differ : (descending key rows).Pairwise fun one other => key one ≠ key other :=
    List.pairwise_map.mp (((descending_perm key rows).map key).nodup_iff.mpr distinct)
  exact weakly.imp₂ (fun _ _ order differs =>
    lt_of_le_of_ne (of_decide_eq_true order) differs.symm) differ

theorem descending_eq (falling : Falling key sorted) (perm : sorted.Perm rows) :
    descending key rows = sorted := by
  have distinct : Distinct key rows :=
    (perm.map key).nodup_iff.mp (List.pairwise_map.mpr (falling.imp fun less => (ne_of_lt less).symm))
  refine List.Perm.eq_of_pairwise (fun one other _ _ first second => ?_)
    (descending_falling distinct) falling ((descending_perm key rows).trans perm.symm)
  exact absurd first (lt_asymm second)

theorem descending_filter (distinct : Distinct key rows) (selected : α → Bool) :
    descending key (rows.filter selected) = (descending key rows).filter selected :=
  descending_eq ((descending_falling distinct).filter selected)
    ((descending_perm key rows).filter selected)

theorem ascending_eq_reverse (distinct : Distinct key rows) :
    ascending key rows = (descending key rows).reverse := by
  have weakly : (ascending key rows).Pairwise fun one other =>
      decide (key one ≤ key other) = true := by
    refine List.pairwise_mergeSort (fun one other third first second => ?_)
      (fun one other => ?_) rows
    · simp only [decide_eq_true_eq] at first second ⊢
      exact le_trans first second
    · simp only [Bool.or_eq_true, decide_eq_true_eq]
      exact le_total _ _
  have perm : (ascending key rows).Perm rows := List.mergeSort_perm rows _
  have differ : (ascending key rows).Pairwise fun one other => key one ≠ key other :=
    List.pairwise_map.mp ((perm.map key).nodup_iff.mpr distinct)
  have rising : (ascending key rows).Pairwise fun one other => key one < key other :=
    weakly.imp₂ (fun _ _ order differs =>
      lt_of_le_of_ne (of_decide_eq_true order) differs) differ
  have falling : Falling key (ascending key rows).reverse := List.pairwise_reverse.mpr rising
  rw [descending_eq falling ((List.reverse_perm _).trans perm), List.reverse_reverse]

theorem filter_below_last {size : Nat} {last : α} (falling : Falling key sorted)
    (isLast : (sorted.take size).getLast? = some last) :
    (sorted.filter fun row => key row < key last) = sorted.drop size := by
  obtain ⟨before, isTaken⟩ := List.getLast?_eq_some_iff.mp isLast
  have split : sorted = before ++ last :: sorted.drop size := by
    have whole := List.take_append_drop size sorted
    rw [isTaken, List.append_assoc] at whole
    exact whole.symm
  rw [Falling, split, List.pairwise_append, List.pairwise_cons] at falling
  obtain ⟨_, ⟨afterLast, _⟩, above⟩ := falling
  have noneBefore : (before.filter fun row => key row < key last) = [] := by
    refine List.filter_eq_nil_iff.mpr fun row member => ?_
    have higher := above row member last List.mem_cons_self
    simpa using le_of_lt higher
  have allAfter : ((sorted.drop size).filter fun row => key row < key last) = sorted.drop size :=
    List.filter_eq_self.mpr fun row member => decide_eq_true (afterLast row member)
  have rest : sorted.filter (fun row => key row < key last) =
      (before ++ last :: sorted.drop size).filter fun row => key row < key last :=
    congrArg _ split
  rw [rest, List.filter_append, noneBefore, List.filter_cons, allAfter]
  simp

end KeysetPages
