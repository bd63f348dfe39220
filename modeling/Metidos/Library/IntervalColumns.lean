import Mathlib.Data.List.Induction
import Mathlib.Data.List.Perm.Subperm
import Mathlib.Order.Lattice
import Mathlib.Order.MinMax
import Mathlib.Logic.Relation

/-!
Half-open intervals in the order of their starts: the first free column for each, and the cut of
the list at the intervals that start after all before them have ended.
-/

namespace IntervalColumns

variable {ι α : Type} [LinearOrder α]

def freeColumn (time : α) : List α → Nat
  | [] => 0
  | ended :: rest => if time < ended then freeColumn time rest + 1 else 0

def setColumn (active : List α) (column : Nat) (ended : α) : List α :=
  if column < active.length then active.set column ended else active ++ [ended]

section

variable (start finish : ι → α)

def Overlap (left right : ι) : Prop := start left < finish right ∧ start right < finish left

def assign (active : List α) : List ι → List (ι × Nat)
  | [] => []
  | item :: rest =>
    let column := freeColumn (start item) active
    (item, column) :: assign (setColumn active column (finish item)) rest

/-- The loop over the items in order, with the group that it collects and the group's end; an item
from the floor on that starts at the end begins another group. -/
def cut (floor : α) : List ι → α → List ι → List (List ι)
  | cluster, _, [] => if cluster.isEmpty then [] else [cluster]
  | cluster, clusterEnd, item :: rest =>
    if !cluster.isEmpty && clusterEnd ≤ start item then
      cluster :: cut floor [item] (max floor (finish item)) rest
    else cut floor (cluster ++ [item]) (max clusterEnd (finish item)) rest

end

def width (placed : List (ι × Nat)) : Nat :=
  placed.foldl (fun count item => max count (item.2 + 1)) 0

theorem freeColumn_le (time : α) (active : List α) : freeColumn time active ≤ active.length := by
  induction active with
  | nil => exact Nat.le_refl _
  | cons ended rest ih =>
    rw [freeColumn]
    split
    · exact Nat.succ_le_succ ih
    · exact Nat.zero_le _

theorem freeColumn_free {time ended : α} {active : List α}
    (isThere : active[freeColumn time active]? = some ended) : ended ≤ time := by
  induction active with
  | nil => exact absurd isThere (by simp)
  | cons first rest ih =>
    rw [freeColumn] at isThere
    split at isThere
    · exact ih isThere
    · rename_i free
      obtain rfl := Option.some.inj isThere
      exact not_lt.mp free

theorem freeColumn_taken {time : α} {active : List α} {column : Nat}
    (before : column < freeColumn time active) :
    ∃ ended, active[column]? = some ended ∧ time < ended := by
  induction active generalizing column with
  | nil => exact absurd before (Nat.not_lt_zero _)
  | cons first rest ih =>
    rw [freeColumn] at before
    split at before
    · rename_i taken
      cases column with
      | zero => exact ⟨first, rfl, taken⟩
      | succ column => exact ih (Nat.lt_of_succ_lt_succ before)
    · exact absurd before (Nat.not_lt_zero _)

omit [LinearOrder α] in
theorem getElem?_setColumn {active : List α} {column : Nat} (inside : column ≤ active.length)
    (ended : α) (other : Nat) :
    (setColumn active column ended)[other]? = if other = column then some ended
      else active[other]? := by
  rw [setColumn]
  split
  · rename_i below
    rw [List.getElem?_set]
    by_cases same : column = other
    · rw [if_pos same, if_pos same.symm, if_pos below]
    · rw [if_neg same, if_neg (Ne.symm same)]
  · rename_i notBelow
    obtain rfl : column = active.length := by omega
    by_cases same : other = active.length
    · rw [same, if_pos rfl, List.getElem?_concat_length]
    · rw [if_neg same, List.getElem?_append]
      split
      · rfl
      · rw [List.getElem?_eq_none (by simp; omega), List.getElem?_eq_none (by omega)]

section Columns

variable {start finish : ι → α}

structure Placed (finish : ι → α) (done : List (ι × Nat)) (active : List α) : Prop where
  owner : ∀ column ended, active[column]? = some ended →
    ∃ placed ∈ done, placed.2 = column ∧ finish placed.1 = ended
  last : ∀ placed ∈ done, ∃ ended, active[placed.2]? = some ended ∧ finish placed.1 ≤ ended

def Apart (start finish : ι → α) (placed : List (ι × Nat)) : Prop :=
  placed.Pairwise fun left right => Overlap start finish left.1 right.1 → left.2 ≠ right.2

def covers (start finish : ι → α) (time : α) (item : ι) : Bool :=
  start item ≤ time && time < finish item

theorem Placed.step {done : List (ι × Nat)} {active : List α} (placed : Placed finish done active)
    {item : ι} (positive : start item < finish item) :
    Placed finish (done ++ [(item, freeColumn (start item) active)])
      (setColumn active (freeColumn (start item) active) (finish item)) := by
  have inside := freeColumn_le (start item) active
  constructor
  · intro column ended isThere
    rw [getElem?_setColumn inside] at isThere
    split at isThere
    · rename_i same
      exact ⟨_, List.mem_append_right _ List.mem_cons_self, same.symm, Option.some.inj isThere⟩
    · obtain ⟨owner, member, owns⟩ := placed.owner column ended isThere
      exact ⟨owner, List.mem_append_left _ member, owns⟩
  · intro other member
    rw [getElem?_setColumn inside]
    rcases List.mem_append.mp member with earlier | isNew
    · obtain ⟨ended, isThere, before⟩ := placed.last other earlier
      split
      · rename_i same
        rw [same] at isThere
        exact ⟨_, rfl, le_trans before (le_trans (freeColumn_free isThere) (le_of_lt positive))⟩
      · exact ⟨ended, isThere, before⟩
    · rw [List.mem_singleton.mp isNew, if_pos rfl]
      exact ⟨_, rfl, le_refl _⟩

theorem freeColumn_depth {done : List (ι × Nat)} {active : List α}
    (placed : Placed finish done active) {item : ι} (positive : start item < finish item)
    (sorted : ∀ other ∈ done, start other.1 ≤ start item) :
    freeColumn (start item) active + 1 ≤
      (done ++ [(item, freeColumn (start item) active)]).countP
        fun other => covers start finish (start item) other.1 := by
  rw [List.countP_eq_length_filter]
  have inside : List.range (freeColumn (start item) active + 1) ⊆
      ((done ++ [(item, freeColumn (start item) active)]).filter
        fun other => covers start finish (start item) other.1).map Prod.snd := by
    intro column member
    rw [List.mem_range, Nat.lt_succ_iff, le_iff_lt_or_eq] at member
    rcases member with before | same
    · obtain ⟨ended, isThere, taken⟩ := freeColumn_taken before
      obtain ⟨owner, isDone, rfl, rfl⟩ := placed.owner column ended isThere
      refine List.mem_map_of_mem (List.mem_filter.mpr ⟨List.mem_append_left _ isDone, ?_⟩)
      simp [covers, sorted owner isDone, taken]
    · refine List.mem_map.mpr ⟨_, List.mem_filter.mpr
        ⟨List.mem_append_right _ List.mem_cons_self, ?_⟩, same.symm⟩
      simp [covers, positive]
  have fewer := (List.nodup_range.subperm inside).length_le
  rwa [List.length_range, List.length_map] at fewer

theorem Apart.step {done : List (ι × Nat)} {active : List α} (apart : Apart start finish done)
    (placed : Placed finish done active) (item : ι) :
    Apart start finish (done ++ [(item, freeColumn (start item) active)]) := by
  refine List.pairwise_append.mpr ⟨apart, List.pairwise_singleton _ _, ?_⟩
  intro other member new isNew overlap same
  rw [List.mem_singleton.mp isNew] at overlap same
  obtain ⟨ended, isThere, before⟩ := placed.last other member
  rw [same] at isThere
  exact absurd overlap.2 (not_lt.mpr (le_trans before (freeColumn_free isThere)))

/-- In the order of the starts, the first free columns keep overlapping items apart, and each column
is below the number of items at its item's start. -/
theorem assign_apart {items : List ι} {done : List (ι × Nat)} {active : List α}
    (positive : ∀ item ∈ items, start item < finish item)
    (sorted : (done.map Prod.fst ++ items).Pairwise fun left right => start left ≤ start right)
    (placed : Placed finish done active) (apart : Apart start finish done) :
    Apart start finish (done ++ assign start finish active items) ∧
      ∀ new ∈ assign start finish active items, new.2 + 1 ≤
        (done ++ assign start finish active items).countP
          fun other => covers start finish (start new.1) other.1 := by
  induction items generalizing done active with
  | nil => exact ⟨by rwa [assign, List.append_nil], by simp [assign]⟩
  | cons item rest ih =>
    have isPositive := positive item List.mem_cons_self
    have earlier : ∀ other ∈ done, start other.1 ≤ start item := fun other member =>
      (List.pairwise_append.mp sorted).2.2 _ (List.mem_map_of_mem member) _ List.mem_cons_self
    have further := @ih (done ++ [(item, freeColumn (start item) active)]) _
      (fun other member => positive other (List.mem_cons_of_mem _ member))
      (by rwa [List.map_append, List.append_assoc]) (placed.step isPositive)
      (apart.step placed item)
    rw [List.append_assoc, List.singleton_append] at further
    refine ⟨further.1, fun new member => ?_⟩
    rcases List.mem_cons.mp member with rfl | isLater
    · refine Nat.le_trans (freeColumn_depth placed isPositive earlier) ?_
      refine List.Sublist.countP_le ((List.Sublist.refl done).append ?_)
      exact (List.nil_sublist _).cons_cons _
    · exact further.2 new isLater

theorem map_assign (items : List ι) (active : List α) :
    (assign start finish active items).map Prod.fst = items := by
  induction items generalizing active with
  | nil => rfl
  | cons item rest ih => rw [assign, List.map_cons, ih]

theorem width_append (placed : List (ι × Nat)) (last : ι × Nat) :
    width (placed ++ [last]) = max (width placed) (last.2 + 1) := by
  rw [width, List.foldl_append]
  rfl

theorem lt_width {placed : List (ι × Nat)} {item : ι × Nat} (member : item ∈ placed) :
    item.2 < width placed := by
  induction placed using List.reverseRecOn with
  | nil => exact absurd member List.not_mem_nil
  | append_singleton placed last ih =>
    rw [width_append]
    rcases List.mem_append.mp member with earlier | isLast
    · exact Nat.lt_of_lt_of_le (ih earlier) (Nat.le_max_left _ _)
    · rw [List.mem_singleton.mp isLast]
      exact Nat.lt_of_succ_le (Nat.le_max_right _ _)

theorem exists_width {placed : List (ι × Nat)} (some : placed ≠ []) :
    ∃ item ∈ placed, item.2 + 1 = width placed := by
  induction placed using List.reverseRecOn with
  | nil => exact absurd rfl some
  | append_singleton placed last ih =>
    rw [width_append]
    by_cases isNil : placed = []
    · refine ⟨last, List.mem_append_right _ List.mem_cons_self, ?_⟩
      rw [isNil]
      exact (Nat.max_eq_right (Nat.zero_le _)).symm
    · obtain ⟨item, member, same⟩ := ih isNil
      rcases Nat.le_total (width placed) (last.2 + 1) with isLast | isEarlier
      · exact ⟨last, List.mem_append_right _ List.mem_cons_self, (Nat.max_eq_right isLast).symm⟩
      · exact ⟨item, List.mem_append_left _ member, by rw [same, Nat.max_eq_left isEarlier]⟩

theorem countP_le_width {placed : List (ι × Nat)} (apart : Apart start finish placed)
    {chosen : ι → Bool} (together : ∀ left ∈ placed, ∀ right ∈ placed, chosen left.1 = true →
      chosen right.1 = true → Overlap start finish left.1 right.1) :
    placed.countP (fun item => chosen item.1) ≤ width placed := by
  have distinct : ((placed.filter fun item => chosen item.1).map Prod.snd).Nodup := by
    refine List.pairwise_map.mpr ((List.Pairwise.filter _ apart).imp_of_mem ?_)
    intro left right isLeft isRight different
    rw [List.mem_filter] at isLeft isRight
    exact different (together left isLeft.1 right isRight.1 isLeft.2 isRight.2)
  have inside : ((placed.filter fun item => chosen item.1).map Prod.snd) ⊆
      List.range (width placed) := by
    intro column member
    obtain ⟨item, isChosen, rfl⟩ := List.mem_map.mp member
    exact List.mem_range.mpr (lt_width (List.mem_filter.mp isChosen).1)
  have fewer := (distinct.subperm inside).length_le
  rwa [List.length_map, List.length_range, ← List.countP_eq_length_filter] at fewer

end Columns

section Cut

variable {start finish : ι → α} {floor : α}

theorem flatten_cut (cluster items : List ι) (clusterEnd : α) :
    (cut start finish floor cluster clusterEnd items).flatten = cluster ++ items := by
  induction items generalizing cluster clusterEnd with
  | nil =>
    cases cluster with
    | nil => rfl
    | cons first rest => simp [cut]
  | cons item rest ih =>
    rw [cut]
    split
    · rw [List.flatten_cons, ih, List.singleton_append]
    · rw [ih, List.append_assoc, List.singleton_append]

theorem cut_ne_nil {cluster items group : List ι} {clusterEnd : α}
    (member : group ∈ cut start finish floor cluster clusterEnd items) : group ≠ [] := by
  induction items generalizing cluster clusterEnd with
  | nil =>
    rw [cut] at member
    split at member
    · exact absurd member List.not_mem_nil
    · rename_i nonempty
      rw [List.mem_singleton.mp member]
      simpa using nonempty
  | cons item rest ih =>
    rw [cut] at member
    split at member
    · rename_i both
      rcases List.mem_cons.mp member with rfl | later
      · simp at both
        exact both.1
      · exact ih later
    · exact ih member

theorem cut_apart {cluster items : List ι} {clusterEnd : α} (aboveFloor : floor ≤ clusterEnd)
    (ended : ∀ item ∈ cluster, finish item ≤ clusterEnd)
    (sorted : items.Pairwise fun left right => start left ≤ start right) :
    (cut start finish floor cluster clusterEnd items).Pairwise fun earlier later =>
      ∀ right ∈ later, floor ≤ start right ∧ ∀ left ∈ earlier, finish left ≤ start right := by
  induction items generalizing cluster clusterEnd with
  | nil =>
    rw [cut]
    split
    · exact List.Pairwise.nil
    · exact List.pairwise_singleton _ _
  | cons item rest ih =>
    rw [List.pairwise_cons] at sorted
    rw [cut]
    split
    · rename_i both
      rw [Bool.and_eq_true, decide_eq_true_eq] at both
      refine List.pairwise_cons.mpr ⟨fun group member right isRight => ?_,
        ih (le_max_left _ _) (by simp) sorted.2⟩
      have inRest : right ∈ item :: rest := by
        rw [← List.singleton_append, ← @flatten_cut _ _ _ start finish]
        exact List.mem_flatten.mpr ⟨group, member, isRight⟩
      have after : clusterEnd ≤ start right := by
        rcases List.mem_cons.mp inRest with rfl | isLater
        · exact both.2
        · exact le_trans both.2 (sorted.1 right isLater)
      exact ⟨le_trans aboveFloor after, fun left isLeft => le_trans (ended left isLeft) after⟩
    · refine ih (le_trans aboveFloor (le_max_left _ _)) (fun other member => ?_) sorted.2
      rcases List.mem_append.mp member with earlier | isThis
      · exact le_trans (ended other earlier) (le_max_left _ _)
      · rw [List.mem_singleton.mp isThis]
        exact le_max_right _ _

def Linked (start : ι → α) (floor : α) (link : ι → ι → Prop) (group : List ι) : Prop :=
  ∀ item ∈ group, ∃ root ∈ group, Relation.ReflTransGen link item root ∧
    (start root < floor ∨ group.head? = some root)

theorem cut_linked {link : ι → ι → Prop} {cluster items : List ι} {clusterEnd : α}
    (links : ∀ left ∈ cluster ++ items, ∀ right ∈ cluster ++ items,
      Overlap start finish left right → link left right)
    (positive : ∀ item ∈ items, start item < finish item)
    (sorted : (cluster ++ items).Pairwise fun left right => start left ≤ start right)
    (reached : clusterEnd ≤ floor ∨ ∃ item ∈ cluster, finish item = clusterEnd)
    (linked : Linked start floor link cluster) :
    ∀ group ∈ cut start finish floor cluster clusterEnd items, Linked start floor link group := by
  induction items generalizing cluster clusterEnd with
  | nil =>
    intro group member
    rw [cut] at member
    split at member
    · exact absurd member List.not_mem_nil
    · rwa [List.mem_singleton.mp member]
  | cons item rest ih =>
    have ends (before : α) (known : before ≤ floor ∨ ∃ item ∈ cluster, finish item = before) :
        max before (finish item) ≤ floor ∨
          ∃ other ∈ cluster ++ [item], finish other = max before (finish item) := by
      rcases le_total before (finish item) with isThis | isEarlier
      · rw [max_eq_right isThis]
        exact Or.inr ⟨item, List.mem_append_right _ List.mem_cons_self, rfl⟩
      · rw [max_eq_left isEarlier]
        exact known.imp_right fun ⟨other, member, same⟩ =>
          ⟨other, List.mem_append_left _ member, same⟩
    intro group member
    rw [cut] at member
    split at member
    · rcases List.mem_cons.mp member with rfl | later
      · exact linked
      · refine ih (fun left isLeft right isRight => links left ?_ right ?_)
          (fun other isLater => positive other (List.mem_cons_of_mem _ isLater))
          (List.pairwise_append.mp sorted).2.1 ?_ ?_ group later
        · exact List.mem_append_right _ isLeft
        · exact List.mem_append_right _ isRight
        · rcases le_total floor (finish item) with above | below
          · exact Or.inr ⟨item, List.mem_cons_self, (max_eq_right above).symm⟩
          · exact Or.inl (le_of_eq (max_eq_left below))
        · intro other isThis
          exact ⟨other, isThis, Relation.ReflTransGen.refl,
            Or.inr (by rw [List.mem_singleton.mp isThis]; rfl)⟩
    · rename_i joins
      refine ih (by rwa [List.append_assoc])
        (fun other isLater => positive other (List.mem_cons_of_mem _ isLater))
        (by rwa [List.append_assoc]) (ends _ reached) ?_ group member
      intro other isIn
      rcases List.mem_append.mp isIn with earlier | isThis
      · obtain ⟨root, isRoot, path, kind⟩ := linked other earlier
        refine ⟨root, List.mem_append_left _ isRoot, path, kind.imp_right fun first => ?_⟩
        rw [List.head?_append, first]
        rfl
      · rw [List.mem_singleton.mp isThis]
        by_cases isEmpty : cluster = []
        · refine ⟨item, List.mem_append_right _ List.mem_cons_self, Relation.ReflTransGen.refl,
            Or.inr ?_⟩
          rw [isEmpty]
          rfl
        · have early : start item < clusterEnd := by
            rw [Bool.and_eq_true, decide_eq_true_eq, not_and, not_le] at joins
            exact joins (by simpa using isEmpty)
          rcases reached with isFloor | ⟨prior, isPrior, same⟩
          · exact ⟨item, List.mem_append_right _ List.mem_cons_self,
              Relation.ReflTransGen.refl, Or.inl (lt_of_lt_of_le early isFloor)⟩
          · obtain ⟨root, isRoot, path, kind⟩ := linked prior isPrior
            have ordered := (List.pairwise_append.mp sorted).2.2 prior isPrior item
              List.mem_cons_self
            have overlap : Overlap start finish item prior :=
              ⟨same ▸ early, lt_of_le_of_lt ordered (positive item List.mem_cons_self)⟩
            refine ⟨root, List.mem_append_left _ isRoot, Relation.ReflTransGen.head (links item
              (List.mem_append_right _ List.mem_cons_self) prior
              (List.mem_append_left _ isPrior) overlap) path, kind.imp_right fun first => ?_⟩
            rw [List.head?_append, first]
            rfl

end Cut

end IntervalColumns
