import Mathlib.Data.List.Pairwise
import Mathlib.Order.Lattice

/-!
Increasing integer dates, finite or not: the list up to a bound, the first date from a bound on,
and the series that a count and a last date cut off.
-/

theorem DateSeries.eq_of_mem_iff {first second : List Int} (firstOrdered : first.Pairwise (· < ·))
    (secondOrdered : second.Pairwise (· < ·)) (same : ∀ date, date ∈ first ↔ date ∈ second) :
    first = second := by
  induction first generalizing second with
  | nil =>
    cases second with
    | nil => rfl
    | cons head rest => exact absurd ((same head).mpr (by simp)) (by simp)
  | cons head rest ih =>
    cases second with
    | nil => exact absurd ((same head).mp (by simp)) (by simp)
    | cons otherHead otherRest =>
      rw [List.pairwise_cons] at firstOrdered secondOrdered
      have heads : head = otherHead := by
        rcases List.mem_cons.mp ((same head).mp (by simp)) with equal | later
        · exact equal
        · rcases List.mem_cons.mp ((same otherHead).mpr (by simp)) with equal | earlier
          · exact equal.symm
          · have up := secondOrdered.1 head later
            have down := firstOrdered.1 otherHead earlier
            omega
      subst heads
      rw [ih firstOrdered.2 secondOrdered.2]
      intro date
      constructor
      · intro member
        rcases List.mem_cons.mp ((same date).mp (by simp [member])) with equal | inside
        · have := firstOrdered.1 date member
          omega
        · exact inside
      · intro member
        rcases List.mem_cons.mp ((same date).mpr (by simp [member])) with equal | inside
        · have := secondOrdered.1 date member
          omega
        · exact inside

/-- A set of dates with finitely many members below every bound. -/
structure DateSeries where
  upTo : Int → List Int
  firstFrom : Int → Option Int
  ordered : ∀ bound, (upTo bound).Pairwise (· < ·)
  upTo_filter : ∀ {low high : Int}, low ≤ high → upTo low = (upTo high).filter (· ≤ low)
  firstFrom_iff : ∀ low date, firstFrom low = some date ↔
    date ∈ upTo date ∧ low ≤ date ∧ ∀ other, other ∈ upTo other → low ≤ other → date ≤ other

namespace DateSeries

instance : Membership Int DateSeries where
  mem series date := date ∈ series.upTo date

variable {series other : DateSeries} {date low high bound : Int}

theorem mem_def : date ∈ series ↔ date ∈ series.upTo date := Iff.rfl

@[simp] theorem mem_upTo : date ∈ series.upTo bound ↔ date ∈ series ∧ date ≤ bound := by
  constructor
  · intro member
    have inside : date ≤ bound := by
      rw [series.upTo_filter (Int.le_refl bound), List.mem_filter] at member
      simpa using member.2
    refine ⟨?_, inside⟩
    rw [mem_def, series.upTo_filter inside]
    simpa using member
  · rintro ⟨member, inside⟩
    rw [mem_def, series.upTo_filter inside, List.mem_filter] at member
    exact member.1

theorem firstFrom_eq_some : series.firstFrom low = some date ↔
    date ∈ series ∧ low ≤ date ∧ ∀ other ∈ series, low ≤ other → date ≤ other :=
  series.firstFrom_iff low date

def countBefore (series : DateSeries) (bound : Int) : Nat := (series.upTo (bound - 1)).length

theorem upTo_self (member : date ∈ series) :
    series.upTo date = series.upTo (date - 1) ++ [date] := by
  apply eq_of_mem_iff (series.ordered date)
  · rw [List.pairwise_append]
    refine ⟨series.ordered _, by simp, ?_⟩
    intro earlier inside last single
    rw [mem_upTo] at inside
    rw [List.mem_singleton] at single
    omega
  · intro other
    rw [mem_upTo, List.mem_append, mem_upTo, List.mem_singleton]
    constructor
    · rintro ⟨inside, before⟩
      by_cases same : other = date
      · exact Or.inr same
      · exact Or.inl ⟨inside, by omega⟩
    · rintro (⟨inside, before⟩ | rfl)
      · exact ⟨inside, by omega⟩
      · exact ⟨member, Int.le_refl _⟩

theorem countBefore_mono (order : low ≤ high) : series.countBefore low ≤ series.countBefore high := by
  rw [countBefore, series.upTo_filter (show low - 1 ≤ high - 1 by omega)]
  exact List.length_filter_le _ _

def between (series : DateSeries) (low high : Int) : List Int :=
  (series.upTo high).filter (low ≤ ·)

@[simp] theorem mem_between : date ∈ series.between low high ↔
    date ∈ series ∧ low ≤ date ∧ date ≤ high := by
  simp only [between, List.mem_filter, mem_upTo, decide_eq_true_eq]
  constructor
  · rintro ⟨⟨member, below⟩, above⟩
    exact ⟨member, above, below⟩
  · rintro ⟨member, above, below⟩
    exact ⟨⟨member, below⟩, above⟩

theorem between_ordered (low high : Int) : (series.between low high).Pairwise (· < ·) :=
  (series.ordered high).filter _

theorem filter_take_comm {dates : List Int} (increasing : dates.Pairwise (· < ·)) (count : Nat) :
    (dates.filter (· ≤ bound)).take count = (dates.take count).filter (· ≤ bound) := by
  induction dates generalizing count with
  | nil => simp
  | cons head rest ih =>
    rw [List.pairwise_cons] at increasing
    cases count with
    | zero => simp
    | succ count =>
      by_cases inside : head ≤ bound
      · simp [inside, ih increasing.2 count]
      · have later : ∀ date ∈ rest, ¬ date ≤ bound := by
          intro date member
          have := increasing.1 date member
          omega
        have none : rest.filter (· ≤ bound) = [] := by
          rw [List.filter_eq_nil_iff]
          simpa using later
        have noneTaken : (rest.take count).filter (· ≤ bound) = [] := by
          rw [List.filter_eq_nil_iff]
          intro date member
          simpa using later date (List.mem_of_mem_take member)
        simp [inside, none, noneTaken]

def cutBound (last : Option Int) (bound : Int) : Int :=
  match last with
  | none => bound
  | some last => min bound last

theorem le_cutBound {last : Option Int} :
    date ≤ cutBound last bound ↔ date ≤ bound ∧ ∀ final ∈ last, date ≤ final := by
  cases last with
  | none => simp [cutBound]
  | some final =>
    simp only [cutBound, Option.mem_def, Option.some.injEq, forall_eq']
    omega

def takeCount (count : Option Nat) (dates : List Int) : List Int :=
  match count with
  | none => dates
  | some count => dates.take count

def cutUpTo (series : DateSeries) (count : Option Nat) (last : Option Int) (bound : Int) :
    List Int :=
  takeCount count (series.upTo (cutBound last bound))

theorem mem_takeCount_self (member : date ∈ series) (count : Option Nat) :
    date ∈ takeCount count (series.upTo date) ↔ ∀ limit ∈ count, series.countBefore date < limit := by
  cases count with
  | none => simpa [takeCount] using member
  | some limit =>
    rw [takeCount, upTo_self member, List.take_append, List.mem_append]
    have absent : date ∉ List.take limit (series.upTo (date - 1)) := by
      intro inside
      have := (mem_upTo.mp (List.mem_of_mem_take inside)).2
      omega
    simp only [absent, false_or, Option.mem_def, Option.some.injEq, forall_eq', countBefore]
    constructor
    · intro inside
      by_contra full
      rw [show limit - (series.upTo (date - 1)).length = 0 by omega] at inside
      simp at inside
    · intro under
      rw [List.take_of_length_le (by simp; omega)]
      simp

theorem takeCount_filter (count : Option Nat) {dates : List Int}
    (increasing : dates.Pairwise (· < ·)) :
    takeCount count (dates.filter (· ≤ bound)) = (takeCount count dates).filter (· ≤ bound) := by
  cases count with
  | none => rfl
  | some count => exact filter_take_comm increasing count

theorem takeCount_ordered (count : Option Nat) {dates : List Int}
    (increasing : dates.Pairwise (· < ·)) : (takeCount count dates).Pairwise (· < ·) := by
  cases count with
  | none => exact increasing
  | some count => exact increasing.sublist (List.take_sublist count dates)

theorem cutUpTo_filter (count : Option Nat) (last : Option Int) (order : low ≤ high) :
    series.cutUpTo count last low = (series.cutUpTo count last high).filter (· ≤ low) := by
  have bounds : cutBound last low ≤ cutBound last high := by
    cases last with
    | none => exact order
    | some final => simp only [cutBound]; omega
  rw [cutUpTo, cutUpTo, series.upTo_filter bounds, takeCount_filter count (series.ordered _)]
  apply List.filter_congr
  intro date member
  have inside : date ∈ series.upTo (cutBound last high) := by
    cases count with
    | none => exact member
    | some count => exact List.mem_of_mem_take member
  have cut := le_cutBound.mp (mem_upTo.mp inside).2
  rw [decide_eq_decide, le_cutBound]
  exact ⟨fun both => both.1, fun below => ⟨below, cut.2⟩⟩

theorem mem_cutUpTo_self (count : Option Nat) (last : Option Int) :
    date ∈ series.cutUpTo count last date ↔ date ∈ series ∧ (∀ final ∈ last, date ≤ final) ∧
      ∀ limit ∈ count, series.countBefore date < limit := by
  by_cases admitted : date ∈ series ∧ ∀ final ∈ last, date ≤ final
  · have whole : cutBound last date = date := by
      have admits : date ≤ cutBound last date :=
        le_cutBound.mpr ⟨Int.le_refl date, admitted.2⟩
      have below := (le_cutBound.mp (Int.le_refl (cutBound last date))).1
      omega
    rw [cutUpTo, whole, mem_takeCount_self admitted.1]
    exact ⟨fun under => ⟨admitted.1, admitted.2, under⟩, fun all => all.2.2⟩
  · constructor
    · intro member
      have inside : date ∈ series.upTo (cutBound last date) := by
        cases count with
        | none => exact member
        | some count => exact List.mem_of_mem_take member
      rw [mem_upTo, le_cutBound] at inside
      exact absurd ⟨inside.1, inside.2.2⟩ admitted
    · rintro ⟨member, below, _⟩
      exact absurd ⟨member, below⟩ admitted

def cutFirstFrom (series : DateSeries) (count : Option Nat) (last : Option Int) (low : Int) :
    Option Int :=
  (series.firstFrom low).filter fun date =>
    last.all (date ≤ ·) && count.all (series.countBefore date < ·)

theorem cutFirstFrom_iff (count : Option Nat) (last : Option Int) (low date : Int) :
    series.cutFirstFrom count last low = some date ↔
      date ∈ series.cutUpTo count last date ∧ low ≤ date ∧
        ∀ other, other ∈ series.cutUpTo count last other → low ≤ other → date ≤ other := by
  rw [cutFirstFrom, Option.filter_eq_some_iff, firstFrom_eq_some, mem_cutUpTo_self,
    Bool.and_eq_true]
  simp only [Option.all_eq_true, decide_eq_true_eq]
  constructor
  · rintro ⟨⟨member, above, least⟩, below, under⟩
    refine ⟨⟨member, below, under⟩, above, ?_⟩
    intro other admitted later
    rw [mem_cutUpTo_self] at admitted
    exact least other admitted.1 later
  · rintro ⟨⟨member, below, under⟩, above, least⟩
    refine ⟨⟨member, above, ?_⟩, below, under⟩
    intro other inside later
    -- An earlier date would be admitted as well, since both bounds are closed downwards.
    by_contra earlier
    have admitted : other ∈ series.cutUpTo count last other := by
      rw [mem_cutUpTo_self]
      refine ⟨inside, ?_, ?_⟩
      · intro final is
        have := below final is
        omega
      · intro limit is
        have := under limit is
        have := series.countBefore_mono (show other ≤ date by omega)
        omega
    have := least other admitted later
    omega

def cut (series : DateSeries) (count : Option Nat) (last : Option Int) : DateSeries where
  upTo := series.cutUpTo count last
  firstFrom := series.cutFirstFrom count last
  ordered := fun _ => takeCount_ordered count (series.ordered _)
  upTo_filter := fun order => cutUpTo_filter count last order
  firstFrom_iff := cutFirstFrom_iff count last

def everyUpTo (start step bound : Int) : List Int :=
  (List.range ((bound - start) / step + 1).toNat).map fun index : Nat => start + index * step

theorem mem_everyUpTo {start step : Int} (positive : 0 < step) :
    date ∈ everyUpTo start step bound ↔ (∃ index : Nat, date = start + index * step) ∧
      date ≤ bound := by
  simp only [everyUpTo, List.mem_map, List.mem_range]
  constructor
  · rintro ⟨index, inside, rfl⟩
    refine ⟨⟨index, rfl⟩, ?_⟩
    have below : (index : Int) ≤ (bound - start) / step := by omega
    have product := (Int.le_ediv_iff_mul_le positive).mp below
    omega
  · rintro ⟨⟨index, rfl⟩, inside⟩
    refine ⟨index, ?_, rfl⟩
    have below : (index : Int) ≤ (bound - start) / step := by
      rw [Int.le_ediv_iff_mul_le positive]
      omega
    omega

theorem everyUpTo_ordered {start step : Int} (positive : 0 < step) (bound : Int) :
    (everyUpTo start step bound).Pairwise (· < ·) := by
  rw [everyUpTo, List.pairwise_map]
  refine List.pairwise_lt_range.imp ?_
  intro first second order
  have := Int.mul_lt_mul_of_pos_right (show (first : Int) < second by omega) positive
  omega

def everyFirstFrom (start step low : Int) : Int :=
  if low ≤ start then start else start + ((low - start - 1) / step + 1) * step

theorem everyFirstFrom_spec {start step : Int} (positive : 0 < step) (low : Int) :
    (∃ index : Nat, everyFirstFrom start step low = start + index * step) ∧
      low ≤ everyFirstFrom start step low ∧
      ∀ index : Nat, low ≤ start + index * step →
        everyFirstFrom start step low ≤ start + index * step := by
  rw [everyFirstFrom]
  split
  · rename_i early
    refine ⟨⟨0, by simp⟩, early, ?_⟩
    intro index _
    have := Int.mul_nonneg (Int.natCast_nonneg index) (Int.le_of_lt positive)
    omega
  · rename_i late
    have quotient := Int.ediv_nonneg (show 0 ≤ low - start - 1 by omega) (Int.le_of_lt positive)
    refine ⟨⟨((low - start - 1) / step + 1).toNat, ?_⟩, ?_, ?_⟩
    · rw [Int.toNat_of_nonneg (by omega)]
    · have upper := Int.lt_ediv_add_one_mul_self (low - start - 1) positive
      omega
    · intro index reaches
      have past : (low - start - 1) / step < index := by
        rw [Int.ediv_lt_iff_lt_mul positive]
        omega
      have product := Int.mul_le_mul_of_nonneg_right
        (show (low - start - 1) / step + 1 ≤ (index : Int) by omega) (Int.le_of_lt positive)
      omega

def every (start step : Int) (positive : 0 < step) : DateSeries where
  upTo := everyUpTo start step
  firstFrom := fun low => some (everyFirstFrom start step low)
  ordered := everyUpTo_ordered positive
  upTo_filter := by
    intro low high order
    apply eq_of_mem_iff (everyUpTo_ordered positive low)
      ((everyUpTo_ordered positive high).filter _)
    intro date
    rw [List.mem_filter, mem_everyUpTo positive, mem_everyUpTo positive, decide_eq_true_eq]
    constructor
    · rintro ⟨spaced, inside⟩
      exact ⟨⟨spaced, by omega⟩, inside⟩
    · rintro ⟨⟨spaced, _⟩, inside⟩
      exact ⟨spaced, inside⟩
  firstFrom_iff := by
    intro low date
    obtain ⟨spaced, above, least⟩ := @everyFirstFrom_spec start step positive low
    simp only [Option.some.injEq, mem_everyUpTo positive, Int.le_refl, and_true]
    constructor
    · rintro rfl
      refine ⟨spaced, above, ?_⟩
      rintro other ⟨index, rfl⟩ reaches
      exact least index reaches
    · rintro ⟨⟨index, rfl⟩, reaches, first⟩
      have down := least index reaches
      have up := first _ spaced above
      omega

@[simp] theorem mem_every {start step : Int} (positive : 0 < step) :
    date ∈ every start step positive ↔ ∃ index : Nat, date = start + index * step := by
  change date ∈ everyUpTo start step date ↔ _
  rw [mem_everyUpTo positive]
  simp

end DateSeries
