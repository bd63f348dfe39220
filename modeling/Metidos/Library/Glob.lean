import Mathlib.Data.List.Basic

/-!
Matching lists against patterns with places that stand for a run of values.  A value may be
lone: a run that begins at a lone value takes that value and no more.
-/

namespace Glob

inductive Place (π : Type)
  | run
  | single (pattern : π)
  deriving DecidableEq

variable {α π : Type}

def MaySkip (lone : α → Prop) (skipped rest : List α) : Prop :=
  ∀ value, (skipped ++ rest).head? = some value → lone value → skipped = [value]

inductive Matches (lone : α → Prop) (accepts : π → α → Prop) :
    List (Place π) → List α → Prop
  | nil : Matches lone accepts [] []
  | run {places : List (Place π)} {skipped rest : List α} (may : MaySkip lone skipped rest)
      (tail : Matches lone accepts places rest) :
      Matches lone accepts (.run :: places) (skipped ++ rest)
  | single {pattern : π} {value : α} {places : List (Place π)} {values : List α}
      (accepted : accepts pattern value) (tail : Matches lone accepts places values) :
      Matches lone accepts (.single pattern :: places) (value :: values)

variable {lone : α → Prop} {accepts : π → α → Prop} {places : List (Place π)}
  {values rest : List α} {value : α} {pattern : π}

theorem matches_nil_iff : Matches lone accepts [] values ↔ values = [] := by
  constructor
  · rintro ⟨⟩
    rfl
  · rintro rfl
    exact .nil

theorem matches_single_nil : ¬ Matches lone accepts (.single pattern :: places) [] := nofun

theorem matches_single_cons_iff :
    Matches lone accepts (.single pattern :: places) (value :: values) ↔
      accepts pattern value ∧ Matches lone accepts places values := by
  constructor
  · rintro ⟨⟩
    rename_i accepted tail
    exact ⟨accepted, tail⟩
  · rintro ⟨accepted, tail⟩
    exact .single accepted tail

theorem matches_run_iff : Matches lone accepts (.run :: places) values ↔
    ∃ skipped rest, values = skipped ++ rest ∧ MaySkip lone skipped rest ∧
      Matches lone accepts places rest := by
  constructor
  · intro matched
    generalize whole : Place.run :: places = all at matched
    cases matched with
    | nil => simp at whole
    | single => simp at whole
    | run may tail =>
      obtain ⟨_, rfl⟩ := List.cons.inj whole
      exact ⟨_, _, rfl, may, tail⟩
  · rintro ⟨skipped, rest, rfl, may, tail⟩
    exact .run may tail

theorem matches_run_lone_iff (isLone : lone value) :
    Matches lone accepts (.run :: places) (value :: values) ↔
      Matches lone accepts places values := by
  rw [matches_run_iff]
  constructor
  · rintro ⟨skipped, rest, whole, may, tail⟩
    have only := may value (by rw [← whole, List.head?_cons]) isLone
    subst only
    obtain rfl : values = rest := by simpa using whole
    exact tail
  · intro tail
    refine ⟨[value], values, rfl, ?_, tail⟩
    intro first isFirst _
    simp only [List.cons_append, List.head?_cons, Option.some.injEq] at isFirst
    rw [isFirst]

theorem matches_run_free_iff (free : ∀ value, values.head? = some value → ¬ lone value) :
    Matches lone accepts (.run :: places) values ↔
      ∃ rest, rest <:+ values ∧ Matches lone accepts places rest := by
  rw [matches_run_iff]
  constructor
  · rintro ⟨skipped, rest, rfl, -, tail⟩
    exact ⟨rest, List.suffix_append skipped rest, tail⟩
  · rintro ⟨rest, ⟨skipped, rfl⟩, tail⟩
    exact ⟨skipped, rest, rfl, fun value first isLone => absurd isLone (free value first), tail⟩

theorem matches_run_nil_iff :
    Matches lone accepts (.run :: places) [] ↔ Matches lone accepts places [] := by
  rw [matches_run_free_iff (by simp)]
  constructor
  · rintro ⟨rest, isSuffix, tail⟩
    rwa [List.suffix_nil.mp isSuffix] at tail
  · intro tail
    exact ⟨[], List.suffix_rfl, tail⟩

theorem matches_no_values_iff :
    Matches lone accepts places [] ↔ ∀ place ∈ places, place = .run := by
  induction places with
  | nil => simp [matches_nil_iff]
  | cons place places ih =>
    cases place with
    | run => simp [matches_run_nil_iff, ih]
    | single pattern => simp [matches_single_nil]

theorem Matches.weaken {fewer : α → Prop} {more : π → α → Prop}
    (matched : Matches lone accepts places values) (still : ∀ value, fewer value → lone value)
    (also : ∀ pattern value, accepts pattern value → more pattern value) :
    Matches fewer more places values := by
  induction matched with
  | nil => exact .nil
  | run may tail ih =>
    exact .run (fun value first isLone => may value first (still value isLone)) ih
  | single accepted tail ih => exact .single (also _ _ accepted) ih

theorem matches_literal_iff {place : α → Place π} {expected : List α}
    (literal : ∀ value ∈ expected, ∃ pattern, place value = .single pattern ∧
      ∀ other, accepts pattern other ↔ value = other) :
    Matches lone accepts (expected.map place) values ↔ expected = values := by
  induction expected generalizing values with
  | nil => rw [List.map_nil, matches_nil_iff, eq_comm]
  | cons value expected ih =>
    obtain ⟨pattern, isSingle, accepted⟩ := literal value List.mem_cons_self
    rw [List.map_cons, isSingle]
    cases values with
    | nil => exact iff_of_false matches_single_nil (List.cons_ne_nil value expected)
    | cons other values =>
      rw [matches_single_cons_iff, accepted, List.cons.injEq,
        ih fun later member => literal later (List.mem_cons_of_mem _ member)]

/-- Whatever the first places still match from there on, the second places match from a later
value on: giving up every match of the first gives up none of the second. -/
def Covers (lone : α → Prop) (accepts : π → α → Prop) (first : List (Place π) × List α)
    (second : List (Place π) × List α) : Prop :=
  ∀ values, values <:+ first.2 → Matches lone accepts first.1 values →
    ∃ rest, rest <:+ second.2 ∧ Matches lone accepts second.1 rest

theorem Covers.refl (first : List (Place π) × List α) : Covers lone accepts first first :=
  fun values isSuffix matched => ⟨values, isSuffix, matched⟩

variable {first : List (Place π) × List α}

theorem Covers.single (covers : Covers lone accepts first (.single pattern :: places, value :: rest)) :
    Covers lone accepts first (places, rest) := by
  intro values isSuffix matched
  obtain ⟨taken, inRest, tail⟩ := covers values isSuffix matched
  cases taken with
  | nil => exact absurd tail matches_single_nil
  | cons head taken =>
    have shorter : taken <:+ rest := by
      rcases List.suffix_cons_iff.mp inRest with same | later
      · obtain ⟨_, rfl⟩ := List.cons.inj same
        exact List.suffix_rfl
      · exact (List.suffix_cons head taken).trans later
    exact ⟨taken, shorter, (matches_single_cons_iff.mp tail).2⟩

theorem Covers.loneRun (covers : Covers lone accepts first (.run :: places, value :: rest))
    (isLone : lone value) : Covers lone accepts first (places, rest) := by
  intro values isSuffix matched
  obtain ⟨taken, inRest, tail⟩ := covers values isSuffix matched
  rcases List.suffix_cons_iff.mp inRest with rfl | later
  · exact ⟨rest, List.suffix_rfl, (matches_run_lone_iff isLone).mp tail⟩
  · obtain ⟨skipped, left, rfl, -, tail⟩ := matches_run_iff.mp tail
    exact ⟨left, (List.suffix_append skipped left).trans later, tail⟩

theorem Covers.run (covers : Covers lone accepts first (.run :: places, rest)) :
    Covers lone accepts first (places, rest) := by
  intro values isSuffix matched
  obtain ⟨taken, inRest, tail⟩ := covers values isSuffix matched
  obtain ⟨skipped, left, rfl, -, tail⟩ := matches_run_iff.mp tail
  exact ⟨left, (List.suffix_append skipped left).trans inRest, tail⟩

theorem matches_suffix_iff (nonempty : rest ≠ []) :
    (∃ taken, taken <:+ rest ∧ Matches lone accepts places taken) ↔
      Matches lone accepts places rest ∨
        ∃ taken, taken <:+ rest.tail ∧ Matches lone accepts places taken := by
  cases rest with
  | nil => exact absurd rfl nonempty
  | cons value rest =>
    simp only [List.tail_cons, List.suffix_cons_iff]
    constructor
    · rintro ⟨taken, rfl | later, matched⟩
      · exact Or.inl matched
      · exact Or.inr ⟨taken, later, matched⟩
    · rintro (matched | ⟨taken, later, matched⟩)
      · exact ⟨_, Or.inl rfl, matched⟩
      · exact ⟨taken, Or.inr later, matched⟩

theorem matches_run_cons_iff :
    Matches (fun _ => False) accepts (.run :: places) (value :: values) ↔
      Matches (fun _ => False) accepts places (value :: values) ∨
        Matches (fun _ => False) accepts (.run :: places) values := by
  rw [matches_run_free_iff fun _ _ => id, matches_run_free_iff fun _ _ => id,
    matches_suffix_iff (List.cons_ne_nil value values), List.tail_cons]

end Glob
