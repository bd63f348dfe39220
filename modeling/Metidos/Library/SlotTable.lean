import Mathlib.Data.List.DropRight
import Mathlib.Data.List.Pairwise

/-!
A table of slots that are claimed at its end and released anywhere: a released slot is left
empty, and empty slots at the end are given back.
-/

namespace SlotTable

variable {κ ν : Type}

def trimmed (slots : List (Option κ)) : List (Option κ) := slots.rdropWhile Option.isNone

def release [DecidableEq κ] (slots : List (Option κ)) (index : Nat) (key : κ) :
    List (Option κ) :=
  if slots[index]? = some (some key) then trimmed (slots.set index none) else slots

theorem trimmed_holds (slots : List (Option κ)) (index : Nat) (key : κ) :
    (trimmed slots)[index]? = some (some key) ↔ slots[index]? = some (some key) := by
  induction slots using List.reverseRecOn with
  | nil => rfl
  | append_singleton slots last ih =>
    cases last with
    | none =>
      rw [trimmed, List.rdropWhile_concat_pos _ _ _ rfl]
      rw [trimmed] at ih
      rw [ih, List.getElem?_append]
      split
      · rfl
      · rename_i beyond
        rw [List.getElem?_eq_none (by omega), List.getElem?_singleton]
        split
        · simp
        · simp
    | some other => rw [trimmed, List.rdropWhile_concat_neg _ _ _ Bool.false_ne_true]

theorem claim_holds (slots : List (Option κ)) (claimed key : κ) (index : Nat) :
    (slots ++ [some claimed])[index]? = some (some key) ↔
      slots[index]? = some (some key) ∨ index = slots.length ∧ key = claimed := by
  rw [List.getElem?_append]
  split
  · rename_i within
    constructor
    · exact Or.inl
    · rintro (held | ⟨atEnd, -⟩)
      · exact held
      · omega
  · rename_i beyond
    rw [List.getElem?_singleton, List.getElem?_eq_none (by omega)]
    split
    · rename_i isLast
      simp only [Option.some.injEq, reduceCtorEq, false_or]
      exact ⟨fun same => ⟨by omega, same.symm⟩, fun same => same.2.symm⟩
    · rename_i notLast
      simp only [reduceCtorEq, false_or, false_iff, not_and]
      omega

theorem release_holds [DecidableEq κ] (slots : List (Option κ)) (released : Nat) (gone key : κ)
    (index : Nat) :
    (release slots released gone)[index]? = some (some key) ↔
      slots[index]? = some (some key) ∧ ¬(index = released ∧ key = gone) := by
  rw [release]
  split
  · rename_i held
    rw [trimmed_holds, List.getElem?_set]
    by_cases same : released = index
    · subst same
      rw [if_pos rfl, held]
      have empty : (if released < slots.length then some (none : Option κ) else none) ≠
          some (some key) := by
        split
        · simp
        · simp
      simp only [empty, Option.some.injEq, true_and, false_iff, not_and, not_not]
      exact fun equal => equal.symm
    · rw [if_neg same]
      have other : ¬(index = released ∧ key = gone) := fun equal => same equal.1.symm
      simp only [other, not_false_eq_true, and_true]
  · rename_i free
    constructor
    · intro held
      refine ⟨held, ?_⟩
      rintro ⟨rfl, rfl⟩
      exact free held
    · exact And.left

def Places (slots : List (Option κ)) (value : κ → Option ν) (indexOf : ν → Nat) : Prop :=
  ∀ index key, slots[index]? = some (some key) ↔ ∃ found, value key = some found ∧
    indexOf found = index

variable {slots : List (Option κ)} {value : κ → Option ν} {indexOf : ν → Nat}

theorem Places.mem_listed (places : Places slots value indexOf) (found : ν) :
    found ∈ slots.filterMap (fun slot => slot.bind value) ↔ ∃ key, value key = some found := by
  simp only [List.mem_filterMap]
  constructor
  · rintro ⟨slot, -, shows'⟩
    obtain ⟨key, -, isFound⟩ := Option.bind_eq_some_iff.mp shows'
    exact ⟨key, isFound⟩
  · rintro ⟨key, isFound⟩
    have held := (places (indexOf found) key).mpr ⟨found, isFound, rfl⟩
    exact ⟨some key, List.mem_of_getElem? held, isFound⟩

theorem Places.listed_sorted (places : Places slots value indexOf) :
    (slots.filterMap fun slot => slot.bind value).Pairwise
      fun left right => indexOf left < indexOf right := by
  have indexed : ∀ (index : Nat) (inside : index < slots.length) (found : ν),
      slots[index].bind value = some found → indexOf found = index := by
    intro index inside found isFound
    obtain ⟨key, isKey, shows'⟩ := Option.bind_eq_some_iff.mp isFound
    have held : slots[index]? = some (some key) := by
      rw [List.getElem?_eq_getElem inside, isKey]
    obtain ⟨other, isOther, atIndex⟩ := (places index key).mp held
    rw [shows', Option.some.injEq] at isOther
    exact isOther ▸ atIndex
  rw [List.pairwise_filterMap, List.pairwise_iff_getElem]
  intro first second isFirst isSecond before left isLeft right isRight
  rw [indexed first isFirst left isLeft, indexed second isSecond right isRight]
  exact before

theorem places_empty (indexOf : ν → Nat) : Places ([] : List (Option κ)) (fun _ => none) indexOf := by
  intro index key
  simp

end SlotTable
