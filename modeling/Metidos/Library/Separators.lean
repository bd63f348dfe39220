import Mathlib.Data.List.Basic

/-!
Texts joined at a separator that one side does not have: the other side is determined.  Texts
split at a separator: a piece ends where the first separator stands.
-/

namespace Separators

variable {α : Type} {separator : α} {left right leftRest rightRest : List α}

theorem first_inj (leftPlain : separator ∉ left) (rightPlain : separator ∉ right)
    (same : left ++ separator :: leftRest = right ++ separator :: rightRest) :
    left = right ∧ leftRest = rightRest := by
  induction left generalizing right with
  | nil =>
    cases right with
    | nil => simpa using same
    | cons char right =>
      simp only [List.nil_append, List.cons_append, List.cons.injEq] at same
      exact absurd (same.1 ▸ List.mem_cons_self) rightPlain
  | cons char left ih =>
    cases right with
    | nil =>
      simp only [List.nil_append, List.cons_append, List.cons.injEq] at same
      exact absurd (same.1 ▸ List.mem_cons_self) leftPlain
    | cons other right =>
      simp only [List.cons_append, List.cons.injEq] at same
      obtain ⟨rfl, rest⟩ := same
      obtain ⟨rfl, rfl⟩ := ih (fun inside => leftPlain (List.mem_cons_of_mem _ inside))
        (fun inside => rightPlain (List.mem_cons_of_mem _ inside)) rest
      exact ⟨rfl, rfl⟩

theorem last_inj (leftPlain : separator ∉ leftRest) (rightPlain : separator ∉ rightRest)
    (same : left ++ separator :: leftRest = right ++ separator :: rightRest) :
    left = right ∧ leftRest = rightRest := by
  have reversed := congrArg List.reverse same
  simp only [List.reverse_append, List.reverse_cons, List.append_assoc, List.singleton_append]
    at reversed
  obtain ⟨rests, fronts⟩ := first_inj (by simpa using leftPlain) (by simpa using rightPlain) reversed
  exact ⟨List.reverse_injective fronts, List.reverse_injective rests⟩

def split [DecidableEq α] (separator : α) : List α → List (List α)
  | [] => [[]]
  | char :: rest =>
    if char = separator then [] :: split separator rest
    else (split separator rest).modifyHead (char :: ·)

theorem split_append [DecidableEq α] (plain : separator ∉ left) (rest : List α) :
    split separator (left ++ separator :: rest) = left :: split separator rest := by
  induction left with
  | nil => simp [split]
  | cons char left ih =>
    obtain ⟨other, plain⟩ := not_or.mp (List.mem_cons.not.mp plain)
    rw [List.cons_append, split, if_neg (Ne.symm other), ih plain]
    rfl

theorem split_plain [DecidableEq α] (plain : separator ∉ left) : split separator left = [left] := by
  induction left with
  | nil => rfl
  | cons char left ih =>
    obtain ⟨other, plain⟩ := not_or.mp (List.mem_cons.not.mp plain)
    rw [split, if_neg (Ne.symm other), ih plain]
    rfl

theorem mem_of_mem_split [DecidableEq α] {text piece : List α} (isPiece : piece ∈ split separator text)
    {char : α} (member : char ∈ piece) : char ∈ text ∧ char ≠ separator := by
  induction text generalizing piece with
  | nil =>
    rw [split, List.mem_singleton] at isPiece
    subst isPiece
    exact absurd member List.not_mem_nil
  | cons first text ih =>
    rw [split] at isPiece
    split at isPiece
    · rcases List.mem_cons.mp isPiece with rfl | later
      · exact absurd member List.not_mem_nil
      · exact (ih later member).imp_left (List.mem_cons_of_mem _)
    · rename_i other
      cases pieces : split separator text with
      | nil =>
        rw [pieces] at isPiece
        exact absurd isPiece List.not_mem_nil
      | cons head rest =>
        rw [pieces] at ih isPiece
        rcases List.mem_cons.mp isPiece with rfl | later
        · rcases List.mem_cons.mp member with rfl | inside
          · exact ⟨List.mem_cons_self, other⟩
          · exact (ih List.mem_cons_self inside).imp_left (List.mem_cons_of_mem _)
        · exact (ih (List.mem_cons_of_mem _ later) member).imp_left (List.mem_cons_of_mem _)

end Separators
