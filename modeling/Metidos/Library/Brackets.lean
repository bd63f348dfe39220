import Mathlib.Data.List.Basic

/-!
Tokens between an opening bracket and the one that closes it.
-/

namespace Brackets

variable {α : Type} [DecidableEq α] (opening closing : α)

/-- Every bracket of the tokens closes, when `depth` more were opened before them. -/
def balanced : Nat → List α → Bool
  | depth, [] => depth == 0
  | depth, token :: rest =>
    if token = closing then depth != 0 && balanced (depth - 1) rest
    else balanced (if token = opening then depth + 1 else depth) rest

def untilClosed : Nat → List α → Option (List α × List α)
  | _, [] => none
  | depth, token :: rest =>
    if token = closing ∧ depth = 0 then some ([], rest)
    else
      (untilClosed
        (if token = closing then depth - 1 else if token = opening then depth + 1 else depth)
        rest).map fun found => (token :: found.1, found.2)

variable {opening closing} {depth : Nat} {tokens body rest : List α}

theorem untilClosed_sound (found : untilClosed opening closing depth tokens = some (body, rest)) :
    tokens = body ++ closing :: rest ∧ balanced opening closing depth body = true := by
  induction tokens generalizing depth body with
  | nil => cases found
  | cons token tokens ih =>
    rw [untilClosed] at found
    split at found
    · rename_i closes
      obtain ⟨rfl, rfl⟩ := Prod.mk.inj (Option.some.inj found)
      rw [closes.1, closes.2]
      exact ⟨rfl, rfl⟩
    · rename_i goesOn
      obtain ⟨inner, isInner, joined⟩ := Option.map_eq_some_iff.mp found
      obtain ⟨rfl, rfl⟩ := Prod.mk.inj joined
      obtain ⟨isTokens, isBalanced⟩ := ih isInner
      rw [isTokens, balanced]
      refine ⟨rfl, ?_⟩
      split
      · rename_i isClosing
        rw [if_pos isClosing] at isBalanced
        have nested : depth ≠ 0 := fun outermost => goesOn ⟨isClosing, outermost⟩
        rw [isBalanced, bne_iff_ne.mpr nested]
        rfl
      · rename_i notClosing
        rwa [if_neg notClosing] at isBalanced

theorem untilClosed_complete (isBalanced : balanced opening closing depth body = true)
    (rest : List α) :
    untilClosed opening closing depth (body ++ closing :: rest) = some (body, rest) := by
  induction body generalizing depth with
  | nil =>
    rw [List.nil_append, untilClosed, if_pos ⟨rfl, beq_iff_eq.mp isBalanced⟩]
  | cons token body ih =>
    rw [balanced] at isBalanced
    rw [List.cons_append, untilClosed]
    split at isBalanced
    · rename_i isClosing
      rw [Bool.and_eq_true, bne_iff_ne] at isBalanced
      rw [if_neg fun closes => isBalanced.1 closes.2, if_pos isClosing, ih isBalanced.2]
      rfl
    · rename_i notClosing
      rw [if_neg fun closes => notClosing closes.1, if_neg notClosing, ih isBalanced]
      rfl

theorem untilClosed_eq_some_iff :
    untilClosed opening closing depth tokens = some (body, rest) ↔
      tokens = body ++ closing :: rest ∧ balanced opening closing depth body = true := by
  constructor
  · exact untilClosed_sound
  · rintro ⟨rfl, isBalanced⟩
    exact untilClosed_complete isBalanced rest

end Brackets
