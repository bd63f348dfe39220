import Mathlib.Data.List.Basic

/-!
The bits of a number from the most significant down, and texts of bits that are cut into pieces of
one width.
-/

namespace Metidos.BitStrings

def bitsOf (bit : Nat → Bool) : Nat → List Bool
  | 0 => []
  | width + 1 => bit width :: bitsOf bit width

@[simp] theorem length_bitsOf (bit : Nat → Bool) (width : Nat) :
    (bitsOf bit width).length = width := by
  induction width with
  | zero => rfl
  | succ width ih => rw [bitsOf, List.length_cons, ih]

theorem bitsOf_add (bit : Nat → Bool) (high low : Nat) :
    bitsOf bit (high + low) = bitsOf (fun index => bit (index + low)) high ++ bitsOf bit low := by
  induction high with
  | zero => rw [Nat.zero_add, bitsOf, List.nil_append]
  | succ high ih =>
    rw [Nat.succ_add, bitsOf, ih]
    rfl

theorem bitsOf_congr {left right : Nat → Bool} {width : Nat}
    (same : ∀ index < width, left index = right index) : bitsOf left width = bitsOf right width := by
  induction width with
  | zero => rfl
  | succ width ih =>
    rw [bitsOf, bitsOf, same width (Nat.lt_succ_self width),
      ih fun index below => same index (Nat.lt_succ_of_lt below)]

theorem bitsOf_inj {left right : Nat → Bool} {width : Nat}
    (same : bitsOf left width = bitsOf right width) : ∀ index < width, left index = right index := by
  induction width with
  | zero => exact fun _ below => absurd below (Nat.not_lt_zero _)
  | succ width ih =>
    obtain ⟨top, rest⟩ := List.cons.inj same
    intro index below
    rcases Nat.lt_succ_iff_lt_or_eq.mp below with lower | rfl
    · exact ih rest index lower
    · exact top

def wordBits {width : Nat} (words : List (BitVec width)) : List Bool :=
  words.flatMap fun word => bitsOf word.getLsbD width

theorem wordBits_cons {width : Nat} (word : BitVec width) (words : List (BitVec width)) :
    wordBits (word :: words) = bitsOf word.getLsbD width ++ wordBits words := rfl

@[simp] theorem length_wordBits {width : Nat} (words : List (BitVec width)) :
    (wordBits words).length = words.length * width := by
  induction words with
  | nil => simp [wordBits]
  | cons word words ih =>
    rw [wordBits_cons, List.length_append, length_bitsOf, ih, List.length_cons, Nat.succ_mul,
      Nat.add_comm]

theorem wordBits_inj {width : Nat} {left right : List (BitVec width)} {leftEnd rightEnd : List Bool}
    (count : left.length = right.length)
    (same : wordBits left ++ leftEnd = wordBits right ++ rightEnd) : left = right := by
  induction left generalizing right with
  | nil => exact (List.eq_nil_of_length_eq_zero count.symm).symm
  | cons word left ih =>
    cases right with
    | nil => exact absurd count (by simp)
    | cons other right =>
      simp only [wordBits_cons, List.append_assoc] at same
      obtain ⟨isWord, rest⟩ := List.append_inj same (by simp)
      rw [BitVec.eq_of_getLsbD_eq (bitsOf_inj isWord), ih (Nat.succ.inj count) rest]

theorem wordBits_unique {width : Nat} {left right : List (BitVec width)}
    {leftEnd rightEnd : List Bool} (leftShort : leftEnd.length < width)
    (rightShort : rightEnd.length < width)
    (same : wordBits left ++ leftEnd = wordBits right ++ rightEnd) : left = right := by
  have sizes := congrArg List.length same
  simp only [List.length_append, length_wordBits] at sizes
  have leftCount : (left.length * width + leftEnd.length) / width = left.length := by
    rw [Nat.mul_comm, Nat.mul_add_div (by omega), Nat.div_eq_of_lt leftShort, Nat.add_zero]
  have rightCount : (right.length * width + rightEnd.length) / width = right.length := by
    rw [Nat.mul_comm, Nat.mul_add_div (by omega), Nat.div_eq_of_lt rightShort, Nat.add_zero]
  exact wordBits_inj (leftCount.symm.trans ((congrArg (· / width) sizes).trans rightCount)) same

end Metidos.BitStrings
