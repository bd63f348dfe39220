import Mathlib.Algebra.Ring.Nat
import Metidos.Terminal.TerminalCore

/-!
Sizes of texts in UTF-8, what the trimming of a text keeps of it, and the segments that are left
when they are trimmed to a number of bytes.
-/

namespace Metidos.Terminal

theorem unitSize_bounds (unit : Nat) : 1 ≤ unitSize unit ∧ unitSize unit ≤ 3 := by
  rw [unitSize]
  split
  · omega
  · split
    · omega
    · omega

theorem unitSize_surrogate {unit : Nat} (high : 0xD800 ≤ unit) : unitSize unit = 3 := by
  rw [unitSize, if_neg (by omega), if_neg (by omega)]

theorem encodedSize_low {low : Nat} (isLow : 0xDC00 ≤ low) (rest : Units) :
    encodedSize (low :: rest) = 3 + encodedSize rest := by
  cases rest with
  | nil => rw [encodedSize, encodedSize, unitSize_surrogate (by omega)]
  | cons next rest =>
    rw [encodedSize, if_neg (by omega), unitSize_surrogate (by omega)]

theorem encodedSize_cons_lt (unit : Nat) (text : Units) :
    encodedSize text < encodedSize (unit :: text) := by
  have positive := (unitSize_bounds unit).1
  cases text with
  | nil =>
    rw [encodedSize, encodedSize]
    omega
  | cons next rest =>
    rw [encodedSize.eq_3]
    split
    · rename_i pair
      rw [encodedSize_low pair.2.2.1]
      omega
    · omega

theorem encodedSize_cons_le (unit : Nat) (text : Units) :
    encodedSize (unit :: text) ≤ unitSize unit + encodedSize text := by
  cases text with
  | nil =>
    rw [encodedSize, encodedSize]
    omega
  | cons next rest =>
    rw [encodedSize.eq_3]
    split
    · rename_i pair
      rw [encodedSize_low pair.2.2.1, unitSize_surrogate pair.1]
      omega
    · exact Nat.le_refl _

theorem encodedSize_append_le (first second : Units) :
    encodedSize (first ++ second) ≤ encodedSize first + encodedSize second := by
  fun_induction encodedSize first with
  | case1 =>
    rw [List.nil_append]
    omega
  | case2 unit => exact encodedSize_cons_le unit second
  | case3 high low rest pair ih =>
    rw [List.cons_append, List.cons_append, encodedSize, if_pos pair]
    omega
  | case4 high low rest alone ih =>
    rw [List.cons_append, List.cons_append, encodedSize, if_neg alone]
    rw [List.cons_append] at ih
    omega

theorem encodedSize_le_append (first second : Units) :
    encodedSize second ≤ encodedSize (first ++ second) := by
  induction first with
  | nil => exact Nat.le_refl _
  | cons unit first ih =>
    exact Nat.le_of_lt (Nat.lt_of_le_of_lt ih (encodedSize_cons_lt unit (first ++ second)))

theorem encodedSize_pos {text : Units} (some' : text ≠ []) : 0 < encodedSize text := by
  cases text with
  | nil => exact absurd rfl some'
  | cons unit rest => exact Nat.zero_lt_of_lt (encodedSize_cons_lt unit rest)

theorem suffix_of_size {kept first second : Units} (isEnd : kept <:+ first ++ second)
    (small : encodedSize kept ≤ encodedSize second) : kept <:+ second := by
  rcases List.suffix_or_suffix_of_suffix isEnd (List.suffix_append first second) with
    inside | ⟨front, rfl⟩
  · exact inside
  · cases front with
    | nil => exact List.suffix_rfl
    | cons unit front =>
      have larger := encodedSize_cons_lt unit (front ++ second)
      have least := encodedSize_le_append front second
      rw [List.cons_append] at small
      omega

theorem trimFrom_spec (maxBytes : Nat) (text : Units) :
    trimFrom maxBytes text <:+ text ∧ encodedSize (trimFrom maxBytes text) ≤ maxBytes := by
  fun_induction trimFrom maxBytes text with
  | case1 next above ih => exact ⟨ih.1.trans (List.drop_suffix _ _), ih.2⟩
  | case2 next fits =>
    refine ⟨List.suffix_rfl, ?_⟩
    by_cases none : next = []
    · rw [none, encodedSize]
      exact Nat.zero_le _
    · exact Nat.le_of_not_lt fun above => fits ⟨none, above⟩

theorem trimString_suffix (text : Units) (maxBytes : Nat) :
    trimStringToMaxBytes text maxBytes <:+ text := by
  rw [trimStringToMaxBytes]
  split
  · exact List.suffix_rfl
  · exact (trimFrom_spec _ _).1.trans (List.drop_suffix _ _)

theorem trimString_size (text : Units) {maxBytes : Nat} (positive : 0 < maxBytes) :
    encodedSize (trimStringToMaxBytes text maxBytes) ≤ maxBytes := by
  rw [trimStringToMaxBytes]
  split
  · rename_i fits
    rcases fits with none | fits
    · omega
    · exact fits
  · exact (trimFrom_spec _ _).2

structure CountsSegments (byteLength : Nat) (segments : List TerminalOutputSegment) : Prop where
  sizes : ∀ segment ∈ segments, segment.byteLength = encodedSize segment.text
  total : byteLength = (segments.map TerminalOutputSegment.byteLength).sum

theorem CountsSegments.text_size {byteLength : Nat} {segments : List TerminalOutputSegment}
    (counts : CountsSegments byteLength segments) :
    encodedSize (segments.flatMap TerminalOutputSegment.text) ≤ byteLength := by
  obtain ⟨sizes, rfl⟩ := counts
  induction segments with
  | nil => exact Nat.le_refl _
  | cons segment rest ih =>
    have first := sizes segment List.mem_cons_self
    have later := ih fun other member => sizes other (List.mem_cons_of_mem _ member)
    rw [List.flatMap_cons, List.map_cons, List.sum_cons]
    exact Nat.le_trans (encodedSize_append_le _ _) (by omega)

theorem trimSegments_spec {maxBytes byteLength : Nat} {segments : List TerminalOutputSegment}
    (counts : CountsSegments byteLength segments) :
    CountsSegments (TerminalOutputBuffer.trimSegments maxBytes byteLength segments).1
        (TerminalOutputBuffer.trimSegments maxBytes byteLength segments).2 ∧
      (TerminalOutputBuffer.trimSegments maxBytes byteLength segments).1 ≤ maxBytes ∧
      (TerminalOutputBuffer.trimSegments maxBytes byteLength segments).2.flatMap
        TerminalOutputSegment.text <:+ segments.flatMap TerminalOutputSegment.text := by
  obtain ⟨sizes, rfl⟩ := counts
  induction segments with
  | nil => exact ⟨⟨sizes, rfl⟩, Nat.zero_le _, List.suffix_rfl⟩
  | cons segment rest ih =>
    have first := sizes segment List.mem_cons_self
    have restSizes : ∀ other ∈ rest, other.byteLength = encodedSize other.text :=
      fun other member => sizes other (List.mem_cons_of_mem _ member)
    have total : ((segment :: rest).map TerminalOutputSegment.byteLength).sum =
        segment.byteLength + (rest.map TerminalOutputSegment.byteLength).sum := by
      rw [List.map_cons, List.sum_cons]
    rw [TerminalOutputBuffer.trimSegments]
    split
    · rename_i fits
      exact ⟨⟨sizes, rfl⟩, fits, List.suffix_rfl⟩
    · rename_i above
      simp only
      split
      · have same : ((segment :: rest).map TerminalOutputSegment.byteLength).sum -
            segment.byteLength = (rest.map TerminalOutputSegment.byteLength).sum := by omega
        rw [same, List.flatMap_cons]
        obtain ⟨counts, below, isEnd⟩ := ih restSizes
        exact ⟨counts, below, isEnd.trans (List.suffix_append _ _)⟩
      · rename_i part
        have small := trimString_size segment.text
          (show 0 < segment.byteLength - (((segment :: rest).map
            TerminalOutputSegment.byteLength).sum - maxBytes) by omega)
        refine ⟨⟨?_, ?_⟩, ?_, ?_⟩
        · intro other member
          rcases List.mem_cons.mp member with rfl | later
          · rfl
          · exact restSizes other later
        · simp only [List.map_cons, List.sum_cons] at small ⊢
          omega
        · omega
        · rw [List.flatMap_cons, List.flatMap_cons]
          obtain ⟨front, isFront⟩ := trimString_suffix segment.text (segment.byteLength -
            (((segment :: rest).map TerminalOutputSegment.byteLength).sum - maxBytes))
          exact ⟨front, by rw [← List.append_assoc, isFront]⟩

end Metidos.Terminal
