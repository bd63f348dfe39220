import Mathlib.Data.List.Induction

/-!
The longest suffix of a list with a property, kept while the list grows at its end.
-/

structure LongestSuffix {α : Type} (fits : List α → Prop) (items kept : List α) : Prop where
  suffix : kept <:+ items
  holds : fits kept
  longest : ∀ other, other <:+ items → fits other → other <:+ kept

namespace LongestSuffix

variable {α : Type} {fits : List α → Prop} {items kept later more : List α}

theorem unique (first : LongestSuffix fits items kept) (second : LongestSuffix fits items later) :
    kept = later :=
  (second.longest kept first.suffix first.holds).eq_of_length_le
    (first.longest later second.suffix second.holds).length_le

/-- What was given up is not missed once more items have come in. -/
theorem append (inherits : ∀ front back, fits (front ++ back) → fits front)
    (first : LongestSuffix fits items kept) (second : LongestSuffix fits (kept ++ more) later) :
    LongestSuffix fits (items ++ more) later where
  suffix := by
    obtain ⟨front, rfl⟩ := first.suffix
    exact second.suffix.trans ⟨front, (List.append_assoc _ _ _).symm⟩
  holds := second.holds
  longest := fun other suffix fitting => by
    refine second.longest other ?_ fitting
    rcases Nat.le_total other.length more.length with short | long
    · exact List.suffix_append_of_suffix
        (List.suffix_of_suffix_length_le suffix (List.suffix_append _ _) short)
    · obtain ⟨front, rfl⟩ :=
        List.suffix_of_suffix_length_le (List.suffix_append items more) suffix long
      obtain ⟨gone, same⟩ := suffix
      rw [← List.append_assoc] at same
      obtain ⟨rest, isKept⟩ := first.longest front ⟨gone, List.append_cancel_right same⟩
        (inherits front more fitting)
      exact ⟨rest, by rw [← List.append_assoc, isKept]⟩

/-- Items that come in batches, where each is made smaller and the longest suffix is kept. -/
theorem foldl (inherits : ∀ front back, fits (front ++ back) → fits front) {smaller : α → α}
    (once : ∀ item, smaller (smaller item) = smaller item) {keep : List α → List α}
    (keeps : ∀ items, LongestSuffix fits (items.map smaller) (keep items))
    (empty : fits []) (batches : List (List α)) :
    LongestSuffix fits (batches.flatten.map smaller)
      (batches.foldl (fun shown batch => keep (shown ++ batch)) []) := by
  induction batches using List.reverseRecOn with
  | nil => exact ⟨List.suffix_rfl, empty, fun _ suffix _ => suffix⟩
  | append_singleton front batch ih =>
    have settled : (front.foldl (fun shown batch => keep (shown ++ batch)) []).map smaller =
        front.foldl (fun shown batch => keep (shown ++ batch)) [] := by
      refine (List.map_congr_left fun item member => ?_).trans (List.map_id _)
      obtain ⟨whole, _, rfl⟩ := List.mem_map.mp (ih.suffix.subset member)
      exact once whole
    rw [List.foldl_append, List.flatten_append, List.flatten_singleton, List.map_append,
      List.foldl_cons, List.foldl_nil]
    have next := keeps (front.foldl (fun shown batch => keep (shown ++ batch)) [] ++ batch)
    rw [List.map_append, settled] at next
    exact ih.append inherits next

end LongestSuffix
