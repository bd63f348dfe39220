import Metidos.Client.MessageHistory
import Metidos.Thread.MessagePages

/-!
The pages of the messages of a thread as a client merges them, in whatever order they come.
-/

namespace Metidos.Client.History

open SortedMerge Thread

variable {Fields : Type} {pages : List (List (ThreadMessage Fields))}

theorem foldId_flatten (distinct : Distinct ThreadMessage.id pages.flatten) (id : Int) :
    foldId pages id = lookup ThreadMessage.id id pages.flatten := by
  induction pages using List.reverseRecOn with
  | nil => rfl
  | append_singleton front page ih =>
    rw [List.flatten_append, List.flatten_singleton] at distinct ⊢
    rw [Distinct, List.map_append, List.nodup_append] at distinct
    obtain ⟨before, _, apart⟩ := distinct
    rw [foldId_concat, ih before, lookup_append]
    cases found : lookup ThreadMessage.id id front.flatten with
    | none => rw [none_join, Option.none_or]
    | some message =>
      obtain ⟨earlier, isId⟩ := (lookup_eq_some_iff before).mp found
      have absent : lookup ThreadMessage.id id page = none :=
        lookup_eq_none_iff.mpr fun other member same =>
          apart _ (List.mem_map_of_mem earlier) _ (List.mem_map_of_mem member)
            (isId.trans same.symm)
      rw [absent]
      rfl

theorem mergePages_perm {whole : List (ThreadMessage Fields)}
    (increasing : Increasing ThreadMessage.id whole) (perm : pages.flatten.Perm whole) :
    mergePages pages = whole := by
  have distinct : Distinct ThreadMessage.id pages.flatten :=
    (perm.map _).nodup_iff.mpr increasing.distinct
  have merged : Increasing ThreadMessage.id (mergePages pages) ∧
      ∀ id, lookup ThreadMessage.id id (mergePages pages) = foldId pages id :=
    mergePages_spec fun page member =>
      distinct.sublist ((List.sublist_flatten_of_mem member).map ThreadMessage.id)
  refine eq_of_lookup merged.1 increasing fun id => ?_
  rw [merged.2, foldId_flatten distinct, lookup_perm increasing.distinct perm]

end Metidos.Client.History
