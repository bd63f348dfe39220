import Mathlib.Data.List.Sort

/-!
Lists with an integer key on each entry: what is found under a key, and the two-pointer merge of
two lists in key order, entry for entry.
-/

namespace SortedMerge

variable {α : Type}

def merge (key : α → Int) (combine : α → α → α) : List α → List α → List α
  | current, [] => current
  | [], incoming => incoming
  | first :: current, next :: incoming =>
    if key first = key next then combine first next :: merge key combine current incoming
    else if key first < key next then first :: merge key combine current (next :: incoming)
    else next :: merge key combine (first :: current) incoming
termination_by current incoming => current.length + incoming.length

def lookup (key : α → Int) (id : Int) (entries : List α) : Option α :=
  entries.find? fun entry => key entry = id

def join (combine : α → α → α) : Option α → Option α → Option α
  | some current, some incoming => some (combine current incoming)
  | current, none => current
  | none, incoming => incoming

variable {key : α → Int} {combine : α → α → α} {entries current incoming : List α} {id : Int}
  {entry : α}

abbrev Distinct (key : α → Int) (entries : List α) : Prop := (entries.map key).Nodup

abbrev Increasing (key : α → Int) (entries : List α) : Prop :=
  entries.Pairwise fun first next => key first < key next

theorem Increasing.distinct (increasing : Increasing key entries) : Distinct key entries := by
  rw [Distinct, List.Nodup, List.pairwise_map]
  exact increasing.imp fun less => by omega

theorem lookup_eq_some_iff (distinct : Distinct key entries) :
    lookup key id entries = some entry ↔ entry ∈ entries ∧ key entry = id := by
  refine ⟨fun found => ⟨List.mem_of_find?_eq_some found, ?_⟩, ?_⟩
  · simpa using List.find?_some found
  · rintro ⟨member, rfl⟩
    cases found : lookup key (key entry) entries with
    | none => exact absurd (List.find?_eq_none.mp found entry member) (by simp)
    | some other =>
      have same : key other = key entry := by simpa using List.find?_some found
      exact congrArg some
        (List.inj_on_of_nodup_map distinct (List.mem_of_find?_eq_some found) member same)

theorem lookup_eq_none_iff : lookup key id entries = none ↔ ∀ entry ∈ entries, key entry ≠ id := by
  rw [lookup, List.find?_eq_none]
  simp

theorem lookup_perm {other : List α} (distinct : Distinct key entries)
    (perm : other.Perm entries) : lookup key id other = lookup key id entries := by
  have same : Distinct key other := (perm.map key).nodup_iff.mpr distinct
  refine Option.ext fun entry => ?_
  rw [lookup_eq_some_iff distinct, lookup_eq_some_iff same, perm.mem_iff]

theorem eq_of_lookup {other : List α} (increasing : Increasing key entries)
    (alike : Increasing key other) (same : ∀ id, lookup key id entries = lookup key id other) :
    entries = other := by
  have nodup : ∀ {list : List α}, Increasing key list → list.Nodup := fun sorted =>
    List.Nodup.of_map key sorted.distinct
  have perm : entries.Perm other := by
    rw [List.perm_ext_iff_of_nodup (nodup increasing) (nodup alike)]
    intro entry
    have here := @lookup_eq_some_iff _ _ _ (key entry) entry increasing.distinct
    have there := @lookup_eq_some_iff _ _ _ (key entry) entry alike.distinct
    simp only [and_true] at here there
    rw [← here, ← there, same]
  exact perm.eq_of_pairwise (fun first next _ _ less more => by omega) increasing alike

theorem lookup_append :
    lookup key id (current ++ incoming) = (lookup key id current).or (lookup key id incoming) :=
  List.find?_append

theorem join_none (found : Option α) : join combine found none = found := by
  cases found <;> rfl

theorem none_join (found : Option α) : join combine none found = found := by
  cases found <;> rfl

theorem lookup_cons (first : α) (rest : List α) :
    lookup key id (first :: rest) = if key first = id then some first else lookup key id rest := by
  rw [lookup, List.find?_cons]
  split
  · rename_i found
    rw [if_pos (of_decide_eq_true found)]
  · rename_i other
    rw [if_neg (of_decide_eq_false other)]
    rfl

theorem lookup_below {first : α} (increasing : Increasing key (first :: entries))
    (below : id ≤ key first) : lookup key id entries = none := by
  refine lookup_eq_none_iff.mpr fun entry member same => ?_
  have less := (List.pairwise_cons.mp increasing).1 entry member
  omega

theorem lookup_merge (keeps : ∀ first next, key (combine first next) = key next)
    (sorted : Increasing key current) (alike : Increasing key incoming) :
    lookup key id (merge key combine current incoming) =
      join combine (lookup key id current) (lookup key id incoming) := by
  fun_induction merge key combine current incoming with
  | case1 current => exact (join_none _).symm
  | case2 incoming => exact (none_join _).symm
  | case3 first current next incoming same ih =>
    have tail := ih (List.pairwise_cons.mp sorted).2 (List.pairwise_cons.mp alike).2
    simp only [lookup_cons, keeps, same, tail]
    split
    · rfl
    · rfl
  | case4 first current next incoming other less ih =>
    have tail := ih (List.pairwise_cons.mp sorted).2 alike
    rw [lookup_cons, lookup_cons, tail]
    split
    · rename_i found
      have absent : lookup key id (next :: incoming) = none := by
        rw [lookup_cons, if_neg (by omega), lookup_below alike (by omega)]
      rw [absent]
      rfl
    · rfl
  | case5 first current next incoming other more ih =>
    have tail := ih sorted (List.pairwise_cons.mp alike).2
    rw [lookup_cons next, lookup_cons next, tail]
    split
    · rename_i found
      have absent : lookup key id (first :: current) = none := by
        rw [lookup_cons, if_neg (by omega), lookup_below sorted (by omega)]
      rw [absent]
      rfl
    · rfl

theorem lt_merge {bound : Int} (keeps : ∀ first next, key (combine first next) = key next)
    (above : ∀ entry ∈ current, bound < key entry) (beyond : ∀ entry ∈ incoming, bound < key entry) :
    ∀ entry ∈ merge key combine current incoming, bound < key entry := by
  fun_induction merge key combine current incoming with
  | case1 current => exact above
  | case2 incoming => exact beyond
  | case3 first current next incoming same ih =>
    rw [List.forall_mem_cons] at above beyond ⊢
    exact ⟨(keeps first next).symm ▸ beyond.1, ih above.2 beyond.2⟩
  | case4 first current next incoming other less ih =>
    rw [List.forall_mem_cons] at above ⊢
    exact ⟨above.1, ih above.2 beyond⟩
  | case5 first current next incoming other more ih =>
    rw [List.forall_mem_cons] at beyond ⊢
    exact ⟨beyond.1, ih above beyond.2⟩

theorem increasing_merge (keeps : ∀ first next, key (combine first next) = key next)
    (sorted : Increasing key current) (alike : Increasing key incoming) :
    Increasing key (merge key combine current incoming) := by
  fun_induction merge key combine current incoming with
  | case1 current => exact sorted
  | case2 incoming => exact alike
  | case3 first current next incoming same ih =>
    obtain ⟨above, sorted⟩ := List.pairwise_cons.mp sorted
    obtain ⟨beyond, alike⟩ := List.pairwise_cons.mp alike
    refine List.pairwise_cons.mpr ⟨?_, ih sorted alike⟩
    rw [keeps]
    exact lt_merge keeps (same ▸ above) beyond
  | case4 first current next incoming other less ih =>
    obtain ⟨above, sorted⟩ := List.pairwise_cons.mp sorted
    refine List.pairwise_cons.mpr ⟨lt_merge keeps above ?_, ih sorted alike⟩
    refine List.forall_mem_cons.mpr ⟨less, fun entry member => ?_⟩
    exact less.trans ((List.pairwise_cons.mp alike).1 entry member)
  | case5 first current next incoming other more ih =>
    obtain ⟨beyond, alike⟩ := List.pairwise_cons.mp alike
    have less : key next < key first := by omega
    refine List.pairwise_cons.mpr ⟨lt_merge keeps ?_ beyond, ih sorted alike⟩
    refine List.forall_mem_cons.mpr ⟨less, fun entry member => ?_⟩
    exact less.trans ((List.pairwise_cons.mp sorted).1 entry member)

end SortedMerge
