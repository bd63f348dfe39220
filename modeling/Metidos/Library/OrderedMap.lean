import Mathlib.Algebra.Ring.Nat
import Mathlib.Data.List.Nodup
import Mathlib.Data.List.Lookmap
import Mathlib.Data.List.Perm.Basic
import Mathlib.Logic.Function.Iterate

/-!
Insertion-ordered maps and sets with distinct keys: the collections a JavaScript `Map` or
`Set` provides.  Writing an existing key keeps its place; a new key goes to the end.
-/

universe u v w

structure OrderedMap (κ : Type u) (ν : Type v) where
  entries : List (κ × ν)
  distinct : (entries.map Prod.fst).Nodup

namespace OrderedMap

variable {κ : Type u} {ν : Type v}

@[ext] theorem ext {left right : OrderedMap κ ν} (same : left.entries = right.entries) :
    left = right := by
  cases left
  cases right
  simp only at same
  subst same
  rfl

def empty : OrderedMap κ ν := { entries := [], distinct := List.nodup_nil }

instance : Inhabited (OrderedMap κ ν) := ⟨empty⟩

def keys (map : OrderedMap κ ν) : List κ := map.entries.map Prod.fst

def values (map : OrderedMap κ ν) : List ν := map.entries.map Prod.snd

def size (map : OrderedMap κ ν) : Nat := map.entries.length

def total (weight : ν → Nat) (map : OrderedMap κ ν) : Nat := (map.values.map weight).sum

@[simp] theorem total_empty (weight : ν → Nat) :
    (empty : OrderedMap κ ν).total weight = 0 := rfl

theorem keys_nodup (map : OrderedMap κ ν) : map.keys.Nodup := map.distinct

@[simp] theorem entries_empty : (empty : OrderedMap κ ν).entries = [] := rfl

@[simp] theorem keys_empty : (empty : OrderedMap κ ν).keys = [] := rfl

@[simp] theorem size_empty : (empty : OrderedMap κ ν).size = 0 := rfl

variable [DecidableEq κ]

instance [DecidableEq ν] : DecidableEq (OrderedMap κ ν) := fun left right =>
  decidable_of_iff (left.entries = right.entries)
    ⟨OrderedMap.ext, fun same => congrArg entries same⟩

@[grind =] def lookup (key : κ) : List (κ × ν) → Option ν
  | [] => none
  | (found, value) :: rest => if found = key then some value else lookup key rest

@[grind =] def replace (key : κ) (value : ν) : List (κ × ν) → List (κ × ν)
  | [] => [(key, value)]
  | (found, old) :: rest =>
    if found = key then (found, value) :: rest else (found, old) :: replace key value rest

theorem mem_keys_replace (key other : κ) (value : ν) (entries : List (κ × ν)) :
    other ∈ (replace key value entries).map Prod.fst ↔
      other = key ∨ other ∈ entries.map Prod.fst := by
  induction entries with
  | nil => simp [replace]
  | cons entry rest ih =>
    obtain ⟨found, old⟩ := entry
    simp only [replace]
    split
    · rename_i same
      subst same
      simp only [List.map_cons, List.mem_cons]
      tauto
    · simp only [List.map_cons, List.mem_cons, ih]
      tauto

theorem replace_distinct (key : κ) (value : ν) (entries : List (κ × ν))
    (distinct : (entries.map Prod.fst).Nodup) :
    ((replace key value entries).map Prod.fst).Nodup := by
  induction entries with
  | nil => simp [replace]
  | cons entry rest ih =>
    obtain ⟨found, old⟩ := entry
    have parts := List.nodup_cons.mp distinct
    simp only [replace]
    split
    · exact distinct
    · rename_i different
      simp only [List.map_cons, List.nodup_cons]
      refine ⟨?_, ih parts.2⟩
      rw [mem_keys_replace]
      rintro (same | member)
      · exact different same
      · exact parts.1 member

def get? (map : OrderedMap κ ν) (key : κ) : Option ν := lookup key map.entries

def has (map : OrderedMap κ ν) (key : κ) : Bool := (map.get? key).isSome

def set (map : OrderedMap κ ν) (key : κ) (value : ν) : OrderedMap κ ν where
  entries := replace key value map.entries
  distinct := replace_distinct key value map.entries map.distinct

def delete (map : OrderedMap κ ν) (key : κ) : OrderedMap κ ν where
  entries := map.entries.filter fun entry => entry.1 ≠ key
  distinct := by
    have sub : ((map.entries.filter fun entry => entry.1 ≠ key).map Prod.fst).Sublist
        (map.entries.map Prod.fst) := List.filter_sublist.map Prod.fst
    exact map.distinct.sublist sub

/-- Read a key, or start it at `initial`, and write back the updated value. -/
def upsert (map : OrderedMap κ ν) (key : κ) (initial : ν) (update : ν → ν) : OrderedMap κ ν :=
  map.set key (update ((map.get? key).getD initial))

def modify (map : OrderedMap κ ν) (key : κ) (update : ν → ν) : OrderedMap κ ν :=
  match map.get? key with
  | none => map
  | some value => map.set key (update value)

def filter (keep : κ → ν → Bool) (map : OrderedMap κ ν) : OrderedMap κ ν where
  entries := map.entries.filter fun entry => keep entry.1 entry.2
  distinct := by
    have sub : ((map.entries.filter fun entry => keep entry.1 entry.2).map Prod.fst).Sublist
        (map.entries.map Prod.fst) := List.filter_sublist.map Prod.fst
    exact map.distinct.sublist sub

def mapValues (update : ν → ν) (map : OrderedMap κ ν) : OrderedMap κ ν where
  entries := map.entries.map fun entry => (entry.1, update entry.2)
  distinct := by simpa [Function.comp_def] using map.distinct

omit [DecidableEq κ] in
theorem filterMap_keys_sublist {μ : Type w} (update : κ → ν → Option μ) (entries : List (κ × ν)) :
    ((entries.filterMap fun entry =>
      (update entry.1 entry.2).map fun value => (entry.1, value)).map Prod.fst).Sublist
        (entries.map Prod.fst) := by
  induction entries with
  | nil => exact List.Sublist.slnil
  | cons entry rest ih =>
    rw [List.filterMap_cons, List.map_cons]
    cases update entry.1 entry.2 with
    | none => exact ih.cons _
    | some value => exact ih.cons_cons _

def filterMapValues {μ : Type w} (update : κ → ν → Option μ) (map : OrderedMap κ ν) :
    OrderedMap κ μ where
  entries := map.entries.filterMap fun entry =>
    (update entry.1 entry.2).map fun value => (entry.1, value)
  distinct := map.distinct.sublist (filterMap_keys_sublist update map.entries)

def sortKeys (le : κ → κ → Bool) (map : OrderedMap κ ν) : OrderedMap κ ν where
  entries := map.entries.mergeSort fun left right => le left.1 right.1
  distinct := ((List.mergeSort_perm _ _).map Prod.fst).nodup_iff.mpr map.distinct

def merge (map other : OrderedMap κ ν) : OrderedMap κ ν :=
  other.entries.foldl (fun merged entry => merged.set entry.1 entry.2) map

def deleteOldest (map : OrderedMap κ ν) : OrderedMap κ ν :=
  match map.entries with
  | [] => map
  | (oldest, _) :: _ => map.delete oldest

theorem lookup_replace (key other : κ) (value : ν) (entries : List (κ × ν)) :
    lookup other (replace key value entries) =
      if other = key then some value else lookup other entries := by
  induction entries with
  | nil =>
    simp only [replace, lookup]
    simp only [eq_comm]
  | cons entry rest ih =>
    obtain ⟨found, old⟩ := entry
    simp only [replace]
    split
    · rename_i same
      subst same
      simp only [lookup]
      by_cases hit : found = other
      · simp [hit]
      · simp [hit, Ne.symm hit]
    · rename_i different
      simp only [lookup, ih]
      by_cases hit : found = other
      · subst hit
        simp [different]
      · simp [hit]

theorem lookup_eq_some_iff (key : κ) (value : ν) (entries : List (κ × ν))
    (distinct : (entries.map Prod.fst).Nodup) :
    lookup key entries = some value ↔ (key, value) ∈ entries := by
  induction entries with
  | nil => simp [lookup]
  | cons entry rest ih =>
    obtain ⟨found, old⟩ := entry
    have parts := List.nodup_cons.mp distinct
    simp only [lookup]
    split
    · rename_i same
      subst same
      simp only [Option.some.injEq, List.mem_cons, Prod.mk.injEq, true_and]
      constructor
      · exact fun equal => Or.inl equal.symm
      · rintro (equal | member)
        · exact equal.symm
        · exact absurd (List.mem_map_of_mem (f := Prod.fst) member) parts.1
    · rename_i different
      rw [ih parts.2]
      simp only [List.mem_cons, Prod.mk.injEq]
      constructor
      · exact Or.inr
      · rintro (equal | member)
        · exact absurd equal.1.symm different
        · exact member

theorem lookup_eq_none_iff (key : κ) (entries : List (κ × ν)) :
    lookup key entries = none ↔ key ∉ entries.map Prod.fst := by
  induction entries with
  | nil => simp [lookup]
  | cons entry rest ih =>
    obtain ⟨found, old⟩ := entry
    simp only [lookup]
    split
    · rename_i same
      simp [same]
    · rename_i different
      simp [ih, Ne.symm different]

@[simp] theorem get?_empty (key : κ) : (empty : OrderedMap κ ν).get? key = none := rfl

@[simp] theorem get?_set (map : OrderedMap κ ν) (key other : κ) (value : ν) :
    (map.set key value).get? other = if other = key then some value else map.get? other :=
  lookup_replace key other value map.entries

omit [DecidableEq κ] in
theorem mapValues_eq_self {map : OrderedMap κ ν} {update : ν → ν}
    (same : ∀ entry ∈ map.entries, update entry.2 = entry.2) : map.mapValues update = map := by
  refine OrderedMap.ext ?_
  show map.entries.map _ = _
  conv_rhs => rw [← List.map_id map.entries]
  refine List.map_congr_left fun entry member => ?_
  rw [same entry member]
  rfl

omit [DecidableEq κ] in
theorem mapValues_mapValues (map : OrderedMap κ ν) (first second : ν → ν) :
    (map.mapValues first).mapValues second = map.mapValues (second ∘ first) := by
  refine OrderedMap.ext ?_
  show (map.entries.map _).map _ = map.entries.map _
  rw [List.map_map]
  rfl

theorem get?_set_self (map : OrderedMap κ ν) (key : κ) (value : ν) :
    (map.set key value).get? key = some value := by
  simp

theorem get?_set_other (map : OrderedMap κ ν) {key other : κ} (value : ν) (ne : other ≠ key) :
    (map.set key value).get? other = map.get? other := by
  simp [ne]

theorem get?_eq_some_iff (map : OrderedMap κ ν) (key : κ) (value : ν) :
    map.get? key = some value ↔ (key, value) ∈ map.entries :=
  lookup_eq_some_iff key value map.entries map.distinct

theorem get?_eq_none_iff (map : OrderedMap κ ν) (key : κ) :
    map.get? key = none ↔ key ∉ map.keys :=
  lookup_eq_none_iff key map.entries

theorem has_iff (map : OrderedMap κ ν) (key : κ) : map.has key = true ↔ key ∈ map.keys := by
  rw [has, Option.isSome_iff_ne_none, ne_eq, get?_eq_none_iff, not_not]

theorem mem_values_iff (map : OrderedMap κ ν) (value : ν) :
    value ∈ map.values ↔ ∃ key, map.get? key = some value := by
  simp only [values, List.mem_map, Prod.exists, exists_eq_right, get?_eq_some_iff]

@[simp] theorem mem_keys_set (map : OrderedMap κ ν) (key other : κ) (value : ν) :
    other ∈ (map.set key value).keys ↔ other = key ∨ other ∈ map.keys :=
  mem_keys_replace key other value map.entries

@[simp] theorem get?_upsert (map : OrderedMap κ ν) (key other : κ) (initial : ν) (update : ν → ν) :
    (map.upsert key initial update).get? other =
      if other = key then some (update ((map.get? key).getD initial)) else map.get? other := by
  rw [upsert, get?_set]

@[simp] theorem get?_delete (map : OrderedMap κ ν) (key other : κ) :
    (map.delete key).get? other = if other = key then none else map.get? other := by
  by_cases same : other = key
  · subst same
    rw [if_pos rfl, get?_eq_none_iff]
    simp [keys, delete]
  · rw [if_neg same]
    apply Option.ext
    intro value
    rw [get?_eq_some_iff, get?_eq_some_iff]
    simp [delete, same]

@[simp] theorem get?_modify (map : OrderedMap κ ν) (key other : κ) (update : ν → ν) :
    (map.modify key update).get? other =
      if other = key then (map.get? key).map update else map.get? other := by
  rw [modify]
  split
  · rename_i absent
    split
    · rename_i same
      rw [same, absent, Option.map_none]
    · rfl
  · rename_i value present
    rw [get?_set, present, Option.map_some]

@[simp] theorem get?_filter (keep : κ → ν → Bool) (map : OrderedMap κ ν) (key : κ) :
    (map.filter keep).get? key = (map.get? key).filter (keep key) := by
  apply Option.ext
  intro value
  rw [get?_eq_some_iff, Option.filter_eq_some_iff, get?_eq_some_iff]
  simp [filter]

@[simp] theorem get?_mapValues (update : ν → ν) (map : OrderedMap κ ν) (key : κ) :
    (map.mapValues update).get? key = (map.get? key).map update := by
  simp only [get?, mapValues]
  induction map.entries with
  | nil => rfl
  | cons entry rest ih =>
    obtain ⟨found, old⟩ := entry
    simp only [List.map_cons, lookup]
    split
    · rfl
    · exact ih

@[simp] theorem get?_filterMapValues {μ : Type w} (update : κ → ν → Option μ)
    (map : OrderedMap κ ν) (key : κ) :
    (map.filterMapValues update).get? key = (map.get? key).bind (update key) := by
  apply Option.ext
  intro value
  rw [get?_eq_some_iff, Option.bind_eq_some_iff]
  simp [filterMapValues, get?_eq_some_iff]

@[simp] theorem get?_sortKeys (le : κ → κ → Bool) (map : OrderedMap κ ν) (key : κ) :
    (map.sortKeys le).get? key = map.get? key := by
  apply Option.ext
  intro value
  rw [get?_eq_some_iff, get?_eq_some_iff]
  exact (List.mergeSort_perm _ _).mem_iff

theorem get?_foldl {μ : Type w} {update : OrderedMap κ ν → κ × μ → OrderedMap κ ν}
    (written : κ → μ → Option ν)
    (own : ∀ map entry, (update map entry).get? entry.1 = written entry.1 entry.2)
    (others : ∀ map entry key, key ≠ entry.1 → (update map entry).get? key = map.get? key)
    (map : OrderedMap κ ν) (entries : List (κ × μ)) (distinct : (entries.map Prod.fst).Nodup)
    (key : κ) :
    (entries.foldl update map).get? key =
      (lookup key entries).elim (map.get? key) (written key) := by
  induction entries generalizing map with
  | nil => rfl
  | cons entry rest ih =>
    obtain ⟨found, value⟩ := entry
    have parts := List.nodup_cons.mp distinct
    rw [List.foldl_cons, ih (update map (found, value)) parts.2, lookup]
    by_cases same : found = key
    · subst same
      rw [(lookup_eq_none_iff found rest).mpr parts.1, if_pos rfl]
      exact own map (found, value)
    · rw [if_neg same, others map (found, value) key (Ne.symm same)]

theorem get?_foldl_entries {μ : Type w} {update : OrderedMap κ ν → κ × μ → OrderedMap κ ν}
    (written : κ → μ → Option ν)
    (own : ∀ map entry, (update map entry).get? entry.1 = written entry.1 entry.2)
    (others : ∀ map entry key, key ≠ entry.1 → (update map entry).get? key = map.get? key)
    (map : OrderedMap κ ν) (items : OrderedMap κ μ) (key : κ) :
    (items.entries.foldl update map).get? key =
      (items.get? key).elim (map.get? key) (written key) :=
  get?_foldl written own others map items.entries items.distinct key

theorem get?_foldl_set (map : OrderedMap κ ν) (entries : List (κ × ν))
    (distinct : (entries.map Prod.fst).Nodup) (key : κ) :
    (entries.foldl (fun merged entry => merged.set entry.1 entry.2) map).get? key =
      (lookup key entries).or (map.get? key) := by
  rw [get?_foldl (fun _ value => some value) (fun map entry => get?_set_self ..)
    (fun map entry key ne => get?_set_other _ _ ne) map entries distinct key]
  cases lookup key entries with
  | none => rfl
  | some value => rfl

theorem get?_foldl_set_last {α : Type w} (keyOf : α → κ) (valueOf : α → ν)
    (map : OrderedMap κ ν) (items : List α) (key : κ) :
    (items.foldl (fun built item => built.set (keyOf item) (valueOf item)) map).get? key =
      ((items.filter fun item => keyOf item = key).getLast?.map valueOf).or (map.get? key) := by
  induction items generalizing map with
  | nil => rfl
  | cons item items ih =>
    rw [List.foldl_cons, ih, get?_set]
    by_cases same : keyOf item = key
    · simp [same, List.getLast?_cons]
    · simp [same, Ne.symm same]

theorem get?_foldl_delete (map : OrderedMap κ ν) (keys : List κ) (key : κ) :
    (keys.foldl delete map).get? key = if key ∈ keys then none else map.get? key := by
  induction keys generalizing map with
  | nil => rfl
  | cons first rest ih =>
    rw [List.foldl_cons, ih, get?_delete]
    by_cases isFirst : key = first <;> by_cases later : key ∈ rest <;> simp [isFirst, later]

theorem get?_foldl_modify {update : ν → ν} (twice : ∀ value, update (update value) = update value)
    (map : OrderedMap κ ν) (keys : List κ) (key : κ) :
    (keys.foldl (fun map key => map.modify key update) map).get? key =
      if key ∈ keys then (map.get? key).map update else map.get? key := by
  induction keys generalizing map with
  | nil => rfl
  | cons first rest ih =>
    rw [List.foldl_cons, ih, get?_modify]
    by_cases isFirst : key = first
    · subst isFirst
      rw [if_pos rfl, if_pos List.mem_cons_self, Option.map_map]
      have once : update ∘ update = update := funext twice
      rw [once, ite_self]
    · rw [if_neg isFirst]
      have same : key ∈ first :: rest ↔ key ∈ rest := by simp [isFirst]
      simp only [same]

theorem get?_foldl_modify_entries {μ : Type w} {update : μ → ν → ν} (map : OrderedMap κ ν)
    {entries : List (κ × μ)} (distinct : (entries.map Prod.fst).Nodup) (key : κ) :
    (entries.foldl (fun map entry => map.modify entry.1 (update entry.2)) map).get? key =
      match lookup key entries with
      | some value => (map.get? key).map (update value)
      | none => map.get? key := by
  induction entries generalizing map with
  | nil => rfl
  | cons entry rest ih =>
    rw [List.map_cons, List.nodup_cons] at distinct
    rw [List.foldl_cons, ih _ distinct.2, lookup, get?_modify]
    by_cases same : key = entry.1
    · have later : lookup key rest = none := by
        refine (lookup_eq_none_iff key rest).mpr fun member => distinct.1 ?_
        rwa [← same]
      rw [later, if_pos same.symm, if_pos same, same]
    · rw [if_neg (Ne.symm same), if_neg same]

@[simp] theorem get?_merge (map other : OrderedMap κ ν) (key : κ) :
    (map.merge other).get? key = (other.get? key).or (map.get? key) :=
  get?_foldl_set map other.entries other.distinct key

theorem get?_deleteOldest {map : OrderedMap κ ν} {key : κ} {value : ν}
    (found : map.deleteOldest.get? key = some value) : map.get? key = some value := by
  rw [deleteOldest] at found
  split at found
  · exact found
  · rw [get?_delete] at found
    split at found
    · exact absurd found (by simp)
    · exact found

theorem get?_iterate_deleteOldest {map : OrderedMap κ ν} {key : κ} {value : ν} (count : Nat)
    (found : (deleteOldest^[count] map).get? key = some value) : map.get? key = some value := by
  induction count generalizing map with
  | zero => exact found
  | succ count ih => exact get?_deleteOldest (ih found)

@[simp] theorem mem_keys_delete (map : OrderedMap κ ν) (key other : κ) :
    other ∈ (map.delete key).keys ↔ other ≠ key ∧ other ∈ map.keys := by
  rw [← not_iff_not, ← get?_eq_none_iff, get?_delete]
  by_cases same : other = key
  · simp [same]
  · simp [same, get?_eq_none_iff]

theorem size_set_of_absent (map : OrderedMap κ ν) {key : κ} (value : ν)
    (absent : map.get? key = none) : (map.set key value).size = map.size + 1 := by
  have missing := (get?_eq_none_iff map key).mp absent
  simp only [size, set, keys] at missing ⊢
  generalize map.entries = entries at missing
  induction entries with
  | nil => rfl
  | cons entry rest ih =>
    obtain ⟨found, old⟩ := entry
    simp only [List.map_cons, List.mem_cons, not_or] at missing
    simp [replace, Ne.symm missing.1, ih missing.2]

theorem filter_ne_of_absent {key : κ} {entries : List (κ × ν)}
    (absent : key ∉ entries.map Prod.fst) :
    entries.filter (fun entry => entry.1 ≠ key) = entries := by
  apply List.filter_eq_self.mpr
  intro entry member
  simp only [ne_eq, decide_eq_true_eq]
  intro equal
  exact absent (List.mem_map.mpr ⟨entry, member, equal⟩)

theorem size_delete_of_present (map : OrderedMap κ ν) {key : κ} {value : ν}
    (present : map.get? key = some value) : (map.delete key).size + 1 = map.size := by
  have member := (get?_eq_some_iff map key value).mp present
  have distinct := map.distinct
  simp only [size, delete]
  generalize map.entries = entries at member distinct
  induction entries with
  | nil => simp at member
  | cons entry rest ih =>
    obtain ⟨found, old⟩ := entry
    have parts := List.nodup_cons.mp distinct
    by_cases same : found = key
    · subst same
      have untouched := filter_ne_of_absent parts.1
      simp only [List.filter_cons, ne_eq, not_true_eq_false, decide_false, Bool.false_eq_true,
        if_false, List.length_cons]
      rw [untouched]
    · have tail : (key, value) ∈ rest := by
        rcases List.mem_cons.mp member with equal | later
        · exact absurd (congrArg Prod.fst equal).symm same
        · exact later
      have shorter := ih tail parts.2
      simp only [ne_eq] at shorter
      simp only [List.filter_cons, ne_eq, same, not_false_eq_true, decide_true, if_true,
        List.length_cons]
      omega

theorem keys_set_of_present (map : OrderedMap κ ν) {key : κ} {old : ν} (value : ν)
    (present : map.get? key = some old) : (map.set key value).keys = map.keys := by
  simp only [get?, keys, set] at present ⊢
  generalize map.entries = entries at present
  induction entries with
  | nil => cases present
  | cons entry rest ih =>
    obtain ⟨found, other⟩ := entry
    simp only [lookup] at present
    rw [replace]
    split
    · rfl
    · rename_i different
      rw [if_neg different] at present
      rw [List.map_cons, List.map_cons, ih present]

theorem size_set_of_present (map : OrderedMap κ ν) {key : κ} {old : ν} (value : ν)
    (present : map.get? key = some old) : (map.set key value).size = map.size := by
  have same := congrArg List.length (keys_set_of_present map value present)
  simpa only [keys, size, List.length_map] using same

def transform {μ : Type w} (update : ν → μ) (map : OrderedMap κ ν) : OrderedMap κ μ where
  entries := map.entries.map fun entry => (entry.1, update entry.2)
  distinct := by simpa [Function.comp_def] using map.distinct

@[simp] theorem get?_transform {μ : Type w} (update : ν → μ) (map : OrderedMap κ ν) (key : κ) :
    (map.transform update).get? key = (map.get? key).map update := by
  simp only [get?, transform]
  induction map.entries with
  | nil => rfl
  | cons entry rest ih =>
    obtain ⟨found, old⟩ := entry
    simp only [List.map_cons, lookup]
    split
    · rfl
    · exact ih

theorem transform_set {μ : Type w} (update : ν → μ) (map : OrderedMap κ ν) (key : κ)
    (value : ν) : (map.set key value).transform update = (map.transform update).set key
      (update value) := by
  refine OrderedMap.ext ?_
  simp only [transform, set]
  induction map.entries with
  | nil => rfl
  | cons entry rest ih =>
    obtain ⟨found, old⟩ := entry
    simp only [List.map_cons, replace]
    split
    · rfl
    · rw [List.map_cons, ih]

theorem transform_delete {μ : Type w} (update : ν → μ) (map : OrderedMap κ ν) (key : κ) :
    (map.delete key).transform update = (map.transform update).delete key := by
  refine OrderedMap.ext ?_
  simp only [transform, delete, List.filter_map]
  rfl

theorem transform_modify {μ : Type w} {update : ν → μ} {change : ν → ν}
    (hidden : ∀ value, update (change value) = update value) (map : OrderedMap κ ν) (key : κ) :
    (map.modify key change).transform update = map.transform update := by
  rw [modify]
  split
  · rfl
  · rename_i value present
    refine OrderedMap.ext ?_
    simp only [get?, transform, set] at present ⊢
    generalize map.entries = entries at present
    induction entries with
    | nil => cases present
    | cons entry rest ih =>
      obtain ⟨found, old⟩ := entry
      simp only [lookup] at present
      rw [replace]
      split
      · rename_i same
        rw [if_pos same, Option.some.injEq] at present
        rw [List.map_cons, List.map_cons, hidden value, present]
      · rename_i different
        rw [if_neg different] at present
        rw [List.map_cons, List.map_cons, ih present]

theorem total_set (weight : ν → Nat) (map : OrderedMap κ ν) (key : κ) (value : ν) :
    (map.set key value).total weight + (map.get? key).elim 0 weight =
      map.total weight + weight value := by
  simp only [total, values, set, get?, List.map_map]
  generalize map.entries = entries
  induction entries with
  | nil => simp [replace, lookup]
  | cons entry rest ih =>
    obtain ⟨found, old⟩ := entry
    simp only [replace, lookup]
    split
    · simp only [List.map_cons, List.sum_cons, Function.comp_apply, Option.elim_some]
      omega
    · simp only [List.map_cons, List.sum_cons, Function.comp_apply]
      omega

theorem total_delete (weight : ν → Nat) (map : OrderedMap κ ν) (key : κ) :
    (map.delete key).total weight + (map.get? key).elim 0 weight = map.total weight := by
  have distinct := map.distinct
  simp only [total, values, delete, get?, List.map_map]
  generalize map.entries = entries at distinct
  induction entries with
  | nil => rfl
  | cons entry rest ih =>
    obtain ⟨found, old⟩ := entry
    have parts := List.nodup_cons.mp distinct
    simp only [lookup, List.filter_cons]
    by_cases same : found = key
    · subst same
      have untouched := filter_ne_of_absent parts.1
      simp only [ne_eq, not_true_eq_false, decide_false, Bool.false_eq_true, if_false, if_true,
        Option.elim_some, List.map_cons, List.sum_cons, Function.comp_apply]
      rw [untouched]
      omega
    · have tail := ih parts.2
      simp only [ne_eq] at tail
      simp only [ne_eq, same, not_false_eq_true, decide_true, if_true, if_false, List.map_cons,
        List.sum_cons, Function.comp_apply]
      omega

end OrderedMap

structure OrderedSet (α : Type u) where
  elements : List α
  distinct : elements.Nodup

namespace OrderedSet

variable {α : Type u}

@[ext] theorem ext {left right : OrderedSet α} (same : left.elements = right.elements) :
    left = right := by
  cases left
  cases right
  simp only at same
  subst same
  rfl

def empty : OrderedSet α := { elements := [], distinct := List.nodup_nil }

instance : Inhabited (OrderedSet α) := ⟨empty⟩

@[simp] theorem elements_empty : (empty : OrderedSet α).elements = [] := rfl

def size (set : OrderedSet α) : Nat := set.elements.length

instance : Membership α (OrderedSet α) := ⟨fun set element => element ∈ set.elements⟩

theorem mem_def (set : OrderedSet α) (element : α) : element ∈ set ↔ element ∈ set.elements :=
  Iff.rfl

@[simp] theorem not_mem_empty (element : α) : element ∉ (empty : OrderedSet α) := by
  simp [mem_def]

variable [DecidableEq α]

instance : DecidableEq (OrderedSet α) := fun left right =>
  decidable_of_iff (left.elements = right.elements)
    ⟨OrderedSet.ext, fun same => congrArg elements same⟩

instance (element : α) (set : OrderedSet α) : Decidable (element ∈ set) :=
  inferInstanceAs (Decidable (element ∈ set.elements))

def add (set : OrderedSet α) (element : α) : OrderedSet α where
  elements := if element ∈ set.elements then set.elements else set.elements ++ [element]
  distinct := by
    split
    · exact set.distinct
    · rename_i absent
      rw [List.nodup_append]
      refine ⟨set.distinct, List.nodup_singleton element, ?_⟩
      intro member belongs other same equal
      simp only [List.mem_singleton] at same
      subst same
      exact absent (equal ▸ belongs)

def delete (set : OrderedSet α) (element : α) : OrderedSet α where
  elements := set.elements.filter (· ≠ element)
  distinct := set.distinct.sublist List.filter_sublist

def addAll (set : OrderedSet α) (elements : List α) : OrderedSet α := elements.foldl add set

def ofList (elements : List α) : OrderedSet α := empty.addAll elements

@[simp] theorem mem_add (set : OrderedSet α) (element other : α) :
    other ∈ set.add element ↔ other = element ∨ other ∈ set := by
  simp only [mem_def, add]
  split
  · rename_i present
    constructor
    · exact Or.inr
    · rintro (same | member)
      · exact same ▸ present
      · exact member
  · simp only [List.mem_append, List.mem_singleton]
    exact or_comm

@[simp] theorem mem_delete (set : OrderedSet α) (element other : α) :
    other ∈ set.delete element ↔ other ≠ element ∧ other ∈ set := by
  simp only [mem_def, delete, List.mem_filter, ne_eq, decide_eq_true_eq]
  exact and_comm

theorem add_of_mem {set : OrderedSet α} {element : α} (member : element ∈ set) :
    set.add element = set := by
  exact OrderedSet.ext (if_pos member)

theorem delete_of_not_mem {set : OrderedSet α} {element : α} (absent : element ∉ set) :
    set.delete element = set := by
  refine OrderedSet.ext (List.filter_eq_self.mpr fun other member => ?_)
  refine decide_eq_true fun same => absent ?_
  rw [← same]
  exact member

@[simp] theorem mem_addAll (set : OrderedSet α) (elements : List α) (other : α) :
    other ∈ set.addAll elements ↔ other ∈ elements ∨ other ∈ set := by
  induction elements generalizing set with
  | nil => simp [addAll]
  | cons element rest ih =>
    have step : set.addAll (element :: rest) = (set.add element).addAll rest := rfl
    rw [step, ih, mem_add, List.mem_cons]
    tauto

@[simp] theorem mem_ofList (elements : List α) (other : α) :
    other ∈ ofList elements ↔ other ∈ elements := by
  simp [ofList]

end OrderedSet
