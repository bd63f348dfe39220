import Mathlib.Data.List.Perm.Subperm
import Metidos.Library.OrderedMap

/-!
Insertion-ordered maps of bounded size: writing moves a key to the end, and the oldest keys go
while there are too many.
-/

universe u v

namespace OrderedMap

variable {κ : Type u} {ν : Type v} [DecidableEq κ]

def touch (map : OrderedMap κ ν) (key : κ) (value : ν) : OrderedMap κ ν :=
  (map.delete key).set key value

def trimOldest (limit : Nat) (map : OrderedMap κ ν) : OrderedMap κ ν :=
  deleteOldest^[map.size - limit] map

@[simp] theorem get?_touch (map : OrderedMap κ ν) (key other : κ) (value : ν) :
    (map.touch key value).get? other = if other = key then some value else map.get? other := by
  rw [touch, get?_set, get?_delete]
  by_cases same : other = key
  · rw [if_pos same, if_pos same]
  · rw [if_neg same, if_neg same, if_neg same]

theorem size_deleteOldest (map : OrderedMap κ ν) : map.deleteOldest.size = map.size - 1 := by
  rw [deleteOldest]
  split
  · rename_i empty
    rw [size, empty, List.length_nil]
  · rename_i oldest value rest whole
    have present : map.get? oldest = some value := by
      rw [get?_eq_some_iff, whole]
      exact List.mem_cons_self
    have shorter := size_delete_of_present map present
    omega

theorem size_iterate_deleteOldest (map : OrderedMap κ ν) (count : Nat) :
    (deleteOldest^[count] map).size = map.size - count := by
  induction count generalizing map with
  | zero => rfl
  | succ count ih =>
    rw [Function.iterate_succ_apply, ih, size_deleteOldest]
    omega

theorem size_trimOldest_le (limit : Nat) (map : OrderedMap κ ν) :
    (map.trimOldest limit).size ≤ limit := by
  rw [trimOldest, size_iterate_deleteOldest]
  omega

theorem trimOldest_of_le {limit : Nat} {map : OrderedMap κ ν} (fits : map.size ≤ limit) :
    map.trimOldest limit = map := by
  rw [trimOldest, Nat.sub_eq_zero_of_le fits]
  rfl

omit [DecidableEq κ] in
theorem size_le_of_keys_subset {map : OrderedMap κ ν} {keys : List κ}
    (among : ∀ key ∈ map.keys, key ∈ keys) : map.size ≤ keys.length := by
  have counted := (List.subperm_of_subset map.keys_nodup among).length_le
  rwa [OrderedMap.keys, List.length_map] at counted

end OrderedMap
