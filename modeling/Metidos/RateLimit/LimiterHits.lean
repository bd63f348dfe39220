import Mathlib.Data.List.Dedup
import Mathlib.Data.List.Perm.Subperm
import Mathlib.Data.Rat.Floor

/-!
What the in-memory rate limiters of `src/bun` share: hits of string keys at times in
milliseconds, the rounding of their options and of the retry time.
-/

namespace Metidos.RateLimit

abbrev Text := List Char

structure Hit where
  key : Text
  nowMs : Int
  deriving DecidableEq

inductive RateLimitResult
  | allowed
  | denied (retryAfterSeconds : Int)
  deriving DecidableEq

def atLeastOne (value : Rat) : Nat := (max 1 ⌊value⌋).toNat

theorem atLeastOne_pos (value : Rat) : 0 < atLeastOne value := by
  have bound : 1 ≤ max 1 ⌊value⌋ := le_max_left 1 _
  simp only [atLeastOne]
  omega

def ceilSeconds (milliseconds : Int) : Int := -(-milliseconds / 1000)

theorem le_ceilSeconds (milliseconds : Int) :
    milliseconds ≤ 1000 * ceilSeconds milliseconds := by
  simp only [ceilSeconds]
  omega

def Chronological (hits : List Hit) : Prop :=
  hits.Pairwise fun earlier later => earlier.nowMs ≤ later.nowMs

def keysOf (hits : List Hit) : List Text := (hits.map Hit.key).dedup

theorem mem_keysOf {hits : List Hit} {key : Text} :
    key ∈ keysOf hits ↔ ∃ hit ∈ hits, hit.key = key := by
  simp [keysOf]

theorem keysOf_length_le {hits others : List Hit} (among : hits ⊆ others) :
    (keysOf hits).length ≤ (keysOf others).length := by
  refine (List.subperm_of_subset (List.nodup_dedup _) fun key member => ?_).length_le
  obtain ⟨hit, isHit, isKey⟩ := mem_keysOf.mp member
  exact mem_keysOf.mpr ⟨hit, among isHit, isKey⟩

theorem Chronological.shorter {hits : List Hit} {hit : Hit}
    (chronological : Chronological (hits ++ [hit])) : Chronological hits :=
  (List.pairwise_append.mp chronological).1

theorem Chronological.le_last {hits : List Hit} {hit earlier : Hit}
    (chronological : Chronological (hits ++ [hit])) (member : earlier ∈ hits) :
    earlier.nowMs ≤ hit.nowMs :=
  (List.pairwise_append.mp chronological).2.2 earlier member hit (List.mem_singleton_self hit)

theorem Chronological.le_now {hits : List Hit} {hit earlier : Hit}
    (chronological : Chronological (hits ++ [hit])) (member : earlier ∈ hits ++ [hit]) :
    earlier.nowMs ≤ hit.nowMs := by
  rcases List.mem_append.mp member with before | isLast
  · exact chronological.le_last before
  · exact le_of_eq (congrArg Hit.nowMs (List.mem_singleton.mp isLast))

def allowedTimes (answers : List (Hit × RateLimitResult)) : List Int :=
  (answers.filter fun answer => answer.2 = .allowed).map fun answer => answer.1.nowMs

theorem allowedTimes_append (answers others : List (Hit × RateLimitResult)) :
    allowedTimes (answers ++ others) = allowedTimes answers ++ allowedTimes others := by
  simp [allowedTimes]

end Metidos.RateLimit
