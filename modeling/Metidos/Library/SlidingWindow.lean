import Mathlib.Algebra.Order.Group.Defs
import Mathlib.Algebra.Order.Sub.Defs
import Mathlib.Algebra.Order.Group.Unbundled.Basic
import Mathlib.Data.List.Basic

/-!
Admissions counted over a sliding window: a time is admitted while fewer than a limit of the
earlier admissions lie within the window before it.  Times are those of an ordered group.
-/

namespace SlidingWindow

variable {τ : Type} [AddCommGroup τ] [LinearOrder τ] [IsOrderedAddMonoid τ]

def recent (window now : τ) (times : List τ) : List τ :=
  times.filter fun time => now - window < time

def between (first last : τ) (times : List τ) : List τ :=
  times.filter fun time => first ≤ time ∧ time < last

def within (first last : τ) (times : List τ) : List τ :=
  times.filter fun time => first < time ∧ time ≤ last

/-- Chronological admissions, each made with room left in the window before it. -/
inductive Admitted (window : τ) (limit : Nat) : List τ → Prop
  | nil : Admitted window limit []
  | next {times : List τ} {now : τ} (earlier : Admitted window limit times)
      (latest : ∀ time ∈ times, time ≤ now) (room : (recent window now times).length < limit) :
      Admitted window limit (times ++ [now])

variable {window now later : τ} {limit : Nat} {times : List τ}

omit [IsOrderedAddMonoid τ] in
theorem mem_recent {time : τ} : time ∈ recent window now times ↔
    time ∈ times ∧ now - window < time := by
  simp [recent]

omit [IsOrderedAddMonoid τ] in
theorem recent_append (times others : List τ) : recent window now (times ++ others) =
    recent window now times ++ recent window now others :=
  List.filter_append times others

omit [IsOrderedAddMonoid τ] in
theorem recent_sublist (times : List τ) : (recent window now times).Sublist times :=
  List.filter_sublist

theorem recent_self (positive : 0 < window) : recent window now [now] = [now] := by
  simp [recent, positive]

theorem recent_recent (passed : now ≤ later) :
    recent window later (recent window now times) = recent window later times := by
  rw [recent, recent, recent, List.filter_filter]
  refine List.filter_congr fun time _ => ?_
  rw [Bool.eq_iff_iff, Bool.and_eq_true, decide_eq_true_iff, decide_eq_true_iff]
  constructor
  · exact fun both => both.1
  · exact fun inWindow => ⟨inWindow, (sub_le_sub_right passed window).trans_lt inWindow⟩

theorem recent_recent_shorter {longer : τ} (shorter : window ≤ longer) :
    recent window now (recent longer now times) = recent window now times := by
  rw [recent, recent, recent, List.filter_filter]
  refine List.filter_congr fun time _ => ?_
  rw [Bool.eq_iff_iff, Bool.and_eq_true, decide_eq_true_iff, decide_eq_true_iff]
  constructor
  · exact fun both => both.1
  · exact fun inWindow => ⟨inWindow, (sub_le_sub_left shorter now).trans_lt inWindow⟩

omit [IsOrderedAddMonoid τ] in
theorem dropWhile_expired (chronological : times.Pairwise (· ≤ ·)) :
    times.dropWhile (fun time => time ≤ now - window) = recent window now times := by
  induction times with
  | nil => rfl
  | cons time times ih =>
    rw [List.pairwise_cons] at chronological
    rw [List.dropWhile_cons, recent, List.filter_cons]
    by_cases expired : time ≤ now - window
    · rw [if_pos (by simpa using expired), if_neg (by simpa using expired)]
      exact ih chronological.2
    · have live : now - window < time := lt_of_not_ge expired
      rw [if_neg (by simpa using expired), if_pos (by simpa using live)]
      congr 1
      refine (List.filter_eq_self.mpr fun other member => ?_).symm
      exact decide_eq_true (live.trans_le (chronological.1 other member))

theorem Admitted.recent_le (admitted : Admitted window limit times)
    (notLater : ∀ time ∈ times, time ≤ now) : (recent window now times).length ≤ limit := by
  induction admitted with
  | nil => exact Nat.zero_le _
  | next earlier latest room ih =>
    rename_i times last
    rw [recent_append, List.length_append]
    have lastNow : last ≤ now := notLater last (by simp)
    have fewer : (recent window now times).length ≤ (recent window last times).length := by
      rw [← recent_recent lastNow]
      exact (List.filter_sublist).length_le
    have one : (recent window now [last]).length ≤ 1 := (List.filter_sublist).length_le
    omega

theorem recent_length_lt {oldest : τ} (passed : now ≤ later)
    (isOldest : (recent window now times).head? = some oldest) (expired : oldest + window ≤ later) :
    (recent window later times).length < (recent window now times).length := by
  rw [← recent_recent passed]
  obtain ⟨rest, whole⟩ := List.head?_eq_some_iff.mp isOldest
  rw [whole, recent, List.filter_cons_of_neg, List.length_cons]
  · exact Nat.lt_succ_of_le (List.filter_sublist).length_le
  · simpa using le_sub_iff_add_le.mpr expired

theorem Admitted.within_le (admitted : Admitted window limit times) (first : τ) :
    (within first (first + window) times).length ≤ limit := by
  induction admitted with
  | nil => exact Nat.zero_le _
  | next earlier latest room ih =>
    rename_i times last
    rw [within, List.filter_append, List.length_append]
    by_cases inside : first < last ∧ last ≤ first + window
    · have fewer : (within first (first + window) times).length ≤
          (recent window last times).length := by
        refine (List.monotone_filter_right times fun time inStretch => ?_).length_le
        rw [decide_eq_true_iff] at inStretch ⊢
        exact (sub_le_iff_le_add.mpr inside.2).trans_lt inStretch.1
      have one : ([last].filter fun time => first < time ∧ time ≤ first + window).length ≤ 1 :=
        (List.filter_sublist).length_le
      simp only [within] at fewer
      omega
    · have none : ([last].filter fun time => first < time ∧ time ≤ first + window) = [] := by
        simpa using inside
      rw [none]
      simpa [within] using ih

theorem Admitted.between_le (admitted : Admitted window limit times) (first : τ) :
    (between first (first + window) times).length ≤ limit := by
  induction admitted with
  | nil => exact Nat.zero_le _
  | next earlier latest room ih =>
    rename_i times last
    rw [between, List.filter_append, List.length_append]
    by_cases inside : first ≤ last ∧ last < first + window
    · have fewer : (between first (first + window) times).length ≤
          (recent window last times).length := by
        refine (List.monotone_filter_right times fun time inStretch => ?_).length_le
        rw [decide_eq_true_iff] at inStretch ⊢
        exact (sub_lt_iff_lt_add.mpr inside.2).trans_le inStretch.1
      have one : ([last].filter fun time => first ≤ time ∧ time < first + window).length ≤ 1 :=
        (List.filter_sublist).length_le
      simp only [between] at fewer
      omega
    · have none : ([last].filter fun time => first ≤ time ∧ time < first + window) = [] := by
        simpa using inside
      rw [none]
      simpa [between] using ih

end SlidingWindow
