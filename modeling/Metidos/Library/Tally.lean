import Mathlib.Data.List.Basic

/-!
Rows that count the entries of a log by key: a row shows how many entries its key has and the
time of the latest, and goes when that time is old.
-/

namespace Tally

variable {κ τ ρ : Type} [DecidableEq κ]

def times (key : κ) (log : List (κ × τ)) : List τ :=
  (log.filter fun entry => entry.1 = key).map Prod.snd

def summary : List τ → List (Nat × τ)
  | [] => []
  | latest :: earlier => [(earlier.length + 1, latest)]

def forget (old : τ → Bool) (log : List (κ × τ)) : List (κ × τ) :=
  log.filter fun entry => !(times entry.1 log).head?.any old

def Tallies (keyOf : ρ → κ) (shown : ρ → Nat × τ) (rows : List ρ) (log : List (κ × τ)) : Prop :=
  ∀ key, (rows.filter fun row => keyOf row = key).map shown = summary (times key log)

theorem times_cons_same (key : κ) (time : τ) (log : List (κ × τ)) :
    times key ((key, time) :: log) = time :: times key log := by
  simp [times]

theorem times_cons_other {key other : κ} (different : other ≠ key) (time : τ)
    (log : List (κ × τ)) : times key ((other, time) :: log) = times key log := by
  simp [times, different]

theorem times_forget (old : τ → Bool) (key : κ) (log : List (κ × τ)) :
    times key (forget old log) =
      if (times key log).head?.any old then [] else times key log := by
  rw [times, forget, List.filter_filter]
  have ofKey : ∀ entry ∈ log,
      (decide (entry.1 = key) && !(times entry.1 log).head?.any old) =
        (decide (entry.1 = key) && !(times key log).head?.any old) := by
    intro entry _
    by_cases same : entry.1 = key
    · rw [same]
    · simp [same]
  rw [List.filter_congr ofKey]
  cases expired : (times key log).head?.any old with
  | true => simp
  | false => simp [times]

variable {keyOf : ρ → κ} {shown : ρ → Nat × τ} {rows : List ρ} {log : List (κ × τ)}

theorem tallies_nil (keyOf : ρ → κ) (shown : ρ → Nat × τ) :
    Tallies keyOf shown [] ([] : List (κ × τ)) := fun _ => rfl

theorem Tallies.none_of_no_row (tallies : Tallies keyOf shown rows log) {key : κ}
    (absent : ∀ row ∈ rows, keyOf row ≠ key) : times key log = [] := by
  have empty : (rows.filter fun row => keyOf row = key) = [] := by
    simpa [List.filter_eq_nil_iff] using absent
  have sums := tallies key
  rw [empty, List.map_nil] at sums
  cases entries : times key log with
  | nil => rfl
  | cons latest earlier =>
    rw [entries] at sums
    cases sums

theorem Tallies.count {key : κ} (tallies : Tallies keyOf shown rows log)
    (logged : times key log ≠ []) :
    ∃ row, (rows.filter fun row => keyOf row = key) = [row] ∧
      (shown row).1 = (times key log).length := by
  have sums := tallies key
  cases entries : times key log with
  | nil => exact absurd entries logged
  | cons latest earlier =>
    rw [entries, summary] at sums
    obtain ⟨row, isOnly, shows'⟩ := List.map_eq_singleton_iff.mp sums
    exact ⟨row, isOnly, by rw [shows', List.length_cons]⟩

theorem Tallies.first (tallies : Tallies keyOf shown rows log) {row : ρ} {time : τ}
    (absent : ∀ present ∈ rows, keyOf present ≠ keyOf row) (fresh : shown row = (1, time)) :
    Tallies keyOf shown (rows ++ [row]) ((keyOf row, time) :: log) := by
  intro key
  rw [List.filter_append, List.map_append, tallies key]
  by_cases same : keyOf row = key
  · subst same
    rw [times_cons_same, tallies.none_of_no_row absent]
    simp [summary, fresh]
  · rw [times_cons_other same]
    simp [same]

theorem Tallies.again (tallies : Tallies keyOf shown rows log) {key : κ} {time : τ}
    (bump : ρ → ρ) (sameKey : ∀ row, keyOf (bump row) = keyOf row)
    (bumped : ∀ row, shown (bump row) = ((shown row).1 + 1, time))
    (present : ∃ row ∈ rows, keyOf row = key) :
    Tallies keyOf shown (rows.map fun row => if keyOf row = key then bump row else row)
      ((key, time) :: log) := by
  intro other
  have keys : ∀ row, keyOf (if keyOf row = key then bump row else row) = keyOf row := by
    intro row
    split
    · exact sameKey row
    · rfl
  have before := tallies other
  rw [List.filter_map, List.map_map]
  simp only [Function.comp_def, keys]
  by_cases same : key = other
  · subst same
    rw [times_cons_same]
    obtain ⟨row, isRow, isKey⟩ := present
    have matching : row ∈ rows.filter fun row => keyOf row = key := by simp [isRow, isKey]
    cases entries : times key log with
    | nil =>
      rw [entries, summary, List.map_eq_nil_iff] at before
      exact absurd matching (before ▸ List.not_mem_nil)
    | cons latest earlier =>
      rw [entries, summary] at before
      obtain ⟨only, isOnly, shows'⟩ := List.map_eq_singleton_iff.mp before
      have onlyKey : keyOf only = key := by
        have member : only ∈ rows.filter fun row => keyOf row = key := by simp [isOnly]
        simpa using (List.mem_filter.mp member).2
      rw [isOnly]
      simp [onlyKey, bumped, shows', summary]
  · rw [times_cons_other same, ← before]
    refine List.map_congr_left ?_
    intro row member
    have isOther : keyOf row = other := by simpa using (List.mem_filter.mp member).2
    rw [if_neg (by rw [isOther]; exact fun equal => same equal.symm)]

theorem Tallies.forget (tallies : Tallies keyOf shown rows log) (old : τ → Bool) :
    Tallies keyOf shown (rows.filter fun row => !old (shown row).2) (forget old log) := by
  intro key
  have before := tallies key
  rw [times_forget, List.filter_filter]
  have swapped : (rows.filter fun row => decide (keyOf row = key) && !old (shown row).2) =
      (rows.filter fun row => keyOf row = key).filter fun row => !old (shown row).2 := by
    rw [List.filter_filter]
    exact List.filter_congr fun row _ => Bool.and_comm _ _
  rw [swapped]
  cases entries : times key log with
  | nil =>
    rw [entries, summary, List.map_eq_nil_iff] at before
    rw [before]
    rfl
  | cons latest earlier =>
    rw [entries, summary] at before
    obtain ⟨only, isOnly, shows'⟩ := List.map_eq_singleton_iff.mp before
    rw [isOnly]
    cases expired : old latest with
    | true => simp [shows', expired, summary]
    | false => simp [shows', expired, summary]

end Tally
