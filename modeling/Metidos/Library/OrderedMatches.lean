import Mathlib.Data.List.Basic

/-!
Backtracking patterns as the ordered list of their matches: each match is what was taken and what
is left, and the one that the matcher tries first stands first.
-/

namespace OrderedMatches

variable {α β : Type} {test : α → Bool}

abbrev Pattern (α : Type) := List α → List (List α × List α)

def oneOrMore (test : α → Bool) : Pattern α
  | [] => []
  | first :: rest =>
    if test first then
      (oneOrMore test rest).map (fun found => (first :: found.1, found.2)) ++ [([first], rest)]
    else []

def literal [DecidableEq α] (canonical : α → α) (word : List α) : Pattern α := fun text =>
  if (text.take word.length).map canonical = word.map canonical then
    [(text.take word.length, text.drop word.length)]
  else []

def followedBy (left right : Pattern α) : Pattern α := fun text =>
  (left text).flatMap fun found => (right found.2).map fun next => (found.1 ++ next.1, next.2)

def oneOf (patterns : List (Pattern α)) : Pattern α := fun text =>
  patterns.flatMap fun pattern => pattern text

def optionally (pattern : Pattern α) : Pattern α := fun text => pattern text ++ [([], text)]

def lazily (pattern : Pattern α) : Nat → Pattern α
  | 0, text => [([], text)]
  | fuel + 1, text =>
    ([], text) :: (pattern text).flatMap fun found =>
      (lazily pattern fuel found.2).map fun more => (found.1 ++ more.1, more.2)

theorem head?_flatMap {found : List α} {next : α → List β} {first : α} {result : β}
    (isFirst : found.head? = some first) (goesOn : (next first).head? = some result) :
    (found.flatMap next).head? = some result := by
  cases found with
  | nil => simp at isFirst
  | cons other found =>
    obtain rfl : other = first := by simpa using isFirst
    rw [List.flatMap_cons, List.head?_append, goesOn, Option.some_or]

theorem oneOrMore_stop {text : List α} (stops : ∀ first ∈ text.head?, test first = false) :
    oneOrMore test text = [] := by
  cases text with
  | nil => rfl
  | cons first rest => rw [oneOrMore, stops first rfl, if_neg Bool.false_ne_true]

theorem oneOrMore_append {run rest : List α} (some : run ≠ [])
    (passes : ∀ element ∈ run, test element = true)
    (stops : ∀ first ∈ rest.head?, test first = false) :
    ∃ shorter, oneOrMore test (run ++ rest) = (run, rest) :: shorter ∧
      ∀ found ∈ shorter, ∃ first tail, found.2 = first :: tail ∧ test first = true := by
  induction run with
  | nil => exact absurd rfl some
  | cons first run ih =>
    have firstPasses := passes first List.mem_cons_self
    have restPasses := fun element member => passes element (List.mem_cons_of_mem _ member)
    rw [List.cons_append, oneOrMore, if_pos firstPasses]
    cases run with
    | nil => exact ⟨[], by rw [List.nil_append, oneOrMore_stop stops]; rfl, by simp⟩
    | cons second run =>
      obtain ⟨shorter, equal, goesOn⟩ := ih (List.cons_ne_nil _ _) restPasses
      refine ⟨shorter.map (fun found => (first :: found.1, found.2)) ++
        [([first], second :: run ++ rest)], ?_, ?_⟩
      · rw [equal]
        rfl
      · intro found member
        rcases List.mem_append.mp member with longer | last
        · obtain ⟨before, isShorter, rfl⟩ := List.mem_map.mp longer
          exact goesOn before isShorter
        · obtain rfl := List.mem_singleton.mp last
          exact ⟨second, run ++ rest, rfl, restPasses second List.mem_cons_self⟩

theorem oneOrMore_head? {run rest : List α} (some : run ≠ [])
    (passes : ∀ element ∈ run, test element = true)
    (stops : ∀ first ∈ rest.head?, test first = false) :
    (oneOrMore test (run ++ rest)).head? = .some (run, rest) := by
  obtain ⟨shorter, equal, -⟩ := oneOrMore_append some passes stops
  rw [equal]
  rfl

theorem oneOrMore_flatMap {run rest : List α} {next : List α × List α → List β} (some : run ≠ [])
    (passes : ∀ element ∈ run, test element = true)
    (stops : ∀ first ∈ rest.head?, test first = false)
    (dead : ∀ taken first tail, test first = true → next (taken, first :: tail) = []) :
    (oneOrMore test (run ++ rest)).flatMap next = next (run, rest) := by
  obtain ⟨shorter, equal, goesOn⟩ := oneOrMore_append some passes stops
  have nothing : shorter.flatMap next = [] := by
    refine List.flatMap_eq_nil_iff.mpr fun found member => ?_
    obtain ⟨first, tail, left, passed⟩ := goesOn found member
    have fails := dead found.1 first tail passed
    rwa [← left] at fails
  rw [equal, List.flatMap_cons, nothing, List.append_nil]

theorem followedBy_head? {left right : Pattern α} {text : List α} {found next : List α × List α}
    (first : (left text).head? = some found) (second : (right found.2).head? = some next) :
    (followedBy left right text).head? = some (found.1 ++ next.1, next.2) := by
  refine head?_flatMap first ?_
  rw [List.head?_map, second]
  rfl

theorem lazily_once {pattern : Pattern α} {fuel : Nat} {text : List α}
    {found : List α × List α} (first : (pattern text).head? = some found) :
    ∃ more, lazily pattern (fuel + 1) text = ([], text) :: more ∧ more.head? = some found := by
  refine ⟨_, rfl, head?_flatMap first ?_⟩
  rw [List.head?_map]
  cases fuel <;> simp [lazily]

theorem literal_ne [DecidableEq α] {canonical : α → α} {first other : α} {word rest : List α}
    (differs : canonical first ≠ canonical other) :
    literal canonical (other :: word) (first :: rest) = [] := by
  rw [literal, if_neg]
  intro same
  exact differs (List.cons.inj same).1

theorem literal_self [DecidableEq α] {canonical : α → α} {word rest : List α} :
    literal canonical word (word ++ rest) = [(word, rest)] := by
  simp [literal]

theorem literal_token [DecidableEq α] {word token rest : List α}
    (wordPasses : ∀ element ∈ word, test element = true)
    (tokenPasses : ∀ element ∈ token, test element = true)
    (stops : ∀ first ∈ rest.head?, test first = false) {found : List α × List α}
    (member : found ∈ literal id word (token ++ rest)) (differs : token ≠ word) :
    ∃ first tail, found.2 = first :: tail ∧ test first = true := by
  rw [literal] at member
  split at member
  · rename_i same
    rw [List.map_id, List.map_id] at same
    obtain rfl := List.mem_singleton.mp member
    have whole : word ++ (token ++ rest).drop word.length = token ++ rest :=
      (congrArg (· ++ _) same.symm).trans (List.take_append_drop _ _)
    rcases List.append_eq_append_iff.mp whole with ⟨more, tokenIs, left⟩ | ⟨more, wordIs, left⟩
    · cases more with
      | nil => exact absurd (by simpa using tokenIs) differs
      | cons first more =>
        exact ⟨first, more ++ rest, left, tokenPasses first (by simp [tokenIs])⟩
    · cases more with
      | nil => exact absurd (by simpa using wordIs.symm) differs
      | cons first more =>
        have inWord := wordPasses first (by simp [wordIs])
        have outside := stops first (by rw [left]; rfl)
        exact absurd (inWord.symm.trans outside) (by decide)
  · exact absurd member List.not_mem_nil

end OrderedMatches
