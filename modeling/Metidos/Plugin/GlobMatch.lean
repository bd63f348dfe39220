import Mathlib.Data.List.TakeWhile
import Metidos.Library.Glob
import Metidos.Library.OrderedMap

/-!
Glob matching of path segments, `src/bun/plugin/glob-match.ts`.  A text is its UTF-16 code
units.
-/

namespace Metidos.Plugin

open Glob

abbrev Text := List Nat

def star : Nat := 0x2A

def question : Nat := 0x3F

def bracket : Nat := 0x5B

def doubleStar : Text := [star, star]

def containsGlobPattern (value : Text) : Bool :=
  value.any fun unit => unit = star || unit = question || unit = bracket

def globSegmentLoop (pattern segment : Text) : Nat → Nat → Nat → Option (Nat × Nat) → Option Bool
  | 0, _, _, _ => none
  | fuel + 1, patternIndex, segmentIndex, lastStar =>
    match segment[segmentIndex]? with
    | none => some ((pattern.drop patternIndex).dropWhile (· = star)).isEmpty
    | some segmentChar =>
      let patternChar := pattern[patternIndex]?
      if patternChar = some question ∨ patternChar = some segmentChar then
        globSegmentLoop pattern segment fuel (patternIndex + 1) (segmentIndex + 1) lastStar
      else if patternChar = some star then
        globSegmentLoop pattern segment fuel (patternIndex + 1) segmentIndex
          (some (patternIndex, segmentIndex))
      else
        match lastStar with
        | some (starIndex, matchIndex) =>
          globSegmentLoop pattern segment fuel (starIndex + 1) (matchIndex + 1)
            (some (starIndex, matchIndex + 1))
        | none => some false

def loopRounds (pattern segment : Text) : Nat :=
  (segment.length + 1) * (pattern.length + segment.length + 1) + pattern.length +
    segment.length + 1

def globSegmentMatches (pattern segment : Text) : Bool :=
  (globSegmentLoop pattern segment (loopRounds pattern segment) 0 0 none).getD false

def matchAt : List Text → List Text → Bool
  | [], candidates => candidates.isEmpty
  | head :: rest, candidates =>
    if head = doubleStar then
      matchAt rest candidates ||
        match candidates with
        | [] => false
        | _ :: more => matchAt (head :: rest) more
    else
      match candidates with
      | [] => false
      | candidate :: more => globSegmentMatches head candidate && matchAt rest more
  termination_by patterns candidates => patterns.length + candidates.length

def globSegmentsMatch (patternSegments candidateSegments : List Text) : Bool :=
  matchAt patternSegments candidateSegments

def unitPlace (patternChar : Nat) : Place (Option Nat) :=
  if patternChar = star then .run
  else if patternChar = question then .single none
  else .single (some patternChar)

def AcceptsUnit : Option Nat → Nat → Prop
  | none, _ => True
  | some expected, unit => expected = unit

/-- The segment has the form of the pattern, where a run that begins at a lone unit is that
unit. -/
def SegmentGlob (lone : Nat → Prop) (pattern segment : Text) : Prop :=
  Matches lone AcceptsUnit (pattern.map unitPlace) segment

def IsStar (unit : Nat) : Prop := unit = star

variable {pattern segment : Text}

def placesFrom (pattern : Text) (index : Nat) : List (Place (Option Nat)) :=
  (pattern.drop index).map unitPlace

theorem placesFrom_of_some {index patternChar : Nat} (at' : pattern[index]? = some patternChar) :
    placesFrom pattern index = unitPlace patternChar :: placesFrom pattern (index + 1) := by
  obtain ⟨bound, rfl⟩ := List.getElem?_eq_some_iff.mp at'
  rw [placesFrom, List.drop_eq_getElem_cons bound, List.map_cons, placesFrom]

theorem placesFrom_of_none {index : Nat} (at' : pattern[index]? = none) :
    placesFrom pattern index = [] := by
  rw [placesFrom, List.drop_eq_nil_of_le (List.getElem?_eq_none_iff.mp at'), List.map_nil]

theorem drop_of_some {index segmentChar : Nat} (at' : segment[index]? = some segmentChar) :
    segment.drop index = segmentChar :: segment.drop (index + 1) := by
  obtain ⟨bound, rfl⟩ := List.getElem?_eq_some_iff.mp at'
  exact List.drop_eq_getElem_cons bound

@[simp] theorem unitPlace_star : unitPlace star = .run := rfl

@[simp] theorem unitPlace_question : unitPlace question = .single none := rfl

theorem unitPlace_literal {patternChar : Nat} (notStar : patternChar ≠ star)
    (notQuestion : patternChar ≠ question) : unitPlace patternChar = .single (some patternChar) := by
  rw [unitPlace, if_neg notStar, if_neg notQuestion]

theorem trailing_stars_iff (index : Nat) :
    ((pattern.drop index).dropWhile (· = star)).isEmpty = true ↔
      Matches IsStar AcceptsUnit (placesFrom pattern index) [] := by
  rw [matches_no_values_iff, List.isEmpty_iff, List.dropWhile_eq_nil_iff, placesFrom]
  simp only [decide_eq_true_eq, List.mem_map, forall_exists_index, and_imp,
    forall_apply_eq_imp_iff₂]
  refine forall₂_congr fun patternChar _ => ?_
  constructor
  · rintro rfl
    rfl
  · intro isRun
    by_contra notStar
    rw [unitPlace, if_neg notStar] at isRun
    split at isRun <;> exact absurd isRun (by simp)

theorem matches_hit_iff {patternChar segmentChar : Nat} {places : List (Place (Option Nat))}
    {units : Text} (hit : patternChar = question ∨ patternChar = segmentChar) :
    Matches IsStar AcceptsUnit (unitPlace patternChar :: places) (segmentChar :: units) ↔
      Matches IsStar AcceptsUnit places units := by
  by_cases isStar : patternChar = star
  · subst isStar
    have lone : IsStar segmentChar := hit.elim (fun no => absurd no (by decide)) Eq.symm
    exact matches_run_lone_iff lone
  · by_cases isQuestion : patternChar = question
    · subst isQuestion
      rw [unitPlace_question, matches_single_cons_iff]
      exact and_iff_right trivial
    · rw [unitPlace_literal isStar isQuestion, matches_single_cons_iff]
      exact and_iff_right (hit.resolve_left isQuestion)

theorem covers_hit {patternChar segmentChar : Nat} {places : List (Place (Option Nat))}
    {units : Text} {first : List (Place (Option Nat)) × Text}
    (hit : patternChar = question ∨ patternChar = segmentChar)
    (covers : Covers IsStar AcceptsUnit first
      (unitPlace patternChar :: places, segmentChar :: units)) :
    Covers IsStar AcceptsUnit first (places, units) := by
  by_cases isStar : patternChar = star
  · subst isStar
    exact covers.loneRun (hit.elim (fun no => absurd no (by decide)) Eq.symm)
  · rw [unitPlace, if_neg isStar] at covers
    split at covers
    · exact covers.single
    · exact covers.single

theorem not_matches_miss {patternChar segmentChar : Nat} {places : List (Place (Option Nat))}
    {units : Text} (miss : ¬(patternChar = question ∨ patternChar = segmentChar))
    (notStar : patternChar ≠ star) :
    ¬ Matches IsStar AcceptsUnit (unitPlace patternChar :: places) (segmentChar :: units) := by
  rw [not_or] at miss
  rw [unitPlace_literal notStar miss.1, matches_single_cons_iff]
  exact fun matched => miss.2 matched.1

def OpenMatch (pattern segment : Text) (patternIndex segmentIndex : Nat)
    (lastStar : Option (Nat × Nat)) : Prop :=
  Matches IsStar AcceptsUnit (placesFrom pattern patternIndex) (segment.drop segmentIndex) ∨
    ∃ starIndex matchIndex, lastStar = some (starIndex, matchIndex) ∧
      ∃ taken, taken <:+ segment.drop (matchIndex + 1) ∧
        Matches IsStar AcceptsUnit (placesFrom pattern (starIndex + 1)) taken

structure LoopSound (pattern segment : Text) (patternIndex segmentIndex : Nat)
    (lastStar : Option (Nat × Nat)) : Prop where
  patternBound : patternIndex ≤ pattern.length
  segmentBound : segmentIndex ≤ segment.length
  behind : ∀ starIndex matchIndex, lastStar = some (starIndex, matchIndex) →
    starIndex < pattern.length ∧ matchIndex ≤ segmentIndex ∧
      Covers IsStar AcceptsUnit
        (placesFrom pattern (starIndex + 1), segment.drop matchIndex)
        (placesFrom pattern patternIndex, segment.drop segmentIndex)

def attemptsLeft (segment : Text) (lastStar : Option (Nat × Nat)) : Nat :=
  match lastStar with
  | none => segment.length + 1
  | some (_, matchIndex) => segment.length - matchIndex

def roundsLeft (pattern segment : Text) (patternIndex segmentIndex : Nat)
    (lastStar : Option (Nat × Nat)) : Nat :=
  attemptsLeft segment lastStar * (pattern.length + segment.length + 1) +
    (pattern.length - patternIndex) + (segment.length - segmentIndex)

variable {patternIndex segmentIndex : Nat} {lastStar : Option (Nat × Nat)}

theorem openMatch_end_iff (sound : LoopSound pattern segment patternIndex segmentIndex lastStar)
    (ended : segment[segmentIndex]? = none) :
    OpenMatch pattern segment patternIndex segmentIndex lastStar ↔
      Matches IsStar AcceptsUnit (placesFrom pattern patternIndex) [] := by
  have nothing : segment.drop segmentIndex = [] :=
    List.drop_eq_nil_of_le (List.getElem?_eq_none_iff.mp ended)
  rw [OpenMatch, nothing]
  refine or_iff_left_of_imp ?_
  rintro ⟨starIndex, matchIndex, isLast, taken, later, matched⟩
  have covers := (sound.behind starIndex matchIndex isLast).2.2
  rw [nothing] at covers
  have within : taken <:+ segment.drop matchIndex := by
    rw [← List.tail_drop] at later
    exact later.trans (List.tail_suffix _)
  obtain ⟨rest, isEnd, matched⟩ := covers taken within matched
  rwa [List.suffix_nil.mp isEnd] at matched

theorem LoopSound.hit (sound : LoopSound pattern segment patternIndex segmentIndex lastStar)
    {patternChar segmentChar : Nat} (atPattern : pattern[patternIndex]? = some patternChar)
    (atSegment : segment[segmentIndex]? = some segmentChar)
    (hit : patternChar = question ∨ patternChar = segmentChar) :
    LoopSound pattern segment (patternIndex + 1) (segmentIndex + 1) lastStar where
  patternBound := (List.getElem?_eq_some_iff.mp atPattern).1
  segmentBound := (List.getElem?_eq_some_iff.mp atSegment).1
  behind := by
    intro starIndex matchIndex isLast
    obtain ⟨bound, before, covers⟩ := sound.behind starIndex matchIndex isLast
    rw [placesFrom_of_some atPattern, drop_of_some atSegment] at covers
    exact ⟨bound, by omega, covers_hit hit covers⟩

theorem openMatch_hit_iff {patternChar segmentChar : Nat}
    (atPattern : pattern[patternIndex]? = some patternChar)
    (atSegment : segment[segmentIndex]? = some segmentChar)
    (hit : patternChar = question ∨ patternChar = segmentChar) :
    OpenMatch pattern segment patternIndex segmentIndex lastStar ↔
      OpenMatch pattern segment (patternIndex + 1) (segmentIndex + 1) lastStar := by
  rw [OpenMatch, OpenMatch, placesFrom_of_some atPattern, drop_of_some atSegment,
    matches_hit_iff hit]

theorem LoopSound.restart (pattern segment : Text) {starIndex matchIndex : Nat}
    (patternBound : starIndex < pattern.length) (segmentBound : matchIndex ≤ segment.length) :
    LoopSound pattern segment (starIndex + 1) matchIndex (some (starIndex, matchIndex)) where
  patternBound := patternBound
  segmentBound := segmentBound
  behind := by
    rintro _ _ ⟨⟩
    exact ⟨patternBound, Nat.le_refl matchIndex, Covers.refl _⟩

theorem openMatch_star_iff (sound : LoopSound pattern segment patternIndex segmentIndex lastStar)
    {segmentChar : Nat} (atPattern : pattern[patternIndex]? = some star)
    (atSegment : segment[segmentIndex]? = some segmentChar) (notLone : segmentChar ≠ star) :
    OpenMatch pattern segment patternIndex segmentIndex lastStar ↔
      OpenMatch pattern segment (patternIndex + 1) segmentIndex
        (some (patternIndex, segmentIndex)) := by
  have some' : segment.drop segmentIndex ≠ [] := by simp [drop_of_some atSegment]
  have free : ∀ unit, (segment.drop segmentIndex).head? = some unit → ¬ IsStar unit := by
    intro unit isFirst
    rw [drop_of_some atSegment, List.head?_cons, Option.some.injEq] at isFirst
    exact isFirst ▸ notLone
  have now : Matches IsStar AcceptsUnit (placesFrom pattern patternIndex)
      (segment.drop segmentIndex) ↔ OpenMatch pattern segment (patternIndex + 1) segmentIndex
        (some (patternIndex, segmentIndex)) := by
    rw [placesFrom_of_some atPattern, unitPlace_star, matches_run_free_iff free,
      matches_suffix_iff some', List.tail_drop, OpenMatch]
    simp
  rw [← now, OpenMatch]
  refine or_iff_left_of_imp ?_
  rintro ⟨starIndex, matchIndex, isLast, taken, later, matched⟩
  have covers := (sound.behind starIndex matchIndex isLast).2.2
  have within : taken <:+ segment.drop matchIndex := by
    rw [← List.tail_drop] at later
    exact later.trans (List.tail_suffix _)
  rw [placesFrom_of_some atPattern, unitPlace_star] at covers ⊢
  obtain ⟨rest, inRest, tail⟩ := covers.run taken within matched
  exact (matches_run_free_iff free).mpr ⟨rest, inRest, tail⟩

theorem openMatch_back_iff {starIndex matchIndex : Nat}
    (miss : ¬ Matches IsStar AcceptsUnit (placesFrom pattern patternIndex)
      (segment.drop segmentIndex)) :
    OpenMatch pattern segment patternIndex segmentIndex (some (starIndex, matchIndex)) ↔
      OpenMatch pattern segment (starIndex + 1) (matchIndex + 1)
        (some (starIndex, matchIndex + 1)) := by
  rw [OpenMatch, OpenMatch, or_iff_right miss]
  simp only [Option.some.injEq, Prod.mk.injEq]
  constructor
  · rintro ⟨_, _, ⟨rfl, rfl⟩, taken, later, matched⟩
    rcases Nat.lt_or_ge (matchIndex + 1) segment.length with more | ended
    · have some' : segment.drop (matchIndex + 1) ≠ [] := by simp; omega
      rcases (matches_suffix_iff some').mp ⟨taken, later, matched⟩ with now | further
      · exact Or.inl now
      · rw [List.tail_drop] at further
        exact Or.inr ⟨_, _, ⟨rfl, rfl⟩, further⟩
    · rw [List.drop_eq_nil_of_le ended] at later ⊢
      rw [List.suffix_nil.mp later] at matched
      exact Or.inl matched
  · rintro (now | ⟨_, _, ⟨rfl, rfl⟩, taken, later, matched⟩)
    · exact ⟨_, _, ⟨rfl, rfl⟩, _, List.suffix_rfl, now⟩
    · refine ⟨_, _, ⟨rfl, rfl⟩, taken, ?_, matched⟩
      rw [← List.tail_drop] at later
      exact later.trans (List.tail_suffix _)

theorem not_matches_here {segmentChar : Nat} (atSegment : segment[segmentIndex]? = some segmentChar)
    (miss : ¬(pattern[patternIndex]? = some question ∨ pattern[patternIndex]? = some segmentChar))
    (notStar : pattern[patternIndex]? ≠ some star) :
    ¬ Matches IsStar AcceptsUnit (placesFrom pattern patternIndex) (segment.drop segmentIndex) := by
  rw [drop_of_some atSegment]
  cases atPattern : pattern[patternIndex]? with
  | none => simp [placesFrom_of_none atPattern, matches_nil_iff]
  | some patternChar =>
    rw [atPattern] at miss notStar
    simp only [Option.some.injEq] at miss
    rw [placesFrom_of_some atPattern]
    exact not_matches_miss miss fun isStar => notStar (congrArg some isStar)

theorem roundsLeft_star {fuel : Nat}
    (sound : LoopSound pattern segment patternIndex segmentIndex lastStar)
    (inPattern : patternIndex < pattern.length)
    (enough : roundsLeft pattern segment patternIndex segmentIndex lastStar ≤ fuel) :
    roundsLeft pattern segment (patternIndex + 1) segmentIndex
      (some (patternIndex, segmentIndex)) < fuel := by
  have attempts : segment.length - segmentIndex ≤ attemptsLeft segment lastStar := by
    cases lastStar with
    | none => simp only [attemptsLeft]; omega
    | some last =>
      have before := (sound.behind last.1 last.2 rfl).2.1
      simp only [attemptsLeft]
      omega
  have fewer := Nat.mul_le_mul_right (pattern.length + segment.length + 1) attempts
  simp only [roundsLeft] at enough ⊢
  rw [attemptsLeft]
  omega

theorem roundsLeft_back {fuel starIndex matchIndex : Nat} (starBound : starIndex < pattern.length)
    (before : matchIndex ≤ segmentIndex) (inSegment : segmentIndex < segment.length)
    (enough : roundsLeft pattern segment patternIndex segmentIndex
      (some (starIndex, matchIndex)) ≤ fuel) :
    roundsLeft pattern segment (starIndex + 1) (matchIndex + 1)
      (some (starIndex, matchIndex + 1)) < fuel := by
  have attempts : segment.length - matchIndex = segment.length - (matchIndex + 1) + 1 := by omega
  simp only [roundsLeft, attemptsLeft] at enough ⊢
  rw [attempts, Nat.add_mul] at enough
  omega

theorem globSegmentLoop_eq (fuel : Nat)
    (sound : LoopSound pattern segment patternIndex segmentIndex lastStar)
    (enough : roundsLeft pattern segment patternIndex segmentIndex lastStar < fuel) :
    ∃ answer, globSegmentLoop pattern segment fuel patternIndex segmentIndex lastStar =
        some answer ∧
      (answer = true ↔ OpenMatch pattern segment patternIndex segmentIndex lastStar) := by
  induction fuel generalizing patternIndex segmentIndex lastStar with
  | zero => omega
  | succ fuel ih =>
    unfold globSegmentLoop
    cases atSegment : segment[segmentIndex]? with
    | none =>
      exact ⟨_, rfl, (trailing_stars_iff patternIndex).trans
        (openMatch_end_iff sound atSegment).symm⟩
    | some segmentChar =>
      have inSegment := (List.getElem?_eq_some_iff.mp atSegment).1
      dsimp only
      by_cases hit : pattern[patternIndex]? = some question ∨
          pattern[patternIndex]? = some segmentChar
      · rw [if_pos hit]
        obtain ⟨patternChar, atPattern, isHit⟩ : ∃ patternChar,
            pattern[patternIndex]? = some patternChar ∧
              (patternChar = question ∨ patternChar = segmentChar) :=
          hit.elim (fun at' => ⟨_, at', Or.inl rfl⟩) fun at' => ⟨_, at', Or.inr rfl⟩
        have inPattern := (List.getElem?_eq_some_iff.mp atPattern).1
        have fewer : roundsLeft pattern segment (patternIndex + 1) (segmentIndex + 1)
            lastStar < fuel := by
          simp only [roundsLeft] at enough ⊢
          omega
        obtain ⟨answer, returned, correct⟩ :=
          ih (sound.hit atPattern atSegment isHit) fewer
        exact ⟨answer, returned,
          correct.trans (openMatch_hit_iff atPattern atSegment isHit).symm⟩
      · rw [if_neg hit]
        by_cases isStar : pattern[patternIndex]? = some star
        · rw [if_pos isStar]
          have inPattern := (List.getElem?_eq_some_iff.mp isStar).1
          have notLone : segmentChar ≠ star := by
            rintro rfl
            exact hit (Or.inr isStar)
          have fewer := roundsLeft_star sound inPattern (Nat.lt_succ_iff.mp enough)
          obtain ⟨answer, returned, correct⟩ :=
            ih (LoopSound.restart pattern segment inPattern sound.segmentBound) fewer
          exact ⟨answer, returned,
            correct.trans (openMatch_star_iff sound isStar atSegment notLone).symm⟩
        · rw [if_neg isStar]
          have miss := not_matches_here atSegment hit isStar
          cases lastStar with
          | none => exact ⟨false, rfl, by simp [OpenMatch, miss]⟩
          | some last =>
            obtain ⟨starIndex, matchIndex⟩ := last
            obtain ⟨starBound, before, -⟩ := sound.behind starIndex matchIndex rfl
            have fewer := roundsLeft_back starBound before inSegment
              (Nat.lt_succ_iff.mp enough)
            obtain ⟨answer, returned, correct⟩ :=
              ih (LoopSound.restart pattern segment starBound (by omega)) fewer
            exact ⟨answer, returned, correct.trans (openMatch_back_iff miss).symm⟩

/-- The segment matcher decides the form of the pattern, where a star of the pattern that meets a
star of the segment is taken for that star alone. -/
theorem globSegmentMatches_iff (pattern segment : Text) :
    globSegmentMatches pattern segment = true ↔ SegmentGlob IsStar pattern segment := by
  have sound : LoopSound pattern segment 0 0 none :=
    { patternBound := Nat.zero_le _, segmentBound := Nat.zero_le _, behind := nofun }
  obtain ⟨answer, returned, correct⟩ := globSegmentLoop_eq (loopRounds pattern segment) sound
    (by simp only [roundsLeft, attemptsLeft, loopRounds]; omega)
  rw [globSegmentMatches, returned, Option.getD_some, correct, OpenMatch, SegmentGlob, placesFrom]
  simp

example : globSegmentMatches [star] [star, 0x61] = false := by decide

def segmentPlace (head : Text) : Place Text :=
  if head = doubleStar then .run else .single head

def NoUnit (_ : Nat) : Prop := False

/-- The segments have the form of the pattern's, where `**` stands for any run of segments. -/
def PathGlob (lone : Nat → Prop) (patternSegments candidateSegments : List Text) : Prop :=
  Matches (fun _ => False) (SegmentGlob lone) (patternSegments.map segmentPlace)
    candidateSegments

theorem matchAt_iff (patterns candidates : List Text) :
    matchAt patterns candidates = true ↔ PathGlob IsStar patterns candidates := by
  unfold PathGlob
  fun_induction matchAt patterns candidates with
  | case1 candidates => rw [List.map_nil, matches_nil_iff, List.isEmpty_iff]
  | case2 rest candidates ended further =>
    rw [List.map_cons, segmentPlace, if_pos rfl] at further ⊢
    cases candidates with
    | nil => rw [Bool.or_false, ended, matches_run_nil_iff]
    | cons candidate more =>
      dsimp only at further ⊢
      rw [Bool.or_eq_true, ended, further, matches_run_cons_iff]
  | case3 head rest notRun =>
    rw [List.map_cons, segmentPlace, if_neg notRun]
    exact iff_of_false (by decide) matches_single_nil
  | case4 head rest notRun candidate more ih =>
    rw [List.map_cons, segmentPlace, if_neg notRun, matches_single_cons_iff, Bool.and_eq_true,
      globSegmentMatches_iff, ih]

theorem globSegmentsMatch_iff (patternSegments candidateSegments : List Text) :
    globSegmentsMatch patternSegments candidateSegments = true ↔
      PathGlob IsStar patternSegments candidateSegments := matchAt_iff _ _

theorem PathGlob.free {lone : Nat → Prop} {patternSegments candidateSegments : List Text}
    (matched : PathGlob lone patternSegments candidateSegments) :
    PathGlob NoUnit patternSegments candidateSegments :=
  matched.weaken (fun _ => id) fun _ _ accepted => accepted.weaken (fun _ => False.elim)
    fun _ _ => id

end Metidos.Plugin

/-!
The memo of `globSegmentsMatch` and the standard meaning of globs, which the matchers of
`src/bun/plugin/glob-match.ts` miss where a star of a pattern meets a star of the text.
-/

namespace Metidos.Plugin

open Glob

abbrev MatchMemo := OrderedMap (Nat × Nat) Bool

def memoMatchAt (patternSegments candidateSegments : List Text) (patternIndex candidateIndex : Nat)
    (memo : MatchMemo) : Bool × MatchMemo :=
  match memo.get? (patternIndex, candidateIndex) with
  | some cached => (cached, memo)
  | none =>
    let result : Bool × MatchMemo :=
      if _patternEnded : patternSegments.length ≤ patternIndex then
        (decide (candidateSegments.length ≤ candidateIndex), memo)
      else if patternSegments.getD patternIndex [] = doubleStar then
        let ended := memoMatchAt patternSegments candidateSegments (patternIndex + 1)
          candidateIndex memo
        if ended.1 then (true, ended.2)
        else if _candidatesLeft : candidateIndex < candidateSegments.length then
          memoMatchAt patternSegments candidateSegments patternIndex (candidateIndex + 1) ended.2
        else (false, ended.2)
      else if _candidatesLeft : candidateIndex < candidateSegments.length then
        if globSegmentMatches (patternSegments.getD patternIndex [])
            (candidateSegments.getD candidateIndex []) then
          memoMatchAt patternSegments candidateSegments (patternIndex + 1) (candidateIndex + 1)
            memo
        else (false, memo)
      else (false, memo)
    (result.1, result.2.set (patternIndex, candidateIndex) result.1)
  termination_by
    (patternSegments.length - patternIndex) + (candidateSegments.length - candidateIndex)

def memoGlobSegmentsMatch (patternSegments candidateSegments : List Text) : Bool :=
  (memoMatchAt patternSegments candidateSegments 0 0 OrderedMap.empty).1

variable {patternSegments candidateSegments : List Text}

def MemoSound (patternSegments candidateSegments : List Text) (memo : MatchMemo) : Prop :=
  ∀ patternIndex candidateIndex result, memo.get? (patternIndex, candidateIndex) = some result →
    result = matchAt (patternSegments.drop patternIndex) (candidateSegments.drop candidateIndex)

theorem MemoSound.set {memo : MatchMemo} {patternIndex candidateIndex : Nat} {result : Bool}
    (sound : MemoSound patternSegments candidateSegments memo)
    (right : result =
      matchAt (patternSegments.drop patternIndex) (candidateSegments.drop candidateIndex)) :
    MemoSound patternSegments candidateSegments
      (memo.set (patternIndex, candidateIndex) result) := by
  intro otherPattern otherCandidate found present
  rw [OrderedMap.get?_set] at present
  split at present
  · rename_i same
    obtain ⟨rfl, rfl⟩ := Prod.mk.inj same
    rw [← Option.some.inj present, right]
  · exact sound otherPattern otherCandidate found present

theorem drop_getD {segments : List Text} {index : Nat} (bound : index < segments.length) :
    segments.drop index = segments.getD index [] :: segments.drop (index + 1) := by
  rw [List.drop_eq_getElem_cons bound, List.getD_eq_getElem?_getD, List.getElem?_eq_getElem bound,
    Option.getD_some]

theorem isEmpty_drop (segments : List Text) (index : Nat) :
    (segments.drop index).isEmpty = decide (segments.length ≤ index) := by
  rw [Bool.eq_iff_iff, List.isEmpty_iff, List.drop_eq_nil_iff, decide_eq_true_iff]

theorem matchAt_nil (candidates : List Text) : matchAt [] candidates = candidates.isEmpty := by
  unfold matchAt
  rfl

theorem matchAt_run (rest candidates : List Text) : matchAt (doubleStar :: rest) candidates =
    (matchAt rest candidates || match candidates with
      | [] => false
      | _ :: more => matchAt (doubleStar :: rest) more) := by
  conv_lhs => unfold matchAt
  refine (if_pos rfl).trans ?_
  cases candidates with
  | nil => rfl
  | cons candidate more => rfl

theorem matchAt_single {head : Text} (notRun : head ≠ doubleStar) (rest : List Text)
    (candidate : Text) (more : List Text) : matchAt (head :: rest) (candidate :: more) =
      (globSegmentMatches head candidate && matchAt rest more) := by
  conv_lhs => unfold matchAt
  rw [if_neg notRun]

theorem matchAt_single_nil {head : Text} (notRun : head ≠ doubleStar) (rest : List Text) :
    matchAt (head :: rest) [] = false := by
  unfold matchAt
  rw [if_neg notRun]

theorem memoMatchAt_eq (patternIndex candidateIndex : Nat) {memo : MatchMemo}
    (sound : MemoSound patternSegments candidateSegments memo) :
    (memoMatchAt patternSegments candidateSegments patternIndex candidateIndex memo).1 =
        matchAt (patternSegments.drop patternIndex) (candidateSegments.drop candidateIndex) ∧
      MemoSound patternSegments candidateSegments
        (memoMatchAt patternSegments candidateSegments patternIndex candidateIndex memo).2 := by
  fun_induction memoMatchAt patternSegments candidateSegments patternIndex candidateIndex memo with
  | case1 patternIndex candidateIndex memo cached present =>
    exact ⟨sound _ _ _ present, sound⟩
  | case2 patternIndex candidateIndex memo absent result ending further pairing =>
    have decided : result.1 = matchAt (patternSegments.drop patternIndex)
        (candidateSegments.drop candidateIndex) ∧
          MemoSound patternSegments candidateSegments result.2 := by
      simp only [result]
      by_cases patternEnded : patternSegments.length ≤ patternIndex
      · rw [dif_pos patternEnded, List.drop_eq_nil_of_le patternEnded, matchAt_nil,
          isEmpty_drop]
        exact ⟨rfl, sound⟩
      · rw [dif_neg patternEnded, drop_getD (Nat.lt_of_not_le patternEnded)]
        by_cases isRun : patternSegments.getD patternIndex [] = doubleStar
        · obtain ⟨endedRight, endedSound⟩ := ending patternEnded sound
          rw [dif_pos isRun, isRun, matchAt_run, ← endedRight]
          by_cases ended : (memoMatchAt patternSegments candidateSegments (patternIndex + 1)
              candidateIndex memo).1 = true
          · rw [dif_pos ended, ended, Bool.true_or]
            exact ⟨rfl, endedSound⟩
          · rw [dif_neg ended, Bool.eq_false_iff.mpr ended, Bool.false_or]
            by_cases candidatesLeft : candidateIndex < candidateSegments.length
            · have rest := further candidatesLeft endedSound
              rw [drop_getD (Nat.lt_of_not_le patternEnded), isRun] at rest
              rw [dif_pos candidatesLeft, drop_getD candidatesLeft]
              exact rest
            · rw [dif_neg candidatesLeft, List.drop_eq_nil_of_le (Nat.le_of_not_lt candidatesLeft)]
              exact ⟨rfl, endedSound⟩
        · rw [dif_neg isRun]
          by_cases candidatesLeft : candidateIndex < candidateSegments.length
          · rw [dif_pos candidatesLeft, drop_getD candidatesLeft, matchAt_single isRun]
            split
            · rename_i accepted
              rw [accepted, Bool.true_and]
              exact pairing patternEnded candidatesLeft sound
            · rename_i refused
              rw [Bool.eq_false_iff.mpr refused, Bool.false_and]
              exact ⟨rfl, sound⟩
          · rw [dif_neg candidatesLeft, List.drop_eq_nil_of_le (Nat.le_of_not_lt candidatesLeft),
              matchAt_single_nil isRun]
            exact ⟨rfl, sound⟩
    exact ⟨decided.1, decided.2.set decided.1⟩

theorem memoGlobSegmentsMatch_eq (patternSegments candidateSegments : List Text) :
    memoGlobSegmentsMatch patternSegments candidateSegments =
      globSegmentsMatch patternSegments candidateSegments :=
  (memoMatchAt_eq 0 0 (by simp [MemoSound])).1

/-- Where the segment can be got from the pattern, it can be got with no star standing for a
string that begins with a star, unless for this star alone. -/
def StarsAvoidable (pattern segment : Text) : Prop :=
  SegmentGlob NoUnit pattern segment → SegmentGlob IsStar pattern segment

def PathStarsAvoidable (patternSegments candidateSegments : List Text) : Prop :=
  PathGlob NoUnit patternSegments candidateSegments →
    PathGlob IsStar patternSegments candidateSegments

theorem SegmentGlob.free {lone : Nat → Prop} {pattern segment : Text}
    (matched : SegmentGlob lone pattern segment) : SegmentGlob NoUnit pattern segment :=
  matched.weaken (fun _ => False.elim) fun _ _ => id

theorem globSegmentLoop_returns (pattern segment : Text) :
    ∃ answer, globSegmentLoop pattern segment (loopRounds pattern segment) 0 0 none =
      some answer := by
  obtain ⟨answer, returned, -⟩ := globSegmentLoop_eq (loopRounds pattern segment)
    { patternBound := Nat.zero_le _, segmentBound := Nat.zero_le _, behind := by simp }
    (show roundsLeft pattern segment 0 0 none < loopRounds pattern segment by
      simp only [roundsLeft, attemptsLeft, loopRounds]; omega)
  exact ⟨answer, returned⟩

/-- The loop always ends, and the matchers decide the standard meaning just where the stars of the
text need not be taken by stars of the pattern. -/
theorem globs_denote_iff (pattern segment : Text) (patternSegments candidateSegments : List Text) :
    ((∃ answer, globSegmentLoop pattern segment (loopRounds pattern segment) 0 0 none =
        some answer) ∧
      (globSegmentMatches pattern segment = true ↔ SegmentGlob NoUnit pattern segment) ∧
      (memoGlobSegmentsMatch patternSegments candidateSegments = true ↔
        PathGlob NoUnit patternSegments candidateSegments)) ↔
      StarsAvoidable pattern segment ∧ PathStarsAvoidable patternSegments candidateSegments := by
  rw [and_iff_right (globSegmentLoop_returns pattern segment), globSegmentMatches_iff,
    memoGlobSegmentsMatch_eq, globSegmentsMatch_iff]
  refine and_congr ⟨fun decides => decides.mpr, fun avoidable => ?_⟩
    ⟨fun decides => decides.mpr, fun avoidable => ?_⟩
  · exact ⟨SegmentGlob.free, avoidable⟩
  · exact ⟨PathGlob.free, avoidable⟩

theorem star_misses_star :
    globSegmentMatches [star] [star, 0x61] = false ∧ SegmentGlob NoUnit [star] [star, 0x61] ∧
      memoGlobSegmentsMatch [[star]] [[star, 0x61]] = false ∧
        PathGlob NoUnit [[star]] [[star, 0x61]] := by
  have segment : SegmentGlob NoUnit [star] [star, 0x61] := by
    show Matches NoUnit AcceptsUnit [.run] ([star, 0x61] ++ [])
    exact .run (fun _ _ => False.elim) .nil
  refine ⟨by decide, segment, ?_, .single segment .nil⟩
  have notRun : [star] ≠ doubleStar := by decide
  have refused : globSegmentMatches [star] [star, 0x61] = false := by decide
  rw [memoGlobSegmentsMatch_eq, globSegmentsMatch, matchAt_single notRun, refused, Bool.false_and]

end Metidos.Plugin
