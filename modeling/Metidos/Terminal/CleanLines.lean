import Metidos.Terminal.ReplayBuffer

/-!
The lines of a text, which end at a line feed or a carriage return and a line feed, and what is
left of them when the text arrives in parts and loses its front.
-/

namespace Metidos.Terminal

def linesOf : Units → List Units
  | [] => [[]]
  | unit :: rest =>
    if unit = lineFeed then [] :: linesOf rest
    else if unit = carriageReturn ∧ rest.head? = some lineFeed then linesOf rest
    else
      match linesOf rest with
      | [] => [[unit]]
      | first :: later => (unit :: first) :: later

def LastLines (kept all : List Units) : Prop :=
  ∃ dropped whole cut later,
    kept = cut :: later ∧ all = dropped ++ whole :: later ∧ cut <:+ whole

theorem LastLines.refl {lines : List Units} (some' : lines ≠ []) : LastLines lines lines := by
  cases lines with
  | nil => exact absurd rfl some'
  | cons first later => exact ⟨[], first, first, later, rfl, rfl, List.suffix_rfl⟩

theorem LastLines.trans {first second third : List Units} (left : LastLines first second)
    (right : LastLines second third) : LastLines first third := by
  obtain ⟨dropped, whole, cut, later, rfl, rfl, isCut⟩ := left
  obtain ⟨before, fuller, middle, rest, isMiddle, rfl, isWhole⟩ := right
  cases dropped with
  | nil =>
    obtain ⟨rfl, rfl⟩ := List.cons.inj isMiddle
    exact ⟨before, fuller, cut, later, rfl, rfl, isCut.trans isWhole⟩
  | cons other dropped =>
    obtain ⟨rfl, rfl⟩ := List.cons.inj isMiddle
    exact ⟨before ++ fuller :: dropped, whole, cut, later, rfl,
      (List.append_assoc before (fuller :: dropped) (whole :: later)).symm, isCut⟩

theorem LastLines.append_left {kept all : List Units} (last : LastLines kept all)
    (before : List Units) : LastLines kept (before ++ all) := by
  obtain ⟨dropped, whole, cut, later, rfl, rfl, isCut⟩ := last
  exact ⟨before ++ dropped, whole, cut, later, rfl, (List.append_assoc ..).symm, isCut⟩

theorem linesOf_ne_nil (text : Units) : linesOf text ≠ [] := by
  induction text with
  | nil => exact List.cons_ne_nil _ _
  | cons unit rest ih =>
    rw [linesOf]
    split
    · exact List.cons_ne_nil _ _
    · split
      · exact ih
      · split
        · exact List.cons_ne_nil _ _
        · exact List.cons_ne_nil _ _

theorem linesOf_lineFeed (rest : Units) : linesOf (lineFeed :: rest) = [] :: linesOf rest := by
  rw [linesOf, if_pos rfl]

theorem linesOf_cons {unit : Nat} (ordinary : unit ≠ lineFeed) {rest first : Units}
    {later : List Units} (after : linesOf rest = first :: later) :
    (unit = carriageReturn ∧ rest.head? = some lineFeed ∧
      linesOf (unit :: rest) = first :: later) ∨
    (¬(unit = carriageReturn ∧ rest.head? = some lineFeed) ∧
      linesOf (unit :: rest) = (unit :: first) :: later) := by
  by_cases ends : unit = carriageReturn ∧ rest.head? = some lineFeed
  · exact Or.inl ⟨ends.1, ends.2, by rw [linesOf, if_neg ordinary, if_pos ends, after]⟩
  · exact Or.inr ⟨ends, by rw [linesOf, if_neg ordinary, if_neg ends, after]⟩

theorem lastLines_append (front text : Units) :
    LastLines (linesOf text) (linesOf (front ++ text)) := by
  induction front with
  | nil => exact LastLines.refl (linesOf_ne_nil text)
  | cons unit front ih =>
    rw [List.cons_append]
    by_cases feed : unit = lineFeed
    · subst feed
      rw [linesOf_lineFeed]
      exact ih.append_left [[]]
    · obtain ⟨dropped, whole, cut, later, kept, all, isCut⟩ := ih
      rw [kept]
      cases dropped with
      | nil =>
        rcases linesOf_cons feed all with ⟨-, -, same⟩ | ⟨-, opened⟩
        · rw [same]
          exact ⟨[], whole, cut, later, rfl, rfl, isCut⟩
        · rw [opened]
          exact ⟨[], unit :: whole, cut, later, rfl, rfl,
            isCut.trans (List.suffix_cons unit whole)⟩
      | cons first dropped =>
        rcases linesOf_cons feed all with ⟨-, -, same⟩ | ⟨-, opened⟩
        · rw [same]
          exact ⟨first :: dropped, whole, cut, later, rfl, rfl, isCut⟩
        · rw [opened]
          exact ⟨(unit :: first) :: dropped, whole, cut, later, rfl, rfl, isCut⟩

theorem linesOf_plain {text : Units} (plain : lineFeed ∉ text) : linesOf text = [text] := by
  induction text with
  | nil => rfl
  | cons unit rest ih =>
    rw [List.mem_cons, not_or] at plain
    rcases linesOf_cons (Ne.symm plain.1) (ih plain.2) with ⟨-, feed, -⟩ | ⟨-, opened⟩
    · exact absurd (List.mem_of_mem_head? feed) plain.2
    · exact opened

theorem linesOf_lines (text : Units) :
    (∀ line ∈ linesOf text, lineFeed ∉ line) ∧
      ∀ line, linesOf text = [line] → line = text := by
  induction text with
  | nil =>
    refine ⟨?_, ?_⟩
    · intro line member
      rw [List.mem_singleton.mp member]
      exact List.not_mem_nil
    · intro line single
      exact (List.singleton_inj.mp single).symm
  | cons unit rest ih =>
    obtain ⟨plain, single⟩ := ih
    by_cases feed : unit = lineFeed
    · subst feed
      rw [linesOf_lineFeed]
      refine ⟨?_, ?_⟩
      · intro line member
        rcases List.mem_cons.mp member with rfl | later
        · exact List.not_mem_nil
        · exact plain line later
      · intro line isSingle
        exact absurd (List.cons.inj isSingle).2 (linesOf_ne_nil rest)
    · cases after : linesOf rest with
      | nil => exact absurd after (linesOf_ne_nil rest)
      | cons first later =>
        rw [after] at plain
        rcases linesOf_cons feed after with ⟨-, follows, same⟩ | ⟨-, opened⟩
        · rw [same]
          refine ⟨plain, ?_⟩
          intro line isSingle
          obtain ⟨rfl, rfl⟩ := List.cons.inj isSingle
          have isRest := single _ after
          have inRest := List.mem_of_mem_head? follows
          rw [← isRest] at inRest
          exact absurd inRest (plain _ List.mem_cons_self)
        · rw [opened]
          refine ⟨?_, ?_⟩
          · intro line member
            rcases List.mem_cons.mp member with rfl | isLater
            · rw [List.mem_cons, not_or]
              exact ⟨Ne.symm feed, plain first List.mem_cons_self⟩
            · exact plain line (List.mem_cons_of_mem _ isLater)
          · intro line isSingle
            obtain ⟨rfl, rfl⟩ := List.cons.inj isSingle
            rw [single _ after]

def continueLines (lines : List Units) (text : Units) : List Units :=
  lines.dropLast ++ linesOf (lines.getLastD [] ++ text)

theorem continueLines_append (front : List Units) (last text : Units) :
    continueLines (front ++ [last]) text = front ++ linesOf (last ++ text) := by
  rw [continueLines, List.dropLast_concat, List.getLastD_concat]

theorem linesOf_split (text : Units) : ∃ front last, linesOf text = front ++ [last] :=
  ⟨_, _, (List.dropLast_concat_getLast (linesOf_ne_nil text)).symm⟩

theorem linesOf_append (first second : Units) :
    linesOf (first ++ second) = continueLines (linesOf first) second := by
  induction first with
  | nil => exact (continueLines_append [] [] second).symm
  | cons unit rest ih =>
    obtain ⟨front, last, parts⟩ := linesOf_split rest
    rw [parts, continueLines_append] at ih
    rw [List.cons_append]
    by_cases feed : unit = lineFeed
    · subst feed
      rw [linesOf_lineFeed, linesOf_lineFeed, ih, parts]
      exact (continueLines_append ([] :: front) last second).symm
    · cases front with
      | nil =>
        obtain ⟨plain, single⟩ := linesOf_lines rest
        have isRest := single last parts
        subst isRest
        have noFeed : lineFeed ∉ unit :: last := by
          rw [List.mem_cons, not_or]
          exact ⟨Ne.symm feed, plain last (parts ▸ List.mem_singleton_self last)⟩
        rw [linesOf_plain noFeed]
        exact (continueLines_append [] (unit :: last) second).symm
      | cons opening front =>
        have more : rest ≠ [] := by
          rintro rfl
          have lengths := congrArg List.length parts
          simp [linesOf] at lengths
        have sameHead : (rest ++ second).head? = rest.head? := by
          cases rest with
          | nil => exact absurd rfl more
          | cons => rfl
        rw [List.cons_append] at parts ih
        rcases linesOf_cons feed parts with ⟨isReturn, follows, same⟩ | ⟨ordinary, opened⟩
        · rcases linesOf_cons feed ih with ⟨-, -, also⟩ | ⟨ordinary, -⟩
          · rw [same, also, ← List.cons_append, ← List.cons_append, continueLines_append]
          · exact absurd ⟨isReturn, sameHead ▸ follows⟩ ordinary
        · rcases linesOf_cons feed ih with ⟨isReturn, follows, -⟩ | ⟨-, also⟩
          · exact absurd ⟨isReturn, sameHead ▸ follows⟩ ordinary
          · rw [opened, also, ← List.cons_append, ← List.cons_append, continueLines_append]

theorem LastLines.continue' {kept all : List Units} (last : LastLines kept all) (text : Units) :
    LastLines (continueLines kept text) (continueLines all text) := by
  obtain ⟨dropped, whole, cut, later, rfl, rfl, front, rfl⟩ := last
  rcases List.eq_nil_or_concat later with rfl | ⟨middle, final, rfl⟩
  · rw [continueLines_append dropped, ← List.nil_append [cut], continueLines_append,
      List.nil_append, List.append_assoc]
    exact (lastLines_append front (cut ++ text)).append_left dropped
  · rw [List.concat_eq_append, ← List.cons_append, continueLines_append, ← List.cons_append,
      ← List.append_assoc, continueLines_append, List.append_assoc]
    exact ⟨dropped, front ++ cut, cut, _, rfl, rfl, List.suffix_append front cut⟩

def stripReturn (line : Units) : Units :=
  if line.getLast? = some carriageReturn then line.dropLast else line

def endLines : Units → List Units → List Units
  | line, [] => [line]
  | line, part :: parts => stripReturn line :: endLines part parts

theorem linesOf_lineFeed_after {line : Units} (plain : lineFeed ∉ line) (rest : Units) :
    linesOf (line ++ lineFeed :: rest) = stripReturn line :: linesOf rest := by
  induction line with
  | nil => exact linesOf_lineFeed rest
  | cons unit line ih =>
    rw [List.mem_cons, not_or] at plain
    have after := ih plain.2
    rw [List.cons_append]
    cases line with
    | nil =>
      rcases linesOf_cons (Ne.symm plain.1) after with ⟨rfl, -, same⟩ | ⟨ordinary, opened⟩
      · exact same
      · have noReturn : unit ≠ carriageReturn := fun same => ordinary ⟨same, rfl⟩
        rw [opened]
        simp [stripReturn, noReturn]
    | cons second line =>
      rcases linesOf_cons (Ne.symm plain.1) after with ⟨-, follows, -⟩ | ⟨-, opened⟩
      · have isFeed : second = lineFeed := by simpa using follows
        exact absurd (isFeed ▸ List.mem_cons_self) plain.2
      · rw [opened]
        simp only [stripReturn, List.getLast?_cons_cons]
        split
        · rfl
        · rfl

theorem linesOf_parts {line : Units} (plain : lineFeed ∉ line) (text : Units) :
    ∃ part parts, splitLineFeeds text = part :: parts ∧
      linesOf (line ++ text) = endLines (line ++ part) parts := by
  induction text generalizing line with
  | nil => exact ⟨[], [], rfl, by rw [List.append_nil, linesOf_plain plain, endLines]⟩
  | cons unit rest ih =>
    by_cases feed : unit = lineFeed
    · subst feed
      obtain ⟨part, parts, split', ends⟩ := @ih [] List.not_mem_nil
      refine ⟨[], part :: parts, by rw [splitLineFeeds, if_pos rfl, split'], ?_⟩
      rw [linesOf_lineFeed_after plain, List.append_nil, endLines]
      rw [List.nil_append, List.nil_append] at ends
      rw [ends]
    · have stillPlain : lineFeed ∉ line ++ [unit] := by
        rw [List.mem_append, List.mem_singleton, not_or]
        exact ⟨plain, Ne.symm feed⟩
      obtain ⟨part, parts, split', ends⟩ := ih stillPlain
      refine ⟨unit :: part, parts, by rw [splitLineFeeds, if_neg feed, split'], ?_⟩
      rw [List.append_assoc, List.append_assoc] at ends
      exact ends

end Metidos.Terminal
