import Metidos.Sql.TokenScan

/-!
When the splitter and SQLite agree.  Both readings are folds over one list of tokens; they
differ in what they do at a semicolon and in what they count as empty.
-/

namespace Metidos.Sql

open JsText

def inkCount (text : List Char) : Nat := text.countP fun char => !isWhiteSpace char

theorem countP_trim (test : Char → Bool)
    (solid : ∀ char, test char = true → isWhiteSpace char = false) (text : List Char) :
    (trim text).countP test = text.countP test := by
  have drop : ∀ text : List Char, (text.dropWhile isWhiteSpace).countP test = text.countP test := by
    intro text
    induction text with
    | nil => rfl
    | cons char rest ih =>
      by_cases space : isWhiteSpace char = true
      · have uncounted : test char = false := by
          rw [← Bool.not_eq_true]
          intro counted
          rw [solid char counted] at space
          exact Bool.false_ne_true space
        rw [List.dropWhile_cons_of_pos space, ih]
        simp [uncounted]
      · rw [List.dropWhile_cons_of_neg space]
  rw [trim, trimStart, trimStart, List.countP_reverse, drop, List.countP_reverse, drop]

theorem solidCount_trim (text : List Char) : solidCount (trim text) = solidCount text := by
  apply countP_trim
  intro char counted
  simp only [Bool.and_eq_true, Bool.not_eq_true'] at counted
  exact counted.1

theorem inkCount_trim (text : List Char) : inkCount (trim text) = inkCount text := by
  apply countP_trim
  intro char counted
  simpa using counted

theorem solidCount_append (left right : List Char) :
    solidCount (left ++ right) = solidCount left + solidCount right :=
  List.countP_append

theorem trim_ne_longer (current more : List Char) : trim (current ++ ';' :: more) ≠ trim current := by
  intro same
  have counts := congrArg inkCount same
  rw [inkCount_trim, inkCount_trim] at counts
  have semicolon : isWhiteSpace ';' = false := by decide
  simp only [inkCount, List.countP_append, List.countP_cons, semicolon, Bool.not_false,
    if_true] at counts
  omega

/-- What makes the splitter treat a piece as SQLite does: its textual test recognises every
semicolon inside a trigger body and only these, and its notion of blank is SQLite's. -/
structure Piece.Fits (piece : Piece) : Prop where
  inner : ∀ before token after, piece.tokens = before ++ token :: after →
    token.kind = .semi → insideTrigger (textOf before) = true
  ended : piece.ended = true → insideTrigger (textOf piece.tokens) = false
  blank : piece.isStatement = true ↔ trim (textOf piece.tokens) ≠ []

@[grind =] def SemicolonsFit (state : CompleteState) (current : List Token) : List Token → Prop
  | [] => True
  | token :: rest =>
    if token.kind = .semi ∧ state.next .semi = .start then
      insideTrigger (textOf current) = false ∧ SemicolonsFit .start [] rest
    else
      (token.kind = .semi → insideTrigger (textOf current) = true) ∧
        SemicolonsFit (state.next token.kind) (current ++ [token]) rest

theorem textOf_append (left right : List Token) :
    textOf (left ++ right) = textOf left ++ textOf right := List.flatMap_append

theorem textOf_singleton (token : Token) : textOf [token] = token.text := by simp [textOf]

theorem piecesFrom_head (state : CompleteState) (current tokens : List Token) :
    ∃ more ended others, piecesFrom state current tokens = ⟨current ++ more, ended⟩ :: others := by
  induction tokens generalizing state current with
  | nil => exact ⟨[], false, [], by simp [piecesFrom]⟩
  | cons token rest ih =>
    simp only [piecesFrom]
    split
    · exact ⟨[], true, _, by simp; rfl⟩
    · obtain ⟨more, ended, others, equal⟩ := ih (state.next token.kind) (current ++ [token])
      exact ⟨token :: more, ended, others, by simpa using equal⟩

theorem semicolonsFit_of_pieces {state : CompleteState} {current tokens : List Token}
    (fits : ∀ piece ∈ piecesFrom state current tokens, piece.Fits) :
    SemicolonsFit state current tokens := by
  induction tokens generalizing state current with
  | nil => trivial
  | cons token rest ih =>
    simp only [piecesFrom] at fits
    simp only [SemicolonsFit]
    split at fits
    · rename_i ends
      rw [if_pos ends]
      have first := fits ⟨current, true⟩ (by simp)
      exact ⟨first.ended rfl, ih fun piece member => fits piece (by simp [member])⟩
    · rename_i goesOn
      rw [if_neg goesOn]
      refine ⟨?_, ih fits⟩
      intro semi
      obtain ⟨more, ended, others, equal⟩ :=
        piecesFrom_head (state.next token.kind) (current ++ [token]) rest
      have head := fits ⟨current ++ [token] ++ more, ended⟩ (by simp [equal])
      exact head.inner current token more (by simp) semi

theorem pieces_of_semicolonsFit {state : CompleteState} {current tokens : List Token}
    (fit : SemicolonsFit state current tokens)
    (known : ∀ before token after, current = before ++ token :: after →
      token.kind = .semi → insideTrigger (textOf before) = true) :
    ∀ piece ∈ piecesFrom state current tokens,
      (∀ before token after, piece.tokens = before ++ token :: after →
        token.kind = .semi → insideTrigger (textOf before) = true) ∧
      (piece.ended = true → insideTrigger (textOf piece.tokens) = false) := by
  induction tokens generalizing state current with
  | nil =>
    intro piece member
    obtain rfl : piece = ⟨current, false⟩ := by simpa [piecesFrom] using member
    exact ⟨known, by simp⟩
  | cons token rest ih =>
    simp only [SemicolonsFit] at fit
    simp only [piecesFrom]
    split at fit
    · rename_i ends
      rw [if_pos ends]
      intro piece member
      rcases List.mem_cons.mp member with rfl | later
      · exact ⟨known, fun _ => fit.1⟩
      · exact ih fit.2 (by simp) piece later
    · rename_i goesOn
      rw [if_neg goesOn]
      apply ih fit.2
      intro before other after equal semi
      rcases List.eq_nil_or_concat after with rfl | ⟨front, last, rfl⟩
      · obtain ⟨same, last⟩ := List.append_inj' equal rfl
        obtain rfl := List.singleton_injective last
        rw [← same]
        exact fit.1 semi
      · have shape : current ++ [token] = (before ++ other :: front) ++ [last] := by
          simpa using equal
        obtain ⟨same, _⟩ := List.append_inj' shape rfl
        exact known before other front same semi

def outputs (pieces : List Piece) : List (List Char) :=
  (pieces.filter Piece.isStatement).map fun piece => trim (textOf piece.tokens)

theorem flush_append (statements : List (List Char)) (current : List Char) :
    flushCurrentStatement statements current = statements ++ flushCurrentStatement [] current := by
  simp only [flushCurrentStatement]
  split <;> simp

theorem foldTokens_append (statements : List (List Char)) (current : List Char)
    (tokens : List Token) :
    foldTokens statements current tokens = statements ++ foldTokens [] current tokens := by
  induction tokens generalizing statements current with
  | nil => exact flush_append statements current
  | cons token rest ih =>
    simp only [foldTokens]
    split
    · rw [ih (flushCurrentStatement statements current), ih (flushCurrentStatement [] current),
        flush_append, List.append_assoc]
    · exact ih _ _

theorem flush_blank {current : List Char} (blank : trim current = []) :
    flushCurrentStatement [] current = [] := by
  simp [flushCurrentStatement, blank]

theorem flush_filled {current : List Char} (filled : trim current ≠ []) :
    flushCurrentStatement [] current = [trim current] := by
  simp [flushCurrentStatement, filled]

theorem outputs_cons (piece : Piece) (pieces : List Piece)
    (blank : piece.isStatement = true ↔ trim (textOf piece.tokens) ≠ []) :
    outputs (piece :: pieces) =
      flushCurrentStatement [] (textOf piece.tokens) ++ outputs pieces := by
  by_cases filled : trim (textOf piece.tokens) = []
  · have none : piece.isStatement = false := by
      rw [← Bool.not_eq_true, blank]
      exact not_not.mpr filled
    simp [outputs, none, flush_blank filled]
  · have some := blank.mpr filled
    simp [outputs, some, flush_filled filled]

theorem foldTokens_of_fit {state : CompleteState} {current tokens : List Token}
    (ok : ∀ token ∈ tokens, token.Ok) (fit : SemicolonsFit state current tokens)
    (blank : ∀ piece ∈ piecesFrom state current tokens,
      (piece.isStatement = true ↔ trim (textOf piece.tokens) ≠ [])) :
    foldTokens [] (textOf current) tokens = outputs (piecesFrom state current tokens) := by
  induction tokens generalizing state current with
  | nil =>
    have last := blank ⟨current, false⟩ (by simp [piecesFrom])
    rw [piecesFrom, outputs_cons _ _ last]
    simp [foldTokens, outputs]
  | cons token rest ih =>
    have tail : ∀ token ∈ rest, token.Ok := fun other member => ok other (by simp [member])
    simp only [SemicolonsFit] at fit
    simp only [piecesFrom] at blank ⊢
    split at fit
    · rename_i ends
      rw [if_pos ends] at blank ⊢
      have first := blank ⟨current, true⟩ (by simp)
      have later := ih tail fit.2 fun piece member => blank piece (by simp [member])
      rw [outputs_cons _ _ first, ← later, foldTokens, if_pos ⟨ends.1, fit.1⟩,
        foldTokens_append]
      rfl
    · rename_i goesOn
      rw [if_neg goesOn] at blank ⊢
      have later := ih tail fit.2 blank
      have kept : ¬ (token.kind = .semi ∧ insideTrigger (textOf current) = false) := by
        rintro ⟨semi, outside⟩
        rw [fit.1 semi] at outside
        exact absurd outside (by decide)
      rw [foldTokens, if_neg kept, ← later, textOf_append, textOf_singleton]

theorem foldTokens_head {current : List Char} (filled : 0 < inkCount current)
    (tokens : List Token) :
    ∃ more others, foldTokens [] current tokens = trim (current ++ more) :: others := by
  have nonblank : ∀ {text : List Char}, 0 < inkCount text → trim text ≠ [] := by
    intro text ink none
    rw [← inkCount_trim text, none] at ink
    exact absurd ink (by decide)
  induction tokens generalizing current with
  | nil => exact ⟨[], [], by simp [foldTokens, flush_filled (nonblank filled)]⟩
  | cons token rest ih =>
    simp only [foldTokens]
    split
    · rw [flush_filled (nonblank filled), foldTokens_append]
      exact ⟨[], _, by simp; rfl⟩
    · have more : 0 < inkCount (current ++ token.text) := by
        simp only [inkCount, List.countP_append] at filled ⊢
        omega
      obtain ⟨extra, others, equal⟩ := ih more
      exact ⟨token.text ++ extra, others, by simpa using equal⟩

def CompleteState.started : CompleteState → Bool
  | .create => true
  | .trigger => true
  | .semi => true
  | .endWord => true
  | _ => false

theorem CompleteState.started_next {state : CompleteState} {kind : TokenKind}
    (started : (state.next kind).started = true) : state.started = true ∨ kind = .create := by
  cases state <;> cases kind <;> simp_all [CompleteState.next, CompleteState.started]

theorem CompleteState.started_of_semi {state : CompleteState}
    (goesOn : state.next .semi ≠ .start) : state.started = true := by
  cases state <;> simp_all [CompleteState.next, CompleteState.started]

theorem hasCreateTriggerFrom_letter {afterWordChar : Bool} {text : List Char}
    (found : hasCreateTriggerFrom afterWordChar text = true) : 'c' ∈ text := by
  have letters : "create".toList = ['c', 'r', 'e', 'a', 't', 'e'] := by decide
  induction text generalizing afterWordChar with
  | nil => exact absurd found (by simp [hasCreateTriggerFrom])
  | cons char rest ih =>
    simp only [hasCreateTriggerFrom, Bool.or_eq_true, Bool.and_eq_true] at found
    rcases found with ⟨_, here⟩ | later
    · simp only [createTriggerHere, stripWord, letters] at here
      by_cases starts : ['c', 'r', 'e', 'a', 't', 'e'].isPrefixOf (char :: rest) = true
      · simp only [List.isPrefixOf, Bool.and_eq_true, beq_iff_eq] at starts
        exact List.mem_cons.mpr (Or.inl starts.1)
      · simp [starts] at here
    · exact List.mem_cons_of_mem _ (ih later)

theorem insideTrigger_ink {current : List Char} (inside : insideTrigger current = true) :
    0 < inkCount current := by
  simp only [insideTrigger, Bool.and_eq_true] at inside
  have letter := hasCreateTriggerFrom_letter inside.1
  obtain ⟨char, member, lower⟩ := List.mem_flatMap.mp letter
  have single := lowerCaseOf_eq lower (by decide)
  rw [single, List.mem_singleton] at lower
  rw [inkCount, List.countP_pos_iff]
  exact ⟨char, member, by simp [(letter_c lower.symm).1]⟩

theorem inkCount_of_solidCount {text : List Char} (solid : 0 < solidCount text) :
    0 < inkCount text := by
  obtain ⟨char, member, counted⟩ := List.countP_pos_iff.mp solid
  rw [inkCount, List.countP_pos_iff]
  simp only [Bool.and_eq_true] at counted
  exact ⟨char, member, counted.1⟩

theorem inkCount_append (left right : List Char) :
    inkCount (left ++ right) = inkCount left + inkCount right :=
  List.countP_append

theorem trim_ne_nil_of_ink {text : List Char} (ink : 0 < inkCount text) : trim text ≠ [] := by
  intro blank
  rw [← inkCount_trim text, blank] at ink
  exact absurd ink (by decide)

theorem semicolonsFit_of_agree {state : CompleteState} {current tokens : List Token}
    (ok : ∀ token ∈ tokens, token.Ok)
    (blank : ∀ piece ∈ piecesFrom state current tokens,
      (piece.isStatement = true ↔ trim (textOf piece.tokens) ≠ []))
    (ink : state.started = true → 0 < inkCount (textOf current))
    (agree : foldTokens [] (textOf current) tokens = outputs (piecesFrom state current tokens)) :
    SemicolonsFit state current tokens := by
  induction tokens generalizing state current with
  | nil => trivial
  | cons token rest ih =>
    have first := ok token (by simp)
    have tail : ∀ token ∈ rest, token.Ok := fun other member => ok other (by simp [member])
    simp only [SemicolonsFit]
    simp only [piecesFrom] at blank agree
    split
    · rename_i ends
      rw [if_pos ends] at blank agree
      have firstBlank := blank ⟨current, true⟩ (by simp)
      rw [outputs_cons _ _ firstBlank] at agree
      have outside : insideTrigger (textOf current) = false := by
        rw [← Bool.not_eq_true]
        intro inside
        have filled := insideTrigger_ink inside
        have grown : 0 < inkCount (textOf current ++ token.text) := by
          rw [inkCount_append]
          omega
        obtain ⟨more, others, equal⟩ := foldTokens_head grown rest
        have kept : ¬ (token.kind = .semi ∧ insideTrigger (textOf current) = false) := by
          simp [inside]
        rw [foldTokens, if_neg kept, equal, flush_filled (trim_ne_nil_of_ink filled),
          first.semi ends.1] at agree
        have heads := (List.cons.inj agree).1
        rw [List.append_assoc] at heads
        exact trim_ne_longer _ _ heads
      refine ⟨outside, ih tail (fun piece member => blank piece (by simp [member])) ?_ ?_⟩
      · simp [CompleteState.started]
      · rw [foldTokens, if_pos ⟨ends.1, outside⟩, foldTokens_append] at agree
        exact List.append_cancel_left agree
    · rename_i goesOn
      rw [if_neg goesOn] at blank agree
      have inside : token.kind = .semi → insideTrigger (textOf current) = true := by
        intro semi
        by_contra outside
        rw [Bool.not_eq_true] at outside
        have filled := ink (CompleteState.started_of_semi fun ends => goesOn ⟨semi, ends⟩)
        obtain ⟨more, ended, others, equal⟩ :=
          piecesFrom_head (state.next token.kind) (current ++ [token]) rest
        have headBlank := blank ⟨current ++ [token] ++ more, ended⟩ (by simp [equal])
        have longer : textOf (current ++ [token] ++ more) =
            textOf current ++ ';' :: textOf more := by
          rw [textOf_append, textOf_append, textOf_singleton, first.semi semi]
          simp
        have grown : trim (textOf (current ++ [token] ++ more)) ≠ [] := by
          apply trim_ne_nil_of_ink
          rw [longer, inkCount_append]
          omega
        rw [equal, outputs_cons _ _ headBlank, flush_filled grown, foldTokens,
          if_pos ⟨semi, outside⟩, foldTokens_append,
          flush_filled (trim_ne_nil_of_ink filled)] at agree
        have heads := (List.cons.inj agree).1
        rw [longer] at heads
        exact trim_ne_longer _ _ heads.symm
      have kept : ¬ (token.kind = .semi ∧ insideTrigger (textOf current) = false) := by
        rintro ⟨semi, outside⟩
        rw [inside semi] at outside
        exact absurd outside (by decide)
      refine ⟨inside, ih tail blank ?_ ?_⟩
      · intro started
        rw [textOf_append, textOf_singleton, inkCount_append]
        rcases CompleteState.started_next started with before | create
        · have filled := ink before
          omega
        · have filled := inkCount_of_solidCount (first.create create)
          omega
      · rw [foldTokens, if_neg kept] at agree
        rw [textOf_append, textOf_singleton]
        exact agree

theorem solidCount_flush (statements : List (List Char)) (current : List Char) :
    solidCount (flushCurrentStatement statements current).flatten =
      solidCount statements.flatten + solidCount current := by
  simp only [flushCurrentStatement]
  split
  · rename_i blank
    have none : solidCount current = 0 := by
      rw [← solidCount_trim, List.isEmpty_iff.mp blank]
      rfl
    omega
  · rw [List.flatten_append, solidCount_append, ← solidCount_trim current]
    simp

theorem solidCount_foldTokens {tokens : List Token} (ok : ∀ token ∈ tokens, token.Ok)
    (statements : List (List Char)) (current : List Char) :
    solidCount (foldTokens statements current tokens).flatten =
      solidCount statements.flatten + solidCount current + solidCount (textOf tokens) := by
  induction tokens generalizing statements current with
  | nil =>
    have none : solidCount (textOf []) = 0 := rfl
    rw [foldTokens, solidCount_flush, none]
    rfl
  | cons token rest ih =>
    have tail : ∀ token ∈ rest, token.Ok := fun other member => ok other (by simp [member])
    have split : textOf (token :: rest) = token.text ++ textOf rest := by simp [textOf]
    have empty : solidCount [] = 0 := rfl
    rw [foldTokens, split, solidCount_append]
    split
    · rename_i flushed
      have semicolon : solidCount token.text = 0 := by
        rw [(ok token (by simp)).semi flushed.1]
        decide
      rw [ih tail, solidCount_flush, empty]
      omega
    · rw [ih tail, solidCount_append]
      omega

theorem solidCount_pieces {tokens : List Token} (ok : ∀ token ∈ tokens, token.Ok)
    (state : CompleteState) (current : List Token) :
    ((piecesFrom state current tokens).map fun piece => solidCount (textOf piece.tokens)).sum =
      solidCount (textOf current) + solidCount (textOf tokens) := by
  induction tokens generalizing state current with
  | nil => simp [piecesFrom, textOf, solidCount]
  | cons token rest ih =>
    have tail : ∀ token ∈ rest, token.Ok := fun other member => ok other (by simp [member])
    have split : textOf (token :: rest) = token.text ++ textOf rest := by simp [textOf]
    have empty : solidCount (textOf []) = 0 := rfl
    rw [piecesFrom, split, solidCount_append]
    split
    · rename_i ends
      have semicolon : solidCount token.text = 0 := by
        rw [(ok token (by simp)).semi ends.1]
        decide
      rw [List.map_cons, List.sum_cons, ih tail, empty, semicolon]
    · rw [ih tail, textOf_append, textOf_singleton, solidCount_append]
      omega

theorem solidCount_outputs (pieces : List Piece) :
    solidCount (outputs pieces).flatten +
        ((pieces.filter fun piece => !piece.isStatement).map fun piece =>
          solidCount (textOf piece.tokens)).sum =
      (pieces.map fun piece => solidCount (textOf piece.tokens)).sum := by
  induction pieces with
  | nil => rfl
  | cons piece rest ih =>
    rw [outputs] at ih ⊢
    cases statement : piece.isStatement with
    | false =>
      simp only [List.filter_cons, statement, Bool.not_false, if_true, List.map_cons,
        List.sum_cons, Bool.false_eq_true, if_false] at ih ⊢
      omega
    | true =>
      simp only [List.filter_cons, statement, Bool.not_true, if_true, List.map_cons,
        List.sum_cons, Bool.false_eq_true, if_false, List.flatten_cons, solidCount_append,
        solidCount_trim] at ih ⊢
      omega

theorem foldTokens_ne_nil {tokens : List Token} {statements : List (List Char)}
    (filled : ∀ statement ∈ statements, statement ≠ []) (current : List Char) :
    ∀ statement ∈ foldTokens statements current tokens, statement ≠ [] := by
  have flushed : ∀ (statements : List (List Char)) (current : List Char),
      (∀ statement ∈ statements, statement ≠ []) →
        ∀ statement ∈ flushCurrentStatement statements current, statement ≠ [] := by
    intro statements current filled statement member
    simp only [flushCurrentStatement] at member
    split at member
    · exact filled statement member
    · rename_i nonblank
      rcases List.mem_append.mp member with before | last
      · exact filled statement before
      · obtain rfl := List.mem_singleton.mp last
        simpa using nonblank
  induction tokens generalizing statements current with
  | nil => exact flushed statements current filled
  | cons token rest ih =>
    rw [foldTokens]
    split
    · exact ih (flushed statements current filled) []
    · exact ih filled _

theorem tokens_of_pieces {state : CompleteState} {current tokens : List Token} {piece : Piece}
    (member : piece ∈ piecesFrom state current tokens) :
    ∀ token ∈ piece.tokens, token ∈ current ∨ token ∈ tokens := by
  induction tokens generalizing state current with
  | nil =>
    obtain rfl : piece = ⟨current, false⟩ := by simpa [piecesFrom] using member
    intro token inside
    exact Or.inl inside
  | cons first rest ih =>
    rw [piecesFrom] at member
    split at member
    · rcases List.mem_cons.mp member with rfl | later
      · intro token inside
        exact Or.inl inside
      · intro token inside
        rcases ih later token inside with none | some
        · simp at none
        · exact Or.inr (List.mem_cons_of_mem _ some)
    · intro token inside
      rcases ih member token inside with before | after
      · rcases List.mem_append.mp before with old | new
        · exact Or.inl old
        · exact Or.inr (by simp_all)
      · exact Or.inr (List.mem_cons_of_mem _ after)

theorem isSqliteSpace_white {char : Char} (space : isSqliteSpace char = true) :
    isWhiteSpace char = true := by
  simp only [isSqliteSpace, Bool.or_eq_true, beq_iff_eq] at space
  rcases space with (((rfl | rfl) | rfl) | rfl) | rfl <;> decide

theorem blank_of_no_solid {tokens : List Token} (ok : ∀ token ∈ tokens, token.Ok)
    (spaces : ∀ token ∈ tokens, token.kind = .space)
    (none : solidCount (textOf tokens) = 0) : trim (textOf tokens) = [] := by
  rw [trim_eq_nil_iff]
  intro char member
  obtain ⟨token, listed, inside⟩ := List.mem_flatMap.mp member
  rcases (ok token listed).space (spaces token listed) with ⟨space, white, spelled⟩ | solid
  · rw [spelled, List.mem_singleton] at inside
    rw [inside]
    exact isSqliteSpace_white white
  · obtain ⟨other, within, counted⟩ := List.countP_pos_iff.mp solid
    have positive : 0 < solidCount (textOf tokens) := by
      rw [solidCount, List.countP_pos_iff]
      exact ⟨other, List.mem_flatMap.mpr ⟨token, listed, within⟩, counted⟩
    omega

def SplitsAsSqlite (text : List Char) : Prop :=
  splitTopLevelSqlStatements text = (sqliteStatements text).map trim ∧
    ((∃ statement, requireSingleStatement text = .ok statement) ↔
      (sqliteStatements text).length = 1)

theorem requireSingleStatement_ok (text : List Char) :
    (∃ statement, requireSingleStatement text = .ok statement) ↔
      (splitTopLevelSqlStatements text).length = 1 := by
  simp only [requireSingleStatement]
  split
  · rename_i none
    simp [none]
  · split
    · rename_i many
      simp only [reduceCtorEq, exists_false, false_iff]
      omega
    · simp only [Except.ok.injEq, exists_eq', true_iff]
      omega

theorem sqliteStatements_trim (text : List Char) :
    (sqliteStatements text).map trim = outputs (sqlitePieces text) := by
  rw [sqliteStatements, outputs, List.map_map]
  rfl

theorem sqliteTokens_ok (text : List Char) : ∀ token ∈ sqliteTokens text, token.Ok :=
  tokensFrom_ok text.length text

theorem textOf_sqliteTokens (text : List Char) : textOf (sqliteTokens text) = text :=
  textOf_tokensFrom text.length text (Nat.le_refl _)

theorem splitting_agrees_iff (text : List Char) :
    SplitsAsSqlite text ↔
      Char.ofNat 0 ∉ text ∧ ∀ piece ∈ sqlitePieces text, piece.Fits := by
  constructor
  · rintro ⟨agree, _⟩
    rw [sqliteStatements_trim] at agree
    have kept : solidCount (splitTopLevelSqlStatements text).flatten = solidCount text := by
      rw [splitTopLevelSqlStatements_eq, solidCount_foldTokens (sqliteTokens_ok text),
        textOf_sqliteTokens]
      simp [solidCount]
    have total := solidCount_pieces (sqliteTokens_ok (text.takeWhile (· != Char.ofNat 0))) .start []
    rw [textOf_sqliteTokens] at total
    have dropped := solidCount_outputs (sqlitePieces text)
    have empty : solidCount (textOf []) = 0 := rfl
    rw [← agree, kept, sqlitePieces, total, empty] at dropped
    have absent : Char.ofNat 0 ∉ text := by
      intro member
      have rest : 0 < solidCount (text.dropWhile (· != Char.ofNat 0)) := by
        rw [← List.takeWhile_append_dropWhile (p := (· != Char.ofNat 0)) (l := text)] at member
        rcases List.mem_append.mp member with before | after
        · exact absurd (List.mem_takeWhile_imp before) (by decide)
        · exact solidCount_pos after (by decide) (by decide)
      have whole := congrArg solidCount
        (List.takeWhile_append_dropWhile (p := (· != Char.ofNat 0)) (l := text))
      rw [solidCount_append] at whole
      omega
    have fewer : (((sqlitePieces text).filter fun piece => !piece.isStatement).map fun piece =>
        solidCount (textOf piece.tokens)).sum = 0 := by
      rw [sqlitePieces]
      rw [no_zero_takeWhile absent] at dropped ⊢
      omega
    have known : ∀ piece ∈ sqlitePieces text, ∀ token ∈ piece.tokens, token.Ok := by
      intro piece member token inside
      rcases tokens_of_pieces member token inside with none | some
      · simp at none
      · exact sqliteTokens_ok _ token some
    have blank : ∀ piece ∈ sqlitePieces text,
        (piece.isStatement = true ↔ trim (textOf piece.tokens) ≠ []) := by
      intro piece member
      constructor
      · intro statement
        have listed : trim (textOf piece.tokens) ∈ splitTopLevelSqlStatements text := by
          rw [agree]
          exact List.mem_map.mpr ⟨piece, List.mem_filter.mpr ⟨member, statement⟩, rfl⟩
        rw [splitTopLevelSqlStatements_eq] at listed
        exact foldTokens_ne_nil (by simp) [] _ listed
      · intro filled
        by_contra noStatement
        rw [Bool.not_eq_true] at noStatement
        have none : solidCount (textOf piece.tokens) = 0 := by
          apply List.sum_eq_zero_iff_forall_eq_nat.mp fewer
          exact List.mem_map.mpr ⟨piece, List.mem_filter.mpr ⟨member, by simp [noStatement]⟩, rfl⟩
        apply filled
        apply blank_of_no_solid (known piece member) _ none
        intro token inside
        simp only [Piece.isStatement, List.any_eq_false] at noStatement
        simpa using noStatement token inside
    rw [splitTopLevelSqlStatements_eq] at agree
    rw [sqlitePieces, no_zero_takeWhile absent] at agree blank ⊢
    have fit := semicolonsFit_of_agree (sqliteTokens_ok text) blank
      (by simp [CompleteState.started]) agree
    have tests := pieces_of_semicolonsFit fit (by simp)
    refine ⟨absent, ?_⟩
    intro piece member
    exact ⟨(tests piece member).1, (tests piece member).2, blank piece member⟩
  · rintro ⟨absent, fits⟩
    have agree : splitTopLevelSqlStatements text = (sqliteStatements text).map trim := by
      rw [sqliteStatements_trim, splitTopLevelSqlStatements_eq, sqlitePieces,
        no_zero_takeWhile absent]
      rw [sqlitePieces, no_zero_takeWhile absent] at fits
      exact foldTokens_of_fit (sqliteTokens_ok text) (semicolonsFit_of_pieces fits)
        fun piece member => (fits piece member).blank
    refine ⟨agree, ?_⟩
    rw [requireSingleStatement_ok, agree, List.length_map]

theorem second_statement_accepted :
    ¬ SplitsAsSqlite "SELECT 'create trigger'; DROP TABLE notes".toList := by
  rintro ⟨agree, _⟩
  exact absurd agree (by decide +kernel)

end Metidos.Sql
