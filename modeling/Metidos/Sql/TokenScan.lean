import Metidos.Sql.StatementSplit

/-!
The scanner of the splitter followed token by token: splitting a text is a fold over the tokens
SQLite reads in it, and these tokens spell the text.
-/

namespace Metidos.Sql

open JsText

theorem splitLoop_semicolon (statements : List (List Char)) (current rest : List Char) :
    splitLoop false .topLevel statements current (';' :: rest) =
      if insideTrigger current then splitLoop false .topLevel statements (current ++ [';']) rest
      else splitLoop false .topLevel (flushCurrentStatement statements current) [] rest := by
  simp [splitLoop]

theorem splitLoop_one {mode next : ScanMode} {character : Char} {rest : List Char}
    (statements : List (List Char)) (current : List Char)
    (open_ : ¬ (mode = .topLevel ∧ character = ';'))
    (scanned : scanCharacter mode character rest.head? = (next, false)) :
    splitLoop false mode statements current (character :: rest) =
      splitLoop false next statements (current ++ [character]) rest := by
  simp [splitLoop, open_, scanned]

theorem splitLoop_two {mode next : ScanMode} {character second : Char} {rest : List Char}
    (statements : List (List Char)) (current : List Char)
    (open_ : ¬ (mode = .topLevel ∧ character = ';'))
    (scanned : scanCharacter mode character (some second) = (next, true)) :
    splitLoop false mode statements current (character :: second :: rest) =
      splitLoop false next statements (current ++ [character, second]) rest := by
  simp [splitLoop, open_, scanned]

theorem splitLoop_lineComment (statements : List (List Char)) (current rest : List Char) :
    splitLoop false .lineComment statements current rest =
      splitLoop false .topLevel statements (current ++ rest.takeWhile (· != '\n'))
        (rest.dropWhile (· != '\n')) := by
  induction rest generalizing current with
  | nil => simp [splitLoop]
  | cons char rest ih =>
    by_cases newline : char = '\n'
    · subst newline
      rw [splitLoop_one statements current (by simp) rfl]
      simp only [List.takeWhile_cons, List.dropWhile_cons, bne_self_eq_false,
        Bool.false_eq_true, if_false, List.append_nil, if_true]
      exact (splitLoop_one statements current (by decide) rfl).symm
    · have stays : scanCharacter .lineComment char rest.head? = (.lineComment, false) := by
        simp [scanCharacter, newline]
      rw [splitLoop_one statements current (by simp) stays, ih]
      simp [newline]

theorem splitLoop_blockComment (statements : List (List Char)) (current rest : List Char) :
    splitLoop false .blockComment statements current rest =
      splitLoop false .topLevel statements (current ++ blockBody rest)
        (rest.drop (blockBody rest).length) := by
  fun_induction blockBody rest generalizing current with
  | case1 => simp [splitLoop]
  | case2 char =>
    have stays : scanCharacter .blockComment char none = (.blockComment, false) := by
      simp [scanCharacter]
    rw [splitLoop_one statements current (by simp) stays]
    simp [splitLoop]
  | case3 char next rest closes =>
    obtain ⟨rfl, rfl⟩ := closes
    rw [splitLoop_two statements current (by simp) rfl]
    rfl
  | case4 char next rest open_ ih =>
    have stays : scanCharacter .blockComment char (some next) = (.blockComment, false) := by
      simp [scanCharacter, open_]
    rw [splitLoop_one statements current (by simp) stays, ih]
    simp

theorem splitLoop_bracket (statements : List (List Char)) (current rest : List Char) :
    splitLoop false .bracketIdentifier statements current rest =
      splitLoop false .topLevel statements (current ++ bracketBody rest)
        (rest.drop (bracketBody rest).length) := by
  induction rest generalizing current with
  | nil => simp [splitLoop, bracketBody]
  | cons char rest ih =>
    by_cases closes : char = ']'
    · subst closes
      rw [splitLoop_one statements current (by simp) rfl]
      rfl
    · have stays : scanCharacter .bracketIdentifier char rest.head? =
          (.bracketIdentifier, false) := by
        simp [scanCharacter, closes]
      rw [splitLoop_one statements current (by simp) stays, ih]
      simp [bracketBody, closes]

def quoteMode (quote : Char) : ScanMode :=
  if quote = apostrophe then .singleQuote
  else if quote = quotationMark then .doubleQuote
  else .backtickQuote

/-- The quotes of SQL: two modes read a doubled quote at once, the third closes and reopens. -/
theorem splitLoop_quoted {quote : Char}
    (known : quote = apostrophe ∨ quote = quotationMark ∨ quote = backtick)
    (statements : List (List Char)) (current rest : List Char) :
    splitLoop false (quoteMode quote) statements current rest =
      splitLoop false .topLevel statements (current ++ quotedBody quote rest)
        (rest.drop (quotedBody quote rest).length) := by
  have outside : ∀ character : Char, ¬ (quoteMode quote = .topLevel ∧ character = ';') := by
    rintro character ⟨both, _⟩
    rcases known with rfl | rfl | rfl <;> exact absurd both (by decide)
  have inside : ∀ {char : Char} {next : Option Char}, char ≠ quote →
      scanCharacter (quoteMode quote) char next = (quoteMode quote, false) := by
    intro char next differs
    rcases known with rfl | rfl | rfl
    · have mode : quoteMode apostrophe = .singleQuote := rfl
      simp [mode, scanCharacter, differs]
    · have mode : quoteMode quotationMark = .doubleQuote := rfl
      simp [mode, scanCharacter, differs]
    · have mode : quoteMode backtick = .backtickQuote := rfl
      simp [mode, scanCharacter, differs]
  have closes : ∀ {next : Option Char}, next ≠ some quote →
      scanCharacter (quoteMode quote) quote next = (.topLevel, false) := by
    intro next differs
    rcases known with rfl | rfl | rfl
    · have mode : quoteMode apostrophe = .singleQuote := rfl
      simp [mode, scanCharacter, differs]
    · have mode : quoteMode quotationMark = .doubleQuote := rfl
      simp [mode, scanCharacter, differs]
    · have mode : quoteMode backtick = .backtickQuote := rfl
      simp [mode, scanCharacter]
  have doubled : ∀ (current rest : List Char),
      splitLoop false (quoteMode quote) statements current (quote :: quote :: rest) =
        splitLoop false (quoteMode quote) statements (current ++ [quote, quote]) rest := by
    intro current rest
    rcases known with rfl | rfl | rfl
    · exact splitLoop_two statements current (outside _) rfl
    · exact splitLoop_two statements current (outside _) rfl
    · rw [splitLoop_one statements current (outside _) rfl,
        splitLoop_one statements _ (by decide) rfl]
      simp [quoteMode, show backtick ≠ apostrophe by decide,
        show backtick ≠ quotationMark by decide]
  fun_induction quotedBody quote rest generalizing current with
  | case1 => simp [splitLoop]
  | case2 char =>
    by_cases same : char = quote
    · subst same
      rw [splitLoop_one statements current (outside _) (closes (by simp))]
      simp
    · rw [splitLoop_one statements current (outside char) (inside same)]
      simp [splitLoop]
  | case3 rest ih =>
    rw [doubled, ih]
    simp
  | case4 next rest differs =>
    rw [splitLoop_one statements current (outside _) (closes (by simpa using differs))]
    simp
  | case5 char next rest differs ih =>
    rw [splitLoop_one statements current (outside char) (inside differs), ih]
    simp

theorem splitLoop_word {word : List Char} (solid : ∀ char ∈ word, isIdChar char = true)
    (statements : List (List Char)) (current rest : List Char) :
    splitLoop false .topLevel statements current (word ++ rest) =
      splitLoop false .topLevel statements (current ++ word) rest := by
  induction word generalizing current with
  | nil => simp
  | cons char word ih =>
    have differs : ∀ mark : Char, isIdChar mark = false → char ≠ mark := by
      rintro mark plain rfl
      exact absurd (solid char (by simp)) (by simp [plain])
    have dash : char ≠ '-' := differs _ (by decide)
    have slash : char ≠ '/' := differs _ (by decide)
    have quotes : char ≠ apostrophe ∧ char ≠ quotationMark ∧ char ≠ backtick :=
      ⟨differs _ (by decide), differs _ (by decide), differs _ (by decide)⟩
    have bracket : char ≠ '[' := differs _ (by decide)
    have semicolon : char ≠ ';' := differs _ (by decide)
    have stays : scanCharacter .topLevel char (word ++ rest).head? = (.topLevel, false) := by
      simp [scanCharacter, dash, slash, quotes, bracket]
    rw [List.cons_append, splitLoop_one statements current (by simp [semicolon]) stays,
      ih fun other member => solid other (List.mem_cons_of_mem _ member)]
    simp

theorem splitLoop_token {char : Char} (semicolon : char ≠ ';') (statements : List (List Char))
    (current rest : List Char) :
    splitLoop false .topLevel statements current (char :: rest) =
      splitLoop false .topLevel statements (current ++ (tokenAt char rest).text)
        ((char :: rest).drop (tokenAt char rest).text.length) := by
  have outside : ¬ (ScanMode.topLevel = .topLevel ∧ char = ';') := by simp [semicolon]
  simp only [tokenAt, semicolon, if_false]
  split
  · rename_i space
    have plain : char ≠ '-' ∧ char ≠ '/' ∧ char ≠ apostrophe ∧ char ≠ quotationMark ∧
        char ≠ backtick ∧ char ≠ '[' := by
      refine ⟨?_, ?_, ?_, ?_, ?_, ?_⟩ <;> rintro rfl <;> exact absurd space (by decide)
    have stays : scanCharacter .topLevel char rest.head? = (.topLevel, false) := by
      simp [scanCharacter, plain]
    rw [splitLoop_one statements current outside stays]
    rfl
  · split
    · rename_i dashes
      obtain ⟨rfl, second⟩ := dashes
      obtain ⟨rest, rfl⟩ : ∃ more, rest = '-' :: more := by
        cases rest with
        | nil => simp at second
        | cons next more => exact ⟨more, by simpa using second⟩
      have body : ('-' :: rest).takeWhile (· != '\n') = '-' :: rest.takeWhile (· != '\n') := by
        simp
      rw [splitLoop_two statements current outside rfl, splitLoop_lineComment, body]
      simp only [List.length_cons, List.drop_succ_cons, drop_length_takeWhile, List.append_assoc,
        List.cons_append, List.nil_append]
    · rename_i noDashes
      split
      · rename_i opens
        obtain ⟨rfl, second⟩ := opens
        obtain ⟨rest, rfl⟩ : ∃ more, rest = '*' :: more := by
          cases rest with
          | nil => simp at second
          | cons next more => exact ⟨more, by simpa using second⟩
        rw [splitLoop_two statements current outside rfl, splitLoop_blockComment]
        simp
      · rename_i noComment
        split
        · rename_i known
          have opens : scanCharacter .topLevel char rest.head? = (quoteMode char, false) := by
            rcases known with rfl | rfl | rfl <;> rfl
          rw [splitLoop_one statements current outside opens, splitLoop_quoted known]
          simp
        · rename_i unquoted
          split
          · rename_i bracket
            subst bracket
            rw [splitLoop_one statements current outside rfl, splitLoop_bracket]
            simp
          · rename_i noBracket
            split
            · rename_i first
              have solid : ∀ other ∈ char :: rest.takeWhile isIdChar, isIdChar other = true := by
                intro other member
                rcases List.mem_cons.mp member with rfl | later
                · exact first
                · exact List.mem_takeWhile_imp later
              have whole : char :: rest =
                  (char :: rest.takeWhile isIdChar) ++ rest.dropWhile isIdChar := by
                simp
              simp only [List.length_cons, List.drop_succ_cons, drop_length_takeWhile]
              conv_lhs => rw [whole]
              exact splitLoop_word solid statements current _
            · simp only [not_or] at unquoted
              have stays : scanCharacter .topLevel char rest.head? = (.topLevel, false) := by
                simp [scanCharacter, noDashes, noComment, unquoted, noBracket]
              rw [splitLoop_one statements current outside stays]
              rfl

theorem keywordKind_ne_semi (word : List Char) : keywordKind word ≠ .semi := by
  simp only [keywordKind]
  split
  · decide
  · split
    · decide
    · split
      · decide
      · split
        · decide
        · split <;> decide

theorem tokenAt_semi (rest : List Char) : tokenAt ';' rest = ⟨.semi, [';']⟩ := rfl

theorem tokenAt_ne_semi {char : Char} (semicolon : char ≠ ';') (rest : List Char) :
    (tokenAt char rest).kind ≠ .semi := by
  simp only [tokenAt, semicolon, if_false]
  split
  · simp
  · split
    · simp
    · split
      · simp
      · split
        · simp
        · split
          · simp
          · split
            · exact keywordKind_ne_semi _
            · simp

theorem tokenAt_filled (char : Char) (rest : List Char) : 1 ≤ (tokenAt char rest).text.length := by
  simp only [tokenAt]
  split
  · simp
  · split
    · simp
    · split
      · simp
      · split
        · simp
        · split
          · simp
          · split
            · simp
            · split <;> simp

@[grind =] def foldTokens (statements : List (List Char)) (current : List Char) :
    List Token → List (List Char)
  | [] => flushCurrentStatement statements current
  | token :: rest =>
    if token.kind = .semi ∧ insideTrigger current = false then
      foldTokens (flushCurrentStatement statements current) [] rest
    else foldTokens statements (current ++ token.text) rest

theorem splitLoop_eq_foldTokens (fuel : Nat) (text : List Char) (enough : text.length ≤ fuel)
    (statements : List (List Char)) (current : List Char) :
    splitLoop false .topLevel statements current text =
      foldTokens statements current (tokensFrom fuel text) := by
  induction fuel generalizing text statements current with
  | zero =>
    obtain rfl : text = [] := List.eq_nil_of_length_eq_zero (by omega)
    rfl
  | succ fuel ih =>
    cases text with
    | nil => rfl
    | cons char rest =>
      have filled := tokenAt_filled char rest
      have shorter : ((char :: rest).drop (tokenAt char rest).text.length).length ≤ fuel := by
        simp only [List.length_drop, List.length_cons] at enough ⊢
        omega
      rw [tokensFrom]
      by_cases semicolon : char = ';'
      · subst semicolon
        rw [tokenAt_semi] at shorter ⊢
        rw [splitLoop_semicolon]
        simp only [foldTokens, true_and, List.length_singleton, List.drop_succ_cons,
          List.drop_zero] at shorter ⊢
        split
        · rename_i inside
          rw [ih rest shorter]
          simp [inside]
        · rename_i outside
          rw [ih rest shorter]
          simp [outside]
      · rw [splitLoop_token semicolon, ih _ shorter]
        simp [foldTokens, tokenAt_ne_semi semicolon rest]

theorem splitTopLevelSqlStatements_eq (text : List Char) :
    splitTopLevelSqlStatements text = foldTokens [] [] (sqliteTokens text) :=
  splitLoop_eq_foldTokens text.length text (Nat.le_refl _) [] []

def solidCount (text : List Char) : Nat :=
  text.countP fun char => !isWhiteSpace char && char != ';'

structure Token.Ok (token : Token) : Prop where
  semi : token.kind = .semi → token.text = [';']
  space : token.kind = .space →
    (∃ char, isSqliteSpace char = true ∧ token.text = [char]) ∨ 0 < solidCount token.text
  create : token.kind = .create → 0 < solidCount token.text

theorem solidCount_pos {text : List Char} {char : Char} (member : char ∈ text)
    (ink : isWhiteSpace char = false) (semicolon : char ≠ ';') : 0 < solidCount text := by
  rw [solidCount, List.countP_pos_iff]
  exact ⟨char, member, by simp [ink, semicolon]⟩

theorem letter_c {char : Char} (lower : char.toLower = 'c') :
    isWhiteSpace char = false ∧ char ≠ ';' := by
  have code := congrArg Char.toNat lower
  rw [toLower_toNat] at code
  have letter : char.toNat = 67 ∨ char.toNat = 99 := by
    have value : 'c'.toNat = 99 := rfl
    rw [value] at code
    split at code <;> omega
  constructor
  · simp only [isWhiteSpace, Bool.or_eq_false_iff, Bool.and_eq_false_iff,
      decide_eq_false_iff_not, beq_eq_false_iff_ne, ne_eq]
    omega
  · rintro rfl
    exact absurd letter (by decide)

theorem keywordKind_create {word : List Char} (create : keywordKind word = .create) :
    0 < solidCount word := by
  have letters : "create".toList = ['c', 'r', 'e', 'a', 't', 'e'] := by decide
  have spelled : word.map Char.toLower = "create".toList := by
    by_contra differs
    simp only [keywordKind, differs, if_false] at create
    split at create
    · exact absurd create (by decide)
    · split at create
      · exact absurd create (by decide)
      · split at create
        · exact absurd create (by decide)
        · split at create <;> exact absurd create (by decide)
  rw [letters] at spelled
  obtain ⟨char, rest, rfl, first, _⟩ := List.map_eq_cons_iff.mp spelled
  have member : char ∈ char :: rest := by simp
  exact solidCount_pos member (letter_c first).1 (letter_c first).2

theorem keywordKind_ne_space (word : List Char) : keywordKind word ≠ .space := by
  simp only [keywordKind]
  split
  · decide
  · split
    · decide
    · split
      · decide
      · split
        · decide
        · split <;> decide

theorem tokenAt_ok (char : Char) (rest : List Char) : (tokenAt char rest).Ok := by
  have quiet : ∀ text : List Char, (Token.mk .other text).Ok := fun text =>
    ⟨by simp, by simp, by simp⟩
  simp only [tokenAt]
  split
  · rename_i semicolon
    subst semicolon
    exact ⟨fun _ => rfl, by simp, by simp⟩
  · split
    · rename_i space
      exact ⟨by simp, fun _ => Or.inl ⟨char, space, rfl⟩, by simp⟩
    · split
      · rename_i dashes
        obtain ⟨rfl, _⟩ := dashes
        refine ⟨by simp, fun _ => Or.inr ?_, by simp⟩
        exact solidCount_pos List.mem_cons_self (by decide) (by decide)
      · split
        · rename_i opens
          obtain ⟨rfl, _⟩ := opens
          refine ⟨by simp, fun _ => Or.inr ?_, by simp⟩
          exact solidCount_pos List.mem_cons_self (by decide) (by decide)
        · split
          · exact quiet _
          · split
            · exact quiet _
            · split
              · exact ⟨fun semi => absurd semi (keywordKind_ne_semi _),
                  fun space => absurd space (keywordKind_ne_space _), keywordKind_create⟩
              · exact quiet _

theorem quotedBody_isPrefix (quote : Char) (text : List Char) : quotedBody quote text <+: text := by
  fun_induction quotedBody quote text with
  | case1 => exact List.prefix_rfl
  | case2 => exact List.prefix_rfl
  | case3 rest ih => simpa using ih
  | case4 next rest differs => exact ⟨next :: rest, rfl⟩
  | case5 char next rest differs ih => simpa using ih

theorem bracketBody_isPrefix (text : List Char) : bracketBody text <+: text := by
  fun_induction bracketBody text with
  | case1 => exact List.prefix_rfl
  | case2 rest => exact ⟨rest, rfl⟩
  | case3 char rest differs ih => simpa using ih

theorem blockBody_isPrefix (text : List Char) : blockBody text <+: text := by
  fun_induction blockBody text with
  | case1 => exact List.prefix_rfl
  | case2 => exact List.prefix_rfl
  | case3 char next rest closes => exact ⟨rest, rfl⟩
  | case4 char next rest open_ ih => simpa using ih

theorem tokenAt_isPrefix (char : Char) (rest : List Char) :
    (tokenAt char rest).text <+: char :: rest := by
  have first : [char] <+: char :: rest := ⟨rest, rfl⟩
  simp only [tokenAt]
  split
  · exact first
  · split
    · exact first
    · split
      · simpa using List.takeWhile_prefix _
      · split
        · rename_i opens
          obtain ⟨rfl, second⟩ := opens
          obtain ⟨more, rfl⟩ : ∃ more, rest = '*' :: more := by
            cases rest with
            | nil => simp at second
            | cons next more => exact ⟨more, by simpa using second⟩
          simpa using blockBody_isPrefix more
        · split
          · simpa using quotedBody_isPrefix char rest
          · split
            · simpa using bracketBody_isPrefix rest
            · split
              · simpa using List.takeWhile_prefix _
              · exact first

theorem tokensFrom_ok (fuel : Nat) (text : List Char) :
    ∀ token ∈ tokensFrom fuel text, token.Ok := by
  induction fuel generalizing text with
  | zero => simp [tokensFrom]
  | succ fuel ih =>
    cases text with
    | nil => simp [tokensFrom]
    | cons char rest =>
      intro token member
      rcases List.mem_cons.mp member with rfl | later
      · exact tokenAt_ok char rest
      · exact ih _ token later

theorem textOf_tokensFrom (fuel : Nat) (text : List Char) (enough : text.length ≤ fuel) :
    textOf (tokensFrom fuel text) = text := by
  induction fuel generalizing text with
  | zero =>
    obtain rfl : text = [] := List.eq_nil_of_length_eq_zero (by omega)
    rfl
  | succ fuel ih =>
    cases text with
    | nil => rfl
    | cons char rest =>
      have filled := tokenAt_filled char rest
      have shorter : ((char :: rest).drop (tokenAt char rest).text.length).length ≤ fuel := by
        simp only [List.length_drop, List.length_cons] at enough ⊢
        omega
      have tail := ih _ shorter
      have joined := List.prefix_iff_eq_append.mp (tokenAt_isPrefix char rest)
      rw [textOf] at tail ⊢
      rw [tokensFrom, List.flatMap_cons, tail]
      exact joined

theorem no_zero_takeWhile {text : List Char} (absent : Char.ofNat 0 ∉ text) :
    text.takeWhile (· != Char.ofNat 0) = text := by
  rw [List.takeWhile_eq_self_iff]
  intro char member
  rw [bne_iff_ne]
  rintro rfl
  exact absent member

end Metidos.Sql
