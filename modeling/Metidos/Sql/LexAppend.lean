import Metidos.Sql.LexedCalls

/-!
What SQLite reads in a text that goes on with a closing parenthesis: the tokens of the text as
they were, unless its last one is still open.
-/

namespace Metidos.Sql

variable {character : Char} {text rest more : List Char} {token : LexToken}

def endsBlock : List Char → Bool
  | [] => false
  | [_] => false
  | char :: next :: rest => (char == '*' && next == '/') || endsBlock (next :: rest)

def openParameter (text : List Char) : Bool := text.contains '(' && text.getLast? != some ')'

def LexToken.isOpen (token : LexToken) : Bool :=
  match token.kind with
  | .comment => token.text.head? == some '-' || !endsBlock (token.text.drop 2)
  | .illegal => true
  | .parameter => openParameter token.text
  | _ => false

theorem takeWhile_append_stop {test : Char → Bool} {mark : Char} (stops : test mark = false) :
    (text ++ mark :: more).takeWhile test = text.takeWhile test := by
  induction text with
  | nil => rw [List.nil_append, List.takeWhile_cons, stops]; rfl
  | cons char text ih => rw [List.cons_append, List.takeWhile_cons, List.takeWhile_cons, ih]

theorem takeWhile_append_ended {test : Char → Bool} (ended : ∃ char ∈ text, test char = false) :
    (text ++ more).takeWhile test = text.takeWhile test := by
  obtain ⟨mark, member, stops⟩ := ended
  obtain ⟨before, after, rfl⟩ := List.append_of_mem member
  rw [List.append_assoc, List.cons_append, takeWhile_append_stop stops, takeWhile_append_stop stops]

theorem blockBody_append (ends : endsBlock text = true) (more : List Char) :
    blockBody (text ++ more) = blockBody text := by
  fun_induction blockBody text with
  | case1 => cases ends
  | case2 => cases ends
  | case3 char next rest closes =>
    rw [List.cons_append, List.cons_append, blockBody, if_pos closes]
  | case4 char next rest goesOn ih =>
    have later : endsBlock (next :: rest) = true := by
      rw [endsBlock] at ends
      simpa [goesOn] using ends
    rw [List.cons_append, List.cons_append, blockBody, if_neg goesOn, ← List.cons_append, ih later]

theorem blockBody_open (unfinished : endsBlock text = false) : blockBody text = text := by
  fun_induction blockBody text with
  | case1 => rfl
  | case2 => rfl
  | case3 char next rest closes => simp [endsBlock, closes] at unfinished
  | case4 char next rest goesOn ih =>
    rw [endsBlock, Bool.or_eq_false_iff] at unfinished
    rw [ih unfinished.2]

theorem endsBlock_blockBody (text : List Char) : endsBlock (blockBody text) = endsBlock text := by
  cases unfinished : endsBlock text with
  | false => rw [blockBody_open unfinished, unfinished]
  | true =>
    fun_induction blockBody text with
    | case1 => cases unfinished
    | case2 => cases unfinished
    | case3 char next rest closes => simp [endsBlock, closes]
    | case4 char next rest goesOn ih =>
      have later : endsBlock (next :: rest) = true := by
        rw [endsBlock] at unfinished
        simpa [goesOn] using unfinished
      have inside := ih later
      cases body : blockBody (next :: rest) with
      | nil =>
        rw [body] at inside
        cases inside
      | cons first body' =>
        rw [body] at inside
        rw [endsBlock, inside, Bool.or_true]

theorem endsBlock_append (unfinished : endsBlock text = false) (start : more.head? ≠ some '/')
    (quiet : endsBlock more = false) : endsBlock (text ++ more) = false := by
  fun_induction endsBlock text with
  | case1 => exact quiet
  | case2 char =>
    cases more with
    | nil => rfl
    | cons next more =>
      have notSlash : next ≠ '/' := fun isSlash => start (congrArg some isSlash)
      rw [List.singleton_append, endsBlock, quiet, beq_eq_false_iff_ne.mpr notSlash,
        Bool.and_false, Bool.or_false]
  | case3 char next rest ih =>
    rw [Bool.or_eq_false_iff] at unfinished
    rw [List.cons_append, List.cons_append, endsBlock, unfinished.1, ← List.cons_append,
      ih unfinished.2, Bool.or_false]

theorem quotedBody_unclosed {quote : Char} (unfinished : quotedValue quote text = none) :
    quotedBody quote text = text := by
  fun_induction quotedValue quote text with
  | case1 => rfl
  | case2 => cases unfinished
  | case3 => rfl
  | case4 rest ih =>
    rw [Option.map_eq_none_iff] at unfinished
    rw [quotedBody, if_pos rfl, if_pos rfl, ih unfinished]
  | case5 => cases unfinished
  | case6 char next rest differs ih =>
    rw [Option.map_eq_none_iff] at unfinished
    rw [quotedBody, if_neg differs, ih unfinished]

theorem quoted_append {quote mark : Char} (closed : (quotedValue quote text).isSome = true)
    (differs : mark ≠ quote) (more : List Char) :
    quotedValue quote (text ++ mark :: more) = quotedValue quote text ∧
      quotedBody quote (text ++ mark :: more) = quotedBody quote text := by
  fun_induction quotedValue quote text with
  | case1 => cases closed
  | case2 => simp [quotedValue, quotedBody, differs]
  | case3 => cases closed
  | case4 rest ih =>
    rw [Option.isSome_map] at closed
    simp [quotedValue, quotedBody, ih closed]
  | case5 next rest other => simp [quotedValue, quotedBody, other]
  | case6 char next rest notQuote ih =>
    rw [Option.isSome_map] at closed
    have inside := ih closed
    rw [List.cons_append] at inside
    simp [quotedValue, quotedBody, notQuote, inside]

theorem quoted_append_cases {quote mark : Char} (differs : mark ≠ quote) (text more : List Char) :
    quotedValue quote (text ++ mark :: more) = quotedValue quote text ∧
        quotedBody quote (text ++ mark :: more) = quotedBody quote text ∨
      quotedValue quote text = none ∧ quotedBody quote text = text := by
  cases value : quotedValue quote text with
  | none => exact Or.inr ⟨rfl, quotedBody_unclosed value⟩
  | some found =>
    have closed : (quotedValue quote text).isSome = true := by rw [value]; rfl
    rw [← value]
    exact Or.inl (quoted_append closed differs more)

theorem quotedValue_absent {quote : Char} (absent : quote ∉ text) :
    quotedValue quote text = none := by
  fun_induction quotedValue quote text with
  | case1 => rfl
  | case2 => exact absurd (List.mem_singleton.mpr rfl) absent
  | case3 => rfl
  | case4 => exact absurd List.mem_cons_self absent
  | case5 => exact absurd List.mem_cons_self absent
  | case6 char next rest notQuote ih =>
    rw [ih fun member => absent (List.mem_cons_of_mem _ member)]
    rfl

theorem quotedValue_append_open {quote : Char} (unfinished : quotedValue quote text = none)
    (absent : quote ∉ more) : quotedValue quote (text ++ more) = none := by
  fun_induction quotedValue quote text with
  | case1 => exact quotedValue_absent absent
  | case2 => cases unfinished
  | case3 char notQuote =>
    refine quotedValue_absent fun member => ?_
    rcases List.mem_cons.mp member with isQuote | later
    · exact notQuote isQuote.symm
    · exact absent later
  | case4 rest ih =>
    rw [Option.map_eq_none_iff] at unfinished
    simp [quotedValue, ih unfinished]
  | case5 => cases unfinished
  | case6 char next rest notQuote ih =>
    rw [Option.map_eq_none_iff] at unfinished
    have inside := ih unfinished
    rw [List.cons_append] at inside
    simp [quotedValue, notQuote, inside]

theorem bracketBody_append (closed : ']' ∈ text) (more : List Char) :
    bracketBody (text ++ more) = bracketBody text := by
  induction text with
  | nil => cases closed
  | cons char text ih =>
    rw [List.cons_append, bracketBody, bracketBody]
    split
    · rfl
    · rename_i differs
      rcases List.mem_cons.mp closed with isClosing | later
      · exact absurd isClosing.symm differs
      · rw [ih later]

theorem bracketBody_open (absent : ']' ∉ text) : bracketBody text = text := by
  induction text with
  | nil => rfl
  | cons char text ih =>
    rw [List.mem_cons, not_or] at absent
    rw [bracketBody, if_neg fun isClosing => absent.1 isClosing.symm, ih absent.2]

theorem parameterSuffix_append (text more : List Char) :
    parameterSuffix (text ++ ')' :: more) = parameterSuffix text ∧
        (parameterSuffix text = text → text.getLast? = some ')') ∨
      ')' ∉ text ∧ parameterSuffix text = text ∧
        parameterSuffix (text ++ ')' :: more) = text ++ [')'] := by
  simp only [parameterSuffix]
  rw [takeWhile_append_stop (by decide)]
  by_cases whole : (text.takeWhile fun char => !isSqliteGap char && char != ')') = text
  · right
    have absent : ')' ∉ text := by
      intro member
      have inside := List.takeWhile_eq_self_iff.mp whole _ member
      simp at inside
    rw [whole, List.drop_left, List.drop_length]
    exact ⟨absent, rfl, rfl⟩
  · left
    have shorter : (text.takeWhile fun char => !isSqliteGap char && char != ')').length <
        text.length :=
      Nat.lt_of_le_of_ne (List.takeWhile_prefix _).length_le fun same =>
        whole ((List.takeWhile_prefix _).eq_of_length same)
    have filled : text.drop (text.takeWhile fun char => !isSqliteGap char && char != ')').length ≠
        [] := by
      intro ended
      have none := List.drop_eq_nil_iff.mp ended
      omega
    rw [List.drop_append_of_le_length (Nat.le_of_lt shorter), List.head?_append_of_ne_nil _ filled]
    refine ⟨rfl, fun taken => ?_⟩
    split at taken
    · rw [← taken, List.getLast?_concat]
    · exact absurd taken whole

theorem openParameter_cons {char : Char} (filled : text ≠ []) :
    openParameter (char :: text) =
      ((char == '(' || text.contains '(') && text.getLast? != some ')') := by
  rw [openParameter, List.getLast?_cons_of_ne_nil filled, List.contains_cons, Bool.beq_comm]

theorem openParameter_skip {char : Char} (other : char ≠ '(') :
    openParameter (char :: text) = openParameter text := by
  cases text with
  | nil => simp [openParameter, other.symm]
  | cons next text =>
    rw [openParameter_cons (List.cons_ne_nil _ _), beq_eq_false_iff_ne.mpr other, Bool.false_or,
      openParameter]

theorem parameterBody_closing (named : Bool) (more : List Char) :
    parameterBody named (')' :: more) = [] := by
  cases more <;> simp [parameterBody, isIdChar]

theorem ne_opening_of_isIdChar {char : Char} (isId : isIdChar char = true) : char ≠ '(' := by
  rintro rfl
  exact absurd isId (by decide)

theorem parameterBody_append (named : Bool) (text more : List Char) :
    parameterBody named (text ++ ')' :: more) = parameterBody named text ∧
        (parameterBody named text = text → openParameter text = false) ∨
      openParameter text = true ∧ parameterBody named text = text ∧
        parameterBody named (text ++ ')' :: more) = text ++ [')'] := by
  fun_induction parameterBody named text with
  | case1 named => exact Or.inl ⟨parameterBody_closing named more, fun _ => rfl⟩
  | case2 named char continues =>
    rw [List.singleton_append, parameterBody, parameterBody_closing]
    by_cases isId : isIdChar char = true
    · refine Or.inl ⟨if_pos isId, fun _ => ?_⟩
      rw [openParameter_skip (ne_opening_of_isIdChar isId)]
      rfl
    · right
      rw [Bool.or_eq_true, Bool.and_eq_true, beq_iff_eq] at continues
      obtain ⟨rfl, isNamed⟩ := continues.resolve_left isId
      rw [if_neg isId, if_pos ⟨rfl, isNamed⟩]
      exact ⟨by decide, rfl, by simp [parameterSuffix]⟩
  | case3 named char ends =>
    rw [Bool.or_eq_true, Bool.and_eq_true, beq_iff_eq, not_or] at ends
    rw [List.singleton_append, parameterBody, if_neg ends.1, if_neg ends.2, if_neg]
    · exact Or.inl ⟨rfl, fun empty => absurd empty (List.cons_ne_nil _ _).symm⟩
    · exact fun colons => absurd colons.2 (by decide)
  | case4 named char next rest isId ih =>
    rw [List.cons_append, List.cons_append, parameterBody, if_pos isId, ← List.cons_append,
      openParameter_skip (ne_opening_of_isIdChar isId)]
    rcases ih with ⟨same, closed⟩ | ⟨unfinished, whole, taken⟩
    · exact Or.inl ⟨congrArg _ same, fun whole => closed (List.cons.inj whole).2⟩
    · exact Or.inr ⟨unfinished, congrArg _ whole, congrArg _ taken⟩
  | case5 named char next rest notId opens =>
    rw [List.cons_append, List.cons_append, parameterBody, if_neg notId, if_pos opens,
      ← List.cons_append, openParameter_cons (List.cons_ne_nil _ _), opens.1]
    rcases parameterSuffix_append (next :: rest) more with ⟨same, closed⟩ | ⟨absent, whole, taken⟩
    · refine Or.inl ⟨congrArg _ same, fun whole => ?_⟩
      rw [closed (List.cons.inj whole).2]
      rfl
    · have last : (next :: rest).getLast? ≠ some ')' :=
        fun isClosing => absent (List.mem_of_getLast? isClosing)
      exact Or.inr ⟨bne_iff_ne.mpr last, congrArg _ whole, congrArg _ taken⟩
  | case6 named char next rest notId notOpening colons ih =>
    rw [List.cons_append, List.cons_append, parameterBody, if_neg notId, if_neg notOpening,
      if_pos colons, openParameter_skip (by rw [colons.1]; decide),
      openParameter_skip (by rw [colons.2]; decide)]
    rcases ih with ⟨same, closed⟩ | ⟨unfinished, whole, taken⟩
    · refine Or.inl ⟨by rw [same], fun whole => closed ?_⟩
      exact (List.cons.inj (List.cons.inj whole).2).2
    · exact Or.inr ⟨unfinished, by rw [whole], by rw [taken]; rfl⟩
  | case7 named char next rest notId notOpening notColons =>
    rw [List.cons_append, List.cons_append, parameterBody, if_neg notId, if_neg notOpening,
      if_neg notColons]
    exact Or.inl ⟨rfl, fun empty => absurd empty (List.cons_ne_nil _ _).symm⟩

theorem ne_opening_of_start {char : Char} (start : isParameterStart char = true) : char ≠ '(' := by
  rintro rfl
  exact absurd start (by decide)

theorem isOpen_identifierOr (value : Option (List Char)) (text : List Char) :
    LexToken.isOpen ⟨identifierOr value, text⟩ = value.isNone := by
  cases value <;> rfl

theorem head_append {mark next : Char} (differs : mark ≠ next) :
    (text ++ next :: more).head? = some mark ↔ text.head? = some mark := by
  cases text with
  | nil => simp [differs.symm]
  | cons char text => rfl

theorem lineStart_append : character = '-' ∧ (rest ++ ')' :: more).head? = some '-' ↔
    character = '-' ∧ rest.head? = some '-' := by
  rw [head_append (show '-' ≠ ')' by decide)]

theorem blockStart_append : character = '/' ∧ (rest ++ ')' :: more).head? = some '*' ↔
    character = '/' ∧ rest.head? = some '*' := by
  rw [head_append (show '*' ≠ ')' by decide)]

theorem lexToken_append (character : Char) (rest more : List Char) :
    lexToken character (rest ++ ')' :: more) = lexToken character rest ∨
      (lexToken character rest).isOpen = true ∧
        (lexToken character rest).text = character :: rest := by
  rw [lexToken, lexToken]
  by_cases isSpace : isSqliteSpace character = true
  · rw [if_pos isSpace, if_pos isSpace, takeWhile_append_stop (by decide)]
    exact Or.inl rfl
  rw [if_neg isSpace, if_neg isSpace]
  by_cases isMark : character = byteOrderMark
  · rw [if_pos isMark, if_pos isMark]
    exact Or.inl rfl
  rw [if_neg isMark, if_neg isMark]
  by_cases line : character = '-' ∧ rest.head? = some '-'
  · rw [if_pos (lineStart_append.mpr line), if_pos line]
    by_cases ended : '\n' ∈ rest
    · exact Or.inl (by rw [takeWhile_append_ended ⟨_, ended, by decide⟩])
    · refine Or.inr ⟨by rw [line.1]; rfl, congrArg _ (List.takeWhile_eq_self_iff.mpr ?_)⟩
      exact fun char member => bne_iff_ne.mpr fun newline => ended (newline ▸ member)
  rw [if_neg (mt lineStart_append.mp line), if_neg line]
  by_cases block : character = '/' ∧ rest.head? = some '*'
  · rw [if_pos (blockStart_append.mpr block), if_pos block]
    obtain ⟨body, rfl⟩ := List.head?_eq_some_iff.mp block.2
    cases ends : endsBlock body with
    | true =>
      rw [List.cons_append, List.tail_cons, List.tail_cons, blockBody_append ends]
      exact Or.inl rfl
    | false =>
      rw [List.tail_cons, blockBody_open ends]
      refine Or.inr ⟨?_, rfl⟩
      simp [LexToken.isOpen, ends]
  rw [if_neg (mt blockStart_append.mp block), if_neg block]
  by_cases isString : character = apostrophe
  · rw [if_pos isString, if_pos isString]
    have differs : ')' ≠ character := by rw [isString]; decide
    rcases quoted_append_cases differs rest more with ⟨value, body⟩ | ⟨value, body⟩
    · exact Or.inl (by rw [value, body])
    · rw [value, body]
      exact Or.inr ⟨rfl, rfl⟩
  rw [if_neg isString, if_neg isString]
  by_cases isName : character = quotationMark ∨ character = backtick
  · rw [if_pos isName, if_pos isName]
    have differs : ')' ≠ character := by rcases isName with rfl | rfl <;> decide
    rcases quoted_append_cases differs rest more with ⟨value, body⟩ | ⟨value, body⟩
    · exact Or.inl (by rw [value, body])
    · rw [value, body]
      exact Or.inr ⟨rfl, rfl⟩
  rw [if_neg isName, if_neg isName]
  by_cases isBracket : character = '['
  · rw [if_pos isBracket, if_pos isBracket]
    by_cases closed : ']' ∈ rest
    · have value : (rest ++ ')' :: more).takeWhile (· != ']') = rest.takeWhile (· != ']') :=
        takeWhile_append_ended ⟨_, closed, by decide⟩
      rw [if_pos closed, if_pos (List.mem_append_left _ closed), bracketBody_append closed, value]
      exact Or.inl rfl
    · rw [if_neg closed, bracketBody_open closed]
      exact Or.inr ⟨rfl, rfl⟩
  rw [if_neg isBracket, if_neg isBracket]
  by_cases isWord : isIdStart character = true
  · rw [if_pos isWord, if_pos isWord, takeWhile_append_stop (by decide)]
    exact Or.inl rfl
  rw [if_neg isWord, if_neg isWord]
  by_cases start : isParameterStart character = true
  · rw [if_pos start, if_pos start]
    rcases parameterBody_append false rest more with ⟨same, _⟩ | ⟨unfinished, whole, _⟩
    · exact Or.inl (by rw [same])
    · rw [whole]
      refine Or.inr ⟨?_, rfl⟩
      rwa [LexToken.isOpen, openParameter_skip (ne_opening_of_start start)]
  rw [if_neg start, if_neg start, takeWhile_append_stop (by decide)]
  exact Or.inl rfl

structure EndsNothing (text : List Char) : Prop where
  newline : '\n' ∉ text
  apostrophes : apostrophe ∉ text
  quotationMarks : quotationMark ∉ text
  backticks : backtick ∉ text
  brackets : ']' ∉ text
  blocks : endsBlock text = false

theorem lexToken_open (quiet : EndsNothing (')' :: more))
    (isOpen : (lexToken character rest).isOpen = true)
    (whole : (lexToken character rest).text = character :: rest) :
    (lexToken character (rest ++ ')' :: more)).text = character :: rest ++ ')' :: more ∨
      (lexToken character rest).isBlank = false ∧
        (lexToken character (rest ++ ')' :: more)).text = character :: rest ++ [')'] := by
  rw [lexToken] at isOpen whole
  rw [lexToken, lexToken]
  by_cases isSpace : isSqliteSpace character = true
  · rw [if_pos isSpace] at isOpen
    cases isOpen
  rw [if_neg isSpace] at isOpen whole
  rw [if_neg isSpace, if_neg isSpace]
  by_cases isMark : character = byteOrderMark
  · rw [if_pos isMark] at isOpen
    cases isOpen
  rw [if_neg isMark] at isOpen whole
  rw [if_neg isMark, if_neg isMark]
  by_cases line : character = '-' ∧ rest.head? = some '-'
  · rw [if_pos line] at whole
    rw [if_pos (lineStart_append.mpr line)]
    left
    have inside := List.takeWhile_eq_self_iff.mp (List.cons.inj whole).2
    refine congrArg _ (List.takeWhile_eq_self_iff.mpr fun char member => ?_)
    rcases List.mem_append.mp member with before | after
    · exact inside char before
    · exact bne_iff_ne.mpr fun newline => quiet.newline (newline ▸ after)
  rw [if_neg line] at isOpen whole
  rw [if_neg (mt lineStart_append.mp line), if_neg line]
  by_cases block : character = '/' ∧ rest.head? = some '*'
  · rw [if_pos block] at isOpen
    rw [if_pos (blockStart_append.mpr block)]
    obtain ⟨body, rfl⟩ := List.head?_eq_some_iff.mp block.2
    left
    rw [List.tail_cons] at isOpen
    have unfinished : endsBlock body = false := by
      simpa [LexToken.isOpen, block.1, endsBlock_blockBody] using isOpen
    rw [List.cons_append, List.tail_cons,
      blockBody_open (endsBlock_append unfinished (by simp) quiet.blocks)]
    rfl
  rw [if_neg block] at isOpen whole
  rw [if_neg (mt blockStart_append.mp block), if_neg block]
  by_cases isString : character = apostrophe
  · rw [if_pos isString] at isOpen
    rw [if_pos isString]
    left
    have unfinished : quotedValue character rest = none := by
      cases value : quotedValue character rest with
      | none => rfl
      | some found => rw [value] at isOpen; cases isOpen
    rw [quotedBody_unclosed (quotedValue_append_open unfinished (isString ▸ quiet.apostrophes))]
    rfl
  rw [if_neg isString] at isOpen whole
  rw [if_neg isString, if_neg isString]
  by_cases isName : character = quotationMark ∨ character = backtick
  · rw [if_pos isName] at isOpen
    rw [if_pos isName]
    left
    rw [isOpen_identifierOr, Option.isNone_iff_eq_none] at isOpen
    have absent : character ∉ ')' :: more := by
      rcases isName with rfl | rfl
      · exact quiet.quotationMarks
      · exact quiet.backticks
    rw [quotedBody_unclosed (quotedValue_append_open isOpen absent)]
    rfl
  rw [if_neg isName] at isOpen whole
  rw [if_neg isName, if_neg isName]
  by_cases isBracket : character = '['
  · rw [if_pos isBracket] at isOpen
    rw [if_pos isBracket]
    left
    have absent : ']' ∉ rest := by
      intro present
      rw [if_pos present] at isOpen
      cases isOpen
    have still : ']' ∉ rest ++ ')' :: more := by
      rw [List.mem_append, not_or]
      exact ⟨absent, quiet.brackets⟩
    rw [bracketBody_open still]
    rfl
  rw [if_neg isBracket] at isOpen whole
  rw [if_neg isBracket, if_neg isBracket]
  by_cases isWord : isIdStart character = true
  · rw [if_pos isWord] at isOpen
    cases isOpen
  rw [if_neg isWord] at isOpen whole
  rw [if_neg isWord, if_neg isWord]
  by_cases start : isParameterStart character = true
  · rw [if_pos start] at isOpen whole
    rw [if_pos start, if_pos start]
    right
    have body : parameterBody false rest = rest := (List.cons.inj whole).2
    have opens : openParameter (character :: rest) = true := by
      rw [body] at isOpen
      exact isOpen
    rw [openParameter_skip (ne_opening_of_start start)] at opens
    rcases parameterBody_append false rest more with ⟨_, closed⟩ | ⟨_, _, taken⟩
    · rw [closed body] at opens
      cases opens
    · exact ⟨rfl, congrArg _ taken⟩
  rw [if_neg start] at isOpen
  split at isOpen <;> cases isOpen

theorem lexFrom_fuel (fuel : Nat) (text : List Char) (enough : text.length ≤ fuel) :
    lexFrom fuel text = lex text := by
  rw [lex]
  induction fuel using Nat.strongRecOn generalizing text with
  | ind fuel ih =>
    cases text with
    | nil => cases fuel <;> rfl
    | cons char rest =>
      obtain ⟨less, rfl⟩ : ∃ less, fuel = less + 1 := ⟨fuel - 1, by simp at enough; omega⟩
      have shorter := length_afterToken char rest
      rw [List.length_cons] at enough ⊢
      rw [lexFrom, lexFrom]
      refine congrArg _ ?_
      rw [← afterToken, ih less (Nat.lt_succ_self _) _ (by omega),
        ← ih rest.length (by omega) _ shorter]

theorem lex_nil : lex [] = [] := rfl

theorem lex_cons (char : Char) (rest : List Char) :
    lex (char :: rest) = lexToken char rest :: lex (afterToken char rest) := by
  rw [← lexFrom_fuel rest.length _ (length_afterToken char rest)]
  rfl

theorem lex_eq_nil (empty : lex text = []) : text = [] := by
  cases text with
  | nil => rfl
  | cons char rest =>
    rw [lex_cons] at empty
    cases empty

theorem afterToken_append {char : Char}
    (same : lexToken char (rest ++ more) = lexToken char rest) :
    afterToken char (rest ++ more) = afterToken char rest ++ more := by
  have joined := text_afterToken char (rest ++ more)
  rw [same] at joined
  refine List.append_cancel_left (joined.trans ?_)
  rw [← List.append_assoc, text_afterToken]
  rfl

theorem afterToken_whole {char : Char} (whole : (lexToken char rest).text = char :: rest) :
    afterToken char rest = [] := by
  have joined := text_afterToken char rest
  rwa [whole, List.append_right_eq_self] at joined

theorem lex_append {before : List LexToken} (split : lex text = before ++ [token]) :
    ∃ char rest, lexToken char rest = token ∧ token.text = char :: rest ∧
      ∀ more, lex (text ++ ')' :: more) = before ++ lex (char :: (rest ++ ')' :: more)) := by
  induction before generalizing text with
  | nil =>
    cases text with
    | nil => cases split
    | cons char rest =>
      rw [lex_cons, List.nil_append, List.cons.injEq] at split
      have whole := text_afterToken char rest
      rw [lex_eq_nil split.2, List.append_nil, split.1] at whole
      exact ⟨char, rest, split.1, whole, fun more => rfl⟩
  | cons first before ih =>
    cases text with
    | nil => cases split
    | cons char rest =>
      rw [lex_cons, List.cons_append, List.cons.injEq] at split
      obtain ⟨last, inner, isToken, whole, joined⟩ := ih split.2
      refine ⟨last, inner, isToken, whole, fun more => ?_⟩
      rcases lexToken_append char rest more with same | ⟨_, wholeText⟩
      · rw [List.cons_append, lex_cons, same, afterToken_append same, joined more, split.1]
        rfl
      · rw [afterToken_whole wholeText] at split
        exact absurd split.2.symm (List.append_ne_nil_of_right_ne_nil _ (List.cons_ne_nil _ _))

end Metidos.Sql
