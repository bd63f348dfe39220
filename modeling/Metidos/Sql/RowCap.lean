import Metidos.Library.Brackets
import Metidos.Library.JsText
import Metidos.Sql.FunctionCalls
import Metidos.Sql.LexAppend

/-!
The guards before a statement of a plugin reaches its database, and the text that `sqlite.all`
prepares there.
-/

namespace Metidos.Sql.Plugin

open JsText

def MAX_PLUGIN_SQLITE_ALL_ROWS : Nat := 1000

/-- `field` is the value in the request, if it is a string. -/
def requiredStringField (field : Option (List Char)) (key : String) :
    Except SqliteError (List Char) :=
  match field.map trim with
  | some (first :: rest) => .ok (first :: rest)
  | _ =>
    .error ⟨"invalid_plugin_sqlite_request",
      "Plugin SQLite request requires a non-empty " ++ key ++ " string."⟩

def getFirstSqlIdentifier (sql : List Char) : Option (List Char × List Char) :=
  readSqlIdentifier (skipSqlWhitespaceAndComments sql)

def firstKeyword (statementText : List Char) : List Char :=
  (getFirstSqlIdentifier statementText).elim [] fun found => toLowerCase found.1

def disallowed {α : Type} (message : String) : Except SqliteError α :=
  .error ⟨"disallowed_plugin_sqlite_statement", message⟩

def transactionKeywords : List (List Char) :=
  ["begin".toList, "commit".toList, "rollback".toList, "savepoint".toList, "release".toList]

def assertSqliteStatementAllowed (statementText : List Char) : Except SqliteError Unit :=
  let firstIdentifier := getFirstSqlIdentifier statementText
  let keyword := firstKeyword statementText
  let findInto (found : List Char × List Char) := findSqlIdentifier found.2 "into".toList
  if keyword = "attach".toList then disallowed "ATTACH is not allowed in plugin SQLite."
  else if keyword = "detach".toList then disallowed "DETACH is not allowed in plugin SQLite."
  else if transactionKeywords.contains keyword then
    disallowed "Transaction-control statements are not allowed in plugin SQLite."
  else if keyword = "vacuum".toList ∧ (firstIdentifier.bind findInto).isSome = true then
    disallowed "VACUUM INTO is not allowed in plugin SQLite."
  else if containsSqlFunctionCall statementText "load_extension".toList then
    disallowed "load_extension() is not allowed in plugin SQLite."
  else if keyword = "pragma".toList then
    disallowed "PRAGMA is not allowed in plugin SQLite run statements."
  else .ok ()

def READ_QUERY_DISALLOWED_IDENTIFIERS : List (List Char) :=
  ["alter".toList, "attach".toList, "begin".toList, "commit".toList, "create".toList,
    "delete".toList, "detach".toList, "drop".toList, "insert".toList, "pragma".toList,
    "reindex".toList, "release".toList, "replace".toList, "rollback".toList,
    "savepoint".toList, "update".toList, "vacuum".toList]

def containsSqlIdentifierFromSetFrom (identifiers : List (List Char)) :
    Nat → List Char → Bool
  | 0, _ => false
  | fuel + 1, text =>
    match skipSqlWhitespaceAndComments text with
    | [] => false
    | character :: rest =>
      if character = apostrophe ∨ isQuote character = true then
        containsSqlIdentifierFromSetFrom identifiers fuel
          (skipQuotedBody (closingQuoteOf character) rest)
      else
        match readSqlIdentifier (character :: rest) with
        | some (value, next) =>
          identifiers.contains (toLowerCase value) ||
            containsSqlIdentifierFromSetFrom identifiers fuel next
        | none => containsSqlIdentifierFromSetFrom identifiers fuel rest

def containsSqlIdentifierFromSet (sql : List Char) (identifiers : List (List Char)) : Bool :=
  containsSqlIdentifierFromSetFrom identifiers sql.length sql

def assertReadStatement (statementText : List Char) (operation : String) :
    Except SqliteError Unit :=
  let keyword := firstKeyword statementText
  if keyword ≠ "select".toList ∧ keyword ≠ "with".toList then
    disallowed (operation ++ " only supports SELECT statements.")
  else if containsSqlIdentifierFromSet statementText READ_QUERY_DISALLOWED_IDENTIFIERS then
    disallowed (operation ++ " only supports read-only SELECT statements.")
  else .ok ()

def cappedAllStatementText (statementText : List Char) : List Char :=
  "SELECT * FROM (".toList ++ statementText ++ ") LIMIT ".toList ++
    stringOfNumber (MAX_PLUGIN_SQLITE_ALL_ROWS + 1)

/-- The statement of a `sqlite.all` that the guards let through. -/
def acceptedReadStatement (field : Option (List Char)) : Except SqliteError (List Char) := do
  let statement ← requiredStringField field "statement"
  let statementText ← requireSingleStatement statement
  assertSqliteStatementAllowed statementText
  assertReadStatement statementText "sqlite.all"
  return statementText

def preparedAllStatement (field : Option (List Char)) : Except SqliteError (List Char) :=
  (acceptedReadStatement field).map cappedAllStatementText

end Metidos.Sql.Plugin

/-!
The statement that `sqlite.all` prepares, against the query it was asked for: as a subquery under
a limit for as many rows as are kept, and one more.
-/

namespace Metidos.Sql

open JsText Metidos.Sql.Plugin

def semicolon : LexToken := ⟨.other, [';']⟩

def openingParenthesis : LexToken := ⟨.other, ['(']⟩

def closingParenthesis : LexToken := ⟨.other, [')']⟩

def firstStatement (tokens : List LexToken) : List LexToken :=
  (tokens.filter fun token => !token.isBlank).takeWhile (· != semicolon)

def readTokens (text : List Char) : List LexToken :=
  firstStatement (lex (text.takeWhile (· != Char.ofNat 0)))

def untilClosed : List LexToken → Option (List LexToken × List LexToken) :=
  Brackets.untilClosed openingParenthesis closingParenthesis 0

def isBalanced : List LexToken → Bool := Brackets.balanced openingParenthesis closingParenthesis 0

/-- The subquery of `SELECT * FROM (…)`, with what comes after it. -/
def subqueryOf : List LexToken → Option (List LexToken × List LexToken)
  | select :: star :: source :: opening :: rest =>
    if select.names "select".toList = true ∧ star = ⟨.other, ['*']⟩ ∧
        source.names "from".toList = true ∧ opening = openingParenthesis then
      untilClosed rest
    else none
  | _ => none

def limitClause (count : Nat) : List LexToken :=
  [⟨.identifier "LIMIT".toList, "LIMIT".toList⟩, ⟨.other, stringOfNumber count⟩]

section Rows

variable {Row : Type} (rowAt : List LexToken → Nat → Option Row) (isSelect : List LexToken → Prop)

/-- How SQLite answers a query over a subquery with a limit: by the rows of the subquery, as far
as the limit goes. A query without a row at an index has fewer rows, or has failed before it. -/
def ReadsSubqueries : Prop :=
  ∀ query body count, subqueryOf query = some (body, limitClause count) → isSelect body →
    ∀ index, rowAt query index = if index < count then rowAt body index else none

def CapsRows (statementText preparedText : List Char) : Prop :=
  preparedText = statementText ∨
    subqueryOf (readTokens preparedText) =
        some (readTokens statementText, limitClause (MAX_PLUGIN_SQLITE_ALL_ROWS + 1)) ∧
      (isSelect (readTokens statementText) → ∀ index,
        rowAt (readTokens preparedText) index =
          if index < MAX_PLUGIN_SQLITE_ALL_ROWS + 1 then rowAt (readTokens statementText) index
          else none)

end Rows

/-- The statement keeps to itself between two parentheses. -/
structure KeepsInside (statementText : List Char) : Prop where
  noZero : Char.ofNat 0 ∉ statementText
  noSemicolon : semicolon ∉ lex statementText
  finished : ∀ token ∈ (lex statementText).getLast?, token.isOpen = false
  balanced : isBalanced (readTokens statementText) = true

variable {text statementText : List Char} {tokens more before : List LexToken} {token : LexToken}

def limitText : List Char := " LIMIT 1001".toList

theorem cappedAllStatementText_eq (statementText : List Char) :
    cappedAllStatementText statementText =
      "SELECT * FROM (".toList ++ (statementText ++ ')' :: limitText) :=
  (List.append_assoc _ _ _).trans (List.append_assoc _ _ _)

theorem limitText_quiet : EndsNothing (')' :: limitText) :=
  ⟨by decide, by decide, by decide, by decide, by decide, by decide⟩

def selectTokens : List LexToken :=
  [⟨.identifier "SELECT".toList, "SELECT".toList⟩, ⟨.other, ['*']⟩,
    ⟨.identifier "FROM".toList, "FROM".toList⟩, openingParenthesis]

def limitTokens : List LexToken := closingParenthesis :: limitClause 1001

theorem subqueryOf_select (rest : List LexToken) :
    subqueryOf (selectTokens ++ rest) = untilClosed rest := rfl


theorem lex_select (text : List Char) :
    ∃ opening, lex ("SELECT * FROM (".toList ++ text) = opening ++ lex text ∧
      semicolon ∉ opening ∧ opening.filter (fun token => !token.isBlank) = selectTokens := by
  refine ⟨lex "SELECT * FROM (".toList, ?_, by decide, by decide⟩
  have fuel : lex ("SELECT * FROM (".toList ++ text) =
      lexFrom (text.length + 15) ("SELECT * FROM (".toList ++ text) := rfl
  rw [fuel, ← lexFrom_fuel (text.length + 8) text (by omega)]
  rfl

theorem firstStatement_append (none : semicolon ∉ tokens) (more : List LexToken) :
    firstStatement (tokens ++ more) =
      tokens.filter (fun token => !token.isBlank) ++ firstStatement more := by
  rw [firstStatement, List.filter_append, List.takeWhile_append_of_pos]
  · rfl
  · intro token member
    exact bne_iff_ne.mpr fun isEnd => none (isEnd ▸ (List.mem_filter.mp member).1)

theorem firstStatement_plain (none : semicolon ∉ tokens) :
    firstStatement tokens = tokens.filter (fun token => !token.isBlank) := by
  have joined := firstStatement_append none []
  rwa [List.append_nil, show firstStatement [] = [] from rfl, List.append_nil] at joined

theorem firstStatement_ended (ended : semicolon ∈ tokens) (more : List LexToken) :
    firstStatement (tokens ++ more) = firstStatement tokens := by
  obtain ⟨front, back, rfl, none⟩ := List.eq_append_cons_of_mem ended
  have stops : ∀ rest, firstStatement (semicolon :: rest) = [] := fun rest => rfl
  rw [List.append_assoc, firstStatement_append none, firstStatement_append none, List.cons_append,
    stops, stops]

theorem length_firstStatement (tokens : List LexToken) :
    (firstStatement tokens).length ≤ (tokens.filter fun token => !token.isBlank).length :=
  (List.takeWhile_prefix _).length_le

theorem length_filter_cons (token : LexToken) (tokens : List LexToken) :
    ((token :: tokens).filter fun token => !token.isBlank).length ≤
      (tokens.filter fun token => !token.isBlank).length + 1 := by
  rw [List.filter_cons]
  split
  · rfl
  · exact Nat.le_succ _

theorem isOpen_semicolon : semicolon.isOpen = false := rfl

theorem lex_closing : firstStatement (lex (')' :: limitText)) = limitTokens := by decide

theorem lex_finished (finished : ∀ token ∈ (lex text).getLast?, token.isOpen = false) :
    lex (text ++ ')' :: limitText) = lex text ++ lex (')' :: limitText) := by
  rcases List.eq_nil_or_concat (lex text) with empty | ⟨before, token, split⟩
  · rw [empty, lex_eq_nil empty]
    rfl
  · rw [List.concat_eq_append] at split
    obtain ⟨char, rest, isToken, whole, joined⟩ := lex_append split
    have closed := finished token (by rw [split, List.getLast?_concat]; rfl)
    rcases lexToken_append char rest limitText with same | ⟨isOpen, _⟩
    · have none := afterToken_whole (isToken ▸ whole)
      rw [joined, lex_cons, same, afterToken_append same, none, isToken, split, List.append_assoc]
      rfl
    · rw [isToken, closed] at isOpen
      cases isOpen

theorem lex_unfinished (split : lex text = before ++ [token]) (isOpen : token.isOpen = true) :
    ∃ taken, lex (text ++ ')' :: limitText) = before ++ taken ∧
      (firstStatement taken).length < (firstStatement [token]).length + limitTokens.length := by
  obtain ⟨char, rest, rfl, whole, joined⟩ := lex_append split
  refine ⟨_, joined limitText, ?_⟩
  rw [lex_cons]
  have parts := text_afterToken char (rest ++ ')' :: limitText)
  rcases lexToken_open limitText_quiet isOpen whole with all | ⟨filled, parenthesis⟩
  · rw [afterToken_whole all, lex_nil]
    have one := length_filter_cons (lexToken char (rest ++ ')' :: limitText)) []
    have shorter := length_firstStatement [lexToken char (rest ++ ')' :: limitText)]
    have three : limitTokens.length = 3 := rfl
    rw [List.filter_nil, List.length_nil] at one
    omega
  · have after : afterToken char (rest ++ ')' :: limitText) = limitText := by
      rw [parenthesis] at parts
      refine List.append_cancel_left (parts.trans ?_)
      simp
    have notEnd : semicolon ∉ [lexToken char rest] := by
      intro member
      rw [← List.mem_singleton.mp member, isOpen_semicolon] at isOpen
      cases isOpen
    have kept : (firstStatement [lexToken char rest]).length = 1 := by
      rw [firstStatement_plain notEnd, List.filter_cons, filled]
      rfl
    have one := length_filter_cons (lexToken char (rest ++ ')' :: limitText)) (lex limitText)
    have two : ((lex limitText).filter fun token => !token.isBlank).length = 2 := by decide
    have shorter := length_firstStatement
      (lexToken char (rest ++ ')' :: limitText) :: lex limitText)
    have three : limitTokens.length = 3 := rfl
    rw [after]
    omega

theorem firstStatement_capped_iff (text : List Char) :
    firstStatement (lex (text ++ ')' :: limitText)) = firstStatement (lex text) ++ limitTokens ↔
      semicolon ∉ lex text ∧ ∀ token ∈ (lex text).getLast?, token.isOpen = false := by
  constructor
  · intro whole
    have lengths := congrArg List.length whole
    rw [List.length_append] at lengths
    have three : limitTokens.length = 3 := rfl
    have finished : ∀ token ∈ (lex text).getLast?, token.isOpen = false := by
      intro token isLast
      refine Bool.eq_false_iff.mpr fun isOpen => ?_
      obtain ⟨before, split⟩ := List.getLast?_eq_some_iff.mp isLast
      obtain ⟨taken, joined, fewer⟩ := lex_unfinished split isOpen
      rw [joined, split] at lengths
      by_cases ended : semicolon ∈ before
      · rw [firstStatement_ended ended, firstStatement_ended ended] at lengths
        omega
      · rw [firstStatement_append ended, firstStatement_append ended, List.length_append,
          List.length_append] at lengths
        omega
    refine ⟨fun ended => ?_, finished⟩
    rw [lex_finished finished, firstStatement_ended ended] at lengths
    omega
  · rintro ⟨noSemicolon, finished⟩
    rw [lex_finished finished, firstStatement_append noSemicolon, firstStatement_plain noSemicolon,
      lex_closing]

theorem takeWhile_zero_capped (statementText : List Char) :
    (cappedAllStatementText statementText).takeWhile (· != Char.ofNat 0) =
      "SELECT * FROM (".toList ++
        (statementText ++ ')' :: limitText).takeWhile (· != Char.ofNat 0) := by
  rw [cappedAllStatementText_eq, List.takeWhile_append_of_pos (List.all_eq_true.mp (by decide))]

theorem readTokens_select (inner : List Char)
    (cut : text.takeWhile (· != Char.ofNat 0) = "SELECT * FROM (".toList ++ inner) :
    readTokens text = selectTokens ++ firstStatement (lex inner) := by
  obtain ⟨opening, split, none, shown⟩ := lex_select inner
  rw [readTokens, cut, split, firstStatement_append none, shown]

theorem subquery_capped_iff (statementText : List Char) :
    subqueryOf (readTokens (cappedAllStatementText statementText)) =
        some (readTokens statementText, limitClause (MAX_PLUGIN_SQLITE_ALL_ROWS + 1)) ↔
      KeepsInside statementText := by
  have cut := takeWhile_zero_capped statementText
  by_cases zero : Char.ofNat 0 ∈ statementText
  · rw [takeWhile_append_ended ⟨_, zero, by decide⟩] at cut
    rw [readTokens_select _ cut, subqueryOf_select]
    constructor
    · intro found
      have whole := (Brackets.untilClosed_sound found).1
      exact absurd (List.append_right_eq_self.mp whole.symm) (List.cons_ne_nil _ _)
    · exact fun keeps => absurd zero keeps.noZero
  · have none : Char.ofNat 0 ∉ statementText ++ ')' :: limitText := by
      rw [List.mem_append, not_or]
      exact ⟨zero, by decide⟩
    have same : readTokens statementText = firstStatement (lex statementText) := by
      rw [readTokens, no_zero_takeWhile zero]
    rw [no_zero_takeWhile none] at cut
    rw [readTokens_select _ cut, subqueryOf_select, untilClosed, Brackets.untilClosed_eq_some_iff,
      show closingParenthesis :: limitClause (MAX_PLUGIN_SQLITE_ALL_ROWS + 1) = limitTokens from rfl,
      same, firstStatement_capped_iff]
    constructor
    · rintro ⟨⟨noSemicolon, finished⟩, balanced⟩
      exact ⟨zero, noSemicolon, finished, by rwa [same]⟩
    · rintro ⟨_, noSemicolon, finished, balanced⟩
      rw [same] at balanced
      exact ⟨⟨noSemicolon, finished⟩, balanced⟩

theorem cappedAllStatementText_ne (statementText : List Char) :
    cappedAllStatementText statementText ≠ statementText := by
  intro same
  have lengths := congrArg List.length same
  have added : "SELECT * FROM (".toList.length = 15 := rfl
  rw [cappedAllStatementText_eq, List.length_append, List.length_append, added] at lengths
  omega

/-- `sqlite.all` answers with the first rows of the statement it accepted, in all cases in which
the statement keeps to itself between the parentheses, and in no other. -/
theorem capsRows_iff {Row : Type} (rowAt : List LexToken → Nat → Option Row)
    (isSelect : List LexToken → Prop) (reads : ReadsSubqueries rowAt isSelect)
    (field : Option (List Char)) (statementText : List Char)
    (accepted : acceptedReadStatement field = .ok statementText) :
    ∃ preparedText, preparedAllStatement field = .ok preparedText ∧
      (CapsRows rowAt isSelect statementText preparedText ↔ KeepsInside statementText) := by
  refine ⟨cappedAllStatementText statementText, by rw [preparedAllStatement, accepted]; rfl, ?_⟩
  constructor
  · rintro (same | ⟨whole, _⟩)
    · exact absurd same (cappedAllStatementText_ne statementText)
    · exact (subquery_capped_iff statementText).mp whole
  · intro keeps
    have whole := (subquery_capped_iff statementText).mpr keeps
    exact Or.inr ⟨whole, reads _ _ _ whole⟩

namespace Sample

def oneRow : List LexToken :=
  [⟨.identifier "SELECT".toList, "SELECT".toList⟩, ⟨.other, ['1']⟩]

def rowsOfOne (query : List LexToken) (index : Nat) : Option Nat :=
  if index = 0 ∧ (query = oneRow ∨ (subqueryOf query).any fun found =>
      found.1 = oneRow ∧ found.2 ≠ limitClause 0) then some 1 else none

theorem limitClause_zero {count : Nat} : limitClause count = limitClause 0 ↔ count = 0 := by
  constructor
  · intro same
    have numbers := (LexToken.mk.inj (List.cons.inj (List.cons.inj same).2).1).2
    exact stringOfNumber_injective numbers
  · rintro rfl
    rfl

theorem rowsOfOne_reads : ReadsSubqueries rowsOfOne (· = oneRow) := by
  rintro query body count found rfl index
  have notOne : query ≠ oneRow := by
    rintro rfl
    cases found
  have itself : subqueryOf oneRow = none := rfl
  simp only [rowsOfOne, found, itself, notOne, Option.any_some, Option.any_none, limitClause_zero,
    false_or, true_or, and_true, ne_eq, true_and, decide_eq_true_eq]
  by_cases first : index = 0
  · subst first
    cases count <;> simp
  · simp [first]

end Sample

theorem capsRows_iff_one : ∃ preparedText,
    preparedAllStatement (some "SELECT 1;".toList) = .ok preparedText ∧
      (CapsRows Sample.rowsOfOne (· = Sample.oneRow) "SELECT 1".toList preparedText ↔
        KeepsInside "SELECT 1".toList) :=
  capsRows_iff Sample.rowsOfOne _ Sample.rowsOfOne_reads (some "SELECT 1;".toList)
    "SELECT 1".toList (by decide +kernel)

theorem capsRows_comment :
    acceptedReadStatement (some "SELECT 1 -- one".toList) = .ok "SELECT 1 -- one".toList ∧
      preparedAllStatement (some "SELECT 1 -- one".toList) =
        .ok "SELECT * FROM (SELECT 1 -- one) LIMIT 1001".toList ∧
      ¬CapsRows Sample.rowsOfOne (· = Sample.oneRow) "SELECT 1 -- one".toList
        "SELECT * FROM (SELECT 1 -- one) LIMIT 1001".toList := by
  refine ⟨by decide +kernel, by decide +kernel, ?_⟩
  rintro (same | ⟨whole, _⟩)
  · exact absurd same (by decide +kernel)
  · exact absurd whole (by decide +kernel)

end Metidos.Sql
