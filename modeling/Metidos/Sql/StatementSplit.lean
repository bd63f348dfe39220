import Metidos.Library.JsNumerals

/-!
The statement splitter behind the single-statement guard of the plugin database: a scanner with
one mode for each kind of quote and comment, and a textual test for trigger bodies.
`SqliteStatements` says where SQLite ends a statement; `SplitAgreement` compares the two.
-/

namespace Metidos.Sql

open JsText

def apostrophe : Char := Char.ofNat 39

def quotationMark : Char := Char.ofNat 34

def backtick : Char := Char.ofNat 96

def isWordChar (char : Char) : Bool := char.isAlphanum || char == '_'

def stripWord (word : String) (text : List Char) : Option (List Char) :=
  if word.toList.isPrefixOf text then some (text.drop word.length) else none

def stripSpaces (text : List Char) : Option (List Char) :=
  if text.head?.any isWhiteSpace then some (text.dropWhile isWhiteSpace) else none

/-- `create\s+(?:temp(?:orary)?\s+)?trigger\b` at the start of `text`. -/
def createTriggerHere (text : List Char) : Bool :=
  match (stripWord "create" text).bind stripSpaces with
  | none => false
  | some rest =>
    let temporary := (stripWord "temporary" rest).bind stripSpaces
    let temp := (stripWord "temp" rest).bind stripSpaces
    match stripWord "trigger" ((temporary.or temp).getD rest) with
    | none => false
    | some after => !after.head?.any isWordChar

/-- `/\bcreate\s+(?:temp(?:orary)?\s+)?trigger\b/`; the word boundary before `create` holds
where no word character comes before. -/
def hasCreateTriggerFrom (afterWordChar : Bool) : List Char → Bool
  | [] => false
  | char :: rest =>
    (!afterWordChar && createTriggerHere (char :: rest)) ||
      hasCreateTriggerFrom (isWordChar char) rest

def hasCreateTrigger (text : List Char) : Bool := hasCreateTriggerFrom false text

def endsWithEnd (text : List Char) : Bool :=
  match text.reverse.dropWhile isWhiteSpace with
  | 'd' :: 'n' :: 'e' :: before => !before.head?.any isWordChar
  | _ => false

/-- A semicolon after `currentStatement` is taken as one of a trigger body. -/
def insideTrigger (currentStatement : List Char) : Bool :=
  let lowerCurrentStatement := toLowerCase currentStatement
  hasCreateTrigger lowerCurrentStatement && !endsWithEnd lowerCurrentStatement

/-- The flags of the scanner, of which at most one is set. -/
inductive ScanMode
  | topLevel
  | singleQuote
  | doubleQuote
  | backtickQuote
  | bracketIdentifier
  | lineComment
  | blockComment
deriving DecidableEq

/-- The mode after `character`, and whether `nextCharacter` is appended along with it. -/
@[grind =] def scanCharacter (mode : ScanMode) (character : Char) (nextCharacter : Option Char) :
    ScanMode × Bool :=
  match mode with
  | .lineComment => (if character = '\n' then .topLevel else .lineComment, false)
  | .blockComment =>
    if character = '*' ∧ nextCharacter = some '/' then (.topLevel, true)
    else (.blockComment, false)
  | .singleQuote =>
    if character = apostrophe ∧ nextCharacter = some apostrophe then (.singleQuote, true)
    else (if character = apostrophe then .topLevel else .singleQuote, false)
  | .doubleQuote =>
    if character = quotationMark ∧ nextCharacter = some quotationMark then (.doubleQuote, true)
    else (if character = quotationMark then .topLevel else .doubleQuote, false)
  | .backtickQuote => (if character = backtick then .topLevel else .backtickQuote, false)
  | .bracketIdentifier => (if character = ']' then .topLevel else .bracketIdentifier, false)
  | .topLevel =>
    if character = '-' ∧ nextCharacter = some '-' then (.lineComment, true)
    else if character = '/' ∧ nextCharacter = some '*' then (.blockComment, true)
    else if character = apostrophe then (.singleQuote, false)
    else if character = quotationMark then (.doubleQuote, false)
    else if character = backtick then (.backtickQuote, false)
    else if character = '[' then (.bracketIdentifier, false)
    else (.topLevel, false)

def flushCurrentStatement (statements : List (List Char)) (currentParts : List Char) :
    List (List Char) :=
  let trimmed := trim currentParts
  if trimmed.isEmpty then statements else statements ++ [trimmed]

@[grind =] def splitLoop (appended : Bool) (mode : ScanMode) (statements : List (List Char))
    (currentParts : List Char) : List Char → List (List Char)
  | [] => flushCurrentStatement statements currentParts
  | character :: rest =>
    if appended then splitLoop false mode statements currentParts rest
    else if mode = .topLevel ∧ character = ';' then
      if insideTrigger currentParts then
        splitLoop false .topLevel statements (currentParts ++ [character]) rest
      else splitLoop false .topLevel (flushCurrentStatement statements currentParts) [] rest
    else
      let scanned := scanCharacter mode character rest.head?
      let taken := if scanned.2 then character :: rest.head?.toList else [character]
      splitLoop scanned.2 scanned.1 statements (currentParts ++ taken) rest

def splitTopLevelSqlStatements (query : List Char) : List (List Char) :=
  splitLoop false .topLevel [] [] query

structure SqliteError where
  code : String
  message : String
deriving DecidableEq

def requireSingleStatement (statement : List Char) : Except SqliteError (List Char) :=
  let statements := splitTopLevelSqlStatements statement
  if statements.length = 0 then
    .error ⟨"invalid_plugin_sqlite_statement", "Plugin SQLite statement is required."⟩
  else if statements.length > 1 then
    .error ⟨"invalid_plugin_sqlite_statement",
      "Plugin SQLite accepts exactly one statement per operation."⟩
  else .ok (statements.headD [])

end Metidos.Sql

/-!
Where SQLite itself ends a statement, by tokens alone: the reading behind `sqlite3_complete`.
Quoted texts and comments are single tokens, a semicolon token ends a statement, and inside a
`CREATE TRIGGER` only a semicolon after `; END` does.
-/

namespace Metidos.Sql

open JsText

inductive TokenKind
  | semi
  | space
  | other
  | explain
  | create
  | temp
  | trigger
  | endWord
deriving DecidableEq

structure Token where
  kind : TokenKind
  text : List Char
deriving DecidableEq

def isSqliteSpace (char : Char) : Bool :=
  char == ' ' || char == '\t' || char == '\n' || char == Char.ofNat 12 || char == '\r'

def isIdChar (char : Char) : Bool :=
  char.isAlphanum || char == '_' || char == '$' || char.toNat ≥ 0x80

/-- The body of a quoted text, up to and with the first `quote` that is not doubled. -/
def quotedBody (quote : Char) : List Char → List Char
  | [] => []
  | [char] => [char]
  | char :: next :: rest =>
    if char = quote then
      if next = quote then char :: next :: quotedBody quote rest else [char]
    else char :: quotedBody quote (next :: rest)

def bracketBody : List Char → List Char
  | [] => []
  | char :: rest => if char = ']' then [char] else char :: bracketBody rest

def blockBody : List Char → List Char
  | [] => []
  | [char] => [char]
  | char :: next :: rest =>
    if char = '*' ∧ next = '/' then [char, next] else char :: blockBody (next :: rest)

def keywordKind (word : List Char) : TokenKind :=
  let lower := word.map Char.toLower
  if lower = "create".toList then .create
  else if lower = "trigger".toList then .trigger
  else if lower = "temp".toList ∨ lower = "temporary".toList then .temp
  else if lower = "end".toList then .endWord
  else if lower = "explain".toList then .explain
  else .other

def tokenAt (char : Char) (rest : List Char) : Token :=
  if char = ';' then ⟨.semi, [char]⟩
  else if isSqliteSpace char then ⟨.space, [char]⟩
  else if char = '-' ∧ rest.head? = some '-' then
    ⟨.space, char :: rest.takeWhile (· != '\n')⟩
  else if char = '/' ∧ rest.head? = some '*' then ⟨.space, char :: '*' :: blockBody rest.tail⟩
  else if char = apostrophe ∨ char = quotationMark ∨ char = backtick then
    ⟨.other, char :: quotedBody char rest⟩
  else if char = '[' then ⟨.other, char :: bracketBody rest⟩
  else if isIdChar char then
    let word := char :: rest.takeWhile isIdChar
    ⟨keywordKind word, word⟩
  else ⟨.other, [char]⟩

def tokensFrom : Nat → List Char → List Token
  | 0, _ => []
  | _ + 1, [] => []
  | fuel + 1, char :: rest =>
    let token := tokenAt char rest
    token :: tokensFrom fuel ((char :: rest).drop token.text.length)

def sqliteTokens (text : List Char) : List Token := tokensFrom text.length text

/-- What has been read of the current statement. -/
inductive CompleteState
  | start
  | normal
  | explain
  | create
  | trigger
  | semi
  | endWord
deriving DecidableEq

/-- The transitions of `sqlite3_complete`. -/
@[grind =] def CompleteState.next : CompleteState → TokenKind → CompleteState
  | .start, .semi => .start
  | .start, .space => .start
  | .start, .explain => .explain
  | .start, .create => .create
  | .start, _ => .normal
  | .normal, .semi => .start
  | .normal, _ => .normal
  | .explain, .semi => .start
  | .explain, .space => .explain
  | .explain, .other => .explain
  | .explain, .create => .create
  | .explain, _ => .normal
  | .create, .semi => .start
  | .create, .space => .create
  | .create, .temp => .create
  | .create, .trigger => .trigger
  | .create, _ => .normal
  | .trigger, .semi => .semi
  | .trigger, _ => .trigger
  | .semi, .semi => .semi
  | .semi, .space => .semi
  | .semi, .endWord => .endWord
  | .semi, _ => .trigger
  | .endWord, .semi => .start
  | .endWord, .space => .endWord
  | .endWord, _ => .trigger

/-- The tokens of one statement; `ended` says that a semicolon closed it. -/
structure Piece where
  tokens : List Token
  ended : Bool

def textOf (tokens : List Token) : List Char := tokens.flatMap Token.text

def Piece.isStatement (piece : Piece) : Bool := piece.tokens.any (·.kind != .space)

@[grind =] def piecesFrom (state : CompleteState) (current : List Token) : List Token → List Piece
  | [] => [⟨current, false⟩]
  | token :: rest =>
    if token.kind = .semi ∧ state.next .semi = .start then
      ⟨current, true⟩ :: piecesFrom .start [] rest
    else piecesFrom (state.next token.kind) (current ++ [token]) rest

def sqlitePieces (text : List Char) : List Piece :=
  piecesFrom .start [] (sqliteTokens (text.takeWhile (· != Char.ofNat 0)))

def sqliteStatements (text : List Char) : List (List Char) :=
  ((sqlitePieces text).filter Piece.isStatement).map fun piece => textOf piece.tokens

end Metidos.Sql
