import Metidos.Library.JsNumerals
import Metidos.Sql.StatementSplit

/-!
The scanner for function calls of `src/bun/plugin/sqlite.ts`. A position in the text is given by the
rest of the text from there on, and a loop runs at most once for each character.
-/

namespace Metidos.Sql

open JsText

def isSqlIdentifierStart (character : Char) : Bool := character.isAlpha || character == '_'

def isSqlIdentifierPart (character : Char) : Bool :=
  character.isAlphanum || character == '_' || character == '$'

def afterNewline (text : List Char) : List Char := (text.dropWhile (· != '\n')).drop 1

def afterCommentEnd (text : List Char) : List Char := text.drop (blockBody text).length

@[grind =] def skipBlanks : Nat → List Char → List Char
  | 0, text => text
  | _ + 1, [] => []
  | fuel + 1, character :: rest =>
    if isWhiteSpace character then skipBlanks fuel rest
    else if character = '-' ∧ rest.head? = some '-' then skipBlanks fuel (afterNewline rest.tail)
    else if character = '/' ∧ rest.head? = some '*' then
      skipBlanks fuel (afterCommentEnd rest.tail)
    else character :: rest

def skipSqlWhitespaceAndComments (text : List Char) : List Char := skipBlanks text.length text

def readSqlIdentifier : List Char → Option (List Char × List Char)
  | [] => none
  | first :: rest =>
    if isSqlIdentifierStart first then
      some (first :: rest.takeWhile isSqlIdentifierPart, rest.dropWhile isSqlIdentifierPart)
    else none

def closingQuoteOf (quote : Char) : Char := if quote = '[' then ']' else quote

@[grind =] def skipQuotedBody (closingQuote : Char) : List Char → List Char
  | [] => []
  | [_] => []
  | character :: next :: rest =>
    if character = closingQuote then
      if closingQuote ≠ ']' ∧ closingQuote ≠ backtick ∧ next = closingQuote then
        skipQuotedBody closingQuote rest
      else next :: rest
    else skipQuotedBody closingQuote (next :: rest)

def isQuote (character : Char) : Bool :=
  character == quotationMark || character == backtick || character == '['

/-- `text.replaceAll(mark + mark, mark)`. -/
def undouble (mark : Char) : List Char → List Char
  | [] => []
  | [character] => [character]
  | character :: next :: rest =>
    if character = mark ∧ next = mark then mark :: undouble mark rest
    else character :: undouble mark (next :: rest)

namespace Plugin

/-- The quoted identifier at a position, with the text after it: its last character must be the
closing quote. -/
def readSqlQuotedIdentifier : List Char → Option (List Char × List Char)
  | [] => none
  | quote :: rest =>
    if isQuote quote then
      let closingQuote := closingQuoteOf quote
      let next := skipQuotedBody closingQuote rest
      let token := (quote :: rest).take ((quote :: rest).length - next.length)
      if token.getLast? ≠ some closingQuote then none
      else
        let quotedValue := token.tail.dropLast
        some (if closingQuote = ']' then quotedValue else undouble closingQuote quotedValue, next)
    else none

@[grind =] def findSqlIdentifierFrom (expected : List Char) : Nat → List Char → Option (List Char)
  | 0, _ => none
  | fuel + 1, text =>
    match skipSqlWhitespaceAndComments text with
    | [] => none
    | character :: rest =>
      if character = apostrophe then
        findSqlIdentifierFrom expected fuel (skipQuotedBody apostrophe rest)
      else
        match readSqlQuotedIdentifier (character :: rest) with
        | some (value, next) =>
          if toLowerCase value = expected then some next
          else findSqlIdentifierFrom expected fuel next
        | none =>
          match readSqlIdentifier (character :: rest) with
          | some (value, next) =>
            if toLowerCase value = expected then some next
            else findSqlIdentifierFrom expected fuel next
          | none => findSqlIdentifierFrom expected fuel rest

def findSqlIdentifier (text expected : List Char) : Option (List Char) :=
  findSqlIdentifierFrom expected text.length text

@[grind =] def containsSqlFunctionCallFrom (functionName : List Char) : Nat → List Char → Bool
  | 0, _ => false
  | fuel + 1, text =>
    match findSqlIdentifier text functionName with
    | none => false
    | some next =>
      if (skipSqlWhitespaceAndComments next).head? = some '(' then true
      else containsSqlFunctionCallFrom functionName fuel next

def containsSqlFunctionCall (sql functionName : List Char) : Bool :=
  containsSqlFunctionCallFrom functionName sql.length sql

end Plugin

end Metidos.Sql

/-!
The tokens that SQLite reads in a text, as far as calls of a function by name are concerned.
-/

namespace Metidos.Sql

open JsText

inductive LexKind
  | space
  | comment
  | string
  | identifier (value : List Char)
  | parameter
  | illegal
  | other
  deriving DecidableEq

structure LexToken where
  kind : LexKind
  text : List Char
  deriving DecidableEq

def isSqliteGap (char : Char) : Bool := isSqliteSpace char || char == Char.ofNat 11

def byteOrderMark : Char := Char.ofNat 0xFEFF

def isIdStart (char : Char) : Bool := char.isAlpha || char == '_' || char.toNat ≥ 0x80

def quotedValue (quote : Char) : List Char → Option (List Char)
  | [] => none
  | [char] => if char = quote then some [] else none
  | char :: next :: rest =>
    if char = quote then
      if next = quote then (quotedValue quote rest).map (quote :: ·) else some []
    else (quotedValue quote (next :: rest)).map (char :: ·)

def identifierOr (value : Option (List Char)) : LexKind := value.elim .illegal .identifier

def parameterSuffix (text : List Char) : List Char :=
  let inner := text.takeWhile fun char => !isSqliteGap char && char != ')'
  if (text.drop inner.length).head? = some ')' then inner ++ [')'] else inner

def parameterBody : Bool → List Char → List Char
  | _, [] => []
  | named, [char] => if isIdChar char || (char == '(' && named) then [char] else []
  | named, char :: next :: rest =>
    if isIdChar char then char :: parameterBody true (next :: rest)
    else if char = '(' ∧ named = true then char :: parameterSuffix (next :: rest)
    else if char = ':' ∧ next = ':' then char :: next :: parameterBody named rest
    else []

def isParameterStart (char : Char) : Bool := char == '$' || char == '@' || char == '#' || char == ':'

def lexToken (char : Char) (rest : List Char) : LexToken :=
  if isSqliteSpace char then ⟨.space, char :: rest.takeWhile isSqliteGap⟩
  else if char = byteOrderMark then ⟨.space, [char]⟩
  else if char = '-' ∧ rest.head? = some '-' then ⟨.comment, char :: rest.takeWhile (· != '\n')⟩
  else if char = '/' ∧ rest.head? = some '*' then ⟨.comment, char :: '*' :: blockBody rest.tail⟩
  else if char = apostrophe then
    ⟨if (quotedValue char rest).isSome then .string else .illegal, char :: quotedBody char rest⟩
  else if char = quotationMark ∨ char = backtick then
    ⟨identifierOr (quotedValue char rest), char :: quotedBody char rest⟩
  else if char = '[' then
    ⟨identifierOr (if ']' ∈ rest then some (rest.takeWhile (· != ']')) else none),
      char :: bracketBody rest⟩
  else if isIdStart char then
    ⟨.identifier (char :: rest.takeWhile isIdChar), char :: rest.takeWhile isIdChar⟩
  else if isParameterStart char then ⟨.parameter, char :: parameterBody false rest⟩
  else if isIdChar char then ⟨.other, char :: rest.takeWhile isIdChar⟩
  else ⟨.other, [char]⟩

@[grind =] def lexFrom : Nat → List Char → List LexToken
  | 0, _ => []
  | _ + 1, [] => []
  | fuel + 1, char :: rest =>
    let token := lexToken char rest
    token :: lexFrom fuel ((char :: rest).drop token.text.length)

def lex (text : List Char) : List LexToken := lexFrom text.length text

def LexToken.isBlank (token : LexToken) : Bool := token.kind = .space || token.kind = .comment

def LexToken.names (functionName : List Char) (token : LexToken) : Bool :=
  match token.kind with
  | .identifier value => value.map Char.toLower == functionName
  | _ => false

end Metidos.Sql
