import Metidos.Library.JsNumerals
import Metidos.Library.JsText
import Metidos.Library.OrderedMatches

/-!
`src/bun/project-procedures/command-normalization.ts`: the text shown for a command that a shell
wrapper runs.
-/

namespace Metidos.Procedures.CommandDisplay

open JsText OrderedMatches

abbrev Text := List Char

def singleQuote : Char := Char.ofNat 0x27
def doubleQuote : Char := Char.ofNat 0x22
def backslash : Char := Char.ofNat 0x5C
def backquote : Char := Char.ofNat 0x60
def newline : Char := Char.ofNat 0x0A

def posixShellNames : List Text := ["bash".toList, "sh".toList, "zsh".toList]
def windowsCmdNames : List Text := ["cmd".toList, "cmd.exe".toList]
def windowsPowershellNames : List Text :=
  ["powershell".toList, "powershell.exe".toList, "pwsh".toList, "pwsh.exe".toList]
def envNames : List Text := ["env".toList]

inductive CommandWrapperKind
  | cmd
  | posix
  | powershell
  deriving DecidableEq

structure ParsedCommandWrapper where
  body : Text
  kind : CommandWrapperKind
  deriving DecidableEq

/-- What tells the three wrapper patterns apart: the flags in the order of their alternatives, the
optional `--`, the `i` of the pattern. -/
structure WrapperPattern where
  flags : List Text
  dashes : Bool
  ignoreCase : Bool

def posixWrapperPattern : WrapperPattern :=
  ⟨["-lc".toList, "-cl".toList, "-c".toList], true, false⟩

def cmdWrapperPattern : WrapperPattern := ⟨["/c".toList], false, true⟩

def powershellWrapperPattern : WrapperPattern :=
  ⟨["-command".toList, "-c".toList], false, true⟩

def isSolid (char : Char) : Bool := !isWhiteSpace char

def WrapperPattern.canonical (pattern : WrapperPattern) (char : Char) : Char :=
  if pattern.ignoreCase then char.toLower else char

def WrapperPattern.flag (pattern : WrapperPattern) : Pattern Char :=
  oneOf (pattern.flags.map (literal pattern.canonical))

/-- `(?:\s+--)?`, where the pattern has it. -/
def WrapperPattern.afterFlag (pattern : WrapperPattern) : Pattern Char :=
  if pattern.dashes then optionally (followedBy (oneOrMore isWhiteSpace) (literal id "--".toList))
  else fun text => [([], text)]

/-- `\s+(?<flag>…)(?:\s+--)?\s+(?<body>[\s\S]+)$` -/
def WrapperPattern.bodies (pattern : WrapperPattern) (text : Text) : List Text :=
  (oneOrMore isWhiteSpace text).flatMap fun gap =>
    (pattern.flag gap.2).flatMap fun flag =>
      (pattern.afterFlag flag.2).flatMap fun dashes =>
        (oneOrMore isWhiteSpace dashes.2).flatMap fun space =>
          if space.2 = [] then [] else [space.2]

structure WrapperMatch where
  launcher : Text
  options : Text
  body : Text

/-- `^(?<launcher>\S+)(?<options>(?:\s+\S+)*?)`, and the rest by `bodies`. -/
def WrapperPattern.found (pattern : WrapperPattern) (command : Text) : List WrapperMatch :=
  (oneOrMore isSolid command).flatMap fun launcher =>
    (lazily (followedBy (oneOrMore isWhiteSpace) (oneOrMore isSolid)) command.length
      launcher.2).flatMap fun options =>
        (pattern.bodies options.2).map fun body => ⟨launcher.1, options.1, body⟩

def splitWrapperOptions (optionsText : Text) : List Text :=
  let trimmed := trim optionsText
  if trimmed = [] then [] else splitWhiteSpace trimmed

def basename (launcher : Text) : Text :=
  (launcher.reverse.takeWhile fun char => char ≠ '/' && char ≠ backslash).reverse

def isLauncherBasename (launcher : Text) (acceptedNames : List Text) : Bool :=
  acceptedNames.contains (JsText.toLowerCase (basename launcher))

def isPosixShellLauncher (launcher : Text) (options : List Text) : Bool :=
  if isLauncherBasename launcher posixShellNames then true
  else if !isLauncherBasename launcher envNames then false
  else match options.head? with
    | some shellName => isLauncherBasename shellName posixShellNames
    | none => false

def wrapperOf (pattern : WrapperPattern) (kind : CommandWrapperKind)
    (accepts : Text → List Text → Bool) (command : Text) : Option ParsedCommandWrapper :=
  match (pattern.found command).head? with
  | some wrapper =>
    if accepts wrapper.launcher (splitWrapperOptions wrapper.options) then
      some ⟨wrapper.body, kind⟩
    else none
  | none => none

def parseCommandWrapper (command : Text) : Option ParsedCommandWrapper :=
  (wrapperOf posixWrapperPattern .posix isPosixShellLauncher command).or
    ((wrapperOf cmdWrapperPattern .cmd (fun launcher _ => isLauncherBasename launcher
      windowsCmdNames) command).or
    (wrapperOf powershellWrapperPattern .powershell (fun launcher _ => isLauncherBasename launcher
      windowsPowershellNames) command))

def posixDoubleQuotedEscapes (next : Char) : Option Char :=
  if next ∈ [doubleQuote, backslash, '$', backquote] then some next
  else if next = 'n' then some newline
  else if next = 'r' then some (Char.ofNat 0x0D)
  else if next = 't' then some (Char.ofNat 0x09)
  else none

def powershellEscapes (next : Char) : Option Char :=
  if next ∈ [doubleQuote, singleQuote, backquote, '$'] then some next
  else (([('0', 0), ('a', 7), ('b', 8), ('e', 27), ('f', 12), ('n', 10), ('r', 13), ('t', 9),
    ('v', 11)] : List (Char × Nat)).lookup next).map Char.ofNat

inductive QuoteMode
  | double
  | single
  | unquoted
  deriving DecidableEq

def decodeWordFrom : QuoteMode → Text → Option Text
  | mode, [] => if mode = .unquoted then some [] else none
  | .single, character :: rest =>
    if character = singleQuote then decodeWordFrom .unquoted rest
    else (decodeWordFrom .single rest).map (character :: ·)
  | .double, character :: rest =>
    if character = doubleQuote then decodeWordFrom .unquoted rest
    else if character = backslash then
      match rest with
      | [] => (decodeWordFrom .double []).map (character :: ·)
      | next :: after =>
        if next = newline then decodeWordFrom .double after
        else match posixDoubleQuotedEscapes next with
          | some decoded => (decodeWordFrom .double after).map (decoded :: ·)
          | none => (decodeWordFrom .double (next :: after)).map (character :: ·)
    else (decodeWordFrom .double rest).map (character :: ·)
  | .unquoted, character :: rest =>
    if isWhiteSpace character then none
    else if character = singleQuote then decodeWordFrom .single rest
    else if character = doubleQuote then decodeWordFrom .double rest
    else if character = backslash then
      match rest with
      | [] => none
      | next :: after =>
        if next = newline then decodeWordFrom .unquoted after
        else (decodeWordFrom .unquoted after).map (next :: ·)
    else (decodeWordFrom .unquoted rest).map (character :: ·)

def startsWithQuote (text : Text) : Bool :=
  text.head? == some singleQuote || text.head? == some doubleQuote

def decodePosixQuotedShellWordText (text : Text) : Option Text :=
  if startsWithQuote (trim text) then decodeWordFrom .unquoted (trim text) else none

def unwrapOuterQuotes (text : Text) : Option (Char × Text) :=
  match trim text with
  | [] => none
  | quote :: rest =>
    if (quote = doubleQuote ∨ quote = singleQuote) ∧ rest.getLast? = some quote then
      some (quote, rest.dropLast)
    else none

def decodePairs (decoded : Char → Char → Option Char) : Text → Text
  | [] => []
  | [character] => [character]
  | character :: next :: after =>
    match decoded character next with
    | some char => char :: decodePairs decoded after
    | none => character :: decodePairs decoded (next :: after)

def decodePosixDoubleQuotedText : Text → Text :=
  decodePairs fun character next =>
    if character = backslash then posixDoubleQuotedEscapes next else none

def decodeCmdText : Text → Text :=
  decodePairs fun character next =>
    if character = doubleQuote ∧ next = doubleQuote then some doubleQuote
    else if character = '^' ∧ next ∈ doubleQuote :: "^&|<>()%!".toList then some next
    else none

def decodePowerShellDoubleQuotedText : Text → Text :=
  decodePairs fun character next =>
    if character = doubleQuote ∧ next = doubleQuote then some doubleQuote
    else if character = backquote then powershellEscapes next
    else none

def decodePowerShellSingleQuotedText : Text → Text :=
  decodePairs fun character next =>
    if character = singleQuote ∧ next = singleQuote then some singleQuote else none

def decodeQuoted (kind : CommandWrapperKind) (quote : Char) (text : Text) : Text :=
  match kind with
  | .posix => if quote = doubleQuote then decodePosixDoubleQuotedText text else text
  | .cmd => decodeCmdText text
  | .powershell =>
    if quote = doubleQuote then decodePowerShellDoubleQuotedText text
    else decodePowerShellSingleQuotedText text

def decodeOuterQuotes (wrapper : ParsedCommandWrapper) : Option Text :=
  match unwrapOuterQuotes wrapper.body with
  | none => if startsWithQuote (trim wrapper.body) then none else some wrapper.body
  | some (quote, text) => some (decodeQuoted wrapper.kind quote text)

def decodeWrappedCommand (wrapper : ParsedCommandWrapper) : Option Text :=
  if wrapper.kind = .posix then
    (decodePosixQuotedShellWordText wrapper.body).or (decodeOuterQuotes wrapper)
  else decodeOuterQuotes wrapper

def normalizeCommandDisplayText (command : Text) : Text :=
  match parseCommandWrapper (trim command) with
  | none => command
  | some wrapper => (decodeWrappedCommand wrapper).getD command

structure Gap where
  text : Text
  some : text ≠ []
  blank : ∀ char ∈ text, isWhiteSpace char = true

structure NamedPath (names : List Text) where
  text : Text
  solid : ∀ char ∈ text, isSolid char = true
  named : isLauncherBasename text names = true

inductive ShellLauncher
  | shell (path : NamedPath posixShellNames)
  | env (path : NamedPath envNames) (gap : Gap) (shellPath : NamedPath posixShellNames)

namespace ShellLauncher

def launcher : ShellLauncher → Text
  | shell path => path.text
  | env path _ _ => path.text

def options : ShellLauncher → Text
  | shell _ => []
  | env _ gap path => gap.text ++ path.text

end ShellLauncher

inductive ShellFlag
  | lc
  | cl
  | c

def ShellFlag.text : ShellFlag → Text
  | .lc => "-lc".toList
  | .cl => "-cl".toList
  | .c => "-c".toList

structure WrapperFront where
  launcher : ShellLauncher
  beforeFlag : Gap
  flag : ShellFlag
  dashes : Option Gap
  beforeWord : Gap

def dashesText : Option Gap → Text
  | none => []
  | some gap => gap.text ++ "--".toList

def WrapperFront.afterFlag (front : WrapperFront) (body : Text) : Text :=
  dashesText front.dashes ++ (front.beforeWord.text ++ body)

def WrapperFront.flagged (front : WrapperFront) (body : Text) : Text :=
  front.beforeFlag.text ++ (front.flag.text ++ front.afterFlag body)

def WrapperFront.command (front : WrapperFront) (body : Text) : Text :=
  front.launcher.launcher ++ (front.launcher.options ++ front.flagged body)

inductive WordPiece
  | single (text : {text : Text // singleQuote ∉ text})
  | double (text : Text)
  | escaped (character : Char)

/-- `$`, the backquote, the double quote and the backslash are written with a backslash. -/
def doubleQuoted (character : Char) : Text :=
  if character ∈ [doubleQuote, backslash, '$', backquote] then [backslash, character]
  else [character]

def WordPiece.written : WordPiece → Text
  | .single text => singleQuote :: (text.val ++ [singleQuote])
  | .double text => doubleQuote :: (text.flatMap doubleQuoted ++ [doubleQuote])
  | .escaped character => [backslash, character]

/-- What the shell reads: a backslash before the end of a line stands for nothing. -/
def WordPiece.text : WordPiece → Text
  | .single text => text.val
  | .double text => text
  | .escaped character => if character = newline then [] else [character]

def WordPiece.isQuoted : WordPiece → Bool
  | .escaped _ => false
  | _ => true

structure ShellWord where
  pieces : List WordPiece
  opens : pieces.head?.any WordPiece.isQuoted = true

def ShellWord.written (word : ShellWord) : Text := word.pieces.flatMap WordPiece.written

def ShellWord.text (word : ShellWord) : Text := word.pieces.flatMap WordPiece.text

def ShellWord.EndsInEscapedSpace (word : ShellWord) : Prop :=
  ∃ character, word.pieces.getLast? = some (.escaped character) ∧ isWhiteSpace character = true

theorem single_cons (character : Char) (rest : Text) :
    decodeWordFrom .single (character :: rest) =
      if character = singleQuote then decodeWordFrom .unquoted rest
      else (decodeWordFrom .single rest).map (character :: ·) := by
  cases rest <;> rfl

theorem double_cons (character : Char) (rest : Text) :
    decodeWordFrom .double (character :: rest) =
      if character = doubleQuote then decodeWordFrom .unquoted rest
      else if character = backslash then
        match rest with
        | [] => (decodeWordFrom .double []).map (character :: ·)
        | next :: after =>
          if next = newline then decodeWordFrom .double after
          else match posixDoubleQuotedEscapes next with
            | some decoded => (decodeWordFrom .double after).map (decoded :: ·)
            | none => (decodeWordFrom .double (next :: after)).map (character :: ·)
      else (decodeWordFrom .double rest).map (character :: ·) := by
  cases rest <;> rfl

theorem unquoted_cons (character : Char) (rest : Text) :
    decodeWordFrom .unquoted (character :: rest) =
      if isWhiteSpace character then none
      else if character = singleQuote then decodeWordFrom .single rest
      else if character = doubleQuote then decodeWordFrom .double rest
      else if character = backslash then
        match rest with
        | [] => none
        | next :: after =>
          if next = newline then decodeWordFrom .unquoted after
          else (decodeWordFrom .unquoted after).map (next :: ·)
      else (decodeWordFrom .unquoted rest).map (character :: ·) := by
  cases rest <;> rfl

theorem decodeWordFrom_single {text rest : Text} (plain : singleQuote ∉ text) :
    decodeWordFrom .single (text ++ singleQuote :: rest) =
      (decodeWordFrom .unquoted rest).map (text ++ ·) := by
  induction text with
  | nil => simp [single_cons]
  | cons character text ih =>
    obtain ⟨other, plain⟩ := not_or.mp (List.mem_cons.not.mp plain)
    rw [List.cons_append, single_cons, if_neg (Ne.symm other), ih plain, Option.map_map]
    rfl

theorem double_close (rest : Text) :
    decodeWordFrom .double (doubleQuote :: rest) = decodeWordFrom .unquoted rest := by
  rw [double_cons, if_pos rfl]

theorem double_escape {character decoded : Char} (rest : Text) (plain : character ≠ newline)
    (known : posixDoubleQuotedEscapes character = some decoded) :
    decodeWordFrom .double (backslash :: character :: rest) =
      (decodeWordFrom .double rest).map (decoded :: ·) := by
  have differs : backslash ≠ doubleQuote := by decide
  simp only [double_cons backslash, if_neg differs, if_neg plain, if_true, known]

theorem double_plain {character : Char} (rest : Text) (quote : character ≠ doubleQuote)
    (escape : character ≠ backslash) :
    decodeWordFrom .double (character :: rest) =
      (decodeWordFrom .double rest).map (character :: ·) := by
  rw [double_cons, if_neg quote, if_neg escape]

theorem unquoted_single (rest : Text) :
    decodeWordFrom .unquoted (singleQuote :: rest) = decodeWordFrom .single rest := by
  have solid : isWhiteSpace singleQuote = false := by decide
  rw [unquoted_cons, solid, if_neg Bool.false_ne_true, if_pos rfl]

theorem unquoted_double (rest : Text) :
    decodeWordFrom .unquoted (doubleQuote :: rest) = decodeWordFrom .double rest := by
  have solid : isWhiteSpace doubleQuote = false := by decide
  have differs : doubleQuote ≠ singleQuote := by decide
  rw [unquoted_cons, solid, if_neg Bool.false_ne_true, if_neg differs, if_pos rfl]

theorem unquoted_escape (character : Char) (rest : Text) :
    decodeWordFrom .unquoted (backslash :: character :: rest) =
      (decodeWordFrom .unquoted rest).map ((WordPiece.escaped character).text ++ ·) := by
  have solid : isWhiteSpace backslash = false := by decide
  have notSingle : backslash ≠ singleQuote := by decide
  have notDouble : backslash ≠ doubleQuote := by decide
  simp only [unquoted_cons backslash, solid, notSingle, notDouble, Bool.false_eq_true, if_false,
    if_true, WordPiece.text]
  split <;> simp

theorem unquoted_dangling : decodeWordFrom .unquoted [backslash] = none := by decide

theorem decodeWordFrom_double {text rest : Text} :
    decodeWordFrom .double (text.flatMap doubleQuoted ++ doubleQuote :: rest) =
      (decodeWordFrom .unquoted rest).map (text ++ ·) := by
  induction text with
  | nil => simpa using double_close rest
  | cons character text ih =>
    rw [List.flatMap_cons, List.append_assoc, doubleQuoted]
    split
    · rename_i special
      have notNewline : character ≠ newline := by
        rintro rfl
        revert special
        decide
      have known : posixDoubleQuotedEscapes character = some character := if_pos special
      rw [List.cons_append, List.singleton_append, double_escape _ notNewline known, ih,
        Option.map_map]
      rfl
    · rename_i plain
      simp only [List.mem_cons, not_or] at plain
      rw [List.singleton_append, double_plain _ plain.1 plain.2.1, ih, Option.map_map]
      rfl

theorem decodeWordFrom_piece (piece : WordPiece) (rest : Text) :
    decodeWordFrom .unquoted (piece.written ++ rest) =
      (decodeWordFrom .unquoted rest).map (piece.text ++ ·) := by
  cases piece with
  | single text =>
    rw [WordPiece.written, List.cons_append, unquoted_single, List.append_assoc,
      List.singleton_append, decodeWordFrom_single text.property]
    rfl
  | double text =>
    rw [WordPiece.written, List.cons_append, unquoted_double, List.append_assoc,
      List.singleton_append, decodeWordFrom_double]
    rfl
  | escaped character => exact unquoted_escape character rest

theorem decodeWordFrom_pieces (pieces : List WordPiece) (rest : Text) :
    decodeWordFrom .unquoted (pieces.flatMap WordPiece.written ++ rest) =
      (decodeWordFrom .unquoted rest).map (pieces.flatMap WordPiece.text ++ ·) := by
  induction pieces with
  | nil => simp
  | cons piece pieces ih =>
    rw [List.flatMap_cons, List.append_assoc, decodeWordFrom_piece, ih, Option.map_map]
    simp [Function.comp_def]

def StartsBlank (text : Text) : Prop := ∃ first tail, text = first :: tail ∧ isWhiteSpace first = true

theorem Gap.startsBlank (gap : Gap) (rest : Text) : StartsBlank (gap.text ++ rest) := by
  obtain ⟨text, some, blank⟩ := gap
  cases text with
  | nil => exact absurd rfl some
  | cons first tail => exact ⟨first, tail ++ rest, rfl, blank first List.mem_cons_self⟩

theorem StartsBlank.stops {text : Text} (starts : StartsBlank text) :
    ∀ first ∈ text.head?, isSolid first = false := by
  obtain ⟨first, tail, rfl, blank⟩ := starts
  simp [isSolid, blank]

theorem blank_stops {first : Char} {text : Text} (starts : text.head? = some first)
    (solid : isSolid first = true) : ∀ first ∈ text.head?, isWhiteSpace first = false := by
  simpa [starts, isSolid] using solid

theorem starts_with_quote {body : Text} (quoted : startsWithQuote body = true) :
    ∃ quote tail, body = quote :: tail ∧ isSolid quote = true ∧ quote ≠ '-' := by
  cases body with
  | nil => simp [startsWithQuote] at quoted
  | cons quote tail =>
    refine ⟨quote, tail, rfl, ?_⟩
    have isQuote : quote = singleQuote ∨ quote = doubleQuote := by
      simpa [startsWithQuote] using quoted
    rcases isQuote with rfl | rfl <;> decide

theorem named_ne_nil {names : List Text} (path : NamedPath names) (known : [] ∉ names) :
    path.text ≠ [] := by
  intro empty
  have named := path.named
  rw [empty] at named
  exact known (List.contains_iff_mem.mp named)

theorem named_starts {names : List Text} (path : NamedPath names) (known : [] ∉ names)
    (rest : Text) :
    ∃ first, (path.text ++ rest).head? = some first ∧ isSolid first = true := by
  cases whole : path.text with
  | nil => exact absurd whole (named_ne_nil path known)
  | cons first tail => exact ⟨first, rfl, path.solid first (by rw [whole]; exact List.mem_cons_self)⟩

theorem posix_flag (text : Text) : posixWrapperPattern.flag text =
    literal id "-lc".toList text ++
      (literal id "-cl".toList text ++ (literal id "-c".toList text ++ [])) := rfl

theorem posix_afterFlag (text : Text) : posixWrapperPattern.afterFlag text =
    followedBy (oneOrMore isWhiteSpace) (literal id "--".toList) text ++ [([], text)] := rfl

theorem posix_flags_solid {flag : Text} (member : flag ∈ posixWrapperPattern.flags) :
    (∀ char ∈ flag, isSolid char = true) ∧ ∃ tail, flag = '-' :: tail := by
  have cases : flag = "-lc".toList ∨ flag = "-cl".toList ∨ flag = "-c".toList := by
    simpa [posixWrapperPattern] using member
  rcases cases with rfl | rfl | rfl <;> exact ⟨List.all_eq_true.mp (by decide), _, rfl⟩

theorem posix_flag_blank {first : Char} (tail : Text) (blank : isWhiteSpace first = true) :
    posixWrapperPattern.flag (first :: tail) = [] := by
  refine List.flatMap_eq_nil_iff.mpr fun pattern member => ?_
  obtain ⟨flag, isFlag, rfl⟩ := List.mem_map.mp member
  obtain ⟨-, rest, rfl⟩ := posix_flags_solid isFlag
  have differs : first ≠ '-' := by
    rintro rfl
    revert blank
    decide
  exact (literal_ne differs : literal id _ _ = [])

theorem posix_flag_head? (flag : ShellFlag) {rest : Text} (starts : StartsBlank rest) :
    (posixWrapperPattern.flag (flag.text ++ rest)).head? = some (flag.text, rest) := by
  obtain ⟨first, tail, rfl, blank⟩ := starts
  have notC : first ≠ 'c' := by
    rintro rfl
    revert blank
    decide
  have notL : first ≠ 'l' := by
    rintro rfl
    revert blank
    decide
  rw [posix_flag]
  cases flag <;> simp [literal, ShellFlag.text, notC, notL]

theorem dashes_none {text : Text} (starts : ∀ first ∈ text.head?, isWhiteSpace first = false) :
    followedBy (oneOrMore isWhiteSpace) (literal id "--".toList) text = [] := by
  rw [followedBy, oneOrMore_stop starts]
  rfl

theorem posix_afterFlag_solid {text : Text}
    (starts : ∀ first ∈ text.head?, isWhiteSpace first = false) :
    posixWrapperPattern.afterFlag text = [([], text)] := by
  rw [posix_afterFlag, dashes_none starts, List.nil_append]

theorem posix_afterFlag_head? (front : WrapperFront) {body : Text}
    (quoted : startsWithQuote body = true) :
    (posixWrapperPattern.afterFlag (front.afterFlag body)).head? =
      some (dashesText front.dashes, front.beforeWord.text ++ body) := by
  rw [posix_afterFlag, WrapperFront.afterFlag]
  cases front.dashes with
  | some gap =>
    have dash : ∀ first ∈ ("--".toList ++ (front.beforeWord.text ++ body)).head?,
        isWhiteSpace first = false := fun first isFirst => by cases isFirst; decide
    have both : (followedBy (oneOrMore isWhiteSpace) (literal id "--".toList)
        (gap.text ++ ("--".toList ++ (front.beforeWord.text ++ body)))).head? =
          some (gap.text ++ "--".toList, front.beforeWord.text ++ body) :=
      followedBy_head? (oneOrMore_head? gap.some gap.blank dash)
        (congrArg List.head? literal_self)
    rw [dashesText, List.append_assoc, List.head?_append, both, Option.some_or]
  | none =>
    obtain ⟨quote, tail, rfl, solid, notDash⟩ := starts_with_quote quoted
    have none : followedBy (oneOrMore isWhiteSpace) (literal id "--".toList)
        (front.beforeWord.text ++ quote :: tail) = [] := by
      rw [followedBy, oneOrMore_flatMap front.beforeWord.some front.beforeWord.blank
        (blank_stops rfl solid)]
      · exact congrArg (List.map _) (literal_ne notDash : literal id _ _ = [])
      · intro taken first rest blank
        refine congrArg (List.map _) (literal_ne ?_ : literal id _ _ = [])
        rintro rfl
        revert blank
        decide
    rw [dashesText, List.nil_append, none]
    rfl

theorem posix_bodies_head? (front : WrapperFront) {body : Text}
    (quoted : startsWithQuote body = true) :
    (posixWrapperPattern.bodies (front.flagged body)).head? = some body := by
  have blankAfter : StartsBlank (front.afterFlag body) := by
    rw [WrapperFront.afterFlag]
    cases front.dashes with
    | none => exact front.beforeWord.startsBlank body
    | some gap =>
      rw [dashesText, List.append_assoc]
      exact gap.startsBlank _
  have flagSolid : ∀ first ∈ (front.flag.text ++ front.afterFlag body).head?,
      isWhiteSpace first = false := by
    cases front.flag <;> exact fun first isFirst => by cases isFirst; decide
  obtain ⟨quote, tail, rfl, solid, -⟩ := starts_with_quote quoted
  refine head?_flatMap (oneOrMore_head? front.beforeFlag.some front.beforeFlag.blank flagSolid) ?_
  refine head?_flatMap (posix_flag_head? front.flag blankAfter) ?_
  refine head?_flatMap (posix_afterFlag_head? front quoted) ?_
  refine head?_flatMap (oneOrMore_head? front.beforeWord.some front.beforeWord.blank
    (blank_stops rfl solid)) ?_
  rfl

theorem posix_bodies_shell (gap : Gap) (path : NamedPath posixShellNames) {rest : Text}
    (starts : StartsBlank rest) :
    posixWrapperPattern.bodies (gap.text ++ (path.text ++ rest)) = [] := by
  obtain ⟨first, isFirst, solid⟩ := named_starts path (by decide) rest
  rw [WrapperPattern.bodies, oneOrMore_flatMap gap.some gap.blank (blank_stops isFirst solid)]
  · refine List.flatMap_eq_nil_iff.mpr fun found member => ?_
    obtain ⟨pattern, isPattern, matched⟩ := List.mem_flatMap.mp member
    obtain ⟨flag, isFlag, rfl⟩ := List.mem_map.mp isPattern
    have differs : path.text ≠ flag := by
      intro same
      have named := path.named
      have cases : flag = "-lc".toList ∨ flag = "-cl".toList ∨ flag = "-c".toList := by
        simpa [posixWrapperPattern] using isFlag
      rw [same] at named
      revert named
      rcases cases with rfl | rfl | rfl <;> decide
    obtain ⟨next, tail, left, nextSolid⟩ := literal_token (posix_flags_solid isFlag).1 path.solid
      starts.stops matched differs
    have stops := blank_stops (congrArg List.head? left) nextSolid
    rw [posix_afterFlag_solid stops, List.flatMap_singleton, oneOrMore_stop stops]
    rfl
  · intro taken first tail blank
    rw [posix_flag_blank tail blank]
    rfl

theorem posix_found_head? (front : WrapperFront) {body : Text}
    (quoted : startsWithQuote body = true) :
    (posixWrapperPattern.found (front.command body)).head? =
      some ⟨front.launcher.launcher, front.launcher.options, body⟩ := by
  have bodies := posix_bodies_head? front quoted
  have blankFlagged : StartsBlank (front.flagged body) := front.beforeFlag.startsBlank _
  rw [WrapperFront.command]
  cases front.launcher with
  | shell path =>
    have run := oneOrMore_head? (named_ne_nil path (by decide)) path.solid blankFlagged.stops
    refine head?_flatMap run ?_
    have first : ∀ fuel, (lazily (followedBy (oneOrMore isWhiteSpace) (oneOrMore isSolid)) fuel
        (front.flagged body)).head? = some ([], front.flagged body) := by
      intro fuel
      cases fuel <;> rfl
    refine head?_flatMap (first _) ?_
    rw [List.head?_map, bodies]
    rfl
  | env path gap shellPath =>
    have blankGap := gap.startsBlank (shellPath.text ++ front.flagged body)
    have run := oneOrMore_head? (named_ne_nil path (by decide)) path.solid blankGap.stops
    rw [ShellLauncher.launcher, ShellLauncher.options, List.append_assoc]
    refine head?_flatMap run ?_
    obtain ⟨first, isFirst, solid⟩ := named_starts shellPath (by decide) (front.flagged body)
    have token := followedBy_head?
      (oneOrMore_head? gap.some gap.blank (blank_stops isFirst solid))
      (oneOrMore_head? (named_ne_nil shellPath (by decide)) shellPath.solid blankFlagged.stops)
    obtain ⟨pathFirst, isPathFirst, -⟩ := named_starts path (by decide)
      (gap.text ++ (shellPath.text ++ front.flagged body))
    obtain ⟨fuel, long⟩ : ∃ fuel,
        (path.text ++ (gap.text ++ (shellPath.text ++ front.flagged body))).length = fuel + 1 := by
      refine Nat.exists_eq_succ_of_ne_zero fun empty => ?_
      rw [List.length_eq_zero_iff.mp empty] at isPathFirst
      exact absurd isPathFirst (by simp)
    obtain ⟨more, rounds, next⟩ := @lazily_once _ _ fuel _ _ token
    rw [long, rounds, List.flatMap_cons, posix_bodies_shell gap shellPath blankFlagged,
      List.map_nil, List.nil_append]
    refine head?_flatMap next ?_
    rw [List.head?_map, bodies]
    rfl

theorem trim_append_blank {text : Text} {blank : Char} (isBlank : isWhiteSpace blank = true)
    (leading : ∃ first, text.head? = some first ∧ isSolid first = true)
    (trailing : ∀ last ∈ text.getLast?, isWhiteSpace last = false) :
    trim (text ++ [blank]) = text := by
  obtain ⟨first, isFirst, solid⟩ := leading
  have whole : trimStart (text ++ [blank]) = text ++ [blank] :=
    trimStart_eq_self (blank_stops (by rw [List.head?_append, isFirst, Option.some_or]) solid)
  have dropped : trimStart (blank :: text.reverse) = trimStart text.reverse := by
    simp [trimStart, isBlank]
  have rest : trimStart text.reverse = text.reverse :=
    trimStart_eq_self (by simpa using trailing)
  rw [trim, whole, List.reverse_append, List.reverse_singleton, List.singleton_append, dropped,
    rest, List.reverse_reverse]

theorem WrapperFront.command_starts (front : WrapperFront) (body : Text) :
    ∃ first, (front.command body).head? = some first ∧ isSolid first = true := by
  rw [command]
  cases front.launcher with
  | shell path => exact named_starts path (by decide) _
  | env path gap shellPath => exact named_starts path (by decide) _

theorem WrapperFront.command_append (front : WrapperFront) (body rest : Text) :
    front.command (body ++ rest) = front.command body ++ rest := by
  simp [command, flagged, afterFlag]

theorem WrapperFront.command_ends (front : WrapperFront) {body : Text} (some : body ≠ []) :
    (front.command body).getLast? = body.getLast? := by
  have whole := front.command_append [] body
  rw [List.nil_append] at whole
  rw [whole, List.getLast?_append, List.getLast?_eq_some_getLast some, Option.some_or]

theorem WrapperFront.lt_command (front : WrapperFront) (body : Text) :
    body.length < (front.command body).length := by
  obtain ⟨first, starts, -⟩ := front.command_starts []
  have whole := front.command_append [] body
  rw [List.nil_append] at whole
  rw [whole, List.length_append]
  cases before : front.command [] with
  | nil => simp [before] at starts
  | cons first rest => simp

theorem normalize_trimmed {front : WrapperFront} {command body : Text}
    (trimmed : trim command = front.command body) (quoted : startsWithQuote body = true) :
    normalizeCommandDisplayText command =
      (decodeWrappedCommand ⟨body, .posix⟩).getD command := by
  have accepted : isPosixShellLauncher front.launcher.launcher
      (splitWrapperOptions front.launcher.options) = true := by
    rw [isPosixShellLauncher]
    cases front.launcher with
    | shell path => exact if_pos path.named
    | env path gap shellPath =>
      obtain ⟨first, isFirst, solid⟩ := named_starts shellPath (by decide) []
      rw [List.append_nil] at isFirst
      have blanks : gap.text.dropWhile isWhiteSpace = [] :=
        List.dropWhile_eq_nil_iff.mpr gap.blank
      have leading : trimStart (gap.text ++ shellPath.text) = shellPath.text := by
        rw [trimStart, List.dropWhile_append, blanks]
        exact trimStart_eq_self (blank_stops isFirst solid)
      have solidPath : ∀ char ∈ shellPath.text, isWhiteSpace char = false := by
        simpa [isSolid] using shellPath.solid
      have options : trim (gap.text ++ shellPath.text) = shellPath.text := by
        have fixed := trim_eq_self (blank_stops isFirst solid) fun last isLast =>
          solidPath last (List.mem_of_mem_getLast? isLast)
        rw [trim, trimStart_eq_self (blank_stops isFirst solid)] at fixed
        rwa [trim, leading]
      have split : splitWhiteSpace shellPath.text = [shellPath.text] := by
        have single := splitWhiteSpace_intercalate [shellPath.text] (by simp) (by
          simpa using ⟨named_ne_nil shellPath (by decide), solidPath⟩)
        simpa [List.intercalate] using single
      rw [ShellLauncher.launcher, ShellLauncher.options, splitWrapperOptions, options,
        if_neg (named_ne_nil shellPath (by decide)), split]
      simp [path.named, shellPath.named]
  have parsed : parseCommandWrapper (front.command body) = some ⟨body, .posix⟩ := by
    rw [parseCommandWrapper, wrapperOf, posix_found_head? front quoted]
    simp only [accepted, if_true, Option.some_or]
  rw [normalizeCommandDisplayText, trimmed, parsed]

theorem WordPiece.text_le (piece : WordPiece) : piece.text.length ≤ piece.written.length := by
  cases piece with
  | single text =>
    simp only [WordPiece.text, written, List.length_cons, List.length_append]
    omega
  | double text =>
    have grows : text.length ≤ (text.flatMap doubleQuoted).length := by
      induction text with
      | nil => simp
      | cons character text ih =>
        rw [List.flatMap_cons, List.length_append, List.length_cons, doubleQuoted]
        split <;> simp only [List.length_cons, List.length_nil] <;> omega
    simp only [WordPiece.text, written, List.length_cons, List.length_append]
    omega
  | escaped character =>
    rw [WordPiece.text]
    split <;> simp [written]

theorem ShellWord.text_le (word : ShellWord) : word.text.length ≤ word.written.length := by
  rw [text, written]
  induction word.pieces with
  | nil => simp
  | cons piece pieces ih =>
    have first := piece.text_le
    simp only [List.flatMap_cons, List.length_append]
    omega

theorem ShellWord.startsWithQuote_written (word : ShellWord) :
    startsWithQuote word.written = true := by
  obtain ⟨pieces, opens⟩ := word
  cases pieces with
  | nil => simp at opens
  | cons piece pieces => cases piece <;> first | rfl | simp [WordPiece.isQuoted] at opens

theorem decode_word {word : ShellWord} (last : ∀ last ∈ word.written.getLast?,
    isWhiteSpace last = false) :
    decodeWrappedCommand ⟨word.written, .posix⟩ = some word.text := by
  obtain ⟨quote, tail, whole, solid, -⟩ := starts_with_quote word.startsWithQuote_written
  have trimmed : trim word.written = word.written :=
    trim_eq_self (blank_stops (congrArg List.head? whole) solid) last
  have decoded := decodeWordFrom_pieces word.pieces []
  rw [List.append_nil] at decoded
  rw [decodeWrappedCommand, if_pos rfl, decodePosixQuotedShellWordText, trimmed,
    if_pos word.startsWithQuote_written, ShellWord.written, decoded]
  have ended : decodeWordFrom .unquoted [] = some [] := rfl
  simp [ended, ShellWord.text]

theorem decode_dangling {pieces : List WordPiece}
    (quoted : startsWithQuote (pieces.flatMap WordPiece.written ++ [backslash]) = true) :
    decodeWrappedCommand ⟨pieces.flatMap WordPiece.written ++ [backslash], .posix⟩ = none := by
  obtain ⟨quote, tail, whole, solid, -⟩ := starts_with_quote quoted
  have ends : (pieces.flatMap WordPiece.written ++ [backslash]).getLast? = some backslash := by simp
  have trimmed : trim (pieces.flatMap WordPiece.written ++ [backslash]) = _ :=
    trim_eq_self (blank_stops (congrArg List.head? whole) solid)
      (by rw [ends]; intro last isLast; cases isLast; decide)
  have decoded := decodeWordFrom_pieces pieces [backslash]
  rw [unquoted_dangling, Option.map_none] at decoded
  have isQuote : quote = singleQuote ∨ quote = doubleQuote := by
    simpa [whole, startsWithQuote] using quoted
  have differs : quote ≠ backslash := by rcases isQuote with rfl | rfl <;> decide
  have notLast : tail.getLast? ≠ some quote := by
    intro same
    rw [whole, List.getLast?_cons, same] at ends
    exact differs (Option.some.inj ends)
  rw [decodeWrappedCommand, if_pos rfl, decodePosixQuotedShellWordText, trimmed, if_pos quoted,
    decoded, Option.none_or, decodeOuterQuotes, unwrapOuterQuotes, trimmed, whole]
  simp [notLast, ← whole, quoted]

/-- A wrapper's command is shown as what the shell reads, unless the word ends in white space that a
backslash escapes. -/
theorem wrapped_display_iff (front : WrapperFront) (word : ShellWord) :
    normalizeCommandDisplayText (front.command word.written) = word.text ↔
      ¬word.EndsInEscapedSpace := by
  have quoted := word.startsWithQuote_written
  obtain ⟨quote, tail, whole, solid, -⟩ := starts_with_quote quoted
  have some : word.written ≠ [] := by
    rw [whole]
    exact List.cons_ne_nil _ _
  obtain ⟨first, isFirst, firstSolid⟩ := front.command_starts word.written
  have shows (last : ∀ last ∈ word.written.getLast?, isWhiteSpace last = false) :
      normalizeCommandDisplayText (front.command word.written) = word.text := by
    have trimmed : trim (front.command word.written) = front.command word.written :=
      trim_eq_self (blank_stops isFirst firstSolid) (by rwa [front.command_ends some])
    rw [normalize_trimmed trimmed quoted, decode_word last]
    rfl
  obtain ⟨before, piece, split⟩ : ∃ before piece, word.pieces = before ++ [piece] := by
    refine (List.eq_nil_or_concat' word.pieces).resolve_left fun none => some ?_
    rw [ShellWord.written, none, List.flatMap_nil]
  have written : word.written = before.flatMap WordPiece.written ++ piece.written := by
    simp [ShellWord.written, split]
  have lastPiece : word.pieces.getLast? = .some piece := by simp [split]
  cases piece with
  | single text =>
    refine iff_of_true (shows ?_) ?_
    · rw [written, WordPiece.written, ← List.cons_append, ← List.append_assoc,
        List.getLast?_concat]
      intro last isLast
      cases isLast
      decide
    · rintro ⟨character, isLast, -⟩
      simp [lastPiece] at isLast
  | double text =>
    refine iff_of_true (shows ?_) ?_
    · rw [written, WordPiece.written, ← List.cons_append, ← List.append_assoc,
        List.getLast?_concat]
      intro last isLast
      cases isLast
      decide
    · rintro ⟨character, isLast, -⟩
      simp [lastPiece] at isLast
  | escaped character =>
    have ends : word.EndsInEscapedSpace ↔ isWhiteSpace character = true := by
      simp [ShellWord.EndsInEscapedSpace, lastPiece]
    rw [ends]
    by_cases blank : isWhiteSpace character = true
    · refine iff_of_false (fun shown => ?_) (not_not.mpr blank)
      have cut : word.written =
          (before.flatMap WordPiece.written ++ [backslash]) ++ [character] := by
        simp [written, WordPiece.written]
      have quotedCut :
          startsWithQuote (before.flatMap WordPiece.written ++ [backslash]) = true := by
        rw [cut] at quoted
        cases front : before.flatMap WordPiece.written <;> rw [front] at quoted <;> exact quoted
      have trimmed : trim (front.command word.written) =
          front.command (before.flatMap WordPiece.written ++ [backslash]) := by
        rw [cut, front.command_append]
        refine trim_append_blank blank (front.command_starts _) ?_
        rw [front.command_ends (by simp), List.getLast?_append]
        intro last isLast
        cases isLast
        decide
      rw [normalize_trimmed trimmed quotedCut, decode_dangling quotedCut, Option.getD_none] at shown
      have long := front.lt_command word.written
      have short := word.text_le
      rw [shown] at long
      omega
    · refine iff_of_true (shows ?_) blank
      simpa [written, WordPiece.written] using blank

def bashC : WrapperFront where
  launcher := .shell ⟨"bash".toList, List.all_eq_true.mp (by decide), by decide⟩
  beforeFlag := ⟨" ".toList, by decide, List.all_eq_true.mp (by decide)⟩
  flag := .c
  dashes := none
  beforeWord := ⟨" ".toList, by decide, List.all_eq_true.mp (by decide)⟩

def endsInSpace : ShellWord := ⟨[.single ⟨"a".toList, by decide⟩, .escaped ' '], rfl⟩

theorem wrapped_display_escaped_space :
    endsInSpace.text = "a ".toList ∧
      normalizeCommandDisplayText (bashC.command endsInSpace.written) =
        bashC.command endsInSpace.written ∧
      normalizeCommandDisplayText (bashC.command endsInSpace.written) ≠ endsInSpace.text := by
  decide

end Metidos.Procedures.CommandDisplay
