import Mathlib.Data.List.DropRight
import Metidos.Library.Gregorian
import Metidos.Library.JsNumerals

/-!
TOML 1.0 documents that write every expression on a line of its own: basic strings, bare and
quoted keys, decimal numbers, UTC date-times in milliseconds, arrays and table headers.
-/

namespace Toml

open JsText

abbrev Text := List Char

def quoteMark : Char := Char.ofNat 0x22
def backslash : Char := Char.ofNat 0x5C
def delete : Char := Char.ofNat 0x7F
def lineFeed : Char := Char.ofNat 0x0A

structure Decimal where
  negative : Bool
  digits : Text
  point : Int
  deriving DecidableEq

structure DateTime where
  year : Int
  month : Nat
  day : Nat
  hour : Nat
  minute : Nat
  second : Nat
  millisecond : Nat
  deriving DecidableEq

def DateTime.IsValid (time : DateTime) : Prop :=
  1 ≤ time.month ∧ time.month ≤ 12 ∧ 1 ≤ time.day ∧
    time.day ≤ Gregorian.daysInMonth (Gregorian.isLeapYear time.year) time.month ∧
    time.hour < 24 ∧ time.minute < 60 ∧ time.second < 60 ∧ time.millisecond < 1000

instance (time : DateTime) : Decidable time.IsValid := by
  unfold DateTime.IsValid
  infer_instance

inductive Leaf
  | string (text : Text)
  | boolean (value : Bool)
  | number (value : Decimal)
  | dateTime (value : DateTime)
  | array (items : List Leaf)

inductive Line
  | header (path : List Text)
  | entry (key : Text) (value : Leaf)

structure Table where
  path : List Text
  entries : List (Text × Leaf)

inductive Node
  | table
  | leaf (value : Leaf)

def isUnescaped (char : Char) : Bool :=
  char.toNat == 9 || (0x20 ≤ char.toNat && char != delete)

def shortEscape (char : Char) : Option Char :=
  if char = quoteMark ∨ char = backslash then some char
  else (([('b', 8), ('t', 9), ('n', 10), ('f', 12), ('r', 13)] : List (Char × Nat)).lookup char).map
    Char.ofNat

/-- The character of a `\u` escape: a surrogate is none. -/
def unicodeEscape (digits : Text) : Option Char :=
  let code := numberOfHexDigits digits
  if digits.all isHexDigit && (code < 0xD800 || 0xE000 ≤ code) then some (Char.ofNat code) else none

def readBasic : Text → Option (Text × Text)
  | [] => none
  | char :: rest =>
    if char = quoteMark then some ([], rest)
    else if char = backslash then
      match rest with
      | 'u' :: first :: second :: third :: fourth :: after =>
        match unicodeEscape [first, second, third, fourth] with
        | some decoded => (readBasic after).map fun found => (decoded :: found.1, found.2)
        | none => none
      | short :: after =>
        match shortEscape short with
        | some decoded => (readBasic after).map fun found => (decoded :: found.1, found.2)
        | none => none
      | [] => none
    else if isUnescaped char then
      (readBasic rest).map fun found => (char :: found.1, found.2)
    else none

def isBare (char : Char) : Bool := char.isAlphanum || char == '_' || char == '-'

def readKey : Text → Option (Text × Text)
  | [] => none
  | char :: rest =>
    if char = quoteMark then readBasic rest
    else if isBare char then
      some ((char :: rest).takeWhile isBare, (char :: rest).dropWhile isBare)
    else none

def readHeader : Nat → Text → Option (List Text × Text)
  | 0, _ => none
  | fuel + 1, text =>
    match readKey text with
    | some (key, ']' :: rest) => some ([key], rest)
    | some (key, '.' :: rest) =>
      (readHeader fuel rest).map fun found => (key :: found.1, found.2)
    | _ => none

def Decimal.normal (negative : Bool) (digits : Text) (point : Int) : Decimal :=
  let trimmed := digits.dropWhile (· == '0')
  let exact := trimmed.rdropWhile (· == '0')
  if exact = [] then ⟨false, [], 0⟩
  else ⟨negative, exact, point - (digits.length - trimmed.length)⟩

def readFraction : Text → Option (Text × Text)
  | '.' :: rest =>
    let digits := rest.takeWhile Char.isDigit
    if digits = [] then none else some (digits, rest.dropWhile Char.isDigit)
  | rest => some ([], rest)

def readExponent : Text → Option Int
  | [] => some 0
  | 'e' :: '-' :: digits => if isDigits digits then some (-(numberOfDigits digits : Int)) else none
  | 'e' :: '+' :: digits => if isDigits digits then some (numberOfDigits digits) else none
  | _ => none

def readUnsigned (negative : Bool) (text : Text) : Option Decimal :=
  let whole := text.takeWhile Char.isDigit
  if whole = [] ∨ (whole.head? = some '0' ∧ whole ≠ ['0']) then none
  else
    match readFraction (text.dropWhile Char.isDigit) with
    | some (fraction, rest) =>
      (readExponent rest).map fun exponent =>
        Decimal.normal negative (whole ++ fraction) (whole.length + exponent)
    | none => none

def readNumber : Text → Option Decimal
  | '-' :: rest => readUnsigned true rest
  | '+' :: rest => readUnsigned false rest
  | text => readUnsigned false text

def readFields : List (Nat × Char) → Text → Option (List Nat)
  | [], text => if text = [] then some [] else none
  | (width, mark) :: layout, text =>
    if isDigits (text.take width) ∧ (text.take width).length = width ∧
        (text.drop width).head? = some mark then
      (readFields layout (text.drop (width + 1))).map (numberOfDigits (text.take width) :: ·)
    else none

def timeLayout : List (Nat × Char) :=
  [(2, '-'), (2, 'T'), (2, ':'), (2, ':'), (2, '.'), (3, 'Z')]

def readDateTime (text : Text) : Option DateTime :=
  match readFields ((4, '-') :: timeLayout) text with
  | some [year, month, day, hour, minute, second, millisecond] =>
    let time : DateTime := ⟨year, month, day, hour, minute, second, millisecond⟩
    if time.IsValid then some time else none
  | _ => none

def isTokenChar (char : Char) : Bool :=
  char.isAlphanum || char == '+' || char == '-' || char == '.' || char == ':'

def readToken (token : Text) : Option Leaf :=
  if token = "true".toList then some (.boolean true)
  else if token = "false".toList then some (.boolean false)
  else ((readNumber token).map Leaf.number).or ((readDateTime token).map Leaf.dateTime)

mutual

def readValue : Nat → Text → Option (Leaf × Text)
  | 0, _ => none
  | fuel + 1, text =>
    match text with
    | [] => none
    | char :: rest =>
      if char = quoteMark then (readBasic rest).map fun found => (.string found.1, found.2)
      else if char = '[' then
        match rest with
        | ']' :: after => some (.array [], after)
        | _ => (readItems fuel rest).map fun found => (.array found.1, found.2)
      else (readToken (text.takeWhile isTokenChar)).map fun leaf =>
        (leaf, text.dropWhile isTokenChar)

def readItems : Nat → Text → Option (List Leaf × Text)
  | 0, _ => none
  | fuel + 1, text =>
    match readValue fuel text with
    | some (item, ']' :: rest) => some ([item], rest)
    | some (item, ',' :: ' ' :: rest) =>
      (readItems fuel rest).map fun found => (item :: found.1, found.2)
    | _ => none

end

def readExpression : Text → Option (Line × Text)
  | '[' :: rest => (readHeader (rest.length + 1) rest).map fun found => (.header found.1, found.2)
  | text =>
    match readKey text with
    | some (key, ' ' :: '=' :: ' ' :: rest) =>
      (readValue (rest.length + 1) rest).map fun found => (.entry key found.1, found.2)
    | _ => none

def readLines : Nat → Text → Option (List Line)
  | _, [] => some []
  | 0, _ => none
  | fuel + 1, char :: rest =>
    if char = lineFeed then readLines fuel rest
    else
      match readExpression (char :: rest) with
      | some (line, mark :: after) =>
        if mark = lineFeed then (readLines fuel after).map (line :: ·) else none
      | _ => none

/-- The tables of a document: each header starts one, and the first is the root. -/
def tablesOf (path : List Text) : List Line → List Table
  | [] => [⟨path, []⟩]
  | .header next :: rest => ⟨path, []⟩ :: tablesOf next rest
  | .entry key value :: rest =>
    (tablesOf path rest).modifyHead fun table => ⟨table.path, (key, value) :: table.entries⟩

def parse (text : Text) : Option (List Table) := (readLines text.length text).map (tablesOf [])

/-- No table and no key is defined twice, and no key with a value is also a table. -/
structure Valid (tables : List Table) : Prop where
  tablesOnce : (tables.map Table.path).Nodup
  keysOnce : ∀ table ∈ tables, (table.entries.map Prod.fst).Nodup
  apart : ∀ table ∈ tables, ∀ entry ∈ table.entries, ∀ other ∈ tables,
    ¬table.path ++ [entry.1] <+: other.path

/-- What a document defines at a path of keys: a header also defines the tables above it. -/
def Holds (tables : List Table) (path : List Text) : Node → Prop
  | .table => ∃ table ∈ tables, path <+: table.path
  | .leaf value => ∃ table ∈ tables, ∃ key, (key, value) ∈ table.entries ∧
      path = table.path ++ [key]

end Toml
