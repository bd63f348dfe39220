import Metidos.Library.TomlText

/-!
`stringifyTomlDocument` of `src/bun/plugin/host-structured-data.ts`, against TOML 1.0.
-/

namespace Metidos.StructuredData

open JsText Toml

/-- A code point of a property name: a scalar value, or a surrogate that stands alone. -/
inductive KeyPoint
  | scalar (char : Char)
  | surrogate (offset : Fin 0x800)
  deriving DecidableEq

abbrev Key := List KeyPoint

/-- A finite number by what `Number.prototype.toString` chooses for it: `k` digits with no zero at
either end, and `n` as the point. -/
structure FiniteNumber where
  decimal : Decimal
  digits : ∀ digit ∈ decimal.digits, digit.isDigit = true
  leading : decimal.digits.head? ≠ some '0'
  trailing : decimal.digits.getLast? ≠ some '0'
  zero : decimal.digits = [] → decimal = ⟨false, [], 0⟩

/-- A valid `Date` by its UTC fields. -/
abbrev Date := {time : DateTime // time.IsValid}

/-- A value by its own entries in the order of `Object.entries`. -/
inductive Value
  | object (entries : List (Key × Value))
  | array (items : List Value)
  | string (text : Text)
  | boolean (value : Bool)
  | number (value : FiniteNumber)
  | date (value : Date)
  | null
  | undefined

abbrev Entries := List (Key × Value)

def isNullish : Value → Bool
  | .null | .undefined => true
  | _ => false

/-- The entries of what `isTomlRecord` accepts; a `Date` has none of its own. -/
def tomlRecord : Value → Option Entries
  | .object entries => some entries
  | .date _ => some []
  | _ => none

def hexEscape (code : Nat) : Text :=
  [backslash, 'u', hexDigit (code / 4096 % 16), hexDigit (code / 256 % 16), hexDigit (code / 16 % 16),
    hexDigit (code % 16)]

def jsonPoint : KeyPoint → Text
  | .scalar char => jsonEscape char
  | .surrogate offset => hexEscape (0xD800 + offset)

def jsonString (points : List KeyPoint) : Text :=
  quoteMark :: (points.flatMap jsonPoint ++ [quoteMark])

def barePoint : KeyPoint → Option Char
  | .scalar char => if isBare char then some char else none
  | .surrogate _ => none

def assertTomlKey (key : Key) : Text :=
  match key.mapM barePoint with
  | some [] => jsonString key
  | some bare => bare
  | none => jsonString key

def zeros (count : Nat) : Text := List.replicate count '0'

def exponentText (exponent : Int) : Text :=
  'e' :: (if exponent < 0 then '-' else '+') :: stringOfNumber exponent.natAbs

def positiveText (digits : Text) (point : Int) : Text :=
  if digits.length ≤ point ∧ point ≤ 21 then digits ++ zeros (point.toNat - digits.length)
  else if 0 < point ∧ point ≤ 21 then digits.take point.toNat ++ '.' :: digits.drop point.toNat
  else if -6 < point ∧ point ≤ 0 then '0' :: '.' :: (zeros (-point).toNat ++ digits)
  else if digits.length = 1 then digits ++ exponentText (point - 1)
  else digits.take 1 ++ '.' :: (digits.drop 1 ++ exponentText (point - 1))

def numberText (number : FiniteNumber) : Text :=
  if number.decimal.digits = [] then ['0']
  else
    (if number.decimal.negative then ['-'] else []) ++
      positiveText number.decimal.digits number.decimal.point

def padded : Nat → Nat → Text
  | 0, _ => []
  | width + 1, value => padded width (value / 10) ++ [Nat.digitChar (value % 10)]

def yearText (year : Int) : Text :=
  if 0 ≤ year ∧ year ≤ 9999 then padded 4 year.toNat
  else (if year < 0 then '-' else '+') :: padded 6 year.natAbs

def writeFields : List (Nat × Char) → List Nat → Text
  | (width, mark) :: layout, value :: values => padded width value ++ mark :: writeFields layout values
  | _, _ => []

def timeFields (time : DateTime) : List Nat :=
  [time.month, time.day, time.hour, time.minute, time.second, time.millisecond]

def toISOString (date : Date) : Text :=
  yearText date.val.year ++ '-' :: writeFields timeLayout (timeFields date.val)

mutual

def stringifyTomlValue : Value → Except Text Text
  | .string text => .ok (jsonString (text.map .scalar))
  | .boolean value => .ok (if value then "true".toList else "false".toList)
  | .number value => .ok (numberText value)
  | .date value => .ok (toISOString value)
  | .array items =>
    match stringifyTomlItems items with
    | .ok texts => .ok ('[' :: (", ".toList.intercalate texts ++ [']']))
    | .error error => .error error
  | .object _ => .error "Cannot stringify object value as TOML.".toList
  | .null => .error "Cannot stringify object value as TOML.".toList
  | .undefined => .error "Cannot stringify undefined value as TOML.".toList

def stringifyTomlItems : List Value → Except Text (List Text)
  | [] => .ok []
  | item :: items =>
    match stringifyTomlValue item with
    | .ok text => (stringifyTomlItems items).map (text :: ·)
    | .error error => .error error

end

def entryLines : Entries → Except Text (List Text)
  | [] => .ok []
  | (key, entry) :: rest =>
    if isNullish entry || (tomlRecord entry).isSome then entryLines rest
    else
      match stringifyTomlValue entry with
      | .ok text =>
        (entryLines rest).map ((assertTomlKey key ++ ' ' :: '=' :: ' ' :: text) :: ·)
      | .error error => .error error

def nestedTables (path : List Key) : Entries → List (List Key × Entries)
  | [] => []
  | (key, entry) :: rest =>
    match tomlRecord entry with
    | some table => (path ++ [key], table) :: nestedTables path rest
    | none => nestedTables path rest

theorem nestedTables_size (path : List Key) (entries : Entries) :
    ((nestedTables path entries).map fun table => sizeOf table.2).sum < sizeOf entries := by
  induction entries with
  | nil => simp [nestedTables]
  | cons first rest ih =>
    obtain ⟨key, entry⟩ := first
    simp only [nestedTables]
    split
    · rename_i table isTable
      have smaller : sizeOf table < 1 + sizeOf entry := by
        cases entry <;> simp only [tomlRecord, reduceCtorEq, Option.some.injEq] at isTable <;>
          subst isTable <;> simp +arith
      simp
      omega
    · simp
      omega

/-- The tables that the loop over `tables` visits, which grows while it runs. -/
def loopTables : List (List Key × Entries) → List (List Key × Entries)
  | [] => []
  | (path, entries) :: rest =>
    (path, entries) :: loopTables (rest ++ nestedTables path entries)
termination_by tables => (tables.map fun table => sizeOf table.2).sum
decreasing_by
  have smaller := nestedTables_size path entries
  simp
  omega

def headerText (path : List Key) : Text := '[' :: ((['.'].intercalate (path.map assertTomlKey)) ++ [']'])

def tableLines (lines : List Text) (table : List Key × Entries) : Except Text (List Text) :=
  (entryLines table.2).map fun pushed =>
    lines ++ ((if lines = [] then [] else [[]]) ++ headerText table.1 :: pushed)

def documentText (lines : List Text) : Text :=
  [lineFeed].intercalate lines ++ (if lines = [] then [] else [lineFeed])

def stringifyTomlDocument (value : Value) : Except Text Text :=
  match tomlRecord value with
  | none => .error "TOML.stringify requires a top-level object.".toList
  | some entries => do
      let lines ← entryLines entries
      let lines ← (loopTables (nestedTables [] entries)).foldlM tableLines lines
      return documentText lines

end Metidos.StructuredData
