import Metidos.Library.JsText

/-!
JSON texts, read one character after the other with the open arrays and objects on a stack, and
written for a flat object of strings.  A string is its UTF-16 code units.
-/

namespace JsonText

abbrev Units := List UInt16

inductive JsonValue
  | null
  | bool (value : Bool)
  | number (text : List Char)
  | string (units : Units)
  | array (items : List JsonValue)
  | object (members : List (Units × JsonValue))

inductive Frame
  | array (items : List JsonValue)
  | object (members : List (Units × JsonValue)) (key : Units)

inductive NumberPart
  | sign
  | zero
  | whole
  | point
  | fraction
  | exponent
  | exponentSign
  | exponentDigits
  deriving DecidableEq

inductive Escape
  | none
  | begun
  | digits (left value : Nat)
  deriving DecidableEq

inductive Word
  | true
  | false
  | null
  deriving DecidableEq

def Word.text : Word → List Char
  | .true => "true".toList
  | .false => "false".toList
  | .null => "null".toList

@[grind =] def Word.value : Word → JsonValue
  | .true => .bool Bool.true
  | .false => .bool Bool.false
  | .null => .null

inductive Mode
  | value
  | firstItem
  | item (items : List JsonValue)
  | firstKey
  | key (members : List (Units × JsonValue))
  | colon (members : List (Units × JsonValue)) (key : Units)
  | member (members : List (Units × JsonValue))
  | text (keyOf : Option (List (Units × JsonValue))) (read : Units) (escape : Escape)
  | word (word : Word) (count : Nat)
  | number (read : List Char) (part : NumberPart)
  | done (value : JsonValue)

structure Reader where
  frames : List Frame
  mode : Mode

def quoteMark : Char := Char.ofNat 0x22

def backslash : Char := Char.ofNat 0x5C

def openBrace : Char := Char.ofNat 0x7B

def closeBrace : Char := Char.ofNat 0x7D

def isSpace (char : Char) : Bool :=
  char.toNat = 0x20 || char.toNat = 0x09 || char.toNat = 0x0A || char.toNat = 0x0D

def hexValue (char : Char) : Option Nat :=
  if char.isDigit then some (char.toNat - 48)
  else if 'a' ≤ char ∧ char ≤ 'f' then some (char.toNat - 87)
  else if 'A' ≤ char ∧ char ≤ 'F' then some (char.toNat - 55)
  else none

def unitsOf (char : Char) : Units := (JsText.codeUnits char).map UInt16.ofNat

def complete (frames : List Frame) (value : JsonValue) : Reader :=
  match frames with
  | [] => { frames := [], mode := .done value }
  | .array items :: rest => { frames := rest, mode := .item (items ++ [value]) }
  | .object members key :: rest => { frames := rest, mode := .member (members ++ [(key, value)]) }

def startValue (frames : List Frame) (char : Char) : Option Reader :=
  if char = quoteMark then some { frames, mode := .text none [] .none }
  else if char = openBrace then some { frames, mode := .firstKey }
  else if char = '[' then some { frames, mode := .firstItem }
  else if char = 't' then some { frames, mode := .word .true 1 }
  else if char = 'f' then some { frames, mode := .word .false 1 }
  else if char = 'n' then some { frames, mode := .word .null 1 }
  else if char = '-' then some { frames, mode := .number [char] .sign }
  else if char = '0' then some { frames, mode := .number [char] .zero }
  else if char.isDigit then some { frames, mode := .number [char] .whole }
  else none

def continueNumber (part : NumberPart) (char : Char) : Option NumberPart :=
  let isExponent : Bool := char = 'e' || char = 'E'
  match part with
  | .sign => if char = '0' then some .zero else if char.isDigit then some .whole else none
  | .zero => if char = '.' then some .point else if isExponent then some .exponent else none
  | .whole =>
    if char.isDigit then some .whole
    else if char = '.' then some .point
    else if isExponent then some .exponent
    else none
  | .point => if char.isDigit then some .fraction else none
  | .fraction =>
    if char.isDigit then some .fraction else if isExponent then some .exponent else none
  | .exponent =>
    if char.isDigit then some .exponentDigits
    else if char = '+' ∨ char = '-' then some .exponentSign
    else none
  | .exponentSign => if char.isDigit then some .exponentDigits else none
  | .exponentDigits => if char.isDigit then some .exponentDigits else none

def NumberPart.isWhole : NumberPart → Bool
  | .zero | .whole | .fraction | .exponentDigits => true
  | .sign | .point | .exponent | .exponentSign => false

def shortEscape (char : Char) : Option UInt16 :=
  if char = quoteMark then some 0x22
  else if char = backslash then some 0x5C
  else if char = '/' then some 0x2F
  else if char = 'b' then some 0x08
  else if char = 'f' then some 0x0C
  else if char = 'n' then some 0x0A
  else if char = 'r' then some 0x0D
  else if char = 't' then some 0x09
  else none

def readText (read : Units) (escape : Escape) (char : Char) : Option (Units × Escape) :=
  match escape with
  | .none =>
    if char = backslash then some (read, .begun)
    else if char.toNat < 0x20 then none
    else some (read ++ unitsOf char, .none)
  | .begun =>
    if char = 'u' then some (read, .digits 4 0)
    else (shortEscape char).map fun unit => (read ++ [unit], .none)
  | .digits left value =>
    (hexValue char).map fun digit =>
      if left ≤ 1 then (read ++ [UInt16.ofNat (value * 16 + digit)], .none)
      else (read, .digits (left - 1) (value * 16 + digit))

def afterValue (reader : Reader) (char : Char) : Option Reader :=
  if isSpace char then some reader
  else
    match reader.mode with
    | .item items =>
      if char = ',' then some { frames := .array items :: reader.frames, mode := .value }
      else if char = ']' then some (complete reader.frames (.array items))
      else none
    | .member members =>
      if char = ',' then some { reader with mode := .key members }
      else if char = closeBrace then some (complete reader.frames (.object members))
      else none
    | _ => none

def startKey (frames : List Frame) (members : List (Units × JsonValue)) (char : Char) :
    Option Reader :=
  if char = quoteMark then some { frames, mode := .text (some members) [] .none } else none

@[grind =] def step (reader : Reader) (char : Char) : Option Reader :=
  let frames := reader.frames
  match reader.mode with
  | .value => if isSpace char then some reader else startValue frames char
  | .firstItem =>
    if isSpace char then some reader
    else if char = ']' then some (complete frames (.array []))
    else startValue (.array [] :: frames) char
  | .firstKey =>
    if isSpace char then some reader
    else if char = closeBrace then some (complete frames (.object []))
    else startKey frames [] char
  | .key members => if isSpace char then some reader else startKey frames members char
  | .colon members key =>
    if isSpace char then some reader
    else if char = ':' then some { frames := .object members key :: frames, mode := .value }
    else none
  | .text keyOf read escape =>
    if escape = .none ∧ char = quoteMark then
      match keyOf with
      | some members => some { frames, mode := .colon members read }
      | none => some (complete frames (.string read))
    else
      (readText read escape char).map fun next =>
        { frames, mode := .text keyOf next.1 next.2 }
  | .word word count =>
    if word.text[count]? = some char then
      some (if count + 1 = word.text.length then complete frames word.value
        else { frames, mode := .word word (count + 1) })
    else none
  | .number read part =>
    match continueNumber part char with
    | some next => some { frames, mode := .number (read ++ [char]) next }
    | none => if part.isWhole then afterValue (complete frames (.number read)) char else none
  | .item _ | .member _ | .done _ => afterValue reader char

@[grind =] def run (reader : Reader) (text : List Char) : Option Reader := text.foldlM step reader

def finish (reader : Reader) : Option JsonValue :=
  match reader.frames, reader.mode with
  | [], .done value => some value
  | [], .number read part => if part.isWhole then some (.number read) else none
  | _, _ => none

def start : Reader := { frames := [], mode := .value }

def parse (text : List Char) : Option JsonValue := (run start text).bind finish

section Text

variable {frames : List Frame} {keyOf : Option (List (Units × JsonValue))} {read after : Units}

end Text

end JsonText
