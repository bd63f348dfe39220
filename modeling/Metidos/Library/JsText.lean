import Mathlib.Data.List.Basic
import Mathlib.Data.List.TakeWhile
import Mathlib.Tactic.IntervalCases

/-!
JavaScript string operations, on a string as the list of its characters: `trim`, splitting
at runs of white space, decimal numerals, `toUpperCase` and `JSON.stringify`.
-/

namespace JsText

/-- `WhiteSpace` and `LineTerminator` of the language: what `trim` and `\s` agree on. -/
def isWhiteSpace (char : Char) : Bool :=
  let code := char.toNat
  (9 ≤ code && code ≤ 13) || code == 0x20 || code == 0xA0 || code == 0x1680 ||
    (0x2000 ≤ code && code ≤ 0x200A) || code == 0x2028 || code == 0x2029 || code == 0x202F ||
    code == 0x205F || code == 0x3000 || code == 0xFEFF

def codeUnits (char : Char) : List Nat :=
  if char.toNat < 0x10000 then [char.toNat]
  else [0xD800 + (char.toNat - 0x10000) / 1024, 0xDC00 + (char.toNat - 0x10000) % 1024]

def utf16 (text : List Char) : List Nat := text.flatMap codeUnits

def trimStart (text : List Char) : List Char := text.dropWhile isWhiteSpace

def trim (text : List Char) : List Char := (trimStart (trimStart text).reverse).reverse

/-- `text.split(/\s+/)`; `inRun` says that the previous character was a separator. -/
def splitWhiteSpaceFrom (inRun : Bool) : List Char → List (List Char)
  | [] => [[]]
  | char :: rest =>
    if isWhiteSpace char then
      if inRun then splitWhiteSpaceFrom true rest else [] :: splitWhiteSpaceFrom true rest
    else (splitWhiteSpaceFrom false rest).modifyHead (char :: ·)

def splitWhiteSpace (text : List Char) : List (List Char) := splitWhiteSpaceFrom false text

def isDigits (text : List Char) : Bool := !text.isEmpty && text.all Char.isDigit

/-- `Number(text)` on a text that `isDigits` accepts. -/
def numberOfDigits (text : List Char) : Nat :=
  text.foldl (fun value char => value * 10 + (char.toNat - 48)) 0

def stringOfNumber (value : Nat) : List Char := Nat.toDigits 10 value

/-- The upper-case form of one character.  Besides the Latin letters it lists the characters
whose upper-case form is pure ASCII; every other character keeps a form outside ASCII, so
comparing the result with an ASCII text does not depend on it. -/
def upperCaseOf (char : Char) : List Char :=
  match char.toNat with
  | 0xDF => ['S', 'S']
  | 0x131 => ['I']
  | 0x17F => ['S']
  | 0xFB00 => ['F', 'F']
  | 0xFB01 => ['F', 'I']
  | 0xFB02 => ['F', 'L']
  | 0xFB03 => ['F', 'F', 'I']
  | 0xFB04 => ['F', 'F', 'L']
  | 0xFB05 => ['S', 'T']
  | 0xFB06 => ['S', 'T']
  | _ => [char.toUpper]

def toUpperCase (text : List Char) : List Char := text.flatMap upperCaseOf

def hexDigit (value : Nat) : Char := (Nat.toDigits 16 value).headD '0'

def jsonEscape (char : Char) : List Char :=
  match char.toNat with
  | 0x22 => [Char.ofNat 0x5C, Char.ofNat 0x22]
  | 0x5C => [Char.ofNat 0x5C, Char.ofNat 0x5C]
  | 0x08 => [Char.ofNat 0x5C, 'b']
  | 0x09 => [Char.ofNat 0x5C, 't']
  | 0x0A => [Char.ofNat 0x5C, 'n']
  | 0x0C => [Char.ofNat 0x5C, 'f']
  | 0x0D => [Char.ofNat 0x5C, 'r']
  | code =>
    if code < 0x20 then
      [Char.ofNat 0x5C, 'u', '0', '0', hexDigit (code / 16), hexDigit (code % 16)]
    else [char]

def jsonStringify (text : List Char) : List Char :=
  Char.ofNat 0x22 :: text.flatMap jsonEscape ++ [Char.ofNat 0x22]

theorem trim_eq_nil_iff {text : List Char} :
    trim text = [] ↔ ∀ char ∈ text, isWhiteSpace char = true := by
  simp only [trim, trimStart, List.reverse_eq_nil_iff, List.dropWhile_eq_nil_iff,
    List.mem_reverse]
  constructor
  · intro rest char member
    rw [← List.takeWhile_append_dropWhile (p := isWhiteSpace) (l := text)] at member
    rcases List.mem_append.mp member with leading | trailing
    · exact List.mem_takeWhile_imp leading
    · exact rest char trailing
  · intro blank char member
    exact blank char ((List.dropWhile_sublist isWhiteSpace).mem member)

theorem trimStart_eq_self {text : List Char}
    (leading : ∀ char ∈ text.head?, isWhiteSpace char = false) : trimStart text = text := by
  cases text with
  | nil => rfl
  | cons char rest =>
    have solid := leading char (by simp)
    simp [trimStart, solid]

theorem trim_eq_self {text : List Char}
    (leading : ∀ char ∈ text.head?, isWhiteSpace char = false)
    (trailing : ∀ char ∈ text.getLast?, isWhiteSpace char = false) : trim text = text := by
  have first : trimStart text = text := trimStart_eq_self leading
  have second : trimStart text.reverse = text.reverse := by
    apply trimStart_eq_self
    simpa using trailing
  rw [trim, first, second, List.reverse_reverse]

theorem splitWhiteSpaceFrom_solid (word : List Char) (inRun : Bool) (rest : List Char)
    (nonempty : word ≠ []) (solid : ∀ char ∈ word, isWhiteSpace char = false) :
    splitWhiteSpaceFrom inRun (word ++ rest) =
      (splitWhiteSpaceFrom false rest).modifyHead (word ++ ·) := by
  induction word generalizing inRun with
  | nil => exact absurd rfl nonempty
  | cons char word ih =>
    have first : isWhiteSpace char = false := solid char (by simp)
    simp only [List.cons_append, splitWhiteSpaceFrom, first, Bool.false_eq_true, if_false]
    by_cases last : word = []
    · subst last
      simp
    · rw [ih false last fun other member => solid other (List.mem_cons_of_mem _ member)]
      cases splitWhiteSpaceFrom false rest <;> simp

theorem splitWhiteSpaceFrom_intercalate (inRun : Bool) (words : List (List Char))
    (some : words ≠ [])
    (solid : ∀ word ∈ words, word ≠ [] ∧ ∀ char ∈ word, isWhiteSpace char = false) :
    splitWhiteSpaceFrom inRun ([' '].intercalate words) = words := by
  induction words generalizing inRun with
  | nil => exact absurd rfl some
  | cons word words ih =>
    have first := solid word (by simp)
    cases words with
    | nil =>
      have single := splitWhiteSpaceFrom_solid word inRun [] first.1 first.2
      simpa [List.intercalate, splitWhiteSpaceFrom] using single
    | cons next words =>
      have tail := ih true (by simp) fun other member =>
        solid other (List.mem_cons_of_mem _ member)
      have spread : [' '].intercalate (word :: next :: words) =
          word ++ (' ' :: [' '].intercalate (next :: words)) := by
        simp [List.intercalate]
      rw [spread, splitWhiteSpaceFrom_solid word inRun _ first.1 first.2]
      have space : isWhiteSpace ' ' = true := by decide
      simp [splitWhiteSpaceFrom, space, tail]

theorem splitWhiteSpace_intercalate (words : List (List Char)) (some : words ≠ [])
    (solid : ∀ word ∈ words, word ≠ [] ∧ ∀ char ∈ word, isWhiteSpace char = false) :
    splitWhiteSpace ([' '].intercalate words) = words :=
  splitWhiteSpaceFrom_intercalate false words some solid

theorem mem_intercalate {separator : List Char} {words : List (List Char)} {char : Char}
    (member : char ∈ separator.intercalate words) :
    char ∈ separator ∨ ∃ word ∈ words, char ∈ word := by
  induction words with
  | nil => simp at member
  | cons word words ih =>
    by_cases last : words = []
    · subst last
      rw [List.intercalate_singleton] at member
      exact Or.inr ⟨word, by simp, member⟩
    · rw [List.intercalate_cons_of_ne_nil last, List.append_assoc] at member
      rcases List.mem_append.mp member with inside | after
      · exact Or.inr ⟨word, by simp, inside⟩
      · rcases List.mem_append.mp after with between | rest
        · exact Or.inl between
        · rcases ih rest with between | ⟨other, listed, inside⟩
          · exact Or.inl between
          · exact Or.inr ⟨other, List.mem_cons_of_mem _ listed, inside⟩

theorem intercalate_ne_nil {separator word : List Char} (words : List (List Char))
    (nonempty : word ≠ []) : separator.intercalate (word :: words) ≠ [] := by
  cases words with
  | nil => simpa using nonempty
  | cons next words => simp [List.intercalate_cons_cons, nonempty]

theorem intercalate_head? (words : List (List Char)) (word : List Char) (nonempty : word ≠ []) :
    ([' '].intercalate (word :: words)).head? = word.head? := by
  cases words with
  | nil => simp [List.intercalate]
  | cons next words => simp [List.intercalate, List.head?_append, List.head?_eq_some_head nonempty]

theorem intercalate_getLast? (words : List (List Char)) (some : words ≠ [])
    (nonempty : ∀ word ∈ words, word ≠ []) :
    ∃ word ∈ words, ([' '].intercalate words).getLast? = word.getLast? := by
  induction words with
  | nil => exact absurd rfl some
  | cons word words ih =>
    cases words with
    | nil => exact ⟨word, by simp, by simp [List.intercalate]⟩
    | cons next words =>
      obtain ⟨last, member, equal⟩ := ih (by simp) fun other belongs =>
        nonempty other (List.mem_cons_of_mem _ belongs)
      have spread : [' '].intercalate (word :: next :: words) =
          (word ++ [' ']) ++ [' '].intercalate (next :: words) := by
        simp [List.intercalate]
      refine ⟨last, List.mem_cons_of_mem _ member, ?_⟩
      have lastNonempty := nonempty last (List.mem_cons_of_mem _ member)
      rw [spread, List.getLast?_append, equal, List.getLast?_eq_some_getLast lastNonempty]
      rfl

theorem trim_intercalate (words : List (List Char)) (some : words ≠ [])
    (solid : ∀ word ∈ words, word ≠ [] ∧ ∀ char ∈ word, isWhiteSpace char = false) :
    trim ([' '].intercalate words) = [' '].intercalate words := by
  apply trim_eq_self
  · cases words with
    | nil => exact absurd rfl some
    | cons word words =>
      have first := solid word (by simp)
      rw [intercalate_head? words word first.1]
      intro char member
      exact first.2 char (List.mem_of_mem_head? member)
  · obtain ⟨word, member, equal⟩ := intercalate_getLast? words some fun word belongs =>
      (solid word belongs).1
    rw [equal]
    intro char last
    exact (solid word member).2 char (List.mem_of_mem_getLast? last)

theorem isDigit_of_mem_stringOfNumber {value : Nat} {char : Char}
    (member : char ∈ stringOfNumber value) : char.isDigit = true :=
  Nat.isDigit_of_mem_toDigits (by decide) (by decide) member

theorem stringOfNumber_ne_nil (value : Nat) : stringOfNumber value ≠ [] := by
  rw [stringOfNumber, Nat.toDigits_eq_if (by decide)]
  split <;> simp

theorem isDigits_stringOfNumber (value : Nat) : isDigits (stringOfNumber value) = true := by
  simp only [isDigits, Bool.and_eq_true, Bool.not_eq_true', List.isEmpty_eq_false_iff,
    List.all_eq_true]
  exact ⟨stringOfNumber_ne_nil value, fun char member => isDigit_of_mem_stringOfNumber member⟩

theorem digitChar_value {digit : Nat} (bound : digit < 10) :
    (Nat.digitChar digit).toNat - 48 = digit := by
  interval_cases digit <;> rfl

theorem numberOfDigits_append (text : List Char) (char : Char) :
    numberOfDigits (text ++ [char]) = numberOfDigits text * 10 + (char.toNat - 48) := by
  simp [numberOfDigits]

@[simp] theorem numberOfDigits_stringOfNumber (value : Nat) :
    numberOfDigits (stringOfNumber value) = value := by
  induction value using Nat.strongRecOn with
  | ind value ih =>
    rw [stringOfNumber, Nat.toDigits_eq_if (by decide)]
    split
    · rename_i small
      simp [numberOfDigits, digitChar_value small]
    · rename_i large
      have shorter := ih (value / 10) (by omega)
      rw [stringOfNumber] at shorter
      rw [numberOfDigits_append, shorter, digitChar_value (Nat.mod_lt value (by decide))]
      omega

theorem stringOfNumber_injective : Function.Injective stringOfNumber := by
  intro left right same
  rw [← numberOfDigits_stringOfNumber left, same, numberOfDigits_stringOfNumber]

theorem digit_code {char : Char} (digit : char.isDigit = true) :
    48 ≤ char.toNat ∧ char.toNat ≤ 57 := by
  simp only [Char.isDigit, ge_iff_le, Bool.and_eq_true, decide_eq_true_eq, UInt32.le_iff_toNat_le]
    at digit
  exact digit

theorem upperCaseOf_digit {char : Char} (digit : char.isDigit = true) :
    upperCaseOf char = [char] := by
  have range := digit_code digit
  unfold upperCaseOf
  split <;> try omega
  have fixed : char.toUpper = char := by
    have notLower : ¬ 97 ≤ char.toNat := by omega
    apply Char.ext
    delta Char.toUpper
    split
    · rename_i lower
      exact absurd (by simpa [UInt32.le_iff_toNat_le] using lower.1) notLower
    · rfl
  rw [fixed]

theorem toUpperCase_digits {text : List Char} (digits : ∀ char ∈ text, char.isDigit = true) :
    toUpperCase text = text := by
  induction text with
  | nil => rfl
  | cons char text ih =>
    have first := upperCaseOf_digit (digits char (by simp))
    have rest := ih fun other member => digits other (List.mem_cons_of_mem _ member)
    rw [toUpperCase] at rest ⊢
    rw [List.flatMap_cons, first, rest]
    rfl

theorem digit_not_whiteSpace {char : Char} (digit : char.isDigit = true) :
    isWhiteSpace char = false := by
  have range := digit_code digit
  simp only [isWhiteSpace, Bool.or_eq_false_iff, Bool.and_eq_false_iff, decide_eq_false_iff_not,
    beq_eq_false_iff_ne, ne_eq]
  omega

end JsText
