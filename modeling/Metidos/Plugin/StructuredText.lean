import Mathlib.Data.List.Forall2
import Metidos.Plugin.StructuredData

/-!
How TOML reads the lines that `stringifyTomlDocument` pushes.
-/

namespace Metidos.StructuredData

open JsText Toml

/-- The character that TOML reads where `JSON.stringify` wrote the point. -/
def keyChar : KeyPoint → Option Char
  | .scalar char => if char = delete then none else some char
  | .surrogate _ => none

def keyChars (key : Key) : Option Text := key.mapM keyChar

theorem hexDigit_spec : ∀ value < 16,
    isHexDigit (hexDigit value) = true ∧ hexDigitValue (hexDigit value) = value := by
  decide

theorem unicodeEscape_hex {first second third fourth : Nat} (one : first < 16) (two : second < 16)
    (three : third < 16) (four : fourth < 16) :
    unicodeEscape [hexDigit first, hexDigit second, hexDigit third, hexDigit fourth] =
      if ((first * 16 + second) * 16 + third) * 16 + fourth < 0xD800 ∨
          0xE000 ≤ ((first * 16 + second) * 16 + third) * 16 + fourth then
        some (Char.ofNat (((first * 16 + second) * 16 + third) * 16 + fourth))
      else none := by
  simp [unicodeEscape, numberOfHexDigits, hexDigit_spec _ one, hexDigit_spec _ two,
    hexDigit_spec _ three, hexDigit_spec _ four]

theorem char_of_code {char : Char} {code : Nat} (isCode : char.toNat = code) :
    char = Char.ofNat code := by
  rw [← isCode, Char.ofNat_toNat]

theorem readBasic_plain {char : Char} (rest : Text) (mark : char ≠ quoteMark)
    (escape : char ≠ backslash) : readBasic (char :: rest) =
      if isUnescaped char then (readBasic rest).map fun found => (char :: found.1, found.2)
      else none := by
  rw [readBasic.eq_def]
  simp only [if_neg mark, if_neg escape]

theorem readBasic_unicode (first second third fourth : Char) (rest : Text) :
    readBasic (backslash :: 'u' :: first :: second :: third :: fourth :: rest) =
      (unicodeEscape [first, second, third, fourth]).bind fun decoded =>
        (readBasic rest).map fun found => (decoded :: found.1, found.2) := by
  have notMark : backslash ≠ quoteMark := by decide
  simp only [readBasic, if_neg notMark, if_pos]
  cases unicodeEscape [first, second, third, fourth] <;> rfl

theorem readBasic_point (point : KeyPoint) (rest : Text) :
    readBasic (jsonPoint point ++ rest) =
      (keyChar point).bind fun char =>
        (readBasic rest).map fun found => (char :: found.1, found.2) := by
  cases point with
  | surrogate offset =>
    have bound := offset.isLt
    simp only [jsonPoint, hexEscape, List.cons_append, List.nil_append, readBasic_unicode, keyChar]
    rw [unicodeEscape_hex (by omega) (by omega) (by omega) (by omega), if_neg (by omega)]
  | scalar char =>
    rw [jsonPoint, jsonEscape]
    split
    case h_8 code short_1 short_2 short_3 short_4 short_5 short_6 short_7 =>
      split
      · rename_i control
        have codeIs : ((0 * 16 + 0) * 16 + char.toNat / 16) * 16 + char.toNat % 16 =
            char.toNat := by omega
        have escape := @unicodeEscape_hex 0 0 (char.toNat / 16) (char.toNat % 16) (by decide)
          (by decide) (by omega) (by omega)
        have notDelete : char ≠ delete := by
          rintro rfl
          revert control
          decide
        rw [codeIs, if_pos (by omega), Char.ofNat_toNat] at escape
        have zero : hexDigit 0 = '0' := by decide
        simp only [List.cons_append, List.nil_append, zero] at escape ⊢
        rw [show Char.ofNat 0x5C = backslash from rfl, readBasic_unicode, escape, keyChar,
          if_neg notDelete]
      · rename_i plain
        have notMark : char ≠ quoteMark := by
          rintro rfl
          exact short_1 rfl
        have notEscape : char ≠ backslash := by
          rintro rfl
          exact short_2 rfl
        rw [List.singleton_append, readBasic_plain rest notMark notEscape, keyChar, isUnescaped]
        by_cases deleted : char = delete
        · subst deleted
          simp [show delete.toNat = 127 from rfl]
        · simp [deleted, Nat.le_of_not_lt plain]
    all_goals
      rename_i isCode
      obtain rfl := char_of_code isCode
      rfl

theorem readBasic_points (key : Key) (rest : Text) :
    readBasic (key.flatMap jsonPoint ++ quoteMark :: rest) =
      (keyChars key).map fun chars => (chars, rest) := by
  induction key with
  | nil =>
    rw [List.flatMap_nil, List.nil_append, readBasic.eq_def]
    rfl
  | cons point key ih =>
    rw [List.flatMap_cons, List.append_assoc, readBasic_point, ih, keyChars, keyChars,
      List.mapM_cons]
    cases keyChar point with
    | none => rfl
    | some char => cases key.mapM keyChar <;> rfl

theorem keyChars_of_bare {key : Key} {bare : Text} (allBare : key.mapM barePoint = some bare) :
    keyChars key = some bare ∧ ∀ char ∈ bare, isBare char = true := by
  induction key generalizing bare with
  | nil =>
    obtain rfl : bare = [] := by simpa using allBare.symm
    exact ⟨rfl, by simp⟩
  | cons point key ih =>
    cases point with
    | surrogate offset => simp [List.mapM_cons, barePoint] at allBare
    | scalar char =>
      simp only [List.mapM_cons, barePoint] at allBare
      split at allBare
      · rename_i isBareChar
        cases tail : key.mapM barePoint with
        | none => simp [tail] at allBare
        | some others =>
          obtain rfl : bare = char :: others := by simpa [tail] using allBare.symm
          obtain ⟨read, restBare⟩ := ih tail
          have notDelete : char ≠ delete := by
            rintro rfl
            revert isBareChar
            decide
          rw [keyChars] at read
          refine ⟨by simp [keyChars, List.mapM_cons, keyChar, notDelete, read], ?_⟩
          simpa using ⟨isBareChar, restBare⟩
      · simp at allBare

theorem readKey_quoted (key : Key) (rest : Text) :
    readKey (jsonString key ++ rest) = (keyChars key).map fun chars => (chars, rest) := by
  rw [jsonString, List.cons_append, readKey, if_pos rfl, List.append_assoc, List.singleton_append,
    readBasic_points]

theorem readKey_text (key : Key) {rest : Text} (stops : ∀ char ∈ rest.head?, isBare char = false) :
    readKey (assertTomlKey key ++ rest) = (keyChars key).map fun chars => (chars, rest) := by
  rw [assertTomlKey]
  split
  · exact readKey_quoted key rest
  · rename_i bare some isBareKey
    obtain ⟨read, allBare⟩ := keyChars_of_bare isBareKey
    cases bare with
    | nil => exact absurd rfl some
    | cons char bare =>
      have first := allBare char List.mem_cons_self
      have notMark : char ≠ quoteMark := by
        rintro rfl
        revert first
        decide
      have stop : rest.takeWhile isBare = [] ∧ rest.dropWhile isBare = rest := by
        cases rest with
        | nil => exact ⟨rfl, rfl⟩
        | cons next rest => simp [stops next rfl]
      rw [read, List.cons_append, readKey, if_neg notMark, if_pos first, ← List.cons_append,
        List.takeWhile_append_of_pos allBare, List.dropWhile_append_of_pos allBare, stop.1, stop.2,
        List.append_nil]
      rfl
  · exact readKey_quoted key rest

theorem readHeader_text {path : List Key} (some : path ≠ []) (rest : Text) {fuel : Nat}
    (enough : path.length ≤ fuel) :
    readHeader fuel (['.'].intercalate (path.map assertTomlKey) ++ ']' :: rest) =
      (path.mapM keyChars).map fun chars => (chars, rest) := by
  induction path generalizing fuel with
  | nil => exact absurd rfl some
  | cons key path ih =>
    obtain ⟨fuel, rfl⟩ := Nat.exists_eq_add_one_of_ne_zero
      (Nat.ne_of_gt (Nat.lt_of_lt_of_le (Nat.succ_pos path.length) enough))
    cases path with
    | nil =>
      have read := @readKey_text key (']' :: rest) (by simp; decide)
      rw [List.map_singleton, List.intercalate_singleton, readHeader, read]
      cases chars : keyChars key <;> simp [chars]
    | cons next path =>
      have later := ih (List.cons_ne_nil _ _) (Nat.le_of_succ_le_succ enough)
      have read := @readKey_text key ('.' :: (['.'].intercalate
        ((next :: path).map assertTomlKey) ++ ']' :: rest)) (by simp; decide)
      have spread : ['.'].intercalate ((key :: next :: path).map assertTomlKey) ++ ']' :: rest =
          assertTomlKey key ++ '.' :: (['.'].intercalate ((next :: path).map assertTomlKey) ++
            ']' :: rest) := by
        simp [List.intercalate]
      rw [spread, readHeader, read, List.mapM_cons]
      cases keyChars key with
      | none => rfl
      | some chars =>
        simp only [Option.map_some, later]
        cases (next :: path).mapM keyChars <;> rfl

theorem leadingZeros (digits : Text) (leading : digits.head? ≠ some '0') (front : Nat) :
    (zeros front ++ digits).dropWhile (· == '0') = digits := by
  rw [zeros, List.dropWhile_append_of_pos (by simp)]
  cases digits with
  | nil => rfl
  | cons digit digits =>
    have plain : digit ≠ '0' := by simpa using leading
    simp [plain]

theorem normal_zeros (number : FiniteNumber) (some : number.decimal.digits ≠ []) (front back : Nat)
    (point : Int) (isPoint : point = number.decimal.point + front) :
    Decimal.normal number.decimal.negative (zeros front ++ (number.decimal.digits ++ zeros back))
      point = number.decimal := by
  have leading : (number.decimal.digits ++ zeros back).head? ≠ Option.some '0' := by
    rw [List.head?_append_of_ne_nil _ some]
    exact number.leading
  have trailing : (number.decimal.digits ++ zeros back).rdropWhile (· == '0') =
      number.decimal.digits := by
    have reversed := leadingZeros number.decimal.digits.reverse (by simpa using number.trailing) back
    rw [zeros] at reversed
    simp [List.rdropWhile, zeros, reversed]
  simp only [Decimal.normal, leadingZeros _ leading, trailing, if_neg some]
  have exponent : point - (((zeros front ++ (number.decimal.digits ++ zeros back)).length : Int) -
      ((number.decimal.digits ++ zeros back).length : Int)) = number.decimal.point := by
    simp only [List.length_append, zeros, List.length_replicate]
    omega
  rw [exponent]

theorem readUnsigned_whole {negative : Bool} {whole rest : Text}
    (digits : ∀ digit ∈ whole, digit.isDigit = true)
    (shape : whole ≠ [] ∧ (whole.head? = some '0' → whole = ['0']))
    (stops : ∀ char ∈ rest.head?, char.isDigit = false) :
    readUnsigned negative (whole ++ rest) =
      (readFraction rest).bind fun fraction => (readExponent fraction.2).map fun exponent =>
        Decimal.normal negative (whole ++ fraction.1) (whole.length + exponent) := by
  have stop : rest.takeWhile Char.isDigit = [] ∧ rest.dropWhile Char.isDigit = rest := by
    cases rest with
    | nil => exact ⟨rfl, rfl⟩
    | cons next rest => simp [stops next rfl]
  have plain : ¬(whole = [] ∨ (whole.head? = some '0' ∧ whole ≠ ['0'])) := by
    rintro (none | ⟨zero, longer⟩)
    · exact shape.1 none
    · exact longer (shape.2 zero)
  simp only [readUnsigned, List.takeWhile_append_of_pos digits, List.dropWhile_append_of_pos digits,
    stop.1, stop.2, List.append_nil, if_neg plain]
  cases readFraction rest <;> rfl

theorem readFraction_digits {digits rest : Text} (some : digits ≠ [])
    (allDigits : ∀ digit ∈ digits, digit.isDigit = true)
    (stops : ∀ char ∈ rest.head?, char.isDigit = false) :
    readFraction ('.' :: (digits ++ rest)) = .some (digits, rest) := by
  have stop : rest.takeWhile Char.isDigit = [] ∧ rest.dropWhile Char.isDigit = rest := by
    cases rest with
    | nil => exact ⟨rfl, rfl⟩
    | cons next rest => simp [stops next rfl]
  simp only [readFraction, List.takeWhile_append_of_pos allDigits,
    List.dropWhile_append_of_pos allDigits, stop.1, stop.2, List.append_nil, if_neg some]

theorem readExponent_text (exponent : Int) : readExponent (exponentText exponent) = some exponent := by
  have digits := isDigits_stringOfNumber exponent.natAbs
  rw [exponentText]
  split
  · simp only [readExponent, digits, if_true, numberOfDigits_stringOfNumber]
    congr 1
    omega
  · simp only [readExponent, digits, if_true, numberOfDigits_stringOfNumber]
    congr 1
    omega

theorem exponentText_stops (exponent : Int) :
    ∀ char ∈ (exponentText exponent).head?, char.isDigit = false := by
  intro char isFirst
  cases isFirst
  decide

theorem readUnsigned_positive (number : FiniteNumber) (some : number.decimal.digits ≠ []) :
    readUnsigned number.decimal.negative
        (positiveText number.decimal.digits number.decimal.point) = .some number.decimal := by
  have allDigits := number.digits
  have leading := number.leading
  have normal := normal_zeros number some
  set digits := number.decimal.digits with isDigits
  set point := number.decimal.point
  have long : 0 < digits.length := List.length_pos_of_ne_nil some
  have front (count : Nat) (positive : 0 < count) :
      digits.take count ≠ [] ∧ ((digits.take count).head? = .some '0' → digits.take count = ['0']) := by
    refine ⟨by simpa using ⟨Nat.ne_of_gt positive, some⟩, fun zero => absurd ?_ leading⟩
    rw [← zero, List.head?_take, if_neg (Nat.ne_of_gt positive)]
  have takeDigits (count : Nat) : ∀ digit ∈ digits.take count, digit.isDigit = true :=
    fun digit member => allDigits digit (List.mem_of_mem_take member)
  have dropDigits (count : Nat) : ∀ digit ∈ digits.drop count, digit.isDigit = true :=
    fun digit member => allDigits digit (List.mem_of_mem_drop member)
  have dot : ∀ rest, ∀ char ∈ ('.' :: rest : Text).head?, char.isDigit = false := by
    intro rest char isFirst
    cases isFirst
    decide
  rw [positiveText]
  split
  · rename_i whole
    have shape : digits ++ zeros (point.toNat - digits.length) ≠ [] ∧
        ((digits ++ zeros (point.toNat - digits.length)).head? = .some '0' →
          digits ++ zeros (point.toNat - digits.length) = ['0']) := by
      refine ⟨by simp [some], fun zero => absurd ?_ leading⟩
      rwa [List.head?_append_of_ne_nil _ some] at zero
    have read := @readUnsigned_whole number.decimal.negative _ [] (by
      intro digit member
      rcases List.mem_append.mp member with inside | zero
      · exact allDigits digit inside
      · rw [List.eq_of_mem_replicate zero]
        decide) shape (by simp)
    rw [List.append_nil] at read
    rw [read]
    have exact := normal 0 (point.toNat - digits.length) point (by simp)
    have length : ((digits ++ zeros (point.toNat - digits.length)).length : Int) + 0 = point := by
      simp only [List.length_append, zeros, List.length_replicate]
      omega
    simp only [readFraction, Option.bind_some, readExponent, Option.map_some, List.append_nil, length]
    simpa [zeros] using exact
  · split
    · rename_i large between
      have inside : point.toNat < digits.length := by omega
      have read := @readFraction_digits (digits.drop point.toNat) [] (by simpa using inside) (dropDigits _) (by simp)
      rw [List.append_nil] at read
      rw [readUnsigned_whole (takeDigits _) (front _ (by omega)) (dot _), read]
      have exact := normal 0 0 point (by simp)
      have length : ((digits.take point.toNat).length : Int) + 0 = point := by
        rw [List.length_take]
        omega
      simp only [Option.bind_some, readExponent, Option.map_some, List.take_append_drop, length]
      simpa [zeros] using exact
    · split
      · rename_i small
        have fraction := @readFraction_digits (zeros (-point).toNat ++ digits) [] (by simp [some])
          (by
            intro digit member
            rcases List.mem_append.mp member with zero | inside
            · rw [List.eq_of_mem_replicate zero]
              decide
            · exact allDigits digit inside) (by simp)
        rw [List.append_nil] at fraction
        have read := @readUnsigned_whole number.decimal.negative ['0']
          ('.' :: (zeros (-point).toNat ++ digits)) (by simp) (by simp) (dot _)
        rw [List.singleton_append] at read
        rw [read, fraction]
        have exact := normal ((-point).toNat + 1) 0 1 (by omega)
        simp only [Option.bind_some, readExponent, Option.map_some]
        simpa [zeros, List.replicate_succ] using exact
      · have exact := normal 0 0 point (by simp)
        have stops := exponentText_stops (point - 1)
        split
        · rename_i single
          have one := front 1 (by decide)
          rw [List.take_of_length_le (by omega)] at one
          rw [readUnsigned_whole allDigits one stops]
          have none : readFraction (exponentText (point - 1)) = .some ([], exponentText (point - 1)) :=
            rfl
          have length : ((digits.length : Int) + (point - 1)) = point := by omega
          simp only [none, Option.bind_some, readExponent_text, Option.map_some, List.append_nil,
            length]
          simpa [zeros] using exact
        · rename_i several
          rw [readUnsigned_whole (takeDigits 1) (front 1 (by decide)) (dot _),
            readFraction_digits (List.ne_nil_of_length_pos (by rw [List.length_drop]; omega))
              (dropDigits 1) stops]
          have length : (((digits.take 1).length : Int) + (point - 1)) = point := by
            rw [List.length_take]
            omega
          simp only [Option.bind_some, readExponent_text, Option.map_some, List.take_append_drop,
            length]
          simpa [zeros] using exact

theorem token_of_digit {char : Char} (digit : char.isDigit = true) : isTokenChar char = true := by
  simp [isTokenChar, Char.isAlphanum, digit]

theorem positiveText_tokens {digits : Text} (allDigits : ∀ digit ∈ digits, digit.isDigit = true)
    (point : Int) : ∀ char ∈ positiveText digits point, isTokenChar char = true := by
  have zeroToken : isTokenChar '0' = true := by decide
  have dotToken : isTokenChar '.' = true := by decide
  have inDigits (char : Char) (member : char ∈ digits) : isTokenChar char = true :=
    token_of_digit (allDigits char member)
  have inTake (count : Nat) (char : Char) (member : char ∈ digits.take count) :
      isTokenChar char = true := inDigits char (List.mem_of_mem_take member)
  have inDrop (count : Nat) (char : Char) (member : char ∈ digits.drop count) :
      isTokenChar char = true := inDigits char (List.mem_of_mem_drop member)
  have inZeros (count : Nat) (char : Char) (member : char ∈ zeros count) :
      isTokenChar char = true := by rwa [List.eq_of_mem_replicate member]
  have inExponent (exponent : Int) (char : Char) (member : char ∈ exponentText exponent) :
      isTokenChar char = true := by
    rw [exponentText, List.mem_cons, List.mem_cons] at member
    rcases member with rfl | rfl | digit
    · decide
    · split <;> decide
    · exact token_of_digit (isDigit_of_mem_stringOfNumber digit)
  intro char member
  rw [positiveText] at member
  split_ifs at member <;> simp only [List.mem_append, List.mem_cons] at member <;>
    rcases member with _ | member <;> grind

theorem positiveText_starts {digits : Text} (some : digits ≠ [])
    (allDigits : ∀ digit ∈ digits, digit.isDigit = true) (point : Int) :
    ∃ first rest, positiveText digits point = first :: rest ∧ first.isDigit = true := by
  cases digits with
  | nil => exact absurd rfl some
  | cons digit digits =>
    have first := allDigits digit List.mem_cons_self
    have shift : 0 < point → ∃ count, point.toNat = count + 1 := fun positive =>
      ⟨point.toNat - 1, by omega⟩
    rw [positiveText]
    split_ifs with whole between small single
    · exact ⟨digit, _, rfl, first⟩
    · obtain ⟨count, isCount⟩ := shift between.1
      rw [isCount]
      exact ⟨digit, _, rfl, first⟩
    · exact ⟨'0', _, rfl, by decide⟩
    · exact ⟨digit, _, rfl, first⟩
    · exact ⟨digit, _, rfl, first⟩

theorem readNumber_digit {first : Char} (rest : Text) (digit : first.isDigit = true) :
    readNumber (first :: rest) = readUnsigned false (first :: rest) := by
  unfold readNumber
  split
  · rename_i same
    cases same
    exact absurd digit (by decide)
  · rename_i same
    cases same
    exact absurd digit (by decide)
  · rfl

theorem readNumber_text (number : FiniteNumber) :
    readNumber (numberText number) = some number.decimal := by
  rw [numberText]
  split
  · rename_i zero
    rw [number.zero zero]
    decide
  · rename_i some
    have read := readUnsigned_positive number some
    obtain ⟨first, rest, starts, digit⟩ := positiveText_starts some number.digits number.decimal.point
    cases sign : number.decimal.negative with
    | true =>
      rw [sign] at read
      exact read
    | false =>
      rw [sign] at read
      rw [if_neg Bool.false_ne_true, List.nil_append, starts, readNumber_digit rest digit, ← starts,
        read]

theorem numberText_tokens (number : FiniteNumber) :
    numberText number ≠ [] ∧ ∀ char ∈ numberText number, isTokenChar char = true := by
  rw [numberText]
  split
  · exact ⟨List.cons_ne_nil _ _, List.all_eq_true.mp (by decide)⟩
  · rename_i some
    obtain ⟨first, rest, starts, -⟩ := positiveText_starts some number.digits number.decimal.point
    have tokens := positiveText_tokens number.digits number.decimal.point
    split
    · refine ⟨by simp, ?_⟩
      rw [List.singleton_append, List.forall_mem_cons]
      exact ⟨by decide, tokens⟩
    · exact ⟨by simp [starts], by simpa using tokens⟩

theorem padded_spec (width value : Nat) : (padded width value).length = width ∧
    (∀ digit ∈ padded width value, digit.isDigit = true) ∧
    numberOfDigits (padded width value) = value % 10 ^ width := by
  induction width generalizing value with
  | zero => exact ⟨rfl, by simp [padded], by simp [padded, numberOfDigits, Nat.mod_one]⟩
  | succ width ih =>
    obtain ⟨length, digits, number⟩ := ih (value / 10)
    have last : value % 10 < 10 := Nat.mod_lt _ (by decide)
    refine ⟨by simp [padded, length], ?_, ?_⟩
    · intro digit member
      rcases List.mem_append.mp member with before | isLast
      · exact digits digit before
      · have allDigits : ∀ value < 10, (Nat.digitChar value).isDigit = true := by decide
        rw [List.mem_singleton.mp isLast]
        exact allDigits _ last
    · rw [padded, numberOfDigits_append, number, digitChar_value last, Nat.pow_succ, Nat.mul_comm,
        Nat.mul_comm (10 ^ width), Nat.mod_mul, Nat.add_comm]

theorem readFields_write {layout : List (Nat × Char)} {values : List Nat}
    (fits : List.Forall₂ (fun field value => 0 < field.1 ∧ value < 10 ^ field.1) layout values) :
    readFields layout (writeFields layout values) = some values := by
  induction fits with
  | nil => rfl
  | cons fit fits ih =>
    rename_i field value layout values
    obtain ⟨width, mark⟩ := field
    obtain ⟨length, digits, number⟩ := padded_spec width value
    have front : (padded width value ++ mark :: writeFields layout values).take width =
        padded width value := by simp [length]
    have mid : (padded width value ++ mark :: writeFields layout values).drop width =
        mark :: writeFields layout values := by simp [length]
    have back : (padded width value ++ mark :: writeFields layout values).drop (width + 1) =
        writeFields layout values := by
      rw [← List.drop_drop, mid]
      rfl
    have isNumeral : isDigits (padded width value) = true := by
      simp only [isDigits, Bool.and_eq_true, Bool.not_eq_true', List.isEmpty_eq_false_iff,
        List.all_eq_true]
      exact ⟨List.ne_nil_of_length_pos (by rw [length]; exact fit.1), digits⟩
    rw [writeFields, readFields, front, mid, back, if_pos ⟨isNumeral, length, rfl⟩, ih, number,
      Nat.mod_eq_of_lt fit.2]
    rfl

/-- The years that TOML writes with four digits. -/
def FourDigits (date : Date) : Prop := 0 ≤ date.val.year ∧ date.val.year ≤ 9999

instance (date : Date) : Decidable (FourDigits date) := by
  unfold FourDigits
  infer_instance

theorem readUnsigned_dash {negative : Bool} {digits : Text} (rest : Text)
    (allDigits : ∀ digit ∈ digits, digit.isDigit = true) :
    readUnsigned negative (digits ++ '-' :: rest) = none := by
  have stop : ('-' :: rest).takeWhile Char.isDigit = [] ∧
      ('-' :: rest).dropWhile Char.isDigit = '-' :: rest := ⟨rfl, rfl⟩
  simp only [readUnsigned, List.takeWhile_append_of_pos allDigits,
    List.dropWhile_append_of_pos allDigits, stop.1, stop.2]
  split <;> rfl

theorem readDateTime_text {date : Date} (year : FourDigits date) :
    readDateTime (toISOString date) = some date.val := by
  obtain ⟨-, monthHigh, -, dayHigh, hour, minute, second, millisecond⟩ := date.property
  have dayBound := Gregorian.daysInMonth_le (Gregorian.isLeapYear date.val.year) date.val.month
  have positive : 0 ≤ date.val.year := year.1
  have short : date.val.year ≤ 9999 := year.2
  have written : toISOString date =
      writeFields ((4, '-') :: timeLayout) (date.val.year.toNat :: timeFields date.val) := by
    rw [toISOString, yearText, if_pos ⟨positive, short⟩]
    rfl
  have fits : List.Forall₂ (fun (field : Nat × Char) value => 0 < field.1 ∧ value < 10 ^ field.1)
      ((4, '-') :: timeLayout) (date.val.year.toNat :: timeFields date.val) := by
    simp [timeLayout, timeFields]
    omega
  rw [readDateTime, written, readFields_write fits]
  simp only [timeFields, Int.toNat_of_nonneg positive]
  exact if_pos date.property

theorem readNumber_date (date : Date) : readNumber (toISOString date) = none := by
  rw [toISOString, yearText]
  split
  · obtain ⟨length, digits, -⟩ := padded_spec 4 date.val.year.toNat
    have dash := @readUnsigned_dash false _ (writeFields timeLayout (timeFields date.val)) digits
    cases year : padded 4 date.val.year.toNat with
    | nil => simp [year] at length
    | cons first rest =>
      rw [year] at dash digits
      rw [List.cons_append] at dash ⊢
      rw [readNumber_digit _ (digits first List.mem_cons_self), dash]
  · have digits := (padded_spec 6 date.val.year.natAbs).2.1
    split
    · exact readUnsigned_dash _ digits
    · exact readUnsigned_dash _ digits

theorem readDateTime_long {date : Date} (long : ¬FourDigits date) :
    readDateTime (toISOString date) = none := by
  have sign : ∃ sign rest, toISOString date = sign :: rest ∧ sign.isDigit = false := by
    have far : ¬(0 ≤ date.val.year ∧ date.val.year ≤ 9999) := long
    rw [toISOString, yearText, if_neg far]
    refine ⟨_, _, rfl, ?_⟩
    split <;> decide
  obtain ⟨sign, rest, text, notDigit⟩ := sign
  have numeral : isDigits ((sign :: rest).take 4) = false := by
    simp [isDigits, notDigit]
  rw [readDateTime, text, readFields, if_neg fun shape => absurd (numeral.symm.trans shape.1) (by decide)]

theorem readToken_number (number : FiniteNumber) :
    readToken (numberText number) = some (.number number.decimal) := by
  have read := readNumber_text number
  have notTrue : numberText number ≠ "true".toList := by
    intro same
    rw [same] at read
    have word : readNumber "true".toList = none := by decide
    simp only [word, reduceCtorEq] at read
  have notFalse : numberText number ≠ "false".toList := by
    intro same
    rw [same] at read
    have word : readNumber "false".toList = none := by decide
    simp only [word, reduceCtorEq] at read
  rw [readToken, if_neg notTrue, if_neg notFalse, read]
  rfl

theorem toISOString_shape (date : Date) : (toISOString date).length > 6 ∧
    ∀ char ∈ toISOString date, isTokenChar char = true := by
  have padToken (width value : Nat) : ∀ char ∈ padded width value, isTokenChar char = true :=
    fun char member => token_of_digit ((padded_spec width value).2.1 char member)
  have fields : ∀ char ∈ writeFields timeLayout (timeFields date.val), isTokenChar char = true := by
    simp only [timeLayout, timeFields, writeFields, List.forall_mem_append, List.forall_mem_cons]
    refine ⟨padToken _ _, by decide, padToken _ _, by decide, padToken _ _, by decide, padToken _ _,
      by decide, padToken _ _, by decide, padToken _ _, by decide, by simp⟩
  constructor
  · simp only [toISOString, List.length_append, List.length_cons, timeLayout, timeFields, writeFields,
      (padded_spec _ _).1]
    omega
  · rw [toISOString, List.forall_mem_append, List.forall_mem_cons]
    refine ⟨?_, by decide, fields⟩
    rw [yearText]
    split
    · exact padToken _ _
    · rw [List.forall_mem_cons]
      refine ⟨?_, padToken _ _⟩
      split <;> decide

theorem readToken_date (date : Date) : readToken (toISOString date) =
    if FourDigits date then some (.dateTime date.val) else none := by
  have long := (toISOString_shape date).1
  have notTrue : toISOString date ≠ "true".toList := by
    intro same
    rw [same] at long
    exact absurd long (by decide)
  have notFalse : toISOString date ≠ "false".toList := by
    intro same
    rw [same] at long
    exact absurd long (by decide)
  rw [readToken, if_neg notTrue, if_neg notFalse, readNumber_date]
  split
  · rename_i year
    rw [readDateTime_text year]
    rfl
  · rename_i year
    rw [readDateTime_long year]
    rfl

theorem readValue_token {token rest : Text} (some : token ≠ [])
    (tokens : ∀ char ∈ token, isTokenChar char = true)
    (stops : ∀ char ∈ rest.head?, isTokenChar char = false) (fuel : Nat) :
    readValue (fuel + 1) (token ++ rest) = (readToken token).map fun leaf => (leaf, rest) := by
  have stop : rest.takeWhile isTokenChar = [] ∧ rest.dropWhile isTokenChar = rest := by
    cases rest with
    | nil => exact ⟨rfl, rfl⟩
    | cons next rest => simp [stops next rfl]
  have take : (token ++ rest).takeWhile isTokenChar = token := by
    rw [List.takeWhile_append_of_pos tokens, stop.1, List.append_nil]
  have drop : (token ++ rest).dropWhile isTokenChar = rest := by
    rw [List.dropWhile_append_of_pos tokens, stop.2]
  cases token with
  | nil => exact absurd rfl some
  | cons char token =>
    have first := tokens char List.mem_cons_self
    have notMark : char ≠ quoteMark := by
      rintro rfl
      revert first
      decide
    have notBracket : char ≠ '[' := by
      rintro rfl
      revert first
      decide
    rw [List.cons_append] at take drop ⊢
    rw [readValue.eq_def]
    simp only [if_neg notMark, if_neg notBracket, take, drop]

mutual

def leafOf : Value → Option Leaf
  | .string text => some (.string text)
  | .boolean value => some (.boolean value)
  | .number value => some (.number value.decimal)
  | .date value => some (.dateTime value.val)
  | .array items => (leavesOf items).map .array
  | .object _ | .null | .undefined => none

def leavesOf : List Value → Option (List Leaf)
  | [] => some []
  | item :: items => (leafOf item).bind fun leaf => (leavesOf items).map (leaf :: ·)

end

mutual

/-- No delete character in a string and no year outside four digits. -/
def isWritable : Value → Bool
  | .string text => delete ∉ text
  | .date value => FourDigits value
  | .array items => areWritable items
  | _ => true

def areWritable : List Value → Bool
  | [] => true
  | item :: items => isWritable item && areWritable items

end

theorem keyChars_scalars (text : Text) :
    keyChars (text.map .scalar) = if delete ∈ text then none else some text := by
  induction text with
  | nil => rfl
  | cons char text ih =>
    rw [keyChars] at ih ⊢
    rw [List.map_cons, List.mapM_cons, ih, keyChar]
    by_cases deleted : char = delete
    · simp [deleted]
    · by_cases later : delete ∈ text <;> simp [deleted, later, Ne.symm deleted]

theorem text_starts {value : Value} {text : Text} (printed : stringifyTomlValue value = .ok text) :
    ∃ first rest, text = first :: rest ∧ first ≠ ']' := by
  have token {token : Text} (some : token ≠ [])
      (tokens : ∀ char ∈ token, isTokenChar char = true) :
      ∃ first rest, token = first :: rest ∧ first ≠ ']' := by
    cases token with
    | nil => exact absurd rfl some
    | cons first rest =>
      refine ⟨first, rest, rfl, ?_⟩
      rintro rfl
      exact absurd (tokens ']' List.mem_cons_self) (by decide)
  cases value with
  | string text =>
    obtain rfl := Except.ok.inj printed
    exact ⟨quoteMark, _, rfl, by decide⟩
  | boolean value =>
    obtain rfl := Except.ok.inj printed
    cases value
    · exact ⟨'f', _, rfl, by decide⟩
    · exact ⟨'t', _, rfl, by decide⟩
  | number value =>
    obtain rfl := Except.ok.inj printed
    exact token (numberText_tokens value).1 (numberText_tokens value).2
  | date value =>
    obtain rfl := Except.ok.inj printed
    have shape := toISOString_shape value
    exact token (List.ne_nil_of_length_pos (by omega)) shape.2
  | array items =>
    rw [stringifyTomlValue] at printed
    split at printed
    · obtain rfl := Except.ok.inj printed
      exact ⟨'[', _, rfl, by decide⟩
    · cases printed
  | object entries => cases printed
  | null => cases printed
  | undefined => cases printed

mutual

theorem readValue_text {value : Value} {text : Text} (printed : stringifyTomlValue value = .ok text)
    {rest : Text} (stops : ∀ char ∈ rest.head?, isTokenChar char = false) {fuel : Nat}
    (enough : text.length < fuel) : readValue fuel (text ++ rest) =
      if isWritable value then (leafOf value).map fun leaf => (leaf, rest) else none := by
  obtain ⟨fuel, rfl⟩ := Nat.exists_eq_add_one_of_ne_zero (Nat.ne_of_gt (Nat.zero_lt_of_lt enough))
  cases value with
  | string content =>
    obtain rfl := Except.ok.inj printed
    have read := readBasic_points (content.map .scalar) rest
    rw [keyChars_scalars] at read
    rw [jsonString, List.cons_append, readValue.eq_def]
    simp only [if_true, List.append_assoc, List.singleton_append, read, isWritable, leafOf]
    by_cases deleted : delete ∈ content <;> simp [deleted]
  | boolean value =>
    obtain rfl := Except.ok.inj printed
    have tokens : (if value then "true".toList else "false".toList) ≠ [] ∧
        ∀ char ∈ if value then "true".toList else "false".toList, isTokenChar char = true := by
      cases value
      · exact ⟨by decide, List.all_eq_true.mp (by decide)⟩
      · exact ⟨by decide, List.all_eq_true.mp (by decide)⟩
    rw [readValue_token tokens.1 tokens.2 stops]
    cases value <;> rfl
  | number value =>
    obtain rfl := Except.ok.inj printed
    obtain ⟨some, tokens⟩ := numberText_tokens value
    rw [readValue_token some tokens stops, readToken_number]
    rfl
  | date value =>
    obtain rfl := Except.ok.inj printed
    obtain ⟨long, tokens⟩ := toISOString_shape value
    rw [readValue_token (List.ne_nil_of_length_pos (by omega)) tokens stops, readToken_date,
      isWritable, leafOf]
    by_cases year : FourDigits value <;> simp [year]
  | array items =>
    rw [stringifyTomlValue] at printed
    split at printed
    · rename_i texts isTexts
      obtain rfl := Except.ok.inj printed
      have notMark : '[' ≠ quoteMark := by decide
      rw [List.cons_append, readValue.eq_def, isWritable, leafOf]
      simp only [if_neg notMark, if_true, List.append_assoc, List.singleton_append]
      cases items with
      | nil =>
        obtain rfl := Except.ok.inj isTexts
        rfl
      | cons item items =>
        have read := @readItems_text (item :: items) texts (List.cons_ne_nil _ _) isTexts rest fuel
          (by simp only [List.length_cons, List.length_append] at enough; omega)
        split
        · rename_i after closed
          rw [stringifyTomlItems] at isTexts
          split at isTexts
          · rename_i text isText
            obtain ⟨first, more, rfl, notClose⟩ := text_starts isText
            cases tail : stringifyTomlItems items with
            | error error => simp [tail, Except.map] at isTexts
            | ok others =>
              obtain rfl : (first :: more) :: others = texts := by
                simpa [tail, Except.map] using isTexts
              cases others <;> simp [List.intercalate] at closed <;>
                exact absurd closed.1 notClose
          · cases isTexts
        · rw [read]
          cases areWritable (item :: items) <;> cases leavesOf (item :: items) <;> rfl
    · cases printed
  | object entries => cases printed
  | null => cases printed
  | undefined => cases printed

theorem readItems_text {items : List Value} {texts : List Text} (some : items ≠ [])
    (printed : stringifyTomlItems items = .ok texts) {rest : Text} {fuel : Nat}
    (enough : (", ".toList.intercalate texts).length + 1 < fuel) :
    readItems fuel (", ".toList.intercalate texts ++ ']' :: rest) =
      if areWritable items then (leavesOf items).map fun leaves => (leaves, rest) else none := by
  obtain ⟨fuel, rfl⟩ := Nat.exists_eq_add_one_of_ne_zero (Nat.ne_of_gt (Nat.zero_lt_of_lt enough))
  cases items with
  | nil => exact absurd rfl some
  | cons item items =>
    rw [stringifyTomlItems] at printed
    split at printed
    · rename_i text isText
      cases tail : stringifyTomlItems items with
      | error error => simp [tail, Except.map] at printed
      | ok others =>
        obtain rfl : text :: others = texts := by simpa [tail, Except.map] using printed
        cases items with
        | nil =>
          obtain rfl := Except.ok.inj tail
          rw [List.intercalate_singleton] at enough ⊢
          have read := @readValue_text item text isText (']' :: rest) (by simp; decide) fuel
            (by omega)
          rw [readItems, read, areWritable, leavesOf]
          cases isWritable item <;> cases leafOf item <;> simp [areWritable, leavesOf]
        | cons next items =>
          cases others with
          | nil =>
            rw [stringifyTomlItems] at tail
            split at tail
            · cases more : stringifyTomlItems items <;> simp [more, Except.map] at tail
            · cases tail
          | cons other others =>
            have spread : ", ".toList.intercalate (text :: other :: others) =
                text ++ ',' :: ' ' :: ", ".toList.intercalate (other :: others) := by
              simp [List.intercalate]
            rw [spread] at enough ⊢
            simp only [List.length_append, List.length_cons] at enough
            have read := @readValue_text item text isText
              (',' :: ' ' :: (", ".toList.intercalate (other :: others) ++ ']' :: rest))
              (by simp; decide) fuel (by omega)
            have later := @readItems_text (next :: items) (other :: others)
              (List.cons_ne_nil _ _) tail rest fuel (by omega)
            rw [List.append_assoc, List.cons_append, List.cons_append, readItems, read,
              areWritable, leavesOf]
            cases isWritable item with
            | false => cases leafOf item <;> rfl
            | true =>
              cases leafOf item with
              | none =>
                simp only [Option.map_none, Option.bind_none, ite_self]
              | some leaf =>
                simp only [if_true, Option.map_some, Bool.true_and, later]
                cases areWritable (next :: items) <;>
                  cases leavesOf (next :: items) <;> rfl
    · cases printed

end

end Metidos.StructuredData
