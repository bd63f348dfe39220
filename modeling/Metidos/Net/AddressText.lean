import Mathlib.Data.List.Induction
import Metidos.Net.AddressCore

/-!
The text forms of a 128-bit address, as a grammar: hexadecimal pieces joined by colons, one
run of zero pieces written as a double colon, the last two pieces possibly written as a dotted
quad.  `parseIpv6Hextets` reads a text exactly when the text is such a form.
-/

namespace Metidos.Net

open JsText

def hextets (address : BitVec 128) : List Nat :=
  [112, 96, 80, 64, 48, 32, 16, 0].map fun low => (address.extractLsb' low 16).toNat

def PieceText (hextet : Nat) (text : List Char) : Prop :=
  1 ≤ text.length ∧ text.length ≤ 4 ∧ (∀ char ∈ text, isHexDigit char = true) ∧
    numberOfHexDigits text = hextet

instance (hextet : Nat) (text : List Char) : Decidable (PieceText hextet text) :=
  have : Decidable (∀ char ∈ text, isHexDigit char = true) := List.decidableBAll _ text
  inferInstanceAs (Decidable (_ ∧ _ ∧ _ ∧ _))

def dottedText (high low : Nat) : List Char :=
  ['.'].intercalate ([high / 256, high % 256, low / 256, low % 256].map stringOfNumber)

inductive PiecesText (dotted : Bool) : List Nat → List Char → Prop
  | piece {hextet : Nat} {text : List Char} (written : PieceText hextet text) :
      PiecesText dotted [hextet] text
  | quad {high low : Nat} (allowed : dotted = true) (highBound : high < 65536)
      (lowBound : low < 65536) : PiecesText dotted [high, low] (dottedText high low)
  | cons {hextet : Nat} {text : List Char} {others : List Nat} {rest : List Char}
      (written : PieceText hextet text) (more : PiecesText dotted others rest) :
      PiecesText dotted (hextet :: others) (text ++ ':' :: rest)

def SideText (dotted : Bool) (values : List Nat) (text : List Char) : Prop :=
  (values = [] ∧ text = []) ∨ PiecesText dotted values text

inductive TextForm (dotted : Bool) (values : List Nat) : List Char → Prop
  | full {text : List Char} (written : PiecesText dotted values text) :
      TextForm dotted values text
  | compressed {left right : List Nat} {zeros : Nat} {leftText rightText : List Char}
      (some : 0 < zeros) (equal : values = left ++ List.replicate zeros 0 ++ right)
      (leftWritten : SideText false left leftText)
      (rightWritten : SideText dotted right rightText) :
      TextForm dotted values (leftText ++ ':' :: ':' :: rightText)

theorem hextets_length (address : BitVec 128) : (hextets address).length = 8 := rfl

theorem push_lt {value digit bits : Nat} (bound : value < 2 ^ bits) (small : digit < 65536) :
    value * 65536 + digit < 2 ^ (bits + 16) := by
  rw [Nat.pow_add]
  omega

theorem push_digit {value digit : Nat} (small : digit < 65536) :
    (value * 65536 + digit) / 2 ^ 0 % 2 ^ 16 = digit := by
  omega

theorem push_above {value digit : Nat} (low : Nat) (small : digit < 65536) :
    (value * 65536 + digit) / 2 ^ (low + 16) % 2 ^ 16 = value / 2 ^ low % 2 ^ 16 := by
  have dropped : (value * 65536 + digit) / 2 ^ 16 = value := by omega
  rw [Nat.add_comm low 16, Nat.pow_add, ← Nat.div_div_eq_div_mul, dropped]

theorem extract_ofNat {value : Nat} (low : Nat) (bound : value < 2 ^ 128) :
    ((BitVec.ofNat 128 value).extractLsb' low 16).toNat = value / 2 ^ low % 2 ^ 16 := by
  rw [BitVec.extractLsb'_toNat, BitVec.toNat_ofNat, Nat.mod_eq_of_lt bound,
    Nat.shiftRight_eq_div_pow]

theorem hextets_surjective {values : List Nat} (eight : values.length = 8)
    (bounds : ∀ value ∈ values, value < 65536) : ∃ address, hextets address = values := by
  match values, eight with
  | [a, b, c, d, e, f, g, h], _ =>
    simp only [List.mem_cons, List.not_mem_nil, or_false, forall_eq_or_imp, forall_eq] at bounds
    obtain ⟨boundA, boundB, boundC, boundD, boundE, boundF, boundG, boundH⟩ := bounds
    have zero : (0 : Nat) < 2 ^ 0 := by decide
    have total := push_lt (push_lt (push_lt (push_lt (push_lt (push_lt (push_lt (push_lt zero
      boundA) boundB) boundC) boundD) boundE) boundF) boundG) boundH
    refine ⟨BitVec.ofNat 128 ((((((((0 * 65536 + a) * 65536 + b) * 65536 + c) * 65536 + d) *
      65536 + e) * 65536 + f) * 65536 + g) * 65536 + h), ?_⟩
    simp only [hextets, List.map_cons, List.map_nil, extract_ofNat _ total, List.cons.injEq,
      and_true]
    refine ⟨?_, ?_, ?_, ?_, ?_, ?_, ?_, ?_⟩
    · rw [push_above 96 boundH, push_above 80 boundG, push_above 64 boundF, push_above 48 boundE,
        push_above 32 boundD, push_above 16 boundC, push_above 0 boundB, push_digit boundA]
    · rw [push_above 80 boundH, push_above 64 boundG, push_above 48 boundF, push_above 32 boundE,
        push_above 16 boundD, push_above 0 boundC, push_digit boundB]
    · rw [push_above 64 boundH, push_above 48 boundG, push_above 32 boundF, push_above 16 boundE,
        push_above 0 boundD, push_digit boundC]
    · rw [push_above 48 boundH, push_above 32 boundG, push_above 16 boundF, push_above 0 boundE,
        push_digit boundD]
    · rw [push_above 32 boundH, push_above 16 boundG, push_above 0 boundF, push_digit boundE]
    · rw [push_above 16 boundH, push_above 0 boundG, push_digit boundF]
    · rw [push_above 0 boundH, push_digit boundG]
    · exact push_digit boundH

theorem hexDigit_ne_colon {char : Char} (digit : isHexDigit char = true) : char ≠ ':' := by
  rintro rfl
  exact absurd digit (by decide)

theorem hexDigit_ne_dot {char : Char} (digit : isHexDigit char = true) : char ≠ '.' := by
  rintro rfl
  exact absurd digit (by decide)

theorem PieceText.no_colon {hextet : Nat} {text : List Char} (written : PieceText hextet text) :
    ':' ∉ text := by
  intro member
  exact hexDigit_ne_colon (written.2.2.1 _ member) rfl

theorem PieceText.no_dot {hextet : Nat} {text : List Char} (written : PieceText hextet text) :
    '.' ∉ text := by
  intro member
  exact hexDigit_ne_dot (written.2.2.1 _ member) rfl

theorem PieceText.ne_nil {hextet : Nat} {text : List Char} (written : PieceText hextet text) :
    text ≠ [] := by
  have filled := written.1
  rintro rfl
  simp at filled

theorem hexStringOfNumber_piece {value : Nat} (bound : value < 65536) :
    PieceText value (hexStringOfNumber value) := by
  refine ⟨Nat.length_toDigits_pos, ?_, ?_, numberOfHexDigits_hexStringOfNumber value⟩
  · exact (Nat.length_toDigits_le_iff (by decide) (by decide)).mpr (by simpa using bound)
  · intro char member
    obtain ⟨digit, small, rfl⟩ := mem_hexStringOfNumber member
    interval_cases digit <;> rfl

theorem numberOfHexDigits_lt {text : List Char}
    (digits : ∀ char ∈ text, isHexDigit char = true) :
    numberOfHexDigits text < 16 ^ text.length := by
  induction text using List.reverseRecOn with
  | nil => simp [numberOfHexDigits]
  | append_singleton text char ih =>
    have before := ih fun other member => digits other (by simp [member])
    have last : hexDigitValue char < 16 := by
      have digit := digits char (by simp)
      simp only [isHexDigit, Bool.or_eq_true, Bool.and_eq_true, decide_eq_true_eq] at digit
      simp only [hexDigitValue]
      split
      · omega
      · split <;> omega
    rw [numberOfHexDigits_append, List.length_append, List.length_singleton, pow_succ]
    omega

theorem PieceText.bound {hextet : Nat} {text : List Char} (written : PieceText hextet text) :
    hextet < 65536 := by
  obtain ⟨_, short, digits, rfl⟩ := written
  have below := numberOfHexDigits_lt digits
  have most : 16 ^ text.length ≤ 16 ^ 4 := Nat.pow_le_pow_right (by decide) short
  omega

theorem isHextetText_iff {part : List Char} :
    isHextetText part = true ↔ PieceText (numberOfHexDigits part) part ∧
      ∀ char ∈ part, ¬ (65 ≤ char.toNat ∧ char.toNat ≤ 70) := by
  simp only [isHextetText, PieceText, Bool.and_eq_true, decide_eq_true_eq, List.all_eq_true,
    Bool.not_eq_true', Bool.and_eq_false_iff, decide_eq_false_iff_not, and_true, not_and_or]
  constructor
  · rintro ⟨⟨filled, short⟩, each⟩
    exact ⟨⟨filled, short, fun char member => (each char member).1⟩,
      fun char member => (each char member).2⟩
  · rintro ⟨⟨filled, short, digits⟩, lower⟩
    exact ⟨⟨filled, short⟩, fun char member => ⟨digits char member, lower char member⟩⟩

def NoCapitals (text : List Char) : Prop := ∀ char ∈ text, ¬ (65 ≤ char.toNat ∧ char.toNat ≤ 70)

theorem PiecesText.ne_nil {dotted : Bool} {values : List Nat} {text : List Char}
    (written : PiecesText dotted values text) : text ≠ [] := by
  cases written with
  | piece written => exact written.ne_nil
  | quad allowed highBound lowBound =>
    exact intercalate_ne_nil _ (stringOfNumber_ne_nil _)
  | cons written more => simp

theorem PiecesText.first_ne_colon {dotted : Bool} {values : List Nat} {text : List Char}
    (written : PiecesText dotted values text) :
    ∃ char rest, text = char :: rest ∧ char ≠ ':' := by
  have start : ∀ {hextet : Nat} {piece : List Char}, PieceText hextet piece →
      ∃ char rest, piece = char :: rest ∧ char ≠ ':' := by
    intro hextet piece written
    obtain ⟨char, rest, rfl⟩ := List.exists_cons_of_ne_nil written.ne_nil
    exact ⟨char, rest, rfl, hexDigit_ne_colon (written.2.2.1 char (by simp))⟩
  cases written with
  | piece written => exact start written
  | @quad high low allowed highBound lowBound =>
    obtain ⟨char, rest, equal⟩ := List.exists_cons_of_ne_nil (stringOfNumber_ne_nil (high / 256))
    refine ⟨char, _, by simp [dottedText, equal, List.intercalate_cons_cons]; rfl, ?_⟩
    rintro rfl
    have inside : ':' ∈ stringOfNumber (high / 256) := by simp [equal]
    exact absurd (isDigit_of_mem_stringOfNumber inside) (by decide)
  | cons written more =>
    obtain ⟨char, rest, rfl, differs⟩ := start written
    exact ⟨char, rest ++ _, rfl, differs⟩

theorem PiecesText.parts {values : List Nat} {text : List Char}
    (written : PiecesText false values text) (lower : NoCapitals text) :
    (∀ part ∈ text.splitOn ':', isHextetText part = true) ∧
      (text.splitOn ':').map numberOfHexDigits = values := by
  induction written with
  | piece written =>
    rw [List.splitOn_eq_singleton written.no_colon]
    obtain ⟨filled, short, digits, rfl⟩ := written
    simp only [List.mem_singleton, forall_eq, List.map_cons, List.map_nil, and_true]
    exact isHextetText_iff.mpr ⟨⟨filled, short, digits, rfl⟩, lower⟩
  | quad allowed => exact absurd allowed (by decide)
  | cons written more ih =>
    rw [List.splitOn_append_cons_self_of_not_mem written.no_colon]
    obtain ⟨each, equal⟩ := ih fun char member => lower char (by simp [member])
    obtain ⟨filled, short, digits, rfl⟩ := written
    simp only [List.mem_cons, forall_eq_or_imp, List.map_cons, equal, and_true]
    refine ⟨isHextetText_iff.mpr ⟨⟨filled, short, digits, rfl⟩, ?_⟩, each⟩
    intro char member
    exact lower char (by simp [member])

theorem PiecesText.ofParts {parts : List (List Char)} (some : parts ≠ [])
    (each : ∀ part ∈ parts, isHextetText part = true) :
    PiecesText false (parts.map numberOfHexDigits) ([':'].intercalate parts) := by
  induction parts with
  | nil => exact absurd rfl some
  | cons part parts ih =>
    have first := (isHextetText_iff.mp (each part (by simp))).1
    cases parts with
    | nil => simpa using PiecesText.piece first
    | cons next parts =>
      have rest := ih (by simp) fun other member => each other (List.mem_cons_of_mem _ member)
      rw [List.intercalate_cons_cons, List.map_cons]
      simpa using PiecesText.cons first rest

theorem parseSide_eq_some {side : List Char} {values : List Nat}
    (written : SideText false values side) (lower : NoCapitals side) :
    parseSide side = some values := by
  rcases written with ⟨rfl, rfl⟩ | written
  · rfl
  · obtain ⟨each, equal⟩ := written.parts lower
    have none : (side.splitOn ':').any (fun part => !isHextetText part) = false := by
      rw [List.any_eq_false]
      intro part member
      simp [each part member]
    simp [parseSide, written.ne_nil, none, equal]

theorem SideText.ofParse {side : List Char} {values : List Nat}
    (parsed : parseSide side = some values) : SideText false values side := by
  simp only [parseSide] at parsed
  split at parsed
  · rename_i empty
    have values_nil : [] = values := Option.some.inj parsed
    exact Or.inl ⟨values_nil.symm, List.isEmpty_iff.mp empty⟩
  · split at parsed
    · exact absurd parsed (by simp)
    · rename_i fine
      rw [Bool.not_eq_true, List.any_eq_false] at fine
      have each : ∀ part ∈ side.splitOn ':', isHextetText part = true := by
        intro part member
        simpa using fine part member
      have built := PiecesText.ofParts (List.splitOn_ne_nil ':' side) each
      rw [List.intercalate_splitOn, Option.some.inj parsed] at built
      exact Or.inr built

theorem PiecesText.no_dot {values : List Nat} {text : List Char}
    (written : PiecesText false values text) : '.' ∉ text := by
  induction written with
  | piece written => exact written.no_dot
  | quad allowed => exact absurd allowed (by decide)
  | cons written more ih => simp [written.no_dot, ih]

theorem SideText.no_dot {values : List Nat} {text : List Char}
    (written : SideText false values text) : '.' ∉ text := by
  rcases written with ⟨rfl, rfl⟩ | written
  · simp
  · exact written.no_dot

theorem TextForm.no_dot {values : List Nat} {text : List Char}
    (written : TextForm false values text) : '.' ∉ text := by
  cases written with
  | full written => exact written.no_dot
  | compressed some equal leftWritten rightWritten =>
    simp [leftWritten.no_dot, rightWritten.no_dot]

theorem PiecesText.splitPairs_self {values : List Nat} {text : List Char}
    (written : PiecesText false values text) : splitPairs ':' text = [text] := by
  induction written with
  | piece written =>
    have whole := splitPairs_word _ [] written.no_colon
    simpa [splitPairs] using whole
  | quad allowed => exact absurd allowed (by decide)
  | cons written more ih =>
    obtain ⟨char, rest, rfl, differs⟩ := more.first_ne_colon
    rw [splitPairs_word _ _ written.no_colon, splitPairs_mark_cons_ne _ differs, ih]
    rfl

theorem PiecesText.splitPairs_front {values : List Nat} {text : List Char}
    (written : PiecesText false values text) (rest : List Char) :
    splitPairs ':' (text ++ ':' :: ':' :: rest) = text :: splitPairs ':' rest := by
  induction written with
  | piece written =>
    rw [splitPairs_word _ _ written.no_colon, splitPairs_pair]
    simp
  | quad allowed => exact absurd allowed (by decide)
  | cons written more ih =>
    obtain ⟨char, others, rfl, differs⟩ := more.first_ne_colon
    rw [List.append_assoc, splitPairs_word _ _ written.no_colon, List.cons_append,
      List.cons_append, splitPairs_mark_cons_ne _ differs, ← List.cons_append, ih]
    simp

theorem SideText.splitPairs_self {values : List Nat} {text : List Char}
    (written : SideText false values text) : splitPairs ':' text = [text] := by
  rcases written with ⟨rfl, rfl⟩ | written
  · rfl
  · exact written.splitPairs_self

theorem SideText.splitPairs_front {values : List Nat} {text : List Char}
    (written : SideText false values text) (rest : List Char) :
    splitPairs ':' (text ++ ':' :: ':' :: rest) = text :: splitPairs ':' rest := by
  rcases written with ⟨rfl, rfl⟩ | written
  · exact splitPairs_pair ':' rest
  · exact written.splitPairs_front rest

theorem NoCapitals.append {left right : List Char} (lower : NoCapitals (left ++ right)) :
    NoCapitals left ∧ NoCapitals right :=
  ⟨fun char member => lower char (by simp [member]),
    fun char member => lower char (by simp [member])⟩

theorem expandDoubleColon_eq_some {values : List Nat} {text : List Char}
    (written : TextForm false values text) (eight : values.length = 8)
    (lower : NoCapitals text) : expandDoubleColon text = some values := by
  cases written with
  | full written =>
    have side := parseSide_eq_some (Or.inr written) lower
    have empty : parseSide [] = some [] := rfl
    simp [expandDoubleColon, written.splitPairs_self, side, empty, eight]
  | @compressed left right zeros leftText rightText more equal leftWritten rightWritten =>
    have pieces : splitPairs ':' (leftText ++ ':' :: ':' :: rightText) =
        [leftText, rightText] := by
      rw [leftWritten.splitPairs_front, rightWritten.splitPairs_self]
    have sides := lower.append
    have leftSide := parseSide_eq_some leftWritten sides.1
    have rightSide := parseSide_eq_some rightWritten fun char member =>
      sides.2 char (by simp [member])
    have lengths : left.length + zeros + right.length = 8 := by
      rw [equal] at eight
      simpa [Nat.add_assoc] using eight
    have missing : (8 - left.length - right.length : Int) = zeros := by omega
    have enough : ¬ (zeros : Int) < 1 := by omega
    simp [expandDoubleColon, pieces, leftSide, rightSide, missing, equal, more.ne']

theorem expandDoubleColon_form {values : List Nat} {text : List Char}
    (expanded : expandDoubleColon text = some values) :
    values.length = 8 ∧ TextForm false values text := by
  have joined := intercalate_splitPairs ':' text
  simp only [expandDoubleColon] at expanded
  split at expanded
  · exact absurd expanded (by simp)
  · rename_i few
    split at expanded
    · rename_i left right leftParsed rightParsed
      match pieces : splitPairs ':' text with
      | [] => exact absurd pieces (splitPairs_ne_nil ':' text)
      | [whole] =>
        rw [pieces] at expanded leftParsed joined
        simp only [List.length_singleton, if_true] at expanded
        split at expanded
        · rename_i none_missing
          have same : whole = text := by simpa using joined
          obtain rfl := Option.some.inj expanded
          have empty : right = [] := by
            rw [pieces] at rightParsed
            exact (Option.some.inj rightParsed).symm
          have side : SideText false left text := by
            rw [← same]
            exact SideText.ofParse leftParsed
          have eight : left.length = 8 := by
            simp only [empty, List.length_nil] at none_missing
            omega
          refine ⟨eight, TextForm.full ?_⟩
          rcases side with ⟨nothing, _⟩ | written
          · simp [nothing] at eight
          · exact written
        · exact absurd expanded (by simp)
      | [first, second] =>
        rw [pieces] at expanded leftParsed rightParsed joined
        simp only [List.length_cons, List.length_nil] at expanded
        rw [if_neg (by decide)] at expanded
        split at expanded
        · exact absurd expanded (by simp)
        · rename_i enough
          obtain rfl := Option.some.inj expanded
          have text_eq : first ++ ':' :: ':' :: second = text := by simpa using joined
          refine ⟨by simp; omega, ?_⟩
          rw [← text_eq]
          exact TextForm.compressed (by omega) rfl (SideText.ofParse leftParsed)
            (SideText.ofParse rightParsed)
      | first :: second :: third :: others =>
        rw [pieces] at few
        simp at few
    · exact absurd expanded (by simp)

theorem dottedText_parts (high low : Nat) : (dottedText high low).splitOn '.' =
    [high / 256, high % 256, low / 256, low % 256].map stringOfNumber := by
  apply List.splitOn_intercalate
  · intro part member inside
    obtain ⟨value, _, rfl⟩ := List.mem_map.mp member
    exact absurd (isDigit_of_mem_stringOfNumber inside) (by decide)
  · simp

theorem mem_dottedText {high low : Nat} {char : Char} (member : char ∈ dottedText high low) :
    char = '.' ∨ char.isDigit = true := by
  rcases mem_intercalate member with between | ⟨part, listed, inside⟩
  · exact Or.inl (by simpa using between)
  · obtain ⟨value, _, rfl⟩ := List.mem_map.mp listed
    exact Or.inr (isDigit_of_mem_stringOfNumber inside)

theorem dottedText_no_colon (high low : Nat) : ':' ∉ dottedText high low := by
  intro member
  rcases mem_dottedText member with same | digit
  · exact absurd same (by decide)
  · exact absurd digit (by decide)

theorem parseIpv4Part_iff {part : List Char} {value : Nat} :
    parseIpv4Part part = some value ↔ value < 256 ∧ part = stringOfNumber value := by
  constructor
  · intro parsed
    simp only [parseIpv4Part] at parsed
    split at parsed
    · exact absurd parsed (by simp)
    · rename_i number read
      split at parsed
      · exact absurd parsed (by simp)
      · rename_i fine
        simp only [not_or, not_not, not_lt] at fine
        obtain ⟨printed, nonnegative, small⟩ := fine
        obtain rfl := Option.some.inj parsed
        obtain ⟨natural, rfl⟩ := Int.eq_ofNat_of_zero_le nonnegative
        refine ⟨by omega, ?_⟩
        rw [← printed]
        rfl
  · rintro ⟨small, rfl⟩
    have printed : stringOfInteger (value : Int) = stringOfNumber value := rfl
    have notAbove : ¬ ((value : Int) > 255) := by omega
    simp [parseIpv4Part, parseInt_stringOfNumber, printed, notAbove]

def hexPair (high low : Nat) : List Char :=
  hexStringOfNumber high ++ ':' :: hexStringOfNumber low

theorem shift_or {first second : Nat} (small : second < 256) :
    (first <<< 8) ||| second = first * 256 + second := by
  rw [Nat.shiftLeft_eq, Nat.mul_comm, ← Nat.two_pow_add_eq_or_of_lt small]

theorem withoutIpv4_dotted {high low : Nat} (leading : List Char) :
    withoutIpv4 leading [high / 256, high % 256, low / 256, low % 256] =
      leading ++ hexPair high low := by
  have restored : ∀ value : Nat, (value / 256) <<< 8 ||| value % 256 = value := by
    intro value
    rw [shift_or (Nat.mod_lt value (by decide))]
    omega
  simp [withoutIpv4, hexPair, restored]

theorem parseIpv4Address_dotted {high low : Nat} (highBound : high < 65536)
    (lowBound : low < 65536) : parseIpv4Address (dottedText high low) =
      some [high / 256, high % 256, low / 256, low % 256] := by
  have octet : ∀ {value : Nat}, value < 256 →
      parseIpv4Part (stringOfNumber value) = some value := by
    intro value small
    exact parseIpv4Part_iff.mpr ⟨small, rfl⟩
  have first : high / 256 < 256 := by omega
  have third : low / 256 < 256 := by omega
  have second : high % 256 < 256 := Nat.mod_lt high (by decide)
  have fourth : low % 256 < 256 := Nat.mod_lt low (by decide)
  simp [parseIpv4Address, dottedText_parts, octet first, octet second, octet third, octet fourth]

theorem parseIpv4Address_form {text : List Char} {parts : List Nat}
    (parsed : parseIpv4Address text = some parts) : ∃ high low, high < 65536 ∧ low < 65536 ∧
      text = dottedText high low ∧
      parts = [high / 256, high % 256, low / 256, low % 256] := by
  have joined : ['.'].intercalate (text.splitOn '.') = text := List.intercalate_splitOn '.'
  simp only [parseIpv4Address] at parsed
  split at parsed
  · exact absurd parsed (by simp)
  · rename_i four
    match pieces : text.splitOn '.' with
    | [first, second, third, fourth] =>
      rw [pieces] at parsed joined
      simp only [List.mapM_cons, List.mapM_nil, Option.pure_def, Option.bind_eq_bind,
        Option.bind_eq_some_iff, Option.some.injEq] at parsed
      obtain ⟨a, readA, tail, ⟨b, readB, tail', ⟨c, readC, tail'', ⟨d, readD, _, rfl, rfl⟩,
        rfl⟩, rfl⟩, rfl⟩ := parsed
      obtain ⟨smallA, rfl⟩ := parseIpv4Part_iff.mp readA
      obtain ⟨smallB, rfl⟩ := parseIpv4Part_iff.mp readB
      obtain ⟨smallC, rfl⟩ := parseIpv4Part_iff.mp readC
      obtain ⟨smallD, rfl⟩ := parseIpv4Part_iff.mp readD
      have quotient : ∀ {left right : Nat}, right < 256 → (left * 256 + right) / 256 = left := by
        intro left right small
        omega
      have remainder : ∀ {left right : Nat}, right < 256 →
          (left * 256 + right) % 256 = right := by
        intro left right small
        omega
      refine ⟨a * 256 + b, c * 256 + d, by omega, by omega, ?_, ?_⟩
      · rw [dottedText, quotient smallB, remainder smallB, quotient smallD, remainder smallD]
        exact joined.symm
      · rw [quotient smallB, remainder smallB, quotient smallD, remainder smallD]
    | [] | [_] | [_, _] | [_, _, _] | _ :: _ :: _ :: _ :: _ :: _ =>
      rw [pieces] at four
      simp at four

theorem splitIpv6Ipv4Suffix_append (front : List Char) {last : List Char}
    (absent : ':' ∉ last) : splitIpv6Ipv4Suffix (front ++ ':' :: last) =
      if isDottedDigits last then some ⟨last, front ++ [':']⟩ else none := by
  have found : lastIndexOf ':' (front ++ ':' :: last) = some front.length :=
    lastIndexOf_append front absent
  have after : (front ++ ':' :: last).drop (front.length + 1) = last := by
    simp
  have before : (front ++ ':' :: last).take (front.length + 1) = front ++ [':'] := by
    rw [List.take_append, List.take_of_length_le (Nat.le_succ _)]
    simp
  simp only [splitIpv6Ipv4Suffix, found, after, before]

theorem splitIpv6Ipv4Suffix_no_dot {text : List Char} (absent : '.' ∉ text) :
    splitIpv6Ipv4Suffix text = none := by
  rcases absent_or_last ':' text with alone | ⟨front, last, rfl, alone⟩
  · simp [splitIpv6Ipv4Suffix, lastIndexOf_eq_none alone]
  · have clean : '.' ∉ last := fun member => absent (by simp [member])
    have plain : isDottedDigits last = false := by
      simp [isDottedDigits, List.splitOn_eq_singleton clean]
    rw [splitIpv6Ipv4Suffix_append front alone, plain]
    rfl

theorem PiecesText.quad_cases {values : List Nat} {text : List Char}
    (written : PiecesText true values text) : PiecesText false values text ∨
      ∃ leading high low, high < 65536 ∧ low < 65536 ∧
        text = leading ++ dottedText high low ∧
        ((leading = [] ∧ values = [high, low]) ∨ ∃ front, leading = front ++ [':']) ∧
        PiecesText false values (leading ++ hexPair high low) := by
  induction written with
  | piece written => exact Or.inl (PiecesText.piece written)
  | @quad high low allowed highBound lowBound =>
    refine Or.inr ⟨[], high, low, highBound, lowBound, rfl, Or.inl ⟨rfl, rfl⟩, ?_⟩
    exact PiecesText.cons (hexStringOfNumber_piece highBound)
      (PiecesText.piece (hexStringOfNumber_piece lowBound))
  | @cons hextet piece others rest written more ih =>
    rcases ih with pure | ⟨leading, high, low, highBound, lowBound, rfl, ends, pure⟩
    · exact Or.inl (PiecesText.cons written pure)
    · refine Or.inr ⟨piece ++ ':' :: leading, high, low, highBound, lowBound, by simp, ?_, ?_⟩
      · rcases ends with ⟨rfl, _⟩ | ⟨front, rfl⟩
        · exact Or.inr ⟨piece, rfl⟩
        · exact Or.inr ⟨piece ++ ':' :: front, by simp⟩
      · simpa using PiecesText.cons written pure

theorem TextForm.quad_cases {values : List Nat} {text : List Char} (eight : values.length = 8)
    (written : TextForm true values text) : TextForm false values text ∨
      ∃ front high low, high < 65536 ∧ low < 65536 ∧
        text = front ++ ':' :: dottedText high low ∧
        TextForm false values (front ++ ':' :: hexPair high low) := by
  cases written with
  | full written =>
    rcases written.quad_cases with
      pure | ⟨leading, high, low, highBound, lowBound, rfl, ends, pure⟩
    · exact Or.inl (TextForm.full pure)
    · rcases ends with ⟨_, two⟩ | ⟨front, rfl⟩
      · simp [two] at eight
      · refine Or.inr ⟨front, high, low, highBound, lowBound, by simp, ?_⟩
        simpa using TextForm.full pure
  | @compressed left right zeros leftText rightText some equal leftWritten rightWritten =>
    rcases rightWritten with ⟨rfl, rfl⟩ | written
    · exact Or.inl (TextForm.compressed some equal leftWritten (Or.inl ⟨rfl, rfl⟩))
    · rcases written.quad_cases with
        pure | ⟨leading, high, low, highBound, lowBound, rfl, ends, pure⟩
      · exact Or.inl (TextForm.compressed some equal leftWritten (Or.inr pure))
      · have built := TextForm.compressed some equal leftWritten (Or.inr pure)
        rcases ends with ⟨rfl, _⟩ | ⟨front, rfl⟩
        · refine Or.inr ⟨leftText ++ [':'], high, low, highBound, lowBound, by simp, ?_⟩
          simpa using built
        · refine Or.inr ⟨leftText ++ ':' :: ':' :: front, high, low, highBound, lowBound,
            by simp, ?_⟩
          simpa using built

theorem NoCapitals.hexPair {front : List Char} {high low : Nat} (lower : NoCapitals front) :
    NoCapitals (front ++ ':' :: hexPair high low) := by
  have digits : ∀ value : Nat, NoCapitals (hexStringOfNumber value) := by
    intro value char member
    obtain ⟨digit, small, rfl⟩ := mem_hexStringOfNumber member
    interval_cases digit <;> decide
  intro char member
  simp only [Net.hexPair, List.mem_append, List.mem_cons] at member
  rcases member with before | rfl | inside | rfl | inside
  · exact lower char before
  · decide
  · exact digits high char inside
  · decide
  · exact digits low char inside

def readLower (normalized : List Char) : Option (List Nat) :=
  match splitIpv6Ipv4Suffix normalized with
  | none => expandDoubleColon normalized
  | some ipv4Suffix =>
    match parseIpv4Address ipv4Suffix.ipv4 with
    | none => none
    | some ipv4Parts => expandDoubleColon (withoutIpv4 ipv4Suffix.leading ipv4Parts)

theorem parseIpv6Hextets_eq (hostname : List Char) :
    parseIpv6Hextets hostname = readLower (toLowerCase hostname) := rfl

theorem readLower_eq_some {values : List Nat} {text : List Char} (eight : values.length = 8)
    (lower : NoCapitals text) (written : TextForm true values text) :
    readLower text = some values := by
  rcases written.quad_cases eight with pure | ⟨front, high, low, highBound, lowBound, rfl, pure⟩
  · rw [readLower, splitIpv6Ipv4Suffix_no_dot pure.no_dot]
    exact expandDoubleColon_eq_some pure eight lower
  · have suffix : splitIpv6Ipv4Suffix (front ++ ':' :: dottedText high low) =
        some ⟨dottedText high low, front ++ [':']⟩ := by
      have digits : isDottedDigits (dottedText high low) = true := by
        simp [isDottedDigits, dottedText_parts, isDigits_stringOfNumber]
      rw [splitIpv6Ipv4Suffix_append front (dottedText_no_colon high low), digits]
      rfl
    rw [readLower, suffix]
    simp only [parseIpv4Address_dotted highBound lowBound, withoutIpv4_dotted]
    rw [List.append_assoc]
    exact expandDoubleColon_eq_some pure eight lower.append.1.hexPair

theorem PiecesText.single {values : List Nat} {text : List Char}
    (written : PiecesText false values text) (alone : ':' ∉ text) :
    values = [numberOfHexDigits text] := by
  cases written with
  | piece written =>
    obtain ⟨_, _, _, rfl⟩ := written
    rfl
  | quad allowed => exact absurd allowed (by decide)
  | cons written more => simp at alone

theorem PiecesText.withQuad {values : List Nat} {leading : List Char} {high low : Nat}
    (highBound : high < 65536) (lowBound : low < 65536)
    (ends : leading = [] ∨ ∃ front, leading = front ++ [':'])
    (written : PiecesText false values (leading ++ hexPair high low)) :
    PiecesText true values (leading ++ dottedText high low) := by
  have pieceHigh := hexStringOfNumber_piece highBound
  have pieceLow := hexStringOfNumber_piece lowBound
  generalize equal : leading ++ hexPair high low = text at written
  induction written generalizing leading with
  | @piece hextet text written =>
    have solid := written.no_colon
    rw [← equal] at solid
    simp [hexPair] at solid
  | quad allowed => exact absurd allowed (by decide)
  | @cons hextet piece others rest written more ih =>
    rcases ends with rfl | ⟨front, rfl⟩
    · rcases first_mark pieceHigh.no_colon (by simpa [hexPair] using equal) with
        ⟨rfl, rfl⟩ | ⟨later, rfl, _⟩
      · obtain ⟨_, _, _, rfl⟩ := written
        rw [more.single pieceLow.no_colon]
        simpa using PiecesText.quad rfl highBound lowBound
      · exact absurd written.no_colon (by simp)
    · have aligned : piece ++ ':' :: rest = front ++ ':' :: hexPair high low := by
        simpa using equal.symm
      rcases first_mark written.no_colon aligned with ⟨rfl, rfl⟩ | ⟨later, rfl, rfl⟩
      · have tail := ih (Or.inl rfl) (List.nil_append _)
        simpa using PiecesText.cons written tail
      · have tail := ih (Or.inr ⟨later, rfl⟩) (by simp)
        simpa using PiecesText.cons written tail

theorem hexPair_no_pair {high low : Nat} (highBound : high < 65536) (lowBound : low < 65536)
    {before after : List Char} (equal : hexPair high low = before ++ ':' :: after) :
    before ≠ [] ∧ ':' ∉ after := by
  have pieceHigh := hexStringOfNumber_piece highBound
  have pieceLow := hexStringOfNumber_piece lowBound
  rcases first_mark pieceHigh.no_colon equal with ⟨rfl, rfl⟩ | ⟨later, _, split⟩
  · exact ⟨pieceHigh.ne_nil, pieceLow.no_colon⟩
  · exact absurd pieceLow.no_colon (by simp [split])

theorem TextForm.withQuad {values : List Nat} {front : List Char} {high low : Nat}
    (highBound : high < 65536) (lowBound : low < 65536)
    (written : TextForm false values (front ++ ':' :: hexPair high low)) :
    TextForm true values (front ++ ':' :: dottedText high low) := by
  have ends : ∃ before, front ++ [':'] = before ++ [':'] := ⟨front, rfl⟩
  generalize equal : front ++ ':' :: hexPair high low = text at written
  cases written with
  | full written =>
    have pure : PiecesText false values ((front ++ [':']) ++ hexPair high low) := by
      rw [← equal] at written
      simpa using written
    have quad := pure.withQuad highBound lowBound (Or.inr ends)
    rw [List.append_assoc] at quad
    exact TextForm.full quad
  | @compressed left right zeros leftText rightText some split leftWritten rightWritten =>
    have filled : ∀ {text : List Char}, text ≠ [] → SideText false right text →
        PiecesText false right text := by
      intro text nonempty side
      rcases side with ⟨_, empty⟩ | written
      · exact absurd empty nonempty
      · exact written
    have startless : ∀ {after : List Char}, hexPair high low ≠ ':' :: after := by
      intro after same
      rw [← List.nil_append (':' :: after)] at same
      exact (hexPair_no_pair highBound lowBound same).1 rfl
    rcases List.append_eq_append_iff.mp equal with ⟨middle, rfl, tail⟩ | ⟨middle, rfl, tail⟩
    · -- The double colon cannot lie inside the pair.
      cases middle with
      | nil => exact absurd (List.cons.inj tail).2 startless
      | cons char middle =>
        have inner := hexPair_no_pair highBound lowBound (List.cons.inj tail).2
        exact absurd inner.2 (by simp)
    · match middle, tail with
      | [], tail => exact absurd (List.cons.inj tail).2.symm startless
      | [char], tail =>
        simp only [List.cons_append, List.nil_append, List.cons.injEq, true_and] at tail
        obtain ⟨rfl, rfl⟩ := tail
        have nonempty : hexPair high low ≠ [] := by simp [hexPair]
        have pieces := filled nonempty rightWritten
        have quad := pieces.withQuad highBound lowBound (Or.inl rfl)
        rw [List.append_assoc]
        exact TextForm.compressed some split leftWritten (Or.inr quad)
      | char :: next :: later, tail =>
        simp only [List.cons_append, List.cons.injEq] at tail
        obtain ⟨rfl, rfl, rfl⟩ := tail
        have pieces : PiecesText false right ((later ++ [':']) ++ hexPair high low) := by
          simpa using filled (by simp) rightWritten
        have quad := pieces.withQuad highBound lowBound (Or.inr ⟨later, rfl⟩)
        have built := TextForm.compressed some split leftWritten (Or.inr quad)
        simpa using built

theorem PiecesText.weaken {values : List Nat} {text : List Char}
    (written : PiecesText false values text) : PiecesText true values text := by
  induction written with
  | piece written => exact PiecesText.piece written
  | quad allowed => exact absurd allowed (by decide)
  | cons written more ih => exact PiecesText.cons written ih

theorem TextForm.weaken {values : List Nat} {text : List Char}
    (written : TextForm false values text) : TextForm true values text := by
  cases written with
  | full written => exact TextForm.full written.weaken
  | compressed some equal leftWritten rightWritten =>
    refine TextForm.compressed some equal leftWritten ?_
    rcases rightWritten with nothing | written
    · exact Or.inl nothing
    · exact Or.inr written.weaken

theorem readLower_form {values : List Nat} {text : List Char}
    (read : readLower text = some values) : values.length = 8 ∧ TextForm true values text := by
  rcases absent_or_last ':' text with alone | ⟨front, last, rfl, alone⟩
  · have plain : splitIpv6Ipv4Suffix text = none := by
      simp [splitIpv6Ipv4Suffix, lastIndexOf_eq_none alone]
    rw [readLower, plain] at read
    have form := expandDoubleColon_form read
    exact ⟨form.1, form.2.weaken⟩
  · rw [readLower, splitIpv6Ipv4Suffix_append front alone] at read
    by_cases digits : isDottedDigits last = true
    · simp only [digits, if_true] at read
      split at read
      · exact absurd read (by simp)
      · rename_i parts parsed
        obtain ⟨high, low, highBound, lowBound, rfl, rfl⟩ := parseIpv4Address_form parsed
        rw [withoutIpv4_dotted, List.append_assoc] at read
        have form := expandDoubleColon_form read
        exact ⟨form.1, form.2.withQuad highBound lowBound⟩
    · rw [Bool.not_eq_true] at digits
      simp only [digits] at read
      have form := expandDoubleColon_form read
      exact ⟨form.1, form.2.weaken⟩

theorem isHexDigit_toLower (char : Char) : isHexDigit char.toLower = isHexDigit char := by
  rw [Bool.eq_iff_iff]
  simp only [isHexDigit, toLower_toNat, Bool.or_eq_true, Bool.and_eq_true, decide_eq_true_eq]
  split <;> omega

theorem hexDigitValue_toLower {char : Char} (digit : isHexDigit char = true) :
    hexDigitValue char.toLower = hexDigitValue char := by
  simp only [isHexDigit, Bool.or_eq_true, Bool.and_eq_true, decide_eq_true_eq] at digit
  simp only [hexDigitValue, toLower_toNat]
  split
  · rw [if_neg (by omega), if_neg (by omega), if_neg (by omega), if_pos (by omega)]
    omega
  · rfl

theorem numberOfHexDigits_toLower {text : List Char}
    (digits : ∀ char ∈ text, isHexDigit char = true) :
    numberOfHexDigits (text.map Char.toLower) = numberOfHexDigits text := by
  induction text using List.reverseRecOn with
  | nil => rfl
  | append_singleton text char ih =>
    have front := ih fun other member => digits other (by simp [member])
    rw [List.map_append, List.map_singleton, numberOfHexDigits_append, numberOfHexDigits_append,
      front, hexDigitValue_toLower (digits char (by simp))]

theorem pieceText_toLower {hextet : Nat} {text : List Char} :
    PieceText hextet (text.map Char.toLower) ↔ PieceText hextet text := by
  have same : (∀ char ∈ text.map Char.toLower, isHexDigit char = true) ↔
      ∀ char ∈ text, isHexDigit char = true := by
    simp [isHexDigit_toLower]
  simp only [PieceText, List.length_map, same]
  constructor
  · rintro ⟨filled, short, digits, value⟩
    exact ⟨filled, short, digits, by rw [← numberOfHexDigits_toLower digits, value]⟩
  · rintro ⟨filled, short, digits, value⟩
    exact ⟨filled, short, digits, by rw [numberOfHexDigits_toLower digits, value]⟩

theorem dottedText_toLower {high low : Nat} {text : List Char} :
    text.map Char.toLower = dottedText high low ↔ text = dottedText high low := by
  have below : ∀ char ∈ dottedText high low, char.toNat < 65 := by
    intro char member
    rcases mem_dottedText member with rfl | digit
    · decide
    · have range := digit_code digit
      omega
  generalize dottedText high low = dotted at below
  induction dotted generalizing text with
  | nil => simp
  | cons mark dotted ih =>
    have small := below mark (by simp)
    cases text with
    | nil => simp
    | cons char text =>
      have tail := @ih text fun other member => below other (by simp [member])
      simp only [List.map_cons, List.cons.injEq, tail]
      constructor
      · rintro ⟨first, rest⟩
        exact ⟨toLower_eq_self_of first (by omega), rest⟩
      · rintro ⟨rfl, rest⟩
        refine ⟨Char.toNat_inj.mp ?_, rest⟩
        rw [toLower_toNat, if_neg (by omega)]

theorem piecesText_toLower {dotted : Bool} {values : List Nat} {text : List Char} :
    PiecesText dotted values (text.map Char.toLower) ↔ PiecesText dotted values text := by
  constructor
  · intro written
    generalize equal : text.map Char.toLower = lower at written
    induction written generalizing text with
    | piece written =>
      rw [← equal] at written
      exact PiecesText.piece (pieceText_toLower.mp written)
    | quad allowed highBound lowBound =>
      rw [dottedText_toLower.mp equal]
      exact PiecesText.quad allowed highBound lowBound
    | cons written more ih =>
      obtain ⟨front, back, rfl, frontEq, backEq⟩ := List.map_eq_append_iff.mp equal
      obtain ⟨mark, tail, rfl, markEq, tailEq⟩ := List.map_eq_cons_iff.mp backEq
      obtain rfl := toLower_eq_self_of markEq (by decide)
      rw [← frontEq] at written
      exact PiecesText.cons (pieceText_toLower.mp written) (ih tailEq)
  · intro written
    induction written with
    | piece written => exact PiecesText.piece (pieceText_toLower.mpr written)
    | @quad high low allowed highBound lowBound =>
      have fixed : (dottedText high low).map Char.toLower = dottedText high low :=
        dottedText_toLower.mpr rfl
      rw [fixed]
      exact PiecesText.quad allowed highBound lowBound
    | cons written more ih =>
      rw [List.map_append, List.map_cons]
      exact PiecesText.cons (pieceText_toLower.mpr written) ih

theorem sideText_toLower {dotted : Bool} {values : List Nat} {text : List Char} :
    SideText dotted values (text.map Char.toLower) ↔ SideText dotted values text := by
  simp only [SideText, piecesText_toLower, List.map_eq_nil_iff]

theorem textForm_toLower {dotted : Bool} {values : List Nat} {text : List Char} :
    TextForm dotted values (text.map Char.toLower) ↔ TextForm dotted values text := by
  constructor
  · intro written
    generalize equal : text.map Char.toLower = lower at written
    cases written with
    | full written =>
      rw [← equal] at written
      exact TextForm.full (piecesText_toLower.mp written)
    | compressed some split leftWritten rightWritten =>
      obtain ⟨front, back, rfl, frontEq, backEq⟩ := List.map_eq_append_iff.mp equal
      obtain ⟨mark, rest, rfl, markEq, restEq⟩ := List.map_eq_cons_iff.mp backEq
      obtain ⟨second, tail, rfl, secondEq, tailEq⟩ := List.map_eq_cons_iff.mp restEq
      obtain rfl := toLower_eq_self_of markEq (by decide)
      obtain rfl := toLower_eq_self_of secondEq (by decide)
      rw [← frontEq] at leftWritten
      rw [← tailEq] at rightWritten
      exact TextForm.compressed some split (sideText_toLower.mp leftWritten)
        (sideText_toLower.mp rightWritten)
  · intro written
    cases written with
    | full written => exact TextForm.full (piecesText_toLower.mpr written)
    | compressed some split leftWritten rightWritten =>
      rw [List.map_append, List.map_cons, List.map_cons]
      exact TextForm.compressed some split (sideText_toLower.mpr leftWritten)
        (sideText_toLower.mpr rightWritten)

def IsAddressChar (char : Char) : Prop := isHexDigit char = true ∨ char = ':' ∨ char = '.'

theorem IsAddressChar.code {char : Char} (allowed : IsAddressChar char) : char.toNat ≤ 102 := by
  rcases allowed with digit | rfl | rfl
  · simp only [isHexDigit, Bool.or_eq_true, Bool.and_eq_true, decide_eq_true_eq] at digit
    omega
  · decide
  · decide

theorem PiecesText.chars {dotted : Bool} {values : List Nat} {text : List Char}
    (written : PiecesText dotted values text) : ∀ char ∈ text, IsAddressChar char := by
  induction written with
  | piece written =>
    intro char member
    exact Or.inl (written.2.2.1 char member)
  | quad allowed highBound lowBound =>
    intro char member
    rcases mem_dottedText member with dot | digit
    · exact Or.inr (Or.inr dot)
    · have range := digit_code digit
      refine Or.inl ?_
      simp only [isHexDigit, Bool.or_eq_true, Bool.and_eq_true, decide_eq_true_eq]
      omega
  | cons written more ih =>
    intro char member
    rcases List.mem_append.mp member with inside | after
    · exact Or.inl (written.2.2.1 char inside)
    · rcases List.mem_cons.mp after with colon | later
      · exact Or.inr (Or.inl colon)
      · exact ih char later

theorem TextForm.chars {dotted : Bool} {values : List Nat} {text : List Char}
    (written : TextForm dotted values text) : ∀ char ∈ text, IsAddressChar char := by
  have side : ∀ {allowed : Bool} {hextets : List Nat} {part : List Char},
      SideText allowed hextets part → ∀ char ∈ part, IsAddressChar char := by
    intro allowed hextets part written
    rcases written with ⟨_, rfl⟩ | written
    · simp
    · exact written.chars
  cases written with
  | full written => exact written.chars
  | compressed some split leftWritten rightWritten =>
    intro char member
    simp only [List.mem_append, List.mem_cons] at member
    rcases member with inside | colon | colon | inside
    · exact side leftWritten char inside
    · exact Or.inr (Or.inl colon)
    · exact Or.inr (Or.inl colon)
    · exact side rightWritten char inside

theorem textForm_toLowerCase {dotted : Bool} {values : List Nat} {text : List Char} :
    TextForm dotted values (toLowerCase text) ↔ TextForm dotted values text := by
  constructor
  · intro written
    have plain : toLowerCase text = text.map Char.toLower := by
      apply toLowerCase_eq_map
      intro lower member
      have code := (written.chars lower member).code
      omega
    rw [plain] at written
    exact textForm_toLower.mp written
  · intro written
    have plain : toLowerCase text = text.map Char.toLower := by
      apply toLowerCase_eq_map
      intro lower member
      obtain ⟨char, listed, inside⟩ := List.mem_flatMap.mp member
      have code := (written.chars char listed).code
      have single : lowerCaseOf char = [char.toLower] := by
        unfold lowerCaseOf
        split
        · omega
        · omega
        · rfl
      rw [single, List.mem_singleton] at inside
      rw [inside, toLower_toNat]
      rcases written.chars char listed with digit | rfl | rfl
      · simp only [isHexDigit, Bool.or_eq_true, Bool.and_eq_true, decide_eq_true_eq] at digit
        split <;> omega
      · decide
      · decide
    rw [plain]
    exact textForm_toLower.mpr written

theorem toLowerCase_noCapitals (text : List Char) : NoCapitals (toLowerCase text) := by
  intro lower member
  obtain ⟨char, _, inside⟩ := List.mem_flatMap.mp member
  have range := lowerCaseOf_no_capital inside
  omega

theorem parseIpv6Hextets_iff {text : List Char} {values : List Nat} :
    parseIpv6Hextets text = some values ↔ values.length = 8 ∧ TextForm true values text := by
  rw [parseIpv6Hextets_eq]
  constructor
  · intro read
    have form := readLower_form read
    exact ⟨form.1, textForm_toLowerCase.mp form.2⟩
  · rintro ⟨eight, written⟩
    exact readLower_eq_some eight (toLowerCase_noCapitals text) (textForm_toLowerCase.mpr written)

theorem PiecesText.bounds {dotted : Bool} {values : List Nat} {text : List Char}
    (written : PiecesText dotted values text) : ∀ value ∈ values, value < 65536 := by
  induction written with
  | piece written => simpa using written.bound
  | quad allowed highBound lowBound => simp [highBound, lowBound]
  | cons written more ih => simpa using ⟨written.bound, ih⟩

theorem TextForm.bounds {dotted : Bool} {values : List Nat} {text : List Char}
    (written : TextForm dotted values text) : ∀ value ∈ values, value < 65536 := by
  have side : ∀ {allowed : Bool} {hextets : List Nat} {part : List Char},
      SideText allowed hextets part → ∀ value ∈ hextets, value < 65536 := by
    intro allowed hextets part written
    rcases written with ⟨rfl, _⟩ | written
    · simp
    · exact written.bounds
  cases written with
  | full written => exact written.bounds
  | compressed some split leftWritten rightWritten =>
    intro value member
    rw [split] at member
    simp only [List.mem_append] at member
    rcases member with (inside | zero) | inside
    · exact side leftWritten value inside
    · rw [List.eq_of_mem_replicate zero]
      decide
    · exact side rightWritten value inside

end Metidos.Net
