import Metidos.Library.JsText

/-!
More JavaScript string operations: lower case, the search for a mark or for a doubled mark,
`Number.parseInt`, and numerals to the base sixteen.
-/

namespace JsText

/-- The lower-case form of one character.  Besides the Latin letters it lists the characters
whose lower-case form holds an ASCII character. -/
def lowerCaseOf (char : Char) : List Char :=
  match char.toNat with
  | 0x130 => ['i', Char.ofNat 0x307]
  | 0x212A => ['k']
  | _ => [char.toLower]

def toLowerCase (text : List Char) : List Char := text.flatMap lowerCaseOf

@[grind =] def splitPairs (mark : Char) : List Char → List (List Char)
  | [] => [[]]
  | [char] => [[char]]
  | char :: next :: rest =>
    if char = mark ∧ next = mark then [] :: splitPairs mark rest
    else (splitPairs mark (next :: rest)).modifyHead (char :: ·)

def lastIndexOf (mark : Char) : List Char → Option Nat
  | [] => none
  | char :: rest =>
    match lastIndexOf mark rest with
    | some index => some (index + 1)
    | none => if char = mark then some 0 else none

def parseInt (text : List Char) : Option Int :=
  let trimmed := trimStart text
  let negative := trimmed.head? == some '-'
  let unsigned := if negative || trimmed.head? == some '+' then trimmed.tail else trimmed
  let digits := unsigned.takeWhile Char.isDigit
  if digits.isEmpty then none
  else if negative then some (-(numberOfDigits digits : Int))
  else some (numberOfDigits digits)

def stringOfInteger : Int → List Char
  | .ofNat value => stringOfNumber value
  | .negSucc value => '-' :: stringOfNumber (value + 1)

def isHexDigit (char : Char) : Bool :=
  let code := char.toNat
  (48 ≤ code && code ≤ 57) || (97 ≤ code && code ≤ 102) || (65 ≤ code && code ≤ 70)

def hexDigitValue (char : Char) : Nat :=
  let code := char.toNat
  if code ≤ 57 then code - 48 else if code ≤ 70 then code - 55 else code - 87

def numberOfHexDigits (text : List Char) : Nat :=
  text.foldl (fun value char => value * 16 + hexDigitValue char) 0

def hexStringOfNumber (value : Nat) : List Char := Nat.toDigits 16 value

theorem drop_length_takeWhile (test : Char → Bool) (text : List Char) :
    text.drop (text.takeWhile test).length = text.dropWhile test := by
  induction text with
  | nil => rfl
  | cons char rest ih =>
    by_cases passes : test char = true
    · simpa [passes] using ih
    · simp [passes]

theorem lastIndexOf_eq_none {mark : Char} {text : List Char} (absent : mark ∉ text) :
    lastIndexOf mark text = none := by
  induction text with
  | nil => rfl
  | cons char rest ih =>
    simp only [List.mem_cons, not_or] at absent
    rw [lastIndexOf, ih absent.2]
    simp [Ne.symm absent.1]

theorem lastIndexOf_append (front : List Char) {mark : Char} {last : List Char}
    (absent : mark ∉ last) : lastIndexOf mark (front ++ mark :: last) = some front.length := by
  induction front with
  | nil => simp [lastIndexOf, lastIndexOf_eq_none absent]
  | cons char front ih => simp [lastIndexOf, ih]

theorem absent_or_last (mark : Char) (text : List Char) :
    mark ∉ text ∨ ∃ front last, text = front ++ mark :: last ∧ mark ∉ last := by
  induction text with
  | nil => exact Or.inl (by simp)
  | cons char rest ih =>
    rcases ih with absent | ⟨front, last, equal, absent⟩
    · by_cases same : char = mark
      · exact Or.inr ⟨[], rest, by simp [same], absent⟩
      · exact Or.inl (by simp [Ne.symm same, absent])
    · exact Or.inr ⟨char :: front, last, by simp [equal], absent⟩

theorem first_mark {mark : Char} {part rest front tail : List Char} (absent : mark ∉ part)
    (equal : part ++ mark :: rest = front ++ mark :: tail) :
    (part = front ∧ rest = tail) ∨
      ∃ later, front = part ++ mark :: later ∧ rest = later ++ mark :: tail := by
  induction part generalizing front with
  | nil =>
    cases front with
    | nil => exact Or.inl ⟨rfl, by simpa using equal⟩
    | cons char front =>
      simp only [List.nil_append, List.cons_append, List.cons.injEq] at equal
      exact Or.inr ⟨front, by simp [equal.1], equal.2⟩
  | cons char part ih =>
    simp only [List.mem_cons, not_or] at absent
    cases front with
    | nil =>
      simp only [List.nil_append, List.cons_append, List.cons.injEq] at equal
      exact absurd equal.1.symm absent.1
    | cons other front =>
      simp only [List.cons_append, List.cons.injEq] at equal
      obtain ⟨rfl, equal⟩ := equal
      rcases ih absent.2 equal with ⟨rfl, rfl⟩ | ⟨later, rfl, rfl⟩
      · exact Or.inl ⟨rfl, rfl⟩
      · exact Or.inr ⟨later, rfl, rfl⟩

theorem splitPairs_cons_ne {mark char : Char} (rest : List Char) (differs : char ≠ mark) :
    splitPairs mark (char :: rest) = (splitPairs mark rest).modifyHead (char :: ·) := by
  cases rest with
  | nil => simp [splitPairs]
  | cons next rest => simp [splitPairs, differs]

theorem splitPairs_mark_cons_ne {mark next : Char} (rest : List Char) (differs : next ≠ mark) :
    splitPairs mark (mark :: next :: rest) =
      (splitPairs mark (next :: rest)).modifyHead (mark :: ·) := by
  simp [splitPairs, differs]

theorem splitPairs_pair (mark : Char) (rest : List Char) :
    splitPairs mark (mark :: mark :: rest) = [] :: splitPairs mark rest := by
  simp [splitPairs]

theorem splitPairs_word {mark : Char} (word rest : List Char) (absent : mark ∉ word) :
    splitPairs mark (word ++ rest) = (splitPairs mark rest).modifyHead (word ++ ·) := by
  induction word with
  | nil => cases pieces : splitPairs mark rest <;> simp [pieces]
  | cons char word ih =>
    simp only [List.mem_cons, not_or] at absent
    rw [List.cons_append, splitPairs_cons_ne _ (Ne.symm absent.1), ih absent.2]
    cases splitPairs mark rest <;> simp

theorem splitPairs_ne_nil (mark : Char) (text : List Char) : splitPairs mark text ≠ [] := by
  fun_induction splitPairs mark text with
  | case1 => simp
  | case2 => simp
  | case3 => simp
  | case4 char next rest _ ih =>
    cases pieces : splitPairs mark (next :: rest) with
    | nil => exact absurd pieces ih
    | cons => simp

theorem intercalate_splitPairs (mark : Char) (text : List Char) :
    [mark, mark].intercalate (splitPairs mark text) = text := by
  fun_induction splitPairs mark text with
  | case1 => simp
  | case2 => simp
  | case3 char next rest both ih =>
    rw [List.intercalate_cons_of_ne_nil (splitPairs_ne_nil mark rest), ih, both.1, both.2]
    rfl
  | case4 char next rest _ ih =>
    cases pieces : splitPairs mark (next :: rest) with
    | nil => exact absurd pieces (splitPairs_ne_nil mark _)
    | cons piece others =>
      rw [pieces] at ih
      cases others with
      | nil => simpa using ih
      | cons other others =>
        simp only [List.modifyHead_cons, List.intercalate_cons_cons] at ih ⊢
        rw [← ih]
        simp

theorem mem_of_mem_splitOn {α : Type} [BEq α] [LawfulBEq α] {mark char : α} {text piece : List α}
    (member : piece ∈ text.splitOn mark) (inside : char ∈ piece) : char ∈ text := by
  induction text generalizing piece with
  | nil => simp_all
  | cons first rest ih =>
    rw [List.splitOn_cons_eq_if_modifyHead] at member
    split at member
    · rcases List.mem_cons.mp member with empty | later
      · simp [empty] at inside
      · exact List.mem_cons_of_mem _ (ih later inside)
    · cases pieces : rest.splitOn mark with
      | nil => simp [pieces] at member
      | cons head others =>
        rw [pieces, List.modifyHead_cons] at member
        rw [pieces] at ih
        rcases List.mem_cons.mp member with grown | later
        · rw [grown] at inside
          rcases List.mem_cons.mp inside with same | older
          · simp [same]
          · exact List.mem_cons_of_mem _ (ih (by simp) older)
        · exact List.mem_cons_of_mem _ (ih (List.mem_cons_of_mem _ later) inside)

theorem parseInt_stringOfNumber (value : Nat) :
    parseInt (stringOfNumber value) = some (value : Int) := by
  have digits : ∀ char ∈ stringOfNumber value, char.isDigit = true := by
    intro char member
    exact isDigit_of_mem_stringOfNumber member
  have trimmed : trimStart (stringOfNumber value) = stringOfNumber value := by
    apply trimStart_eq_self
    intro char first
    exact digit_not_whiteSpace (digits char (List.mem_of_mem_head? first))
  have sign : ∀ mark : Char, mark.isDigit = false →
      ((stringOfNumber value).head? == some mark) = false := by
    intro mark solid
    rw [beq_eq_false_iff_ne]
    intro first
    have digit := digits mark (List.mem_of_mem_head? (by rw [first]; rfl))
    rw [solid] at digit
    exact Bool.false_ne_true digit
  have taken : (stringOfNumber value).takeWhile Char.isDigit = stringOfNumber value :=
    List.takeWhile_eq_self_iff.mpr digits
  simp [parseInt, trimmed, sign '-' (by decide), sign '+' (by decide), taken,
    stringOfNumber_ne_nil]

theorem hexDigitValue_digitChar {digit : Nat} (bound : digit < 16) :
    hexDigitValue (Nat.digitChar digit) = digit := by
  interval_cases digit <;> rfl

theorem numberOfHexDigits_append (text : List Char) (char : Char) :
    numberOfHexDigits (text ++ [char]) = numberOfHexDigits text * 16 + hexDigitValue char := by
  simp [numberOfHexDigits]

@[simp] theorem numberOfHexDigits_hexStringOfNumber (value : Nat) :
    numberOfHexDigits (hexStringOfNumber value) = value := by
  induction value using Nat.strongRecOn with
  | ind value ih =>
    rw [hexStringOfNumber, Nat.toDigits_eq_if (by decide)]
    split
    · rename_i small
      simp [numberOfHexDigits, hexDigitValue_digitChar small]
    · rename_i large
      have shorter := ih (value / 16) (by omega)
      rw [hexStringOfNumber] at shorter
      rw [numberOfHexDigits_append, shorter,
        hexDigitValue_digitChar (Nat.mod_lt value (by decide))]
      omega

theorem mem_hexStringOfNumber {value : Nat} {char : Char}
    (member : char ∈ hexStringOfNumber value) : ∃ digit < 16, char = Nat.digitChar digit := by
  induction value using Nat.strongRecOn with
  | ind value ih =>
    rw [hexStringOfNumber, Nat.toDigits_eq_if (by decide)] at member
    split at member
    · rename_i small
      exact ⟨value, small, by simpa using member⟩
    · rename_i large
      rcases List.mem_append.mp member with front | last
      · exact ih (value / 16) (by omega) front
      · exact ⟨value % 16, Nat.mod_lt value (by decide), by simpa using last⟩

theorem toLower_toNat (char : Char) : char.toLower.toNat =
    if 65 ≤ char.toNat ∧ char.toNat ≤ 90 then char.toNat + 32 else char.toNat := by
  have capital : char.val ≥ 'A'.val ∧ char.val ≤ 'Z'.val ↔ 65 ≤ char.toNat ∧ char.toNat ≤ 90 := by
    simp only [ge_iff_le, UInt32.le_iff_toNat_le]
    rfl
  delta Char.toLower
  simp only [capital]
  split
  · rename_i range
    have code : char.val.toNat = char.toNat := rfl
    have shift : ('a'.val - 'A'.val).toNat = 32 := rfl
    rw [Char.toNat_mk, UInt32.toNat_add, code, shift]
    omega
  · rfl

theorem lowerCaseOf_no_capital {char lower : Char} (member : lower ∈ lowerCaseOf char) :
    ¬ (65 ≤ lower.toNat ∧ lower.toNat ≤ 90) := by
  unfold lowerCaseOf at member
  split at member
  · rcases List.mem_cons.mp member with rfl | last
    · decide
    · obtain rfl := List.mem_singleton.mp last
      decide
  · obtain rfl := List.mem_singleton.mp member
    decide
  · obtain rfl := List.mem_singleton.mp member
    rw [toLower_toNat]
    split <;> omega

theorem lowerCaseOf_eq {char lower : Char} (member : lower ∈ lowerCaseOf char)
    (below : lower.toNat < 0x69) : lowerCaseOf char = [char.toLower] := by
  unfold lowerCaseOf at member ⊢
  split at member
  · rcases List.mem_cons.mp member with rfl | last
    · exact absurd below (by decide)
    · obtain rfl := List.mem_singleton.mp last
      exact absurd below (by decide)
  · obtain rfl := List.mem_singleton.mp member
    exact absurd below (by decide)
  · rfl

theorem toLowerCase_eq_map {text : List Char}
    (below : ∀ lower ∈ toLowerCase text, lower.toNat < 0x69) :
    toLowerCase text = text.map Char.toLower := by
  induction text with
  | nil => rfl
  | cons char rest ih =>
    rw [toLowerCase, List.flatMap_cons] at below ⊢
    have tail := ih fun lower member => below lower (List.mem_append_right _ member)
    obtain ⟨lower, others, equal⟩ : ∃ lower others, lowerCaseOf char = lower :: others := by
      unfold lowerCaseOf
      split
      · exact ⟨_, _, rfl⟩
      · exact ⟨_, _, rfl⟩
      · exact ⟨_, _, rfl⟩
    have first : lower ∈ lowerCaseOf char := by simp [equal]
    have single := lowerCaseOf_eq first (below lower (List.mem_append_left _ first))
    rw [single, ← toLowerCase, tail]
    rfl

theorem toLower_eq_self_of {char lower : Char} (equal : char.toLower = lower)
    (below : lower.toNat < 97) : char = lower := by
  have codes := congrArg Char.toNat equal
  rw [toLower_toNat] at codes
  apply Char.toNat_inj.mp
  split at codes
  · omega
  · exact codes

end JsText
