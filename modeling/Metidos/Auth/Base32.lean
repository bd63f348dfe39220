import Metidos.Library.BitStrings
import Metidos.Library.JsText

/-!
`encodeBase32` and `decodeBase32` of `src/bun/auth/index.ts`.  The accumulator is an integer of 32
bits that is never masked: only its lowest bits, as many as are counted, are still to be written.
-/

namespace Metidos.Auth.Base32

open BitStrings JsText

abbrev Text := List Char

def base32Alphabet : Text := "ABCDEFGHIJKLMNOPQRSTUVWXYZ234567".toList

def alphabetCharacter (index : BitVec 32) : Char := base32Alphabet.getD (index &&& 31).toNat 'A'

def emit (value : BitVec 32) : Nat → Text × Nat
  | bits + 5 =>
    let (output, left) := emit value bits
    (alphabetCharacter (value >>> bits) :: output, left)
  | bits => ([], bits)

def encodeFrom (value : BitVec 32) (bits : Nat) : List (BitVec 8) → Text
  | [] => if 0 < bits then [alphabetCharacter (value <<< (5 - bits))] else []
  | byte :: rest =>
    let value := (value <<< 8) ||| byte.setWidth 32
    let (output, left) := emit value (bits + 8)
    output ++ encodeFrom value left rest

def encodeBase32 (bytes : List (BitVec 8)) : Text := encodeFrom 0 0 bytes

inductive DecodeError
  | invalidTotpSecret
  deriving DecidableEq

def decodeFrom (value : BitVec 32) (bits : Nat) : Text → Except DecodeError (List (BitVec 8))
  | [] => .ok []
  | char :: rest => do
      let some alphabetIndex := base32Alphabet.idxOf? char | throw .invalidTotpSecret
      let value := (value <<< 5) ||| BitVec.ofNat 32 alphabetIndex
      let bits := bits + 5
      if 8 ≤ bits then
        let bytes ← decodeFrom value (bits - 8) rest
        pure ((value >>> (bits - 8)).setWidth 8 :: bytes)
      else decodeFrom value bits rest

def isBase32 (char : Char) : Bool := char.isUpper || ('2' ≤ char && char ≤ '7')

def isSeparator (char : Char) : Bool := isWhiteSpace char || char = '=' || char = '-'

def decodeBase32 (secret : Text) : Except DecodeError (List (BitVec 8)) :=
  let normalized := (toUpperCase secret).filter (!isSeparator ·)
  if normalized.isEmpty || !normalized.all isBase32 then throw .invalidTotpSecret
  else decodeFrom 0 0 normalized

def digitBits (char : Char) : List Bool :=
  bitsOf (BitVec.ofNat 32 (base32Alphabet.idxOf char)).getLsbD 5

theorem alphabet_plain : ∀ char ∈ base32Alphabet,
    base32Alphabet.idxOf? char = some (base32Alphabet.idxOf char) ∧ upperCaseOf char = [char] ∧
      isSeparator char = false ∧ isBase32 char = true := by
  have all : (base32Alphabet.all fun char =>
      base32Alphabet.idxOf? char = some (base32Alphabet.idxOf char) && upperCaseOf char = [char] &&
        !isSeparator char && isBase32 char) = true := by
    decide
  intro char member
  simpa [and_assoc] using List.all_eq_true.mp all char member

theorem idxOf_alphabetCharacter : ∀ index < 32,
    base32Alphabet.idxOf (base32Alphabet.getD index 'A') = index := by
  decide

theorem low_lt (index : BitVec 32) : (index &&& 31).toNat < 32 := by
  rw [BitVec.toNat_and]
  exact Nat.lt_of_le_of_lt Nat.and_le_right (by decide)

theorem alphabetCharacter_mem (index : BitVec 32) : alphabetCharacter index ∈ base32Alphabet := by
  rw [← List.idxOf_lt_length_iff, alphabetCharacter, idxOf_alphabetCharacter _ (low_lt index)]
  exact low_lt index

theorem digitBits_alphabetCharacter (index : BitVec 32) :
    digitBits (alphabetCharacter index) = bitsOf index.getLsbD 5 := by
  rw [digitBits, alphabetCharacter, idxOf_alphabetCharacter _ (low_lt index), BitVec.ofNat_toNat,
    BitVec.setWidth_eq]
  refine bitsOf_congr fun bit short => ?_
  have mask : ∀ bit < 5, (31 : BitVec 32).getLsbD bit = true := by decide
  rw [BitVec.getLsbD_and, mask bit short, Bool.and_true]

theorem bitsOf_append (value low : BitVec 32) {high width : Nat} (fits : high + width ≤ 32)
    (small : ∀ index, width ≤ index → low.getLsbD index = false) :
    bitsOf ((value <<< width) ||| low).getLsbD (high + width) =
      bitsOf value.getLsbD high ++ bitsOf low.getLsbD width := by
  rw [bitsOf_add]
  refine congrArg₂ _ (bitsOf_congr fun index below => ?_) (bitsOf_congr fun index below => ?_)
  · simp only [BitVec.getLsbD_or, BitVec.getLsbD_shiftLeft, small _ (Nat.le_add_left width index)]
    simp
    omega
  · simp [BitVec.getLsbD_shiftLeft, below]

theorem bitsOf_shift (value : BitVec 32) (low width : Nat) :
    bitsOf (value >>> low).getLsbD width = bitsOf (fun bit => value.getLsbD (bit + low)) width :=
  bitsOf_congr fun bit _ => by rw [BitVec.getLsbD_ushiftRight, Nat.add_comm]

theorem emit_bits (value : BitVec 32) (bits : Nat) :
    (emit value bits).1.flatMap digitBits ++ bitsOf value.getLsbD (emit value bits).2 =
      bitsOf value.getLsbD bits ∧ (emit value bits).2 < 5 := by
  induction bits using Nat.strongRecOn with
  | ind bits ih =>
    rw [emit.eq_def]
    split
    · rename_i lower
      obtain ⟨written, short⟩ := ih lower (by omega)
      refine ⟨?_, short⟩
      change _ = bitsOf value.getLsbD (lower + 5)
      simp only [List.flatMap_cons, List.append_assoc]
      rw [written, digitBits_alphabetCharacter, bitsOf_shift, Nat.add_comm lower 5, bitsOf_add]
    · rename_i large
      refine ⟨rfl, ?_⟩
      by_contra enough
      exact large (bits - 5) (by omega)

theorem emit_mem (value : BitVec 32) (bits : Nat) : ∀ char ∈ (emit value bits).1,
    char ∈ base32Alphabet := by
  induction bits using Nat.strongRecOn with
  | ind bits ih =>
    rw [emit.eq_def]
    split
    · rename_i lower
      intro char member
      rcases List.mem_cons.mp member with rfl | member
      · exact alphabetCharacter_mem _
      · exact ih lower (by omega) char member
    · simp

theorem encodeFrom_cons (value : BitVec 32) (bits : Nat) (byte : BitVec 8)
    (rest : List (BitVec 8)) : encodeFrom value bits (byte :: rest) =
      (emit ((value <<< 8) ||| byte.setWidth 32) (bits + 8)).1 ++
        encodeFrom ((value <<< 8) ||| byte.setWidth 32)
          (emit ((value <<< 8) ||| byte.setWidth 32) (bits + 8)).2 rest := rfl

theorem encodeFrom_mem (value : BitVec 32) (bits : Nat) (bytes : List (BitVec 8)) :
    ∀ char ∈ encodeFrom value bits bytes, char ∈ base32Alphabet := by
  induction bytes generalizing value bits with
  | nil =>
    rw [encodeFrom]
    split
    · simpa using alphabetCharacter_mem _
    · simp
  | cons byte rest ih =>
    intro char member
    rw [encodeFrom_cons] at member
    rcases List.mem_append.mp member with written | later
    · exact emit_mem _ _ char written
    · exact ih _ _ char later

theorem encodeFrom_bits (value : BitVec 32) {bits : Nat} (short : bits < 5)
    (bytes : List (BitVec 8)) : ∃ padding, padding.length < 5 ∧
      (encodeFrom value bits bytes).flatMap digitBits =
        bitsOf value.getLsbD bits ++ wordBits bytes ++ padding := by
  induction bytes generalizing value bits with
  | nil =>
    rw [encodeFrom]
    split
    · refine ⟨bitsOf (0#32).getLsbD (5 - bits), by simp; omega, ?_⟩
      have filled := @bitsOf_append value 0#32 bits (5 - bits) (by omega) (by simp)
      rw [Nat.add_sub_cancel' (by omega), BitVec.or_zero] at filled
      simpa [wordBits, digitBits_alphabetCharacter] using filled
    · rename_i none
      obtain rfl : bits = 0 := by omega
      exact ⟨[], by simp, by simp [wordBits, bitsOf]⟩
  | cons byte rest ih =>
    obtain ⟨written, fewer⟩ := emit_bits ((value <<< 8) ||| byte.setWidth 32) (bits + 8)
    obtain ⟨padding, few, later⟩ := ih ((value <<< 8) ||| byte.setWidth 32) fewer
    refine ⟨padding, few, ?_⟩
    have joined := @bitsOf_append value (byte.setWidth 32) bits 8 (by omega) fun index above => by
      rw [BitVec.getLsbD_setWidth, BitVec.getLsbD_of_ge byte index above, Bool.and_false]
    have isByte : bitsOf (byte.setWidth 32).getLsbD 8 = bitsOf byte.getLsbD 8 :=
      bitsOf_congr fun index below => by
        rw [BitVec.getLsbD_setWidth, decide_eq_true (by omega : index < 32), Bool.true_and]
    rw [encodeFrom_cons, List.flatMap_append, later, ← List.append_assoc, ← List.append_assoc,
      written, joined, isByte, wordBits_cons, List.append_assoc (bitsOf value.getLsbD bits)]

theorem decodeFrom_bits (value : BitVec 32) {bits : Nat} (short : bits < 8) (text : Text)
    (known : ∀ char ∈ text, char ∈ base32Alphabet) : ∃ bytes left, left.length < 8 ∧
      decodeFrom value bits text = .ok bytes ∧
      bitsOf value.getLsbD bits ++ text.flatMap digitBits = wordBits bytes ++ left := by
  induction text generalizing value bits with
  | nil => exact ⟨[], bitsOf value.getLsbD bits, by simpa using short, rfl, by simp [wordBits]⟩
  | cons char rest ih =>
    have isKnown : char ∈ base32Alphabet := known char List.mem_cons_self
    have later := fun other member => known other (List.mem_cons_of_mem _ member)
    have isIndex := (alphabet_plain char isKnown).1
    have below : base32Alphabet.idxOf char < 32 := List.idxOf_lt_length_of_mem isKnown
    have joined := @bitsOf_append value (BitVec.ofNat 32 (base32Alphabet.idxOf char)) bits 5
      (by omega) fun index above => by
        rw [BitVec.getLsbD_ofNat, Nat.testBit_lt_two_pow, Bool.and_false]
        exact below.trans_le (Nat.pow_le_pow_right Nat.zero_lt_two above)
    rw [decodeFrom, isIndex]
    dsimp only
    split
    · rename_i enough
      obtain ⟨bytes, left, few, isDone, cut⟩ := @ih
        ((value <<< 5) ||| BitVec.ofNat 32 (base32Alphabet.idxOf char)) (bits + 5 - 8) (by omega)
        later
      refine ⟨_ :: bytes, left, few, by rw [isDone]; rfl, ?_⟩
      have size : bits + 5 = 8 + (bits + 5 - 8) := by omega
      rw [List.flatMap_cons, ← List.append_assoc, digitBits, ← joined, size, bitsOf_add,
        ← bitsOf_shift, List.append_assoc, cut, wordBits_cons, List.append_assoc]
      refine congrArg (· ++ _) (bitsOf_congr fun index small => ?_)
      rw [BitVec.getLsbD_setWidth, decide_eq_true small, Bool.true_and, Nat.add_sub_cancel_left]
    · rename_i few
      obtain ⟨bytes, left, less, isDone, cut⟩ := @ih
        ((value <<< 5) ||| BitVec.ofNat 32 (base32Alphabet.idxOf char)) (bits + 5) (by omega) later
      refine ⟨bytes, left, less, isDone, ?_⟩
      rw [List.flatMap_cons, ← List.append_assoc, digitBits, ← joined, cut]

theorem decodeBase32_alphabet {text : Text} (known : ∀ char ∈ text, char ∈ base32Alphabet)
    (some : text ≠ []) : decodeBase32 text = decodeFrom 0 0 text := by
  have upper : toUpperCase text = text := by
    rw [toUpperCase, List.flatMap_congr fun char member => (alphabet_plain char (known char member)).2.1,
      List.flatMap_singleton']
  have kept : text.filter (!isSeparator ·) = text :=
    List.filter_eq_self.mpr fun char member => by
      rw [(alphabet_plain char (known char member)).2.2.1]
      rfl
  have accepted : text.all isBase32 = true :=
    List.all_eq_true.mpr fun char member => (alphabet_plain char (known char member)).2.2.2
  simp only [decodeBase32, upper, kept, accepted, List.isEmpty_eq_false_iff.mpr some]
  rfl

theorem encodeBase32_ne_nil {bytes : List (BitVec 8)} (some : bytes ≠ []) :
    encodeBase32 bytes ≠ [] := by
  obtain ⟨padding, _, written⟩ := @encodeFrom_bits 0 0 (by decide) bytes
  intro none
  rw [encodeBase32] at none
  rw [none] at written
  have sizes := congrArg List.length written
  simp [bitsOf] at sizes
  exact some (List.length_eq_zero_iff.mp (by omega))

/-- The decoder gives the bytes back, except that it takes no empty secret. -/
theorem decodeBase32_encodeBase32 (bytes : List (BitVec 8)) (some : bytes ≠ []) :
    decodeBase32 (encodeBase32 bytes) = .ok bytes := by
  have known : ∀ char ∈ encodeBase32 bytes, char ∈ base32Alphabet := encodeFrom_mem 0 0 bytes
  rw [decodeBase32_alphabet known (encodeBase32_ne_nil some)]
  obtain ⟨padding, few, written⟩ := @encodeFrom_bits 0 0 (by decide) bytes
  obtain ⟨decoded, left, less, isDone, cut⟩ := @decodeFrom_bits 0 0 (by decide) _ known
  rw [encodeBase32, written] at cut
  have same : bytes = decoded :=
    wordBits_unique (Nat.lt_trans few (by decide)) less (by simpa [bitsOf] using cut)
  rw [isDone, same]

theorem decodeBase32_encodeBase32_two :
    decodeBase32 (encodeBase32 [0xff, 0x01]) = .ok [0xff, 0x01] :=
  decodeBase32_encodeBase32 [0xff, 0x01] (by decide)

theorem decodeBase32_encodeBase32_nil :
    decodeBase32 (encodeBase32 []) = .error .invalidTotpSecret ∧
      ¬∀ bytes, decodeBase32 (encodeBase32 bytes) = .ok bytes := by
  have refused : decodeBase32 (encodeBase32 []) = .error .invalidTotpSecret := rfl
  refine ⟨refused, fun all => ?_⟩
  exact absurd (refused.symm.trans (all [])) (by simp)

end Metidos.Auth.Base32
