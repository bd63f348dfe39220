import Mathlib.Data.List.Basic

/-!
UTF-8 as a text encoder and a lossy text decoder: the decoder accepts every byte sequence,
writes a replacement character for what is malformed, and drops one leading byte order mark.
-/

namespace Utf8

def encode (text : List Char) : List UInt8 := text.flatMap String.utf8EncodeChar

def replacement : Char := Char.ofNat 0xFFFD

def byteOrderMark : Char := Char.ofNat 0xFEFF

structure Pending where
  codePoint : Nat
  needed : Nat
  lower : Nat
  upper : Nat
  deriving DecidableEq

def start (byte : Nat) : List Char × Option Pending :=
  if byte ≤ 0x7F then ([Char.ofNat byte], none)
  else if 0xC2 ≤ byte ∧ byte ≤ 0xDF then
    ([], some { codePoint := byte - 0xC0, needed := 1, lower := 0x80, upper := 0xBF })
  else if 0xE0 ≤ byte ∧ byte ≤ 0xEF then
    ([], some { codePoint := byte - 0xE0, needed := 2, lower := if byte = 0xE0 then 0xA0 else 0x80,
                upper := if byte = 0xED then 0x9F else 0xBF })
  else if 0xF0 ≤ byte ∧ byte ≤ 0xF4 then
    ([], some { codePoint := byte - 0xF0, needed := 3, lower := if byte = 0xF0 then 0x90 else 0x80,
                upper := if byte = 0xF4 then 0x8F else 0xBF })
  else ([replacement], none)

def extend (pending : Pending) (byte : Nat) : List Char × Option Pending :=
  if byte < pending.lower ∨ pending.upper < byte then
    (replacement :: (start byte).1, (start byte).2)
  else
    let codePoint := pending.codePoint * 64 + byte % 64
    if pending.needed ≤ 1 then ([Char.ofNat codePoint], none)
    else ([], some { codePoint, needed := pending.needed - 1, lower := 0x80, upper := 0xBF })

@[grind =] def step (state : Option Pending) (byte : Nat) : List Char × Option Pending :=
  match state with
  | none => start byte
  | some pending => extend pending byte

def decodeFrom : Option Pending → List UInt8 → List Char
  | none, [] => []
  | some _, [] => [replacement]
  | state, byte :: rest => (step state byte.toNat).1 ++ decodeFrom (step state byte.toNat).2 rest

def dropMark : List Char → List Char
  | [] => []
  | char :: rest => if char = byteOrderMark then rest else char :: rest

def decode (bytes : List UInt8) : List Char := dropMark (decodeFrom none bytes)

theorem toNat_ofNat {value : Nat} (bound : value < 256) : (UInt8.ofNat value).toNat = value := by
  rw [UInt8.toNat_ofNat']
  exact Nat.mod_eq_of_lt bound

theorem decodeFrom_cons (state : Option Pending) {value : Nat} (bound : value < 256)
    (rest : List UInt8) :
    decodeFrom state (UInt8.ofNat value :: rest) =
      (step state value).1 ++ decodeFrom (step state value).2 rest := by
  cases state <;> rw [decodeFrom, toNat_ofNat bound]

theorem start_ascii {byte : Nat} (bound : byte ≤ 0x7F) :
    start byte = ([Char.ofNat byte], none) := by
  rw [start, if_pos bound]

theorem start_two {byte : Nat} (low : 0xC2 ≤ byte) (high : byte ≤ 0xDF) :
    start byte =
      ([], some { codePoint := byte - 0xC0, needed := 1, lower := 0x80, upper := 0xBF }) := by
  rw [start, if_neg (by omega), if_pos ⟨low, high⟩]

theorem start_three {byte : Nat} (low : 0xE0 ≤ byte) (high : byte ≤ 0xEF) :
    start byte =
      ([], some { codePoint := byte - 0xE0, needed := 2,
                  lower := if byte = 0xE0 then 0xA0 else 0x80,
                  upper := if byte = 0xED then 0x9F else 0xBF }) := by
  rw [start, if_neg (by omega), if_neg (by omega), if_pos ⟨low, high⟩]

theorem start_four {byte : Nat} (low : 0xF0 ≤ byte) (high : byte ≤ 0xF4) :
    start byte =
      ([], some { codePoint := byte - 0xF0, needed := 3,
                  lower := if byte = 0xF0 then 0x90 else 0x80,
                  upper := if byte = 0xF4 then 0x8F else 0xBF }) := by
  rw [start, if_neg (by omega), if_neg (by omega), if_neg (by omega), if_pos ⟨low, high⟩]

theorem extend_last {pending : Pending} {byte : Nat} (low : pending.lower ≤ byte)
    (high : byte ≤ pending.upper) (last : pending.needed = 1) :
    extend pending byte = ([Char.ofNat (pending.codePoint * 64 + byte % 64)], none) := by
  rw [extend, if_neg (by omega)]
  simp only [last, Nat.le_refl, if_true]

theorem extend_more {pending : Pending} {byte : Nat} (low : pending.lower ≤ byte)
    (high : byte ≤ pending.upper) (more : 1 < pending.needed) :
    extend pending byte = ([], some { codePoint := pending.codePoint * 64 + byte % 64, needed := pending.needed - 1,
                                      lower := 0x80, upper := 0xBF }) := by
  rw [extend, if_neg (by omega)]
  simp only [Nat.not_le.mpr more, if_false]

theorem decodeFrom_encodeChar (char : Char) (rest : List UInt8) :
    decodeFrom none (String.utf8EncodeChar char ++ rest) = char :: decodeFrom none rest := by
  have scalar : char.toNat < 0xD800 ∨ 0xDFFF < char.toNat ∧ char.toNat < 0x110000 := char.valid
  have back : Char.ofNat char.toNat = char := Char.ofNat_toNat char
  have code : char.val.toNat = char.toNat := rfl
  simp only [String.utf8EncodeChar, code]
  generalize char.toNat = value at scalar back
  split
  · rename_i ascii
    rw [List.singleton_append, decodeFrom_cons _ (by omega), step, start_ascii ascii, back]
    rfl
  · split
    · rename_i short
      rw [List.cons_append, List.singleton_append, decodeFrom_cons _ (by omega), step,
        start_two (by omega) (by omega), List.nil_append, decodeFrom_cons _ (by omega), step,
        extend_last (by simp only; omega) (by simp only; omega) rfl]
      have joined : (value / 64 % 32 + 0xC0 - 0xC0) * 64 + (value % 64 + 0x80) % 64 = value := by
        omega
      rw [joined, back]
      rfl
    · split
      · rename_i middle
        rw [List.cons_append, List.cons_append, List.singleton_append,
          decodeFrom_cons _ (by omega), step, start_three (by omega) (by omega), List.nil_append,
          decodeFrom_cons _ (by omega), step,
          extend_more (by simp only; split <;> omega) (by simp only; split <;> omega)
            (show 1 < 2 by decide),
          List.nil_append, decodeFrom_cons _ (by omega), step,
          extend_last (by simp only; omega) (by simp only; omega) rfl]
        have joined : ((value / 4096 % 16 + 0xE0 - 0xE0) * 64 + (value / 64 % 64 + 0x80) % 64) * 64 +
            (value % 64 + 0x80) % 64 = value := by omega
        rw [joined, back]
        rfl
      · rename_i large
        rw [List.cons_append, List.cons_append, List.cons_append, List.singleton_append,
          decodeFrom_cons _ (by omega), step, start_four (by omega) (by omega), List.nil_append,
          decodeFrom_cons _ (by omega), step,
          extend_more (by simp only; split <;> omega) (by simp only; split <;> omega)
            (show 1 < 3 by decide),
          List.nil_append, decodeFrom_cons _ (by omega), step,
          extend_more (by simp only; omega) (by simp only; omega) (show 1 < 2 by decide),
          List.nil_append, decodeFrom_cons _ (by omega), step,
          extend_last (by simp only; omega) (by simp only; omega) rfl]
        have joined : (((value / 262144 % 8 + 0xF0 - 0xF0) * 64 + (value / 4096 % 64 + 0x80) % 64) *
            64 + (value / 64 % 64 + 0x80) % 64) * 64 + (value % 64 + 0x80) % 64 = value := by omega
        rw [joined, back]
        rfl

theorem decodeFrom_encode (text : List Char) : decodeFrom none (encode text) = text := by
  induction text with
  | nil => rfl
  | cons char text ih =>
    rw [encode, List.flatMap_cons, decodeFrom_encodeChar, ← encode, ih]

theorem decode_encode (text : List Char) : decode (encode text) = dropMark text := by
  rw [decode, decodeFrom_encode]

theorem dropMark_length_le (text : List Char) : (dropMark text).length ≤ text.length := by
  cases text with
  | nil => exact Nat.le_refl _
  | cons char rest =>
    rw [dropMark]
    split
    · simp
    · exact Nat.le_refl _

theorem dropMark_eq_self_iff {text : List Char} :
    dropMark text = text ↔ text.head? ≠ some byteOrderMark := by
  cases text with
  | nil => simp [dropMark]
  | cons char rest =>
    rw [dropMark]
    split
    · rename_i marked
      simp [marked]
    · rename_i plain
      simp [plain]

theorem dropMark_length_lt {text : List Char} (marked : text.head? = some byteOrderMark) :
    (dropMark text).length < text.length := by
  cases text with
  | nil => simp at marked
  | cons char rest =>
    rw [List.head?_cons, Option.some.injEq] at marked
    rw [dropMark, if_pos marked]
    exact Nat.lt_succ_self _

example : decode [0xEF, 0xBB, 0xBF, 0x61, 0xFF] = ['a', replacement] := by decide

end Utf8

/-!
The text decoder over a stream of chunks: what it keeps between chunks, and that chunks decode
to what their concatenation does.
-/

namespace Utf8

def feed : Option Pending → List UInt8 → List Char × Option Pending
  | state, [] => ([], state)
  | state, byte :: rest =>
    let next := step state byte.toNat
    ((next.1 ++ (feed next.2 rest).1), (feed next.2 rest).2)

def flush : Option Pending → List Char
  | none => []
  | some _ => [replacement]

variable {state : Option Pending} {first second : List UInt8}

theorem decodeFrom_eq_feed (state : Option Pending) (bytes : List UInt8) :
    decodeFrom state bytes = (feed state bytes).1 ++ flush (feed state bytes).2 := by
  induction bytes generalizing state with
  | nil => cases state <;> rfl
  | cons byte rest ih =>
    cases state <;> simp only [decodeFrom, feed, ih, List.append_assoc]

theorem feed_append (state : Option Pending) (first second : List UInt8) :
    feed state (first ++ second) =
      ((feed state first).1 ++ (feed (feed state first).2 second).1,
        (feed (feed state first).2 second).2) := by
  induction first generalizing state with
  | nil => rfl
  | cons byte rest ih => simp only [List.cons_append, feed, ih, List.append_assoc]

/-- A `TextDecoder`.  A call that streams keeps the sequence begun and whether a character has
been returned; a call that does not makes the next one start anew. -/
structure Decoder where
  pending : Option Pending
  markSeen : Bool
  streaming : Bool
  deriving DecidableEq

namespace Decoder

def new : Decoder := { pending := none, markSeen := false, streaming := false }

def resume (decoder : Decoder) : Decoder := if decoder.streaming then decoder else new

def serialize (markSeen : Bool) (chars : List Char) : List Char :=
  if markSeen then chars else dropMark chars

def decode (decoder : Decoder) (bytes : List UInt8) : List Char × Decoder :=
  let fed := feed decoder.resume.pending bytes
  (serialize decoder.resume.markSeen fed.1,
    { pending := fed.2
      markSeen := decoder.resume.markSeen || !fed.1.isEmpty
      streaming := true })

def finish (decoder : Decoder) : List Char × Decoder :=
  (serialize decoder.resume.markSeen (flush decoder.resume.pending), new)

def after (bytes : List UInt8) : Decoder := (new.decode bytes).2

def text (bytes : List UInt8) : List Char := (new.decode bytes).1

theorem serialize_append (first second : List Char) :
    serialize false (first ++ second) =
      serialize false first ++ serialize (!first.isEmpty) second := by
  cases first with
  | nil => rfl
  | cons char rest =>
    simp only [serialize, dropMark, List.cons_append, List.isEmpty_cons, Bool.not_false, if_true,
      Bool.false_eq_true, if_false]
    split <;> rfl

@[simp] theorem resume_after (bytes : List UInt8) : (after bytes).resume = after bytes := rfl

theorem text_append (first second : List UInt8) :
    text (first ++ second) = text first ++ ((after first).decode second).1 := by
  have joined := feed_append none first second
  show serialize false (feed none (first ++ second)).1 = _
  rw [joined, serialize_append]
  rfl

theorem decode_eq_text (bytes : List UInt8) :
    Utf8.decode bytes = text bytes ++ (after bytes).finish.1 := by
  show serialize false (decodeFrom none bytes) = _
  rw [decodeFrom_eq_feed, serialize_append]
  rfl

theorem serialize_of_unmarked (markSeen other : Bool) {chars : List Char}
    (unmarked : chars.head? ≠ some byteOrderMark) :
    serialize markSeen chars = serialize other chars := by
  have kept : dropMark chars = chars := dropMark_eq_self_iff.mpr unmarked
  cases markSeen <;> cases other <;> simp [serialize, kept]

theorem decode_congr {one other : Decoder} {bytes : List UInt8}
    (same : one.resume.pending = other.resume.pending)
    (mark : one.resume.markSeen = other.resume.markSeen ∨
      (feed other.resume.pending bytes).1.head? ≠ some byteOrderMark) :
    (one.decode bytes).1 = (other.decode bytes).1 := by
  rw [decode, decode, same]
  rcases mark with sameMark | unmarked
  · rw [sameMark]
  · exact serialize_of_unmarked _ _ unmarked

theorem decode_nil (decoder : Decoder) : (decoder.decode []).1 = [] := by
  simp only [decode, feed, serialize, dropMark, ite_self]

theorem finish_congr {one other : Decoder} (same : one.resume.pending = other.resume.pending) :
    one.finish.1 = other.finish.1 := by
  rw [finish, finish, same]
  refine serialize_of_unmarked _ _ ?_
  cases other.resume.pending <;> simp [flush, replacement, byteOrderMark]

end Decoder

end Utf8
