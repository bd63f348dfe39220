import Mathlib.Tactic.Ring
import Metidos.Rpc.CodecCore

namespace Metidos.Rpc

open Bytes Utf8 ExceptRules

@[simp] theorem reader_bind {α β : Type} (first : Reader α) (next : α → Reader β)
    (bytes : List UInt8) :
    (first >>= next) bytes = (first bytes >>= fun read => next read.1 read.2) := rfl

@[simp] theorem reader_pure {α : Type} (value : α) (bytes : List UInt8) :
    (pure value : Reader α) bytes = .ok (value, bytes) := rfl

@[simp] theorem readByte_cons (byte : UInt8) (rest : List UInt8) :
    readByte (byte :: rest) = .ok (byte, rest) := rfl

theorem readBytes_append {bytes : List UInt8} {length : Nat} (exact : bytes.length = length)
    (rest : List UInt8) : readBytes length (bytes ++ rest) = .ok (bytes, rest) := by
  subst exact
  rw [readBytes, if_neg (by simp), List.take_left, List.drop_left]

theorem readUint16_writeUint16 {value : Nat} (bound : value < 2 ^ 16) (rest : List UInt8) :
    readUint16 (writeUint16 value ++ rest) = .ok (value, rest) := by
  have back : ofBigEndian (bigEndian 2 value) = value := ofBigEndian_bigEndian bound
  simp only [bigEndian] at back
  simp only [writeUint16, bigEndian, List.cons_append, List.nil_append, readUint16, reader_bind,
    readByte_cons, ok_bind, reader_pure, back]

theorem readUint32_writeUint32 {value : Nat} (bound : value < 2 ^ 32) (rest : List UInt8) :
    readUint32 (writeUint32 value ++ rest) = .ok (value, rest) := by
  have back : ofBigEndian (bigEndian 4 value) = value := ofBigEndian_bigEndian bound
  simp only [bigEndian] at back
  simp only [writeUint32, bigEndian, List.cons_append, List.nil_append, readUint32, reader_bind,
    readByte_cons, ok_bind, reader_pure, back]

theorem readVarUintLoop_varUint {groups : Nat} (shift result : Nat) {value : Nat}
    (bound : value < 128 ^ (groups + 1)) (rest : List UInt8) :
    readVarUintLoop (groups + 1) shift result (varUint groups value ++ rest) =
      .ok ((result + value * 2 ^ shift) % 2 ^ 32, rest) := by
  induction groups generalizing shift result value with
  | zero =>
    have small : value < 128 := by simpa using bound
    have code : (byte value).toNat = value := by rw [toNat_byte]; omega
    simp only [varUint, List.singleton_append, readVarUintLoop, reader_bind, readByte_cons,
      ok_bind, code, small, if_true, reader_pure, Nat.mod_eq_of_lt small]
  | succ groups ih =>
    rw [varUint]
    by_cases large : 0x80 ≤ value
    · have code : (byte (value % 128 + 128)).toNat = value % 128 + 128 := by
        rw [toNat_byte]
        omega
      have later : value / 128 < 128 ^ (groups + 1) := by
        rw [Nat.div_lt_iff_lt_mul (by decide)]
        rwa [Nat.pow_succ] at bound
      have total : result + (value % 128 + 128) % 128 * 2 ^ shift +
          value / 128 * 2 ^ (shift + 7) = result + value * 2 ^ shift := by
        have parts := Nat.div_add_mod value 128
        rw [Nat.pow_add, Nat.add_mod_right, Nat.mod_mod, Nat.add_assoc]
        congr 1
        calc value % 128 * 2 ^ shift + value / 128 * (2 ^ shift * 2 ^ 7)
            = (128 * (value / 128) + value % 128) * 2 ^ shift := by ring
          _ = value * 2 ^ shift := by rw [parts]
      rw [if_pos large, List.cons_append, readVarUintLoop, reader_bind, readByte_cons, ok_bind]
      simp only [code]
      rw [if_neg (by omega), ih _ _ later, total]
    · have small : value < 128 := by omega
      have code : (byte value).toNat = value := by rw [toNat_byte]; omega
      rw [if_neg large, List.singleton_append, readVarUintLoop, reader_bind, readByte_cons, ok_bind]
      simp only [code]
      rw [if_pos small, Nat.mod_eq_of_lt small]
      rfl

theorem readVarUint_writeVarUint {value : Nat} (bound : value < 2 ^ 32) (rest : List UInt8) :
    readVarUint (writeVarUint value ++ rest) = .ok (value, rest) := by
  rw [readVarUint, writeVarUint, Nat.mod_eq_of_lt bound,
    readVarUintLoop_varUint 0 0 (Nat.lt_of_lt_of_le bound (by decide)), Nat.zero_add, Nat.pow_zero,
    Nat.mul_one, Nat.mod_eq_of_lt bound]

theorem readText_writeText {text : List Char} (bound : (encode text).length < 2 ^ 32)
    (rest : List UInt8) : readText (writeText text ++ rest) = .ok (dropMark text, rest) := by
  rw [readText, writeText, List.append_assoc, reader_bind, readVarUint_writeVarUint bound, ok_bind,
    reader_bind, readBytes_append rfl, ok_bind, decode_encode]
  rfl

theorem ofBits_bits (value : JsNumber) : JsNumber.ofBits value.bits = value := by
  have same : value.bits % 2 ^ 64 = value.bits := Nat.mod_eq_of_lt value.bound
  rw [JsNumber.ofBits]
  split
  · rename_i nan
    rw [same] at nan
    have bits := value.canonical nan
    cases value
    simp only at bits
    subst bits
    rfl
  · cases value
    simp only [JsNumber.mk.injEq]
    exact same

mutual

@[grind =] def received : RpcValue → DecodedValue
  | .undefined => ⟨.null, true⟩
  | .null => ⟨.null, true⟩
  | .boolean value => ⟨.boolean value, true⟩
  | .number value => ⟨.number value, true⟩
  | .string text => ⟨.string (dropMark text), true⟩
  | .array items => ⟨.array (receivedItems items), true⟩
  | .object entries =>
    ⟨.object (receivedEntries entries ⟨[], true⟩).entries,
      (receivedEntries entries ⟨[], true⟩).protoAccessor⟩

def receivedItems : List RpcValue → List RpcValue
  | [] => []
  | item :: items => (received item).value :: receivedItems items

def receivedEntries : RpcEntries → ObjectState → ObjectState
  | [], state => state
  | (key, value) :: entries, state =>
    if value.isUndefined then receivedEntries entries state
    else receivedEntries entries (assign state (dropMark key) (received value))

end

theorem writeValue_ne_nil (value : RpcValue) : writeValue value ≠ [] := by
  cases value with
  | boolean value => cases value <;> simp [writeValue]
  | _ => simp [writeValue]

theorem writeValue_length_pos (value : RpcValue) : 0 < (writeValue value).length :=
  List.length_pos_of_ne_nil (writeValue_ne_nil value)

theorem length_le_writeItems (items : List RpcValue) : items.length ≤ (writeItems items).length := by
  induction items with
  | nil => exact Nat.le_refl _
  | cons item items ih =>
    have positive := writeValue_length_pos item
    rw [writeItems, List.length_append, List.length_cons]
    omega

theorem definedEntries_cons (key : List Char) (value : RpcValue) (entries : RpcEntries) :
    definedEntries ((key, value) :: entries) =
      if value.isUndefined then definedEntries entries
      else (key, value) :: definedEntries entries := by
  cases undefined : value.isUndefined <;> simp [definedEntries, undefined]

theorem length_le_writeEntries (entries : RpcEntries) :
    (definedEntries entries).length ≤ (writeEntries entries).length := by
  induction entries with
  | nil => exact Nat.le_refl _
  | cons entry entries ih =>
    obtain ⟨key, value⟩ := entry
    have positive := writeValue_length_pos value
    rw [definedEntries_cons, writeEntries]
    split
    · exact ih
    · simp only [List.length_append, List.length_cons]
      omega

theorem readValue_number (fuel : Nat) (rest : List UInt8) :
    readValue (fuel + 1) (TAG_NUMBER :: rest) =
      (readBytes 8 rest >>= fun read =>
        .ok (⟨.number (JsNumber.ofBits (ofBigEndian read.1)), true⟩, read.2)) := rfl

theorem readValue_string (fuel : Nat) (rest : List UInt8) :
    readValue (fuel + 1) (TAG_STRING :: rest) =
      (readText rest >>= fun read => .ok (⟨.string read.1, true⟩, read.2)) := rfl

theorem readValue_array (fuel : Nat) (rest : List UInt8) :
    readValue (fuel + 1) (TAG_ARRAY :: rest) =
      (readVarUint rest >>= fun length =>
        readItems (readValue fuel) length.1 length.2 >>= fun read =>
          .ok (⟨.array read.1, true⟩, read.2)) := rfl

theorem readValue_object (fuel : Nat) (rest : List UInt8) :
    readValue (fuel + 1) (TAG_OBJECT :: rest) =
      (readVarUint rest >>= fun length =>
        readEntries (readValue fuel) length.1 ⟨[], true⟩ length.2 >>= fun read =>
          .ok (⟨.object read.1.entries, read.1.protoAccessor⟩, read.2)) := rfl

mutual

theorem readValue_writeValue : ∀ (value : RpcValue) {fuel : Nat} (rest : List UInt8),
    (writeValue value).length ≤ fuel → (writeValue value).length < 2 ^ 32 →
    readValue fuel (writeValue value ++ rest) = .ok (received value, rest)
  | value, 0, rest, enough, _ => by
      have positive := writeValue_length_pos value
      omega
  | .undefined, _ + 1, _, _, _ => rfl
  | .null, _ + 1, _, _, _ => rfl
  | .boolean false, _ + 1, _, _, _ => rfl
  | .boolean true, _ + 1, _, _, _ => rfl
  | .number value, fuel + 1, rest, _, _ => by
      have exact : ofBigEndian (bigEndian 8 value.bits) = value.bits :=
        ofBigEndian_bigEndian value.bound
      rw [writeValue, List.cons_append, readValue_number, readBytes_append (bigEndian_length _ _),
        ok_bind, exact, ofBits_bits, received]
  | .string text, fuel + 1, rest, _, small => by
      rw [writeValue] at small
      simp only [List.length_cons, writeText, List.length_append] at small
      rw [writeValue, List.cons_append, readValue_string, readText_writeText (by omega), ok_bind,
        received]
  | .array items, fuel + 1, rest, enough, small => by
      have count := length_le_writeItems items
      rw [writeValue] at enough small
      simp only [List.length_cons, List.length_append] at enough small
      rw [writeValue, List.cons_append, List.append_assoc, readValue_array,
        readVarUint_writeVarUint (by omega), ok_bind,
        readItems_writeItems items rest (by omega) (by omega), ok_bind, received]
  | .object entries, fuel + 1, rest, enough, small => by
      have count := length_le_writeEntries entries
      rw [writeValue] at enough small
      simp only [List.length_cons, List.length_append] at enough small
      rw [writeValue, List.cons_append, List.append_assoc, readValue_object,
        readVarUint_writeVarUint (by omega), ok_bind,
        readEntries_writeEntries entries _ rest (by omega) (by omega), ok_bind, received]

theorem readItems_writeItems : ∀ (items : List RpcValue) {fuel : Nat} (rest : List UInt8),
    (writeItems items).length ≤ fuel → (writeItems items).length < 2 ^ 32 →
    readItems (readValue fuel) items.length (writeItems items ++ rest) =
      .ok (receivedItems items, rest)
  | [], _, _, _, _ => rfl
  | item :: items, fuel, rest, enough, small => by
      rw [writeItems, List.length_append] at enough small
      rw [writeItems, List.append_assoc, List.length_cons, readItems, reader_bind,
        readValue_writeValue item _ (by omega) (by omega), ok_bind, reader_bind,
        readItems_writeItems items rest (by omega) (by omega), ok_bind, receivedItems]
      rfl

theorem readEntries_writeEntries : ∀ (entries : RpcEntries) (state : ObjectState) {fuel : Nat}
    (rest : List UInt8),
    (writeEntries entries).length ≤ fuel → (writeEntries entries).length < 2 ^ 32 →
    readEntries (readValue fuel) (definedEntries entries).length state
        (writeEntries entries ++ rest) = .ok (receivedEntries entries state, rest)
  | [], _, _, _, _, _ => rfl
  | (key, value) :: entries, state, fuel, rest, enough, small => by
      rw [writeEntries] at enough small ⊢
      rw [definedEntries_cons, receivedEntries]
      by_cases undefined : value.isUndefined = true
      · rw [if_pos undefined] at enough small
        rw [if_pos undefined, if_pos undefined, if_pos undefined]
        exact readEntries_writeEntries entries state rest enough small
      · rw [if_neg undefined] at enough small
        simp only [List.length_append, writeText] at enough small
        rw [if_neg undefined, if_neg undefined, if_neg undefined, List.append_assoc,
          List.append_assoc, List.length_cons, readEntries, reader_bind,
          readText_writeText (by omega), ok_bind, reader_bind,
          readValue_writeValue value _ (by omega) (by omega), ok_bind]
        exact readEntries_writeEntries entries _ rest (by omega) (by omega)

end

section Fuel

def Decides {α : Type} (limit : Nat) (reader : Reader α) : Prop :=
  ∀ bytes, bytes.length < limit → reader bytes ≠ .error .outOfFuel ∧
    ∀ value rest, reader bytes = .ok (value, rest) → rest.length ≤ bytes.length

variable {limit : Nat}

theorem decides_bind {α β : Type} {first : Reader α} {next : α → Reader β}
    (firstDecides : Decides limit first) (nextDecides : ∀ value, Decides limit (next value)) :
    Decides limit (first >>= next) := by
  intro bytes bound
  rw [reader_bind]
  have facts := firstDecides bytes bound
  cases read : first bytes with
  | error error =>
    rw [read] at facts
    rw [error_bind]
    exact ⟨by simpa using facts.1, by simp⟩
  | ok pair =>
    have shorter := facts.2 pair.1 pair.2 read
    have later := nextDecides pair.1 pair.2 (by omega)
    refine ⟨later.1, ?_⟩
    intro value rest result
    exact Nat.le_trans (later.2 value rest result) shorter

theorem decides_pure {α : Type} (value : α) : Decides limit (pure value : Reader α) := by
  intro bytes _
  refine ⟨by simp, ?_⟩
  intro result rest read
  simp only [reader_pure, Except.ok.injEq, Prod.mk.injEq] at read
  rw [read.2]

theorem decides_thrown {α : Type} (message : String) :
    Decides limit (fun _ => .error (.thrown message) : Reader α) := by
  intro bytes _
  exact ⟨by simp, by simp⟩

theorem decides_readByte : Decides limit readByte := by
  intro bytes _
  cases bytes with
  | nil => exact ⟨by simp [readByte], by simp [readByte]⟩
  | cons byte rest =>
    refine ⟨by simp, ?_⟩
    intro value after read
    simp only [readByte_cons, Except.ok.injEq, Prod.mk.injEq] at read
    rw [← read.2, List.length_cons]
    exact Nat.le_succ _

theorem decides_readBytes (length : Nat) : Decides limit (readBytes length) := by
  intro bytes _
  rw [readBytes]
  split
  · exact ⟨by simp, by simp⟩
  · refine ⟨by simp, ?_⟩
    intro value rest read
    simp only [Except.ok.injEq, Prod.mk.injEq] at read
    rw [← read.2, List.length_drop]
    exact Nat.sub_le _ _

theorem decides_readVarUint : Decides limit readVarUint := by
  have loop : ∀ groups shift result, Decides limit (readVarUintLoop groups shift result) := by
    intro groups
    induction groups with
    | zero => exact fun _ _ => decides_thrown _
    | succ groups ih =>
      intro shift result
      refine decides_bind decides_readByte ?_
      intro byte
      simp only
      split
      · exact decides_pure _
      · exact ih _ _
  exact loop 5 0 0

theorem decides_readText : Decides limit readText :=
  decides_bind decides_readVarUint fun length =>
    decides_bind (decides_readBytes length) fun _ => decides_pure _

theorem decides_readItems {read : Reader DecodedValue} (readDecides : Decides limit read)
    (count : Nat) : Decides limit (readItems read count) := by
  induction count with
  | zero => exact decides_pure _
  | succ count ih =>
    exact decides_bind readDecides fun _ => decides_bind ih fun _ => decides_pure _

theorem decides_readEntries {read : Reader DecodedValue} (readDecides : Decides limit read)
    (count : Nat) (state : ObjectState) : Decides limit (readEntries read count state) := by
  induction count generalizing state with
  | zero => exact decides_pure _
  | succ count ih =>
    exact decides_bind decides_readText fun _ => decides_bind readDecides fun _ => ih _

theorem decides_readValue (fuel : Nat) : Decides fuel (readValue fuel) := by
  induction fuel with
  | zero =>
    intro bytes bound
    omega
  | succ fuel ih =>
    intro bytes bound
    cases bytes with
    | nil => exact ⟨by simp [readValue, readByte], by simp [readValue, readByte]⟩
    | cons tag rest =>
      have afterTag : ∀ reader : Reader DecodedValue, Decides fuel reader →
          reader rest ≠ .error .outOfFuel ∧ ∀ value after,
            reader rest = .ok (value, after) → after.length ≤ (tag :: rest).length := by
        intro reader decides
        have facts := decides rest (by simpa using bound)
        refine ⟨facts.1, ?_⟩
        intro value after read
        exact Nat.le_trans (facts.2 value after read) (Nat.le_succ _)
      rw [readValue, reader_bind, readByte_cons, ok_bind]
      apply afterTag
      simp only
      repeat' split
      · exact decides_pure _
      · exact decides_pure _
      · exact decides_pure _
      · exact decides_bind (decides_readBytes 8) fun _ => decides_pure _
      · exact decides_bind decides_readText fun _ => decides_pure _
      · exact decides_bind decides_readVarUint fun length =>
          decides_bind (decides_readItems ih length) fun _ => decides_pure _
      · exact decides_bind decides_readVarUint fun length =>
          decides_bind (decides_readEntries ih length _) fun _ => decides_pure _
      · exact decides_thrown _

theorem readBody_ne_outOfFuel (body : List UInt8) : readBody body ≠ .error .outOfFuel := by
  have facts := decides_readValue (body.length + 1) body (Nat.lt_succ_self _)
  rw [readBody]
  cases read : readValue (body.length + 1) body with
  | error error =>
    rw [read] at facts
    simpa using facts.1
  | ok pair =>
    simp only [ok_bind, assertDone]
    split <;> simp

end Fuel

end Metidos.Rpc
