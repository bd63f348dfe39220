import Mathlib.Algebra.Ring.Nat
import Metidos.Library.Utf8
import Metidos.Library.Bytes
import Metidos.Library.OrderedMap

/-!
Executable model of `src/shared/rpc-binary-codec.ts`.  A byte array is the list of its bytes, a
text the list of its Unicode scalar values, and a writer what it has written.  The proofs live
in `CodecRead`, `CodecRoundTrip`.
-/

namespace Metidos.Rpc

open Bytes Utf8

def MAGIC : Nat := 0x4d52
def VERSION : Nat := 1
def FLAG_COMPRESSED : Nat := 1
def COMPRESS_THRESHOLD_BYTES : Nat := 16 * 1024

def TAG_NULL : UInt8 := 0x00
def TAG_FALSE : UInt8 := 0x01
def TAG_TRUE : UInt8 := 0x02
def TAG_NUMBER : UInt8 := 0x03
def TAG_STRING : UInt8 := 0x04
def TAG_ARRAY : UInt8 := 0x05
def TAG_OBJECT : UInt8 := 0x06

def isNaNBits (bits : Nat) : Bool := bits / 2 ^ 52 % 2 ^ 11 == 2047 && bits % 2 ^ 52 != 0

def canonicalNaN : Nat := 0x7FF8000000000000

/-- A number of the language by its IEEE 754 bits; the language has one NaN. -/
structure JsNumber where
  bits : Nat
  bound : bits < 2 ^ 64
  canonical : isNaNBits bits = true → bits = canonicalNaN
  deriving DecidableEq

def JsNumber.nan : JsNumber := ⟨canonicalNaN, by decide, fun _ => rfl⟩

def JsNumber.ofBits (bits : Nat) : JsNumber :=
  if nan : isNaNBits (bits % 2 ^ 64) = true then JsNumber.nan
  else ⟨bits % 2 ^ 64, Nat.mod_lt _ (by decide), fun isNaN => absurd isNaN nan⟩

/-- `BinaryRpcValue | undefined`.  An object lists its own properties in enumeration order. -/
inductive RpcValue
  | undefined
  | null
  | boolean (value : Bool)
  | number (value : JsNumber)
  | string (text : List Char)
  | array (items : List RpcValue)
  | object (entries : List (List Char × RpcValue))

abbrev RpcEntries := List (List Char × RpcValue)

def RpcValue.isUndefined : RpcValue → Bool
  | undefined => true
  | _ => false

def writeUint16 (value : Nat) : List UInt8 := bigEndian 2 value

def writeUint32 (value : Nat) : List UInt8 := bigEndian 4 value

def writeVarUint (value : Nat) : List UInt8 := varUint 4 (value % 2 ^ 32)

def writeText (text : List Char) : List UInt8 :=
  writeVarUint (encode text).length ++ encode text

def definedEntries (entries : RpcEntries) : RpcEntries :=
  entries.filter fun entry => !entry.2.isUndefined

mutual

@[grind =] def writeValue : RpcValue → List UInt8
  | .undefined => [TAG_NULL]
  | .null => [TAG_NULL]
  | .boolean false => [TAG_FALSE]
  | .boolean true => [TAG_TRUE]
  | .number value => TAG_NUMBER :: bigEndian 8 value.bits
  | .string text => TAG_STRING :: writeText text
  | .array items => TAG_ARRAY :: (writeVarUint items.length ++ writeItems items)
  | .object entries =>
    TAG_OBJECT :: (writeVarUint (definedEntries entries).length ++ writeEntries entries)

def writeItems : List RpcValue → List UInt8
  | [] => []
  | item :: items => writeValue item ++ writeItems items

def writeEntries : RpcEntries → List UInt8
  | [] => []
  | (key, value) :: entries =>
    if value.isUndefined then writeEntries entries
    else writeText key ++ (writeValue value ++ writeEntries entries)

end

inductive FrameError
  | thrown (message : String)
  | outOfFuel
  deriving DecidableEq

abbrev Reader := StateT (List UInt8) (Except FrameError)

def readByte : Reader UInt8 := fun bytes =>
  match bytes with
  | [] => .error (.thrown "Unexpected end of RPC binary frame.")
  | byte :: rest => .ok (byte, rest)

def readUint16 : Reader Nat := do
  let high ← readByte
  let low ← readByte
  return ofBigEndian [high, low]

def readUint32 : Reader Nat := do
  let first ← readByte
  let second ← readByte
  let third ← readByte
  let fourth ← readByte
  return ofBigEndian [first, second, third, fourth]

/-- The groups do not overlap, so `|=` adds; `>>> 0` keeps 32 bits. -/
def readVarUintLoop : Nat → Nat → Nat → Reader Nat
  | 0, _, _ => fun _ => .error (.thrown "RPC binary varint is too large.")
  | groups + 1, shift, result => do
      let byte ← readByte
      let result := result + byte.toNat % 128 * 2 ^ shift
      if byte.toNat < 128 then return result % 2 ^ 32
      else readVarUintLoop groups (shift + 7) result

def readVarUint : Reader Nat := readVarUintLoop 5 0 0

def readBytes (length : Nat) : Reader (List UInt8) := fun bytes =>
  if bytes.length < length then .error (.thrown "Unexpected end of RPC binary byte range.")
  else .ok (bytes.take length, bytes.drop length)

def assertDone : Reader Unit := fun bytes =>
  if bytes = [] then .ok ((), bytes) else .error (.thrown "RPC binary frame has trailing bytes.")

def readText : Reader (List Char) := do
  let length ← readVarUint
  let bytes ← readBytes length
  return decode bytes

def protoKey : List Char := "__proto__".toList

/-- An object under construction: its own properties, and whether a property assignment to
`__proto__` still reaches the accessor of the default prototype. -/
structure ObjectState where
  entries : RpcEntries
  protoAccessor : Bool

structure DecodedValue where
  value : RpcValue
  protoAccessor : Bool

/-- `value[key] = decoded`.  Through the accessor, null or an object becomes the prototype and
any other value is ignored; no own property arises. -/
def assign (state : ObjectState) (key : List Char) (decoded : DecodedValue) : ObjectState :=
  if key = protoKey ∧ state.protoAccessor = true then
    match decoded.value with
    | .null => { state with protoAccessor := false }
    | .array _ | .object _ => { state with protoAccessor := decoded.protoAccessor }
    | _ => state
  else { state with entries := OrderedMap.replace key decoded.value state.entries }

def readItems (read : Reader DecodedValue) : Nat → Reader (List RpcValue)
  | 0 => return []
  | count + 1 => do
      let item ← read
      let items ← readItems read count
      return item.value :: items

def readEntries (read : Reader DecodedValue) : Nat → ObjectState → Reader ObjectState
  | 0, state => return state
  | count + 1, state => do
      let key ← readText
      let decoded ← read
      readEntries read count (assign state key decoded)

def readValue : Nat → Reader DecodedValue
  | 0 => fun _ => .error .outOfFuel
  | fuel + 1 => do
      let tag ← readByte
      if tag = TAG_NULL then return ⟨.null, true⟩
      else if tag = TAG_FALSE then return ⟨.boolean false, true⟩
      else if tag = TAG_TRUE then return ⟨.boolean true, true⟩
      else if tag = TAG_NUMBER then do
        let bytes ← readBytes 8
        return ⟨.number (JsNumber.ofBits (ofBigEndian bytes)), true⟩
      else if tag = TAG_STRING then do
        let text ← readText
        return ⟨.string text, true⟩
      else if tag = TAG_ARRAY then do
        let length ← readVarUint
        let items ← readItems (readValue fuel) length
        return ⟨.array items, true⟩
      else if tag = TAG_OBJECT then do
        let length ← readVarUint
        let state ← readEntries (readValue fuel) length ⟨[], true⟩
        return ⟨.object state.entries, state.protoAccessor⟩
      else fun _ => .error (.thrown s!"Unsupported RPC binary value tag: {tag}")

structure RpcBinaryEncodeOptions where
  compress : Option Bool := none

structure RpcBinaryDecodeOptions where
  allowCompressed : Option Bool := none
  maxDecodedBodyBytes : Option Nat := none

section Frames

variable (gzipBytes : List UInt8 → List UInt8)
  (gunzipBytes : List UInt8 → Except FrameError (List UInt8))

def frame (flags : Nat) (body : List UInt8) : List UInt8 :=
  writeUint16 MAGIC ++ byte VERSION :: byte flags :: (writeUint32 body.length ++ body)

def encodeRpcBinaryFrame (value : RpcValue) (options : RpcBinaryEncodeOptions) : List UInt8 :=
  let body := writeValue value
  if options.compress ≠ some false ∧ COMPRESS_THRESHOLD_BYTES ≤ body.length then
    let compressedBody := gzipBytes body
    if compressedBody.length < body.length then frame FLAG_COMPRESSED compressedBody
    else frame 0 body
  else frame 0 body

def readFrame : Reader (Nat × List UInt8) := do
  let magic ← readUint16
  if magic ≠ MAGIC then fun _ => .error (.thrown "Invalid RPC binary frame magic.")
  else
    let version ← readByte
    if version.toNat ≠ VERSION then
      fun _ => .error (.thrown "Unsupported RPC binary frame version.")
    else
      let flags ← readByte
      if flags.toNat ≠ 0 ∧ flags.toNat ≠ FLAG_COMPRESSED then
        fun _ => .error (.thrown "Unsupported RPC binary frame flags.")
      else
        let length ← readUint32
        let body ← readBytes length
        assertDone
        return (flags.toNat, body)

def checkBodyLimit (options : RpcBinaryDecodeOptions) (body : List UInt8) : Except FrameError Unit :=
  match options.maxDecodedBodyBytes with
  | some limit =>
    if limit < body.length then
      .error (.thrown "RPC binary frame exceeds decoded byte limit.")
    else .ok ()
  | none => .ok ()

def readBody (body : List UInt8) : Except FrameError RpcValue := do
  let (decoded, rest) ← readValue (body.length + 1) body
  let _ ← assertDone rest
  return decoded.value

def decodeRpcBinaryFrame (bytes : List UInt8) (options : RpcBinaryDecodeOptions) :
    Except FrameError RpcValue := do
  let ((flags, body), _) ← readFrame bytes
  checkBodyLimit options body
  if flags = FLAG_COMPRESSED then
    if options.allowCompressed = some false then
      .error (.thrown "Compressed RPC binary frames are not accepted.")
    else do
      let body ← gunzipBytes body
      checkBodyLimit options body
      readBody body
  else readBody body

end Frames

end Metidos.Rpc
