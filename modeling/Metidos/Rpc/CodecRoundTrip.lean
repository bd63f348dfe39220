import Metidos.Rpc.CodecRead

/-!
When decoding an encoded value gives the value back: a leading byte order mark of a text and an
own property named `__proto__` are what a frame loses.
-/

namespace Metidos.Rpc

open Bytes Utf8 ExceptRules

mutual

@[grind =] def normalize : RpcValue → RpcValue
  | .undefined => .null
  | .null => .null
  | .boolean value => .boolean value
  | .number value => .number value
  | .string text => .string text
  | .array items => .array (normalizeItems items)
  | .object entries => .object (normalizeEntries entries)

def normalizeItems : List RpcValue → List RpcValue
  | [] => []
  | item :: items => normalize item :: normalizeItems items

def normalizeEntries : RpcEntries → RpcEntries
  | [] => []
  | (key, value) :: entries =>
    if value.isUndefined then normalizeEntries entries
    else (key, normalize value) :: normalizeEntries entries

end

mutual

def DeepEqual : RpcValue → RpcValue → Prop
  | .undefined, .undefined => True
  | .null, .null => True
  | .boolean first, .boolean second => first = second
  | .number first, .number second => first = second
  | .string first, .string second => first = second
  | .array first, .array second => DeepEqualItems first second
  | .object first, .object second => ∃ ordered, ordered.Perm second ∧ DeepEqualEntries first ordered
  | _, _ => False

def DeepEqualItems : List RpcValue → List RpcValue → Prop
  | [], [] => True
  | first :: firsts, second :: seconds => DeepEqual first second ∧ DeepEqualItems firsts seconds
  | _, _ => False

def DeepEqualEntries : RpcEntries → RpcEntries → Prop
  | [], [] => True
  | (key, value) :: firsts, second :: seconds =>
    key = second.1 ∧ DeepEqual value second.2 ∧ DeepEqualEntries firsts seconds
  | _, _ => False

end

def unmarked (text : List Char) : Bool := text.head? != some byteOrderMark

mutual

/-- No text and no key of a defined property starts with a byte order mark, and no defined
property is named `__proto__`. -/
def survives : RpcValue → Bool
  | .undefined => true
  | .null => true
  | .boolean _ => true
  | .number _ => true
  | .string text => unmarked text
  | .array items => survivesItems items
  | .object entries => survivesEntries entries

def survivesItems : List RpcValue → Bool
  | [] => true
  | item :: items => survives item && survivesItems items

def survivesEntries : RpcEntries → Bool
  | [] => true
  | (key, value) :: entries =>
    (value.isUndefined || (unmarked key && key != protoKey && survives value)) &&
      survivesEntries entries

end

mutual

def DistinctKeys : RpcValue → Prop
  | .array items => DistinctKeysItems items
  | .object entries => (entries.map Prod.fst).Nodup ∧ DistinctKeysEntries entries
  | _ => True

def DistinctKeysItems : List RpcValue → Prop
  | [] => True
  | item :: items => DistinctKeys item ∧ DistinctKeysItems items

def DistinctKeysEntries : RpcEntries → Prop
  | [] => True
  | entry :: entries => DistinctKeys entry.2 ∧ DistinctKeysEntries entries

end

/-- A value the encoder may be given: object keys are distinct, as they are in the language. -/
structure PlainValue where
  value : RpcValue
  distinct : DistinctKeys value

theorem dropMark_of_unmarked {text : List Char} (plain : unmarked text = true) : dropMark text = text := by
  rw [dropMark_eq_self_iff]
  simpa [unmarked] using plain

theorem dropMark_length_lt_of_marked {text : List Char} (marked : unmarked text = false) :
    (dropMark text).length < text.length := by
  apply dropMark_length_lt
  simpa [unmarked] using marked

theorem replace_of_absent {key : List Char} {value : RpcValue} {entries : RpcEntries}
    (absent : key ∉ entries.map Prod.fst) :
    OrderedMap.replace key value entries = entries ++ [(key, value)] := by
  induction entries with
  | nil => rfl
  | cons entry entries ih =>
    obtain ⟨other, old⟩ := entry
    rw [List.map_cons, List.mem_cons, not_or] at absent
    rw [OrderedMap.replace, if_neg (Ne.symm absent.1), ih absent.2, List.cons_append]

theorem assign_fresh {state : ObjectState} {key : List Char} {decoded : DecodedValue}
    (ordinary : key ≠ protoKey) (absent : key ∉ state.entries.map Prod.fst) :
    assign state key decoded =
      { state with entries := state.entries ++ [(key, decoded.value)] } := by
  rw [assign, if_neg (fun both => ordinary both.1), replace_of_absent absent]

mutual

theorem received_of_survives : ∀ value : RpcValue, DistinctKeys value → survives value = true →
    (received value).value = normalize value
  | .undefined, _, _ => rfl
  | .null, _, _ => rfl
  | .boolean _, _, _ => rfl
  | .number _, _, _ => rfl
  | .string text, _, safe => by
      rw [received, normalize, dropMark_of_unmarked safe]
  | .array items, distinct, safe => by
      rw [received, normalize, receivedItems_of_survives items distinct safe]
  | .object entries, distinct, safe => by
      rw [received, normalize, receivedEntries_of_survives entries ⟨[], true⟩ distinct.2 safe
        distinct.1 (by simp)]
      rfl

theorem receivedItems_of_survives : ∀ items : List RpcValue, DistinctKeysItems items →
    survivesItems items = true → receivedItems items = normalizeItems items
  | [], _, _ => rfl
  | item :: items, distinct, safe => by
      rw [survivesItems, Bool.and_eq_true] at safe
      rw [receivedItems, normalizeItems, received_of_survives item distinct.1 safe.1,
        receivedItems_of_survives items distinct.2 safe.2]

theorem receivedEntries_of_survives : ∀ (entries : RpcEntries) (state : ObjectState),
    DistinctKeysEntries entries → survivesEntries entries = true →
    (entries.map Prod.fst).Nodup →
    (∀ key ∈ entries.map Prod.fst, key ∉ state.entries.map Prod.fst) →
    receivedEntries entries state =
      { state with entries := state.entries ++ normalizeEntries entries }
  | [], state, _, _, _, _ => by simp [receivedEntries, normalizeEntries]
  | (key, value) :: entries, state, distinct, safe, names, absent => by
      rw [survivesEntries, Bool.and_eq_true] at safe
      rw [List.map_cons, List.nodup_cons] at names
      rw [List.map_cons] at absent
      rw [receivedEntries, normalizeEntries]
      by_cases undefined : value.isUndefined = true
      · rw [if_pos undefined, if_pos undefined]
        exact receivedEntries_of_survives entries state distinct.2 safe.2 names.2
          fun other member => absent other (List.mem_cons_of_mem _ member)
      · have here := safe.1
        simp only [undefined, Bool.false_or, Bool.and_eq_true, bne_iff_ne, ne_eq] at here
        rw [if_neg undefined, if_neg undefined, dropMark_of_unmarked here.1.1,
          assign_fresh here.1.2 (absent key (by simp)),
          receivedEntries_of_survives entries _ distinct.2 safe.2 names.2 (by
            intro other member inside
            simp only [List.map_append, List.map_cons, List.map_nil, List.mem_append,
              List.mem_singleton] at inside
            rcases inside with earlier | same
            · exact absent other (List.mem_cons_of_mem _ member) earlier
            · exact names.1 (same ▸ member)),
          received_of_survives value distinct.1 here.2]
        simp

end

mutual

theorem deepEqual_refl : ∀ value : RpcValue, DeepEqual value value
  | .undefined => trivial
  | .null => trivial
  | .boolean _ => rfl
  | .number _ => rfl
  | .string _ => rfl
  | .array items => deepEqualItems_refl items
  | .object entries => ⟨entries, List.Perm.refl _, deepEqualEntries_refl entries⟩

theorem deepEqualItems_refl : ∀ items : List RpcValue, DeepEqualItems items items
  | [] => trivial
  | item :: items => ⟨deepEqual_refl item, deepEqualItems_refl items⟩

theorem deepEqualEntries_refl : ∀ entries : RpcEntries, DeepEqualEntries entries entries
  | [] => trivial
  | (_, value) :: entries => ⟨rfl, deepEqual_refl value, deepEqualEntries_refl entries⟩

end

section Weight

mutual

@[grind =] def weight : RpcValue → Nat
  | .undefined => 1
  | .null => 1
  | .boolean _ => 1
  | .number _ => 1
  | .string text => text.length + 1
  | .array items => weightItems items + 1
  | .object entries => weightEntries entries + 1

def weightItems : List RpcValue → Nat
  | [] => 0
  | item :: items => weight item + weightItems items

@[grind =] def weightEntries : RpcEntries → Nat
  | [] => 0
  | (key, value) :: entries =>
    (if value.isUndefined then 0 else key.length + weight value + 1) + weightEntries entries

end

theorem weightEntries_eq_sum (entries : RpcEntries) :
    weightEntries entries = (entries.map fun entry =>
      if entry.2.isUndefined then 0 else entry.1.length + weight entry.2 + 1).sum := by
  induction entries with
  | nil => rfl
  | cons entry entries ih =>
    obtain ⟨key, value⟩ := entry
    rw [weightEntries, ih, List.map_cons, List.sum_cons]

theorem weightEntries_perm {first second : RpcEntries} (same : first.Perm second) :
    weightEntries first = weightEntries second := by
  rw [weightEntries_eq_sum, weightEntries_eq_sum]
  exact (same.map _).sum_nat

theorem deepEqual_isUndefined {first second : RpcValue} (same : DeepEqual first second) :
    first.isUndefined = second.isUndefined := by
  cases first <;> cases second <;> simp_all [DeepEqual, RpcValue.isUndefined]

mutual

theorem deepEqual_weight : ∀ first second : RpcValue, DeepEqual first second →
    weight first = weight second
  | .undefined, second, same => by cases second <;> simp_all [DeepEqual, weight]
  | .null, second, same => by cases second <;> simp_all [DeepEqual, weight]
  | .boolean _, second, same => by cases second <;> simp_all [DeepEqual, weight]
  | .number _, second, same => by cases second <;> simp_all [DeepEqual, weight]
  | .string _, second, same => by cases second <;> simp_all [DeepEqual, weight]
  | .array items, second, same => by
      cases second with
      | array others => rw [weight, weight, deepEqualItems_weight items others same]
      | _ => simp [DeepEqual] at same
  | .object entries, second, same => by
      cases second with
      | object others =>
        obtain ⟨ordered, shuffled, pairs⟩ := same
        rw [weight, weight, deepEqualEntries_weight entries ordered pairs,
          weightEntries_perm shuffled]
      | _ => simp [DeepEqual] at same

theorem deepEqualItems_weight : ∀ first second : List RpcValue, DeepEqualItems first second →
    weightItems first = weightItems second
  | [], [], _ => rfl
  | [], _ :: _, same => by simp [DeepEqualItems] at same
  | _ :: _, [], same => by simp [DeepEqualItems] at same
  | item :: items, other :: others, same => by
      rw [weightItems, weightItems, deepEqual_weight item other same.1,
        deepEqualItems_weight items others same.2]

theorem deepEqualEntries_weight : ∀ first second : RpcEntries, DeepEqualEntries first second →
    weightEntries first = weightEntries second
  | [], [], _ => rfl
  | [], _ :: _, same => by simp [DeepEqualEntries] at same
  | _ :: _, [], same => by simp [DeepEqualEntries] at same
  | (key, value) :: entries, (other, otherValue) :: others, same => by
      rw [weightEntries, weightEntries, deepEqualEntries_weight entries others same.2.2,
        deepEqual_isUndefined same.2.1, deepEqual_weight value otherValue same.2.1, same.1]

end

theorem normalize_isUndefined (value : RpcValue) : (normalize value).isUndefined = false := by
  cases value <;> simp [normalize, RpcValue.isUndefined]

mutual

theorem weight_normalize : ∀ value : RpcValue, weight (normalize value) = weight value
  | .undefined => rfl
  | .null => rfl
  | .boolean _ => rfl
  | .number _ => rfl
  | .string _ => rfl
  | .array items => by rw [normalize, weight, weight, weightItems_normalize items]
  | .object entries => by rw [normalize, weight, weight, weightEntries_normalize entries]

theorem weightItems_normalize : ∀ items : List RpcValue,
    weightItems (normalizeItems items) = weightItems items
  | [] => rfl
  | item :: items => by
      rw [normalizeItems, weightItems, weightItems, weight_normalize item,
        weightItems_normalize items]

theorem weightEntries_normalize : ∀ entries : RpcEntries,
    weightEntries (normalizeEntries entries) = weightEntries entries
  | [] => rfl
  | (key, value) :: entries => by
      rw [normalizeEntries, weightEntries]
      by_cases undefined : value.isUndefined = true
      · rw [if_pos undefined, if_pos undefined, weightEntries_normalize entries, Nat.zero_add]
      · rw [if_neg undefined, if_neg undefined, weightEntries, normalize_isUndefined,
          weight_normalize value, weightEntries_normalize entries]
        rfl

end

theorem weightEntries_replace (key : List Char) (value : RpcValue) (entries : RpcEntries) :
    weightEntries (OrderedMap.replace key value entries) ≤
      weightEntries entries + (key.length + weight value + 1) := by
  induction entries with
  | nil =>
    simp only [OrderedMap.replace, weightEntries]
    split <;> omega
  | cons entry entries ih =>
    obtain ⟨other, old⟩ := entry
    rw [OrderedMap.replace]
    split
    · rename_i same
      subst same
      rw [weightEntries, weightEntries]
      split <;> omega
    · rw [weightEntries, weightEntries]
      omega

theorem weight_assign (state : ObjectState) (key : List Char) (decoded : DecodedValue) :
    weightEntries (assign state key decoded).entries ≤
      weightEntries state.entries + (key.length + weight decoded.value + 1) := by
  rw [assign]
  split
  · split <;> simp
  · exact weightEntries_replace key decoded.value state.entries

theorem weight_assign_proto (state : ObjectState) (decoded : DecodedValue)
    (accessor : state.protoAccessor = true) :
    (assign state protoKey decoded).entries = state.entries := by
  rw [assign, if_pos ⟨rfl, accessor⟩]
  split <;> rfl

theorem assign_protoAccessor {state : ObjectState} {key : List Char} {decoded : DecodedValue}
    (ordinary : key ≠ protoKey) : (assign state key decoded).protoAccessor = state.protoAccessor := by
  rw [assign, if_neg (fun both => ordinary both.1)]

mutual

theorem weight_received : ∀ value : RpcValue, weight (received value).value ≤ weight value
  | .undefined => Nat.le_refl _
  | .null => Nat.le_refl _
  | .boolean _ => Nat.le_refl _
  | .number _ => Nat.le_refl _
  | .string text => Nat.succ_le_succ (dropMark_length_le text)
  | .array items => Nat.succ_le_succ (weightItems_received items)
  | .object entries => by
      have bound := weightEntries_received entries ⟨[], true⟩
      rw [received, weight, weight]
      simp only [weightEntries] at bound
      omega

theorem weightItems_received : ∀ items : List RpcValue,
    weightItems (receivedItems items) ≤ weightItems items
  | [] => Nat.le_refl _
  | item :: items => by
      rw [receivedItems, weightItems, weightItems]
      exact Nat.add_le_add (weight_received item) (weightItems_received items)

theorem weightEntries_received : ∀ (entries : RpcEntries) (state : ObjectState),
    weightEntries (receivedEntries entries state).entries ≤
      weightEntries state.entries + weightEntries entries
  | [], state => Nat.le_refl _
  | (key, value) :: entries, state => by
      rw [receivedEntries, weightEntries]
      by_cases undefined : value.isUndefined = true
      · rw [if_pos undefined, if_pos undefined, Nat.zero_add]
        exact weightEntries_received entries state
      · rw [if_neg undefined, if_neg undefined]
        have later := weightEntries_received entries (assign state (dropMark key) (received value))
        have here := weight_assign state (dropMark key) (received value)
        have keyBound := dropMark_length_le key
        have valueBound := weight_received value
        omega

end

mutual

theorem weight_received_lt : ∀ value : RpcValue, survives value = false →
    weight (received value).value < weight value
  | .undefined, lost => by simp [survives] at lost
  | .null, lost => by simp [survives] at lost
  | .boolean _, lost => by simp [survives] at lost
  | .number _, lost => by simp [survives] at lost
  | .string text, lost => Nat.succ_lt_succ (dropMark_length_lt_of_marked lost)
  | .array items, lost => Nat.succ_lt_succ (weightItems_received_lt items lost)
  | .object entries, lost => by
      have bound := weightEntries_received_lt entries ⟨[], true⟩ rfl lost
      rw [received, weight, weight]
      simp only [weightEntries] at bound
      omega

theorem weightItems_received_lt : ∀ items : List RpcValue, survivesItems items = false →
    weightItems (receivedItems items) < weightItems items
  | [], lost => by simp [survivesItems] at lost
  | item :: items, lost => by
      rw [receivedItems, weightItems, weightItems]
      have hereBound := weight_received item
      have laterBound := weightItems_received items
      rw [survivesItems, Bool.and_eq_false_iff] at lost
      rcases lost with here | later
      · have strict := weight_received_lt item here
        omega
      · have strict := weightItems_received_lt items later
        omega

theorem weightEntries_received_lt : ∀ (entries : RpcEntries) (state : ObjectState),
    state.protoAccessor = true → survivesEntries entries = false →
    weightEntries (receivedEntries entries state).entries <
      weightEntries state.entries + weightEntries entries
  | [], _, _, lost => by simp [survivesEntries] at lost
  | (key, value) :: entries, state, accessor, lost => by
      rw [survivesEntries] at lost
      rw [receivedEntries, weightEntries]
      by_cases undefined : value.isUndefined = true
      · rw [if_pos undefined, if_pos undefined, Nat.zero_add]
        simp only [undefined, Bool.true_or, Bool.true_and] at lost
        exact weightEntries_received_lt entries state accessor lost
      · rw [if_neg undefined, if_neg undefined]
        simp only [undefined, Bool.false_or, Bool.and_eq_false_iff] at lost
        have later := weightEntries_received entries (assign state (dropMark key) (received value))
        have here := weight_assign state (dropMark key) (received value)
        have keyBound := dropMark_length_le key
        have valueBound := weight_received value
        rcases lost with ((marked | proto) | valueLost) | laterLost
        · have strict := dropMark_length_lt_of_marked marked
          omega
        · have same : key = protoKey := by simpa using proto
          have plain : dropMark protoKey = protoKey := by decide
          subst same
          rw [plain, weight_assign_proto state (received value) accessor] at later
          rw [plain]
          omega
        · have strict := weight_received_lt value valueLost
          omega
        · by_cases proto : dropMark key = protoKey
          · rw [proto, weight_assign_proto state (received value) accessor] at later
            rw [proto]
            omega
          · have strict := weightEntries_received_lt entries
              (assign state (dropMark key) (received value))
              (by rw [assign_protoAccessor proto, accessor]) laterLost
            omega

end

end Weight

theorem received_iff (input : PlainValue) :
    DeepEqual (received input.value).value (normalize input.value) ↔
      survives input.value = true := by
  constructor
  · intro same
    have equal := deepEqual_weight _ _ same
    rw [weight_normalize] at equal
    cases safe : survives input.value with
    | true => rfl
    | false =>
      have strict := weight_received_lt input.value safe
      omega
  · intro safe
    rw [received_of_survives input.value input.distinct safe]
    exact deepEqual_refl _

section Frames

variable {gzipBytes : List UInt8 → List UInt8}
  {gunzipBytes : List UInt8 → Except FrameError (List UInt8)}

theorem readFrame_frame {flags : Nat} (known : flags = 0 ∨ flags = FLAG_COMPRESSED)
    {body : List UInt8} (small : body.length < 2 ^ 32) :
    readFrame (frame flags body) = .ok ((flags, body), []) := by
  have flagByte : (byte flags).toNat = flags := by
    rw [toNat_byte]
    rcases known with rfl | rfl <;> rfl
  have whole : readBytes body.length body = .ok (body, []) := by
    simpa using readBytes_append rfl ([] : List UInt8)
  have version : ¬(byte VERSION).toNat ≠ VERSION := by decide
  have admitted : ¬(flags ≠ 0 ∧ flags ≠ FLAG_COMPRESSED) := by
    rintro ⟨notPlain, notCompressed⟩
    rcases known with plain | compressed
    · exact notPlain plain
    · exact notCompressed compressed
  rw [readFrame, frame, reader_bind, readUint16_writeUint16 (by decide), ok_bind, if_neg (by simp),
    reader_bind, readByte_cons, ok_bind, if_neg version, reader_bind, readByte_cons, ok_bind]
  simp only [flagByte]
  rw [if_neg admitted, reader_bind, readUint32_writeUint32 small, ok_bind, reader_bind, whole,
    ok_bind]
  rfl

theorem readBody_writeValue {value : RpcValue} (small : (writeValue value).length < 2 ^ 32) :
    readBody (writeValue value) = .ok (received value).value := by
  have read : readValue ((writeValue value).length + 1) (writeValue value ++ []) =
      .ok (received value, []) := readValue_writeValue value [] (Nat.le_succ _) small
  rw [List.append_nil] at read
  rw [readBody, read]
  rfl

theorem decodeRpcBinaryFrame_encode
    (inverse : ∀ bytes, (gzipBytes bytes).length < bytes.length →
      gunzipBytes (gzipBytes bytes) = .ok bytes)
    {value : RpcValue} (small : (writeValue value).length < 2 ^ 32)
    (options : RpcBinaryEncodeOptions) :
    decodeRpcBinaryFrame gunzipBytes (encodeRpcBinaryFrame gzipBytes value options) {} =
      .ok (received value).value := by
  have plain : decodeRpcBinaryFrame gunzipBytes (frame 0 (writeValue value)) {} =
      .ok (received value).value := by
    rw [decodeRpcBinaryFrame, readFrame_frame (Or.inl rfl) small, ok_bind]
    simp only [checkBodyLimit, ok_bind, FLAG_COMPRESSED, Nat.zero_ne_one, if_false]
    exact readBody_writeValue small
  simp only [encodeRpcBinaryFrame]
  split
  · split
    · rename_i shorter
      rw [decodeRpcBinaryFrame, readFrame_frame (Or.inr rfl) (Nat.lt_trans shorter small), ok_bind]
      simp only [checkBodyLimit, ok_bind, if_true, inverse _ shorter, reduceCtorEq, if_false]
      exact readBody_writeValue small
    · exact plain
  · exact plain

/-- The frame round trip, on the plain and the compressed path: the decoder gives the value back
in normal form exactly when nothing in it starts with a byte order mark or is a property
named `__proto__`. -/
theorem rpcBinaryFrame_roundTrip_iff
    (gzipBytes : List UInt8 → List UInt8)
    (gunzipBytes : List UInt8 → Except FrameError (List UInt8))
    (inverse : ∀ bytes, (gzipBytes bytes).length < bytes.length →
      gunzipBytes (gzipBytes bytes) = .ok bytes)
    (input : PlainValue) (small : (writeValue input.value).length < 2 ^ 32)
    (options : RpcBinaryEncodeOptions) :
    (∃ decoded, decodeRpcBinaryFrame gunzipBytes
        (encodeRpcBinaryFrame gzipBytes input.value options) {} = .ok decoded ∧
      DeepEqual decoded (normalize input.value)) ↔ survives input.value = true := by
  rw [decodeRpcBinaryFrame_encode inverse small options, ← received_iff]
  simp

def repeatedText : PlainValue := ⟨.string (List.replicate 20000 'x'), trivial⟩

theorem encode_replicate_length (count : Nat) :
    (encode (List.replicate count 'x')).length = count := by
  induction count with
  | zero => rfl
  | succ count ih =>
    have one : (String.utf8EncodeChar 'x').length = 1 := by decide
    rw [List.replicate_succ, encode, List.flatMap_cons, List.length_append, one, ← encode, ih,
      Nat.add_comm]

theorem repeatedText_small : (writeValue repeatedText.value).length < 2 ^ 32 := by
  have body := encode_replicate_length 20000
  have count : (writeVarUint 20000).length = 3 := by decide
  rw [repeatedText, writeValue, List.length_cons, writeText, List.length_append, body, count]
  omega

theorem rpcBinaryFrame_roundTrip_iff_compressed :
    (∃ decoded, decodeRpcBinaryFrame
        (fun bytes => .ok (if bytes = [0] then writeValue repeatedText.value else bytes))
        (encodeRpcBinaryFrame
          (fun bytes => if bytes = writeValue repeatedText.value then [0] else bytes)
          repeatedText.value {}) {} = .ok decoded ∧
      DeepEqual decoded (normalize repeatedText.value)) ↔
        survives repeatedText.value = true := by
  refine rpcBinaryFrame_roundTrip_iff _ _ ?_ repeatedText repeatedText_small {}
  intro bytes shorter
  split at shorter
  · rename_i same
    simp [same]
  · exact absurd shorter (Nat.lt_irrefl _)

theorem rpcBinaryFrame_roundTrip_loses :
    (¬∃ decoded, decodeRpcBinaryFrame Except.ok
        (encodeRpcBinaryFrame id (.string [byteOrderMark, 'a']) {}) {} = .ok decoded ∧
      DeepEqual decoded (normalize (.string [byteOrderMark, 'a']))) ∧
    ¬∃ decoded, decodeRpcBinaryFrame Except.ok
        (encodeRpcBinaryFrame id (.object [(protoKey, .boolean true)]) {}) {} = .ok decoded ∧
      DeepEqual decoded (normalize (.object [(protoKey, .boolean true)])) := by
  constructor
  · rintro ⟨decoded, read, same⟩
    rw [decodeRpcBinaryFrame_encode (by simp) (by decide), Except.ok.injEq] at read
    have lost : decoded = .string ['a'] := read.symm
    subst lost
    simp [DeepEqual, normalize] at same
  · rintro ⟨decoded, read, same⟩
    rw [decodeRpcBinaryFrame_encode (by simp) (by decide), Except.ok.injEq] at read
    have lost : decoded = .object [] := read.symm
    subst lost
    obtain ⟨ordered, shuffled, pairs⟩ := same
    have length := shuffled.length_eq
    cases ordered with
    | nil => simp [normalize, normalizeEntries, RpcValue.isUndefined] at length
    | cons entry rest => simp [DeepEqualEntries] at pairs

end Frames

end Metidos.Rpc
