import Metidos.Rpc.CodecRoundTrip

/-!
Frames are self-delimiting: a reader that succeeds has taken bytes that say by themselves where
they end, so that neither fewer nor more bytes are a frame.
-/

namespace Metidos.Rpc

open Bytes Utf8 ExceptRules

def SelfDelimiting {α : Type} (reader : Reader α) : Prop :=
  ∀ bytes value rest, reader bytes = .ok (value, rest) → ∃ taken, bytes = taken ++ rest ∧
    (∀ more, reader (taken ++ more) = .ok (value, more)) ∧
    ∀ part, part <+: taken → part ≠ taken → ∃ error, reader part = .error error

section Readers

variable {α β : Type}

theorem selfDelimiting_pure (value : α) : SelfDelimiting (pure value : Reader α) := by
  intro bytes result rest read
  simp only [reader_pure, Except.ok.injEq, Prod.mk.injEq] at read
  obtain ⟨rfl, rfl⟩ := read
  refine ⟨[], rfl, fun more => rfl, ?_⟩
  intro part within differs
  exact absurd (List.prefix_nil.mp within) differs

theorem selfDelimiting_thrown (error : FrameError) :
    SelfDelimiting (fun _ => .error error : Reader α) := by
  intro bytes value rest read
  exact absurd read (by simp)

theorem selfDelimiting_bind {first : Reader α} {next : α → Reader β}
    (firstDelimits : SelfDelimiting first) (nextDelimits : ∀ value, SelfDelimiting (next value)) :
    SelfDelimiting (first >>= next) := by
  intro bytes result rest read
  rw [reader_bind, bind_eq_ok] at read
  obtain ⟨⟨value, middle⟩, readFirst, readNext⟩ := read
  obtain ⟨taken, rfl, onward, partial_⟩ := firstDelimits _ _ _ readFirst
  obtain ⟨later, rfl, onwardNext, partialNext⟩ := nextDelimits _ _ _ _ readNext
  refine ⟨taken ++ later, by rw [List.append_assoc], ?_, ?_⟩
  · intro more
    rw [List.append_assoc, reader_bind, onward, ok_bind]
    exact onwardNext more
  · intro part within differs
    rcases List.prefix_or_prefix_of_prefix within (List.prefix_append taken later) with
      inside | ⟨tail, rfl⟩
    · by_cases whole : part = taken
      · subst whole
        obtain ⟨error, fails⟩ := partialNext [] List.nil_prefix (by
          rintro rfl
          exact differs (List.append_nil _).symm)
        refine ⟨error, ?_⟩
        have read := onward []
        rw [List.append_nil] at read
        rw [reader_bind, read, ok_bind, fails]
      · obtain ⟨error, fails⟩ := partial_ part inside whole
        exact ⟨error, by rw [reader_bind, fails, error_bind]⟩
    · have tailWithin := (List.prefix_append_right_inj taken).mp within
      obtain ⟨error, fails⟩ := partialNext tail tailWithin (by
        rintro rfl
        exact differs rfl)
      exact ⟨error, by rw [reader_bind, onward, ok_bind, fails]⟩

theorem selfDelimiting_readByte : SelfDelimiting readByte := by
  intro bytes value rest read
  cases bytes with
  | nil => exact absurd read (by simp [readByte])
  | cons byte after =>
    simp only [readByte_cons, Except.ok.injEq, Prod.mk.injEq] at read
    obtain ⟨rfl, rfl⟩ := read
    refine ⟨[byte], rfl, fun more => rfl, ?_⟩
    intro part within differs
    cases part with
    | nil => exact ⟨_, rfl⟩
    | cons head tail =>
      obtain ⟨suffix, is⟩ := within
      simp only [List.cons_append, List.cons.injEq, List.append_eq_nil_iff] at is
      exact absurd (by rw [is.1, is.2.1]) differs

theorem selfDelimiting_readBytes (length : Nat) : SelfDelimiting (readBytes length) := by
  intro bytes value rest read
  rw [readBytes] at read
  split at read
  · exact absurd read (by simp)
  · rename_i enough
    simp only [Except.ok.injEq, Prod.mk.injEq] at read
    obtain ⟨rfl, rfl⟩ := read
    have exact_ : (bytes.take length).length = length := by
      rw [List.length_take]
      omega
    refine ⟨bytes.take length, (List.take_append_drop length bytes).symm, ?_, ?_⟩
    · intro more
      exact readBytes_append exact_ more
    · intro part within differs
      have shorter : part.length < length := by
        have bound := within.length_le
        have unequal : part.length ≠ (bytes.take length).length := fun same =>
          differs (within.eq_of_length same)
        omega
      exact ⟨_, by rw [readBytes, if_pos shorter]⟩

theorem selfDelimiting_readUint16 : SelfDelimiting readUint16 :=
  selfDelimiting_bind selfDelimiting_readByte fun _ =>
    selfDelimiting_bind selfDelimiting_readByte fun _ => selfDelimiting_pure _

theorem selfDelimiting_readUint32 : SelfDelimiting readUint32 :=
  selfDelimiting_bind selfDelimiting_readByte fun _ =>
    selfDelimiting_bind selfDelimiting_readByte fun _ =>
      selfDelimiting_bind selfDelimiting_readByte fun _ =>
        selfDelimiting_bind selfDelimiting_readByte fun _ => selfDelimiting_pure _

theorem selfDelimiting_readVarUint : SelfDelimiting readVarUint := by
  have loop : ∀ groups shift result, SelfDelimiting (readVarUintLoop groups shift result) := by
    intro groups
    induction groups with
    | zero => exact fun _ _ => selfDelimiting_thrown _
    | succ groups ih =>
      intro shift result
      refine selfDelimiting_bind selfDelimiting_readByte ?_
      intro byte
      simp only
      split
      · exact selfDelimiting_pure _
      · exact ih _ _
  exact loop 5 0 0

theorem selfDelimiting_readText : SelfDelimiting readText :=
  selfDelimiting_bind selfDelimiting_readVarUint fun length =>
    selfDelimiting_bind (selfDelimiting_readBytes length) fun _ => selfDelimiting_pure _

theorem selfDelimiting_readItems {read : Reader DecodedValue} (delimits : SelfDelimiting read)
    (count : Nat) : SelfDelimiting (readItems read count) := by
  induction count with
  | zero => exact selfDelimiting_pure _
  | succ count ih =>
    exact selfDelimiting_bind delimits fun _ =>
      selfDelimiting_bind ih fun _ => selfDelimiting_pure _

theorem selfDelimiting_readEntries {read : Reader DecodedValue} (delimits : SelfDelimiting read)
    (count : Nat) (state : ObjectState) : SelfDelimiting (readEntries read count state) := by
  induction count generalizing state with
  | zero => exact selfDelimiting_pure _
  | succ count ih =>
    exact selfDelimiting_bind selfDelimiting_readText fun _ =>
      selfDelimiting_bind delimits fun _ => ih _

theorem selfDelimiting_readValue (fuel : Nat) : SelfDelimiting (readValue fuel) := by
  induction fuel with
  | zero => exact selfDelimiting_thrown _
  | succ fuel ih =>
    refine selfDelimiting_bind selfDelimiting_readByte ?_
    intro tag
    repeat' split
    · exact selfDelimiting_pure _
    · exact selfDelimiting_pure _
    · exact selfDelimiting_pure _
    · exact selfDelimiting_bind (selfDelimiting_readBytes 8) fun _ => selfDelimiting_pure _
    · exact selfDelimiting_bind selfDelimiting_readText fun _ => selfDelimiting_pure _
    · exact selfDelimiting_bind selfDelimiting_readVarUint fun length =>
        selfDelimiting_bind (selfDelimiting_readItems ih length) fun _ => selfDelimiting_pure _
    · exact selfDelimiting_bind selfDelimiting_readVarUint fun length =>
        selfDelimiting_bind (selfDelimiting_readEntries ih length _) fun _ =>
          selfDelimiting_pure _
    · exact selfDelimiting_thrown _

end Readers

section Frames

variable {gunzipBytes : List UInt8 → Except FrameError (List UInt8)} {bytes other body : List UInt8}
  {options : RpcBinaryDecodeOptions}

def readFramed : Reader (Nat × List UInt8) := do
  let magic ← readUint16
  if magic ≠ MAGIC then fun _ => .error (.thrown "Invalid RPC binary frame magic.")
  else
    let version ← readByte
    if version.toNat ≠ VERSION then
      fun _ => .error (.thrown "Unsupported RPC binary frame version.")
    else
      let flags ← readByte
      if flags.toNat ≠ 0 ∧ flags.toNat ≠ FLAG_COMPRESSED then
        fun _ => .error (.thrown "Unsupported RPC binary frame flags.")
      else
        let length ← readUint32
        let body ← readBytes length
        return (flags.toNat, body)

theorem readFrame_eq (bytes : List UInt8) :
    readFrame bytes = (readFramed bytes >>= fun read =>
      assertDone read.2 >>= fun done => .ok (read.1, done.2)) := by
  simp only [readFrame, readFramed, reader_bind]
  cases readUint16 bytes with
  | error error => rfl
  | ok magic =>
    simp only [ok_bind]
    split
    · rfl
    · rw [reader_bind, reader_bind]
      cases readByte magic.2 with
      | error error => rfl
      | ok version =>
        simp only [ok_bind]
        split
        · rfl
        · rw [reader_bind, reader_bind]
          cases readByte version.2 with
          | error error => rfl
          | ok flags =>
            simp only [ok_bind]
            split
            · rfl
            · rw [reader_bind, reader_bind]
              cases readUint32 flags.2 with
              | error error => rfl
              | ok length =>
                rw [ok_bind, ok_bind, reader_bind, reader_bind]
                cases readBytes length.1 length.2 with
                | error error => rfl
                | ok body => rfl

theorem selfDelimiting_readFramed : SelfDelimiting readFramed := by
  refine selfDelimiting_bind selfDelimiting_readUint16 ?_
  intro magic
  split
  · exact selfDelimiting_thrown _
  · refine selfDelimiting_bind selfDelimiting_readByte ?_
    intro version
    split
    · exact selfDelimiting_thrown _
    · refine selfDelimiting_bind selfDelimiting_readByte ?_
      intro flags
      split
      · exact selfDelimiting_thrown _
      · exact selfDelimiting_bind selfDelimiting_readUint32 fun length =>
          selfDelimiting_bind (selfDelimiting_readBytes length) fun _ => selfDelimiting_pure _

theorem assertDone_eq_ok {rest : List UInt8} {done : Unit × List UInt8} :
    assertDone rest = .ok done ↔ rest = [] ∧ done = ((), []) := by
  rw [assertDone]
  split
  · rename_i empty
    subst empty
    simp [eq_comm]
  · rename_i filled
    simp [filled]

theorem readFrame_prefix_free {read : (Nat × List UInt8) × List UInt8}
    (accepted : readFrame bytes = .ok read) (related : other <+: bytes ∨ bytes <+: other)
    (differs : other ≠ bytes) : ∃ error, readFrame other = .error error := by
  rw [readFrame_eq] at accepted
  obtain ⟨⟨framed, rest⟩, reads, ended⟩ := bind_eq_ok.mp accepted
  obtain ⟨done, ends, _⟩ := bind_eq_ok.mp ended
  obtain ⟨rfl, _⟩ := assertDone_eq_ok.mp ends
  obtain ⟨taken, rfl, onward, partial_⟩ := selfDelimiting_readFramed _ _ _ reads
  rw [List.append_nil] at related differs
  rw [readFrame_eq]
  rcases related with shorter | ⟨more, rfl⟩
  · obtain ⟨error, fails⟩ := partial_ other shorter differs
    exact ⟨error, by rw [fails, error_bind]⟩
  · have filled : more ≠ [] := by
      rintro rfl
      exact differs (List.append_nil _)
    refine ⟨.thrown "RPC binary frame has trailing bytes.", ?_⟩
    rw [onward, ok_bind]
    simp only [assertDone, if_neg filled, error_bind]

def frameBody (gunzipBytes : List UInt8 → Except FrameError (List UInt8)) (bytes : List UInt8)
    (options : RpcBinaryDecodeOptions) : Except FrameError (List UInt8) := do
  let ((flags, body), _) ← readFrame bytes
  checkBodyLimit options body
  if flags = FLAG_COMPRESSED then
    if options.allowCompressed = some false then
      .error (.thrown "Compressed RPC binary frames are not accepted.")
    else do
      let body ← gunzipBytes body
      checkBodyLimit options body
      pure body
  else pure body

theorem decodeRpcBinaryFrame_eq (gunzipBytes : List UInt8 → Except FrameError (List UInt8))
    (bytes : List UInt8) (options : RpcBinaryDecodeOptions) :
    decodeRpcBinaryFrame gunzipBytes bytes options =
      (frameBody gunzipBytes bytes options >>= readBody) := by
  rw [decodeRpcBinaryFrame, frameBody]
  cases readFrame bytes with
  | error error => rfl
  | ok read =>
    simp only [ok_bind]
    cases checkBodyLimit options read.1.2 with
    | error error => rfl
    | ok within =>
      simp only [ok_bind]
      split
      · split
        · rfl
        · cases gunzipBytes read.1.2 with
          | error error => rfl
          | ok body =>
            simp only [ok_bind]
            cases checkBodyLimit options body with
            | error error => rfl
            | ok within => rfl
      · rfl

theorem checkBodyLimit_eq_ok {within : Unit} :
    checkBodyLimit options body = .ok within ↔
      ∀ limit ∈ options.maxDecodedBodyBytes, body.length ≤ limit := by
  rw [checkBodyLimit]
  cases options.maxDecodedBodyBytes with
  | none => simp
  | some limit =>
    simp only [Option.mem_def, Option.some.injEq, forall_eq']
    split
    · simp
      omega
    · simp
      omega

theorem frameBody_within (found : frameBody gunzipBytes bytes options = .ok body) :
    ∀ limit ∈ options.maxDecodedBodyBytes, body.length ≤ limit := by
  simp only [frameBody, bind_eq_ok] at found
  obtain ⟨⟨⟨flags, framed⟩, rest⟩, _, _, within, found⟩ := found
  simp only at found within
  split at found
  · split at found
    · exact absurd found (by simp)
    · simp only [bind_eq_ok, pure_eq_ok, Except.ok.injEq] at found
      obtain ⟨_, _, _, limited, rfl⟩ := found
      exact checkBodyLimit_eq_ok.mp limited
  · simp only [pure_eq_ok, Except.ok.injEq] at found
    subst found
    exact checkBodyLimit_eq_ok.mp within

theorem readFrame_ne_outOfFuel (bytes : List UInt8) : readFrame bytes ≠ .error .outOfFuel := by
  have framed : Decides (bytes.length + 1) readFramed := by
    refine decides_bind (decides_bind decides_readByte fun _ =>
      decides_bind decides_readByte fun _ => decides_pure _) ?_
    intro magic
    split
    · exact decides_thrown _
    · refine decides_bind decides_readByte ?_
      intro version
      split
      · exact decides_thrown _
      · refine decides_bind decides_readByte ?_
        intro flags
        split
        · exact decides_thrown _
        · refine decides_bind ?_ fun length =>
            decides_bind (decides_readBytes length) fun _ => decides_pure _
          exact decides_bind decides_readByte fun _ => decides_bind decides_readByte fun _ =>
            decides_bind decides_readByte fun _ => decides_bind decides_readByte fun _ =>
              decides_pure _
  have facts := (framed bytes (Nat.lt_succ_self _)).1
  rw [readFrame_eq]
  cases read : readFramed bytes with
  | error error =>
    rw [read] at facts
    simpa using facts
  | ok value =>
    simp only [ok_bind, assertDone]
    split <;> simp

theorem frameBody_ne_outOfFuel (gunzipFails : ∀ bytes, gunzipBytes bytes ≠ .error .outOfFuel) :
    frameBody gunzipBytes bytes options ≠ .error .outOfFuel := by
  have limit : ∀ body, checkBodyLimit options body ≠ .error .outOfFuel := by
    intro body
    rw [checkBodyLimit]
    repeat' split
    all_goals simp
  rw [frameBody]
  cases framed : readFrame bytes with
  | error error =>
    have facts := readFrame_ne_outOfFuel bytes
    rw [framed] at facts
    simpa using facts
  | ok read =>
    simp only [ok_bind]
    cases within : checkBodyLimit options read.1.2 with
    | error error =>
      have facts := limit read.1.2
      rw [within] at facts
      simpa using facts
    | ok within =>
      simp only [ok_bind]
      split
      · split
        · simp
        · cases unzipped : gunzipBytes read.1.2 with
          | error error =>
            have facts := gunzipFails read.1.2
            rw [unzipped] at facts
            simpa using facts
          | ok body =>
            simp only [ok_bind]
            cases again : checkBodyLimit options body with
            | error error =>
              have facts := limit body
              rw [again] at facts
              simpa using facts
            | ok within => simp
      · simp

/-- A value or a decode error for all bytes; the body read is within the limit and is all that is
read of it; and no other frame is a part or an extension of an accepted one. -/
theorem decodeRpcBinaryFrame_safe
    (gunzipBytes : List UInt8 → Except FrameError (List UInt8))
    (gunzipFails : ∀ bytes, gunzipBytes bytes ≠ .error .outOfFuel)
    (bytes : List UInt8) (options : RpcBinaryDecodeOptions) :
    ((∃ value, decodeRpcBinaryFrame gunzipBytes bytes options = .ok value) ∨
      ∃ message, decodeRpcBinaryFrame gunzipBytes bytes options = .error (.thrown message)) ∧
    (∀ body, frameBody gunzipBytes bytes options = .ok body →
      decodeRpcBinaryFrame gunzipBytes bytes options = readBody body ∧
      (∀ limit ∈ options.maxDecodedBodyBytes, body.length ≤ limit) ∧
      ∀ value, readBody body = .ok value → ∀ more, ∃ decoded,
        readValue (body.length + 1) (body ++ more) = .ok (decoded, more) ∧
          decoded.value = value) ∧
    ∀ value, decodeRpcBinaryFrame gunzipBytes bytes options = .ok value →
      ∀ other, other <+: bytes ∨ bytes <+: other → other ≠ bytes →
        ∃ message, decodeRpcBinaryFrame gunzipBytes other options = .error (.thrown message) := by
  have decided : ∀ bytes,
      decodeRpcBinaryFrame gunzipBytes bytes options ≠ .error .outOfFuel := by
    intro bytes
    rw [decodeRpcBinaryFrame_eq]
    cases found : frameBody gunzipBytes bytes options with
    | error error =>
      have facts := @frameBody_ne_outOfFuel gunzipBytes bytes options gunzipFails
      rw [found] at facts
      simpa using facts
    | ok body => exact readBody_ne_outOfFuel body
  refine ⟨?_, ?_, ?_⟩
  · cases outcome : decodeRpcBinaryFrame gunzipBytes bytes options with
    | ok value => exact Or.inl ⟨value, rfl⟩
    | error error =>
      cases error with
      | thrown message => exact Or.inr ⟨message, rfl⟩
      | outOfFuel => exact absurd outcome (decided bytes)
  · intro body found
    refine ⟨by rw [decodeRpcBinaryFrame_eq, found, ok_bind], frameBody_within found, ?_⟩
    intro value read more
    simp only [readBody, bind_eq_ok] at read
    obtain ⟨⟨decoded, rest⟩, reads, done, ends, is⟩ := read
    obtain ⟨rfl, _⟩ := assertDone_eq_ok.mp ends
    obtain ⟨taken, same, onward, _⟩ := selfDelimiting_readValue _ _ _ _ reads
    rw [List.append_nil] at same
    rw [← same] at onward
    exact ⟨decoded, onward more, by simpa using is⟩
  · intro value accepted other related differs
    rw [decodeRpcBinaryFrame_eq] at accepted
    obtain ⟨body, found, _⟩ := bind_eq_ok.mp accepted
    simp only [frameBody, bind_eq_ok] at found
    obtain ⟨framed, reads, _⟩ := found
    obtain ⟨error, fails⟩ := readFrame_prefix_free reads related differs
    have outcome : decodeRpcBinaryFrame gunzipBytes other options = .error error := by
      rw [decodeRpcBinaryFrame, fails, error_bind]
    cases error with
    | thrown message => exact ⟨message, outcome⟩
    | outOfFuel => exact absurd outcome (decided other)

theorem decodeRpcBinaryFrame_safe_true :
    decodeRpcBinaryFrame Except.ok (frame 0 [TAG_TRUE]) ⟨none, some 1⟩ =
        .ok (.boolean true) ∧
      ∃ message, decodeRpcBinaryFrame Except.ok (frame 0 [TAG_TRUE] ++ [TAG_NULL])
        ⟨none, some 1⟩ = .error (.thrown message) := by
  have accepted : decodeRpcBinaryFrame Except.ok (frame 0 [TAG_TRUE]) ⟨none, some 1⟩ =
      .ok (.boolean true) := by
    rw [decodeRpcBinaryFrame, readFrame_frame (Or.inl rfl) (by decide), ok_bind]
    rfl
  refine ⟨accepted, ?_⟩
  exact (decodeRpcBinaryFrame_safe Except.ok (by simp) (frame 0 [TAG_TRUE])
    ⟨none, some 1⟩).2.2 _ accepted _ (Or.inr (List.prefix_append _ _)) (by simp)

end Frames

end Metidos.Rpc
