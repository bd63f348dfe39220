import Metidos.Library.JsText
import Metidos.Library.Transition
import Metidos.Library.Utf8

/-!
Executable model of `readTextLines` of `src/bun/plugin/sidecar-runtime.ts` over any number of
streams, which share the module's one text decoder.  Texts are lists of UTF-16 code units, which
is what their lengths count.  The proofs live in `LineStreams`.
-/

namespace Metidos.Sidecar

open JsText Transition Utf8

abbrev CodeUnits := List Nat

def newline : Nat := 10

def trimEnd (text : CodeUnits) : CodeUnits :=
  (text.reverse.dropWhile fun unit => isWhiteSpace (Char.ofNat unit)).reverse

def pluginSidecarTruncatedLineSuffix : CodeUnits := utf16 "… [truncated by host]".toList

/-- The local variables of a call of `readTextLines`, and the lines it has emitted. -/
structure LineBuffer where
  buffer : CodeUnits
  discardingOversizedLine : Bool
  emitted : List CodeUnits
  deriving DecidableEq

def emitLine (emitted : List CodeUnits) (line : CodeUnits) : List CodeUnits :=
  let trimmed := trimEnd line
  if trimmed = [] then emitted else emitted ++ [trimmed]

def truncateLine (maxLineLength : Nat) (line : CodeUnits) : CodeUnits :=
  line.take maxLineLength ++ pluginSidecarTruncatedLineSuffix

def cutLine : CodeUnits → Option (CodeUnits × CodeUnits)
  | [] => none
  | unit :: rest =>
    if unit = newline then some ([], rest)
    else (cutLine rest).map fun cut => (unit :: cut.1, cut.2)

def consumeLoop (maxLineLength : Nat) : Nat → LineBuffer → LineBuffer
  | 0, lines => lines
  | fuel + 1, lines =>
    match cutLine lines.buffer with
    | none =>
      if lines.discardingOversizedLine then { lines with buffer := [] }
      else if maxLineLength < lines.buffer.length then
        consumeLoop maxLineLength fuel
          { buffer := []
            discardingOversizedLine := true
            emitted := emitLine lines.emitted (truncateLine maxLineLength lines.buffer) }
      else lines
    | some (line, rest) =>
      if lines.discardingOversizedLine then
        consumeLoop maxLineLength fuel
          { lines with buffer := rest, discardingOversizedLine := false }
      else if maxLineLength < line.length then
        consumeLoop maxLineLength fuel
          { lines with
            buffer := rest
            emitted := emitLine lines.emitted (truncateLine maxLineLength line) }
      else
        consumeLoop maxLineLength fuel
          { lines with buffer := rest, emitted := emitLine lines.emitted line }

def consumeDecodedText (maxLineLength : Nat) (lines : LineBuffer) (text : CodeUnits) :
    LineBuffer :=
  consumeLoop maxLineLength (text.length + 2) { lines with buffer := lines.buffer ++ text }

def emitRest (lines : LineBuffer) : LineBuffer :=
  if !lines.discardingOversizedLine && !lines.buffer.isEmpty then
    { lines with emitted := emitLine lines.emitted lines.buffer }
  else lines

def LineBuffer.empty : LineBuffer :=
  { buffer := [], discardingOversizedLine := false, emitted := [] }

inductive ReadStatus
  | reading
  | ended
  | failed
  deriving DecidableEq

/-- A call of `readTextLines`, with the bytes its stream has delivered. -/
structure StreamReader where
  maxLineLength : Nat
  lines : LineBuffer
  received : List UInt8
  status : ReadStatus
  deriving DecidableEq

/-- The module: its decoder, and the calls of `readTextLines` that use it. -/
structure ReadState where
  decoder : Decoder
  readers : List StreamReader
  deriving DecidableEq

def startReading (maxLineLength : Int) : StreamReader where
  maxLineLength := (max 1 maxLineLength).toNat
  lines := .empty
  received := []
  status := .reading

def ReadState.initial (limits : List Int) : ReadState where
  decoder := .new
  readers := limits.map startReading

inductive ReadEvent
  | chunkRead (stream : Nat) (bytes : List UInt8)
  | ended (stream : Nat)
  | failed (stream : Nat)
  deriving DecidableEq

def StreamReader.chunkRead (reader : StreamReader) (bytes : List UInt8) (text : List Char) :
    StreamReader :=
  { reader with
    lines := consumeDecodedText reader.maxLineLength reader.lines (utf16 text)
    received := reader.received ++ bytes }

def StreamReader.endRead (reader : StreamReader) (text : List Char) : StreamReader :=
  { reader with
    lines := emitRest (consumeDecodedText reader.maxLineLength reader.lines (utf16 text))
    status := .ended }

def ReadState.reading (state : ReadState) (stream : Nat) : Option StreamReader :=
  (state.readers[stream]?).filter fun reader => reader.status = .reading

def readStep (state : ReadState) : ReadEvent → Option ReadState
  | .chunkRead stream bytes =>
    (state.reading stream).map fun reader =>
      let decoded := state.decoder.decode bytes
      { decoder := decoded.2
        readers := state.readers.set stream (reader.chunkRead bytes decoded.1) }
  | .ended stream =>
    (state.reading stream).map fun reader =>
      let decoded := state.decoder.finish
      { decoder := decoded.2
        readers := state.readers.set stream (reader.endRead decoded.1) }
  | .failed stream =>
    (state.reading stream).map fun reader =>
      { state with readers := state.readers.set stream { reader with status := .failed } }

def cutToLength (maxLineLength : Nat) (line : CodeUnits) : CodeUnits :=
  if maxLineLength < line.length then truncateLine maxLineLength line else line

def keptLines (maxLineLength : Nat) (lines : List CodeUnits) : List CodeUnits :=
  (lines.map fun line => trimEnd (cutToLength maxLineLength line)).filter (· ≠ [])

def linesOf (maxLineLength : Nat) (text : CodeUnits) : List CodeUnits :=
  keptLines maxLineLength (text.splitOn newline)

def linesReadAlone (maxLineLength : Nat) (bytes : List UInt8) : List CodeUnits :=
  (consumeDecodedText maxLineLength .empty (utf16 (Decoder.new.decode bytes).1)).emitted

end Metidos.Sidecar

/-!
A stream read in chunks emits the lines of its decoded bytes, and so does each of several streams
that are read at once, as long as no call of the shared decoder finds the partial sequence of
another stream in it, or a byte order mark where another stream has begun or ended; and a run in
which one does.
-/

namespace Metidos.Sidecar

open JsText Transition Utf8

def scanUnit (maxLineLength : Nat) (lines : LineBuffer) (unit : Nat) : LineBuffer :=
  if unit = newline then
    if lines.discardingOversizedLine then { lines with discardingOversizedLine := false }
    else { lines with buffer := [], emitted := emitLine lines.emitted lines.buffer }
  else if lines.discardingOversizedLine then lines
  else if maxLineLength ≤ lines.buffer.length then
    { buffer := []
      discardingOversizedLine := true
      emitted := emitLine lines.emitted (truncateLine maxLineLength (lines.buffer ++ [unit])) }
  else { lines with buffer := lines.buffer ++ [unit] }

def scan (maxLineLength : Nat) (lines : LineBuffer) (text : CodeUnits) : LineBuffer :=
  text.foldl (scanUnit maxLineLength) lines

structure Waiting (maxLineLength : Nat) (lines : LineBuffer) : Prop where
  short : lines.buffer.length ≤ maxLineLength
  unbroken : newline ∉ lines.buffer
  dropped : lines.discardingOversizedLine = true → lines.buffer = []

variable {maxLineLength : Nat} {lines : LineBuffer} {text line rest : CodeUnits} {unit : Nat}

theorem Waiting.empty (maxLineLength : Nat) : Waiting maxLineLength .empty :=
  ⟨Nat.zero_le _, by simp [LineBuffer.empty], fun _ => rfl⟩

theorem Waiting.scanUnit (waiting : Waiting maxLineLength lines) (unit : Nat) :
    Waiting maxLineLength (scanUnit maxLineLength lines unit) := by
  rw [Sidecar.scanUnit]
  split
  · split
    · exact ⟨waiting.short, waiting.unbroken, fun discards => absurd discards (by simp)⟩
    · exact ⟨Nat.zero_le _, by simp, fun _ => rfl⟩
  · rename_i plain
    split
    · exact waiting
    · rename_i keeps
      split
      · exact ⟨Nat.zero_le _, by simp, fun _ => rfl⟩
      · rename_i room
        refine ⟨by simp only [List.length_append, List.length_singleton]; omega, ?_, ?_⟩
        · simp only [List.mem_append, List.mem_singleton, not_or]
          exact ⟨waiting.unbroken, fun same => plain same.symm⟩
        · exact fun discards => absurd discards keeps

theorem Waiting.scan (waiting : Waiting maxLineLength lines) (text : CodeUnits) :
    Waiting maxLineLength (scan maxLineLength lines text) := by
  induction text generalizing lines with
  | nil => exact waiting
  | cons unit rest ih => exact ih (waiting.scanUnit unit)

theorem scan_append (lines : LineBuffer) (first second : CodeUnits) :
    scan maxLineLength lines (first ++ second) =
      scan maxLineLength (scan maxLineLength lines first) second :=
  List.foldl_append

theorem scan_discarding (discards : lines.discardingOversizedLine = true)
    (unbroken : newline ∉ line) : scan maxLineLength lines line = lines := by
  induction line with
  | nil => rfl
  | cons unit rest ih =>
    simp only [List.mem_cons, not_or] at unbroken
    have first : scanUnit maxLineLength lines unit = lines := by
      rw [scanUnit, if_neg (fun same => unbroken.1 same.symm), if_pos discards]
    rw [scan, List.foldl_cons, first]
    exact ih unbroken.2

theorem scan_unbroken (waiting : Waiting maxLineLength lines)
    (keeps : lines.discardingOversizedLine = false) (unbroken : newline ∉ line) :
    scan maxLineLength lines line =
      if maxLineLength < (lines.buffer ++ line).length then
        { buffer := []
          discardingOversizedLine := true
          emitted := emitLine lines.emitted (truncateLine maxLineLength (lines.buffer ++ line)) }
      else { lines with buffer := lines.buffer ++ line } := by
  induction line generalizing lines with
  | nil =>
    rw [List.append_nil, if_neg (Nat.not_lt.mpr waiting.short)]
    rfl
  | cons unit rest ih =>
    simp only [List.mem_cons, not_or] at unbroken
    have plain : unit ≠ newline := fun same => unbroken.1 same.symm
    rw [scan, List.foldl_cons, ← scan]
    by_cases full : maxLineLength ≤ lines.buffer.length
    · have first : scanUnit maxLineLength lines unit =
          { buffer := []
            discardingOversizedLine := true
            emitted := emitLine lines.emitted
              (truncateLine maxLineLength (lines.buffer ++ [unit])) } := by
        rw [scanUnit, if_neg plain, if_neg (by simp [keeps]), if_pos full]
      have exact : lines.buffer.length = maxLineLength := Nat.le_antisymm waiting.short full
      have same : truncateLine maxLineLength (lines.buffer ++ [unit]) =
          truncateLine maxLineLength (lines.buffer ++ unit :: rest) := by
        rw [truncateLine, truncateLine, ← exact, List.take_left, List.take_left]
      rw [first, scan_discarding rfl unbroken.2, same, if_pos]
      simp only [List.length_append, List.length_cons]
      omega
    · have first : scanUnit maxLineLength lines unit =
          { lines with buffer := lines.buffer ++ [unit] } := by
        rw [scanUnit, if_neg plain, if_neg (by simp [keeps]), if_neg full]
      have next := waiting.scanUnit unit
      rw [first] at next ⊢
      rw [ih next keeps unbroken.2]
      simp only [List.append_assoc, List.singleton_append]

theorem cutLine_eq_none (absent : cutLine text = none) : newline ∉ text := by
  induction text with
  | nil => simp
  | cons unit rest ih =>
    rw [cutLine] at absent
    split at absent
    · exact absurd absent (by simp)
    · rename_i plain
      simp only [List.mem_cons, not_or]
      exact ⟨fun same => plain same.symm, ih (Option.map_eq_none_iff.mp absent)⟩

theorem cutLine_eq_some (found : cutLine text = some (line, rest)) :
    text = line ++ newline :: rest ∧ newline ∉ line := by
  induction text generalizing line with
  | nil => simp [cutLine] at found
  | cons unit after ih =>
    rw [cutLine] at found
    split at found
    · rename_i same
      simp only [Option.some.injEq, Prod.mk.injEq] at found
      obtain ⟨rfl, rfl⟩ := found
      simp [same]
    · rename_i plain
      obtain ⟨⟨front, back⟩, cut, same⟩ := Option.map_eq_some_iff.mp found
      simp only [Prod.mk.injEq] at same
      obtain ⟨rfl, rfl⟩ := same
      obtain ⟨rfl, unbroken⟩ := ih cut
      refine ⟨rfl, ?_⟩
      simp only [List.mem_cons, not_or]
      exact ⟨fun same => plain same.symm, unbroken⟩

theorem cutLine_append (unbroken : newline ∉ line) (text : CodeUnits) :
    cutLine (line ++ text) = (cutLine text).map fun cut => (line ++ cut.1, cut.2) := by
  induction line with
  | nil => simp
  | cons unit rest ih =>
    simp only [List.mem_cons, not_or] at unbroken
    rw [List.cons_append, cutLine, if_neg (fun same => unbroken.1 same.symm), ih unbroken.2,
      Option.map_map]
    rfl

theorem consumeLoop_eq_scan (fuel : Nat) (waiting : Waiting maxLineLength lines)
    (enough : text.length + 2 ≤ fuel) :
    consumeLoop maxLineLength fuel { lines with buffer := lines.buffer ++ text } =
      scan maxLineLength lines text := by
  induction fuel generalizing lines text with
  | zero => omega
  | succ fuel ih =>
    have cut := cutLine_append waiting.unbroken text
    rw [consumeLoop]
    cases found : cutLine text with
    | none =>
      have unbroken := cutLine_eq_none found
      rw [found, Option.map_none] at cut
      simp only [cut]
      split
      · rename_i discards
        rw [scan_discarding discards unbroken, ← waiting.dropped discards]
      · rename_i keeps
        rw [scan_unbroken waiting (by simpa using keeps) unbroken]
        split
        · obtain ⟨fewer, rfl⟩ : ∃ fewer, fuel = fewer + 1 := ⟨fuel - 1, by omega⟩
          simp [consumeLoop, cutLine]
        · rfl
    | some pieces =>
      obtain ⟨line, rest⟩ := pieces
      obtain ⟨rfl, unbroken⟩ := cutLine_eq_some found
      rw [found, Option.map_some] at cut
      simp only [cut]
      have shorter : rest.length + 2 ≤ fuel := by
        simp only [List.length_append, List.length_cons] at enough
        omega
      rw [scan_append, scan, List.foldl_cons, ← scan]
      split
      · rename_i discards
        have next : Waiting maxLineLength
            { lines with buffer := [], discardingOversizedLine := false } :=
          ⟨Nat.zero_le _, by simp, fun _ => rfl⟩
        rw [scan_discarding discards unbroken, scanUnit, if_pos rfl, if_pos discards,
          waiting.dropped discards]
        exact ih next shorter
      · rename_i keeps
        have next : ∀ emitted, Waiting maxLineLength
            { lines with buffer := [], emitted } := fun _ =>
          ⟨Nat.zero_le _, by simp, fun _ => rfl⟩
        rw [scan_unbroken waiting (by simpa using keeps) unbroken]
        split
        · rw [scanUnit, if_pos rfl, if_pos rfl]
          have keeping : lines.discardingOversizedLine = false := by simpa using keeps
          simpa [keeping] using ih (next _) shorter
        · rw [scanUnit, if_pos rfl, if_neg keeps]
          exact ih (next _) shorter

theorem consumeDecodedText_eq_scan (waiting : Waiting maxLineLength lines) (text : CodeUnits) :
    consumeDecodedText maxLineLength lines text = scan maxLineLength lines text :=
  consumeLoop_eq_scan _ waiting (Nat.le_refl _)

theorem trimEnd_truncateLine_ne_nil (maxLineLength : Nat) (line : CodeUnits) :
    trimEnd (truncateLine maxLineLength line) ≠ [] := by
  have last : pluginSidecarTruncatedLineSuffix =
      pluginSidecarTruncatedLineSuffix.dropLast ++ [93] := by decide
  rw [trimEnd, truncateLine, last, ← List.append_assoc, List.reverse_append]
  simp [JsText.isWhiteSpace]

theorem emitLine_eq_append (emitted : List CodeUnits) {line : CodeUnits}
    (short : line.length ≤ maxLineLength) (lines : List CodeUnits) :
    emitLine emitted line ++ keptLines maxLineLength lines =
      emitted ++ keptLines maxLineLength (line :: lines) := by
  have kept : cutToLength maxLineLength line = line := if_neg (Nat.not_lt.mpr short)
  simp only [emitLine, keptLines, List.map_cons, kept]
  split
  · rename_i empty
    simp [empty]
  · rename_i solid
    simp [solid]

theorem emitLine_truncated (emitted : List CodeUnits) {line : CodeUnits}
    (long : maxLineLength < line.length) (lines : List CodeUnits) :
    emitLine emitted (truncateLine maxLineLength line) ++ keptLines maxLineLength lines =
      emitted ++ keptLines maxLineLength (line :: lines) := by
  have solid := trimEnd_truncateLine_ne_nil maxLineLength line
  simp [emitLine, keptLines, cutToLength, long, solid]

theorem splitOn_newline_cons (unit : Nat) (text : CodeUnits) :
    (unit :: text).splitOn newline =
      if unit = newline then [] :: text.splitOn newline
      else (text.splitOn newline).modifyHead (unit :: ·) := by
  rw [List.splitOn, List.splitOnP_cons_eq_if_modifyHead]
  simp only [beq_iff_eq]
  rfl

theorem splitOn_ne_nil (text : CodeUnits) : text.splitOn newline ≠ [] :=
  List.splitOnP_ne_nil _ _

def linesFrom (maxLineLength : Nat) (lines : LineBuffer) (text : CodeUnits) : List CodeUnits :=
  if lines.discardingOversizedLine then keptLines maxLineLength (text.splitOn newline).tail
  else keptLines maxLineLength ((text.splitOn newline).modifyHead (lines.buffer ++ ·))

theorem modifyHead_nil_append (lines : List CodeUnits) :
    lines.modifyHead ([] ++ ·) = lines := by
  cases lines <;> rfl

theorem linesFrom_nil (waiting : Waiting maxLineLength lines) :
    (emitRest lines).emitted = lines.emitted ++ linesFrom maxLineLength lines [] := by
  have whole := emitLine_eq_append lines.emitted waiting.short []
  rw [emitRest, linesFrom, List.splitOn_nil]
  cases discards : lines.discardingOversizedLine with
  | true => simp [keptLines]
  | false =>
    cases held : lines.buffer with
    | nil => simp [keptLines, cutToLength, trimEnd]
    | cons unit rest =>
      rw [held] at whole
      simpa [keptLines] using whole

theorem linesFrom_cons (waiting : Waiting maxLineLength lines) (unit : Nat) (rest : CodeUnits) :
    (scanUnit maxLineLength lines unit).emitted ++
        linesFrom maxLineLength (scanUnit maxLineLength lines unit) rest =
      lines.emitted ++ linesFrom maxLineLength lines (unit :: rest) := by
  obtain ⟨piece, pieces, split⟩ := List.exists_cons_of_ne_nil (splitOn_ne_nil rest)
  simp only [linesFrom, splitOn_newline_cons, split]
  rw [scanUnit]
  by_cases isNewline : unit = newline
  · rw [if_pos isNewline, if_pos isNewline]
    cases discards : lines.discardingOversizedLine with
    | true => simp [waiting.dropped discards]
    | false => simpa [discards] using emitLine_eq_append lines.emitted waiting.short _
  · rw [if_neg isNewline, if_neg isNewline]
    cases discards : lines.discardingOversizedLine with
    | true => simp [discards]
    | false =>
      by_cases full : maxLineLength ≤ lines.buffer.length
      · have exact : lines.buffer.length = maxLineLength := Nat.le_antisymm waiting.short full
        have same : truncateLine maxLineLength (lines.buffer ++ [unit]) =
            truncateLine maxLineLength (lines.buffer ++ unit :: piece) := by
          rw [truncateLine, truncateLine, ← exact, List.take_left, List.take_left]
        have long : maxLineLength < (lines.buffer ++ unit :: piece).length := by
          simp only [List.length_append, List.length_cons]
          omega
        simpa [full, same] using emitLine_truncated lines.emitted long pieces
      · simp [full]

theorem emitted_of_scan (waiting : Waiting maxLineLength lines) (text : CodeUnits) :
    (emitRest (scan maxLineLength lines text)).emitted =
      lines.emitted ++ linesFrom maxLineLength lines text := by
  induction text generalizing lines with
  | nil => exact linesFrom_nil waiting
  | cons unit rest ih =>
    rw [scan, List.foldl_cons, ← scan, ih (waiting.scanUnit unit)]
    exact linesFrom_cons waiting unit rest

theorem emitted_of_text (maxLineLength : Nat) (text : CodeUnits) :
    (emitRest (scan maxLineLength .empty text)).emitted = linesOf maxLineLength text := by
  rw [emitted_of_scan (Waiting.empty maxLineLength)]
  exact congrArg (keptLines maxLineLength) (modifyHead_nil_append _)

def StreamReader.Faithful (reader : StreamReader) : Prop :=
  reader.lines.emitted =
    if reader.status = .ended then
      linesOf reader.maxLineLength (utf16 (Utf8.decode reader.received))
    else linesReadAlone reader.maxLineLength reader.received

/-- The shared decoder returns for a chunk what a decoder of the stream's own would: it has the
same sequence begun, and the same mark flag unless the chunk's first character is no mark. -/
def agrees (decoder : Decoder) (reader : StreamReader) (bytes : List UInt8) : Bool :=
  let own := Decoder.after reader.received
  decide (decoder.resume.pending = own.pending) &&
    (decoder.resume.markSeen == own.markSeen ||
      decide ((feed own.pending bytes).1.head? ≠ some byteOrderMark))

def undisturbed (state : ReadState) : ReadEvent → Bool
  | .chunkRead stream bytes =>
    bytes.isEmpty || (state.readers[stream]?).all fun reader => agrees state.decoder reader bytes
  | .ended stream =>
    (state.readers[stream]?).all fun reader =>
      decide (state.decoder.resume.pending = (Decoder.after reader.received).pending)
  | .failed _ => true

def StreamReader.InStep (reader : StreamReader) : Prop :=
  reader.lines =
    scan reader.maxLineLength .empty (utf16 (Decoder.text reader.received))

variable {reader : StreamReader} {decoder : Decoder} {state after : ReadState} {event : ReadEvent}

theorem utf16_append (first second : List Char) :
    utf16 (first ++ second) = utf16 first ++ utf16 second := List.flatMap_append

theorem StreamReader.InStep.waiting (inStep : reader.InStep) :
    Waiting reader.maxLineLength reader.lines := by
  rw [StreamReader.InStep] at inStep
  rw [inStep]
  exact (Waiting.empty _).scan _

theorem StreamReader.InStep.faithful (inStep : reader.InStep) (goes : reader.status ≠ .ended) :
    reader.Faithful := by
  rw [StreamReader.Faithful, if_neg goes, linesReadAlone,
    consumeDecodedText_eq_scan (Waiting.empty _), inStep]
  rfl

theorem StreamReader.InStep.chunkRead (inStep : reader.InStep) {bytes : List UInt8}
    (same : (decoder.decode bytes).1 = ((Decoder.after reader.received).decode bytes).1) :
    (reader.chunkRead bytes (decoder.decode bytes).1).InStep := by
  show consumeDecodedText reader.maxLineLength reader.lines (utf16 (decoder.decode bytes).1) =
    scan reader.maxLineLength .empty (utf16 (Decoder.text (reader.received ++ bytes)))
  rw [consumeDecodedText_eq_scan inStep.waiting, Decoder.text_append, utf16_append, scan_append,
    same, ← inStep]

theorem StreamReader.InStep.endRead (inStep : reader.InStep)
    (same : decoder.finish.1 = (Decoder.after reader.received).finish.1) :
    (reader.endRead decoder.finish.1).Faithful := by
  show (emitRest (consumeDecodedText reader.maxLineLength reader.lines
      (utf16 decoder.finish.1))).emitted =
    linesOf reader.maxLineLength (utf16 (Utf8.decode reader.received))
  rw [consumeDecodedText_eq_scan inStep.waiting, Decoder.decode_eq_text, utf16_append, same,
    ← emitted_of_text, scan_append, ← inStep]

theorem decode_eq_of_agrees {bytes : List UInt8}
    (check : (bytes.isEmpty || agrees decoder reader bytes) = true) :
    (decoder.decode bytes).1 = ((Decoder.after reader.received).decode bytes).1 := by
  rw [Bool.or_eq_true] at check
  rcases check with none | agreed
  · rw [List.isEmpty_iff.mp none, Decoder.decode_nil, Decoder.decode_nil]
  · simp only [agrees, Bool.and_eq_true, Bool.or_eq_true, decide_eq_true_eq, beq_iff_eq] at agreed
    exact Decoder.decode_congr agreed.1 agreed.2

theorem reading_eq_some {stream : Nat} (found : state.reading stream = some reader) :
    state.readers[stream]? = some reader ∧ reader.status = .reading := by
  rw [ReadState.reading, Option.filter_eq_some_iff] at found
  exact ⟨found.1, by simpa using found.2⟩

def Separate (state : ReadState) : Prop :=
  ∀ reader ∈ state.readers,
    (reader.status ≠ .ended → reader.InStep) ∧ (reader.status = .ended → reader.Faithful)

theorem Separate.set (separate : Separate state) (stream : Nat) {changed : StreamReader}
    (decoder : Decoder) (inStep : changed.status ≠ .ended → changed.InStep)
    (faithful : changed.status = .ended → changed.Faithful) :
    Separate { decoder, readers := state.readers.set stream changed } := by
  intro reader member
  rcases List.mem_or_eq_of_mem_set member with before | rfl
  · exact separate reader before
  · exact ⟨inStep, faithful⟩

theorem Separate.step (separate : Separate state) (check : undisturbed state event = true)
    (stepped : readStep state event = some after) : Separate after := by
  cases event with
  | chunkRead stream bytes =>
    obtain ⟨reader, found, rfl⟩ := Option.map_eq_some_iff.mp stepped
    obtain ⟨present, goes⟩ := reading_eq_some found
    have inStep := (separate reader (List.mem_of_getElem? present)).1 (by simp [goes])
    have same : (state.decoder.decode bytes).1 =
        ((Decoder.after reader.received).decode bytes).1 :=
      decode_eq_of_agrees (by simpa [undisturbed, present] using check)
    refine separate.set stream _ (fun _ => inStep.chunkRead same) ?_
    intro ended
    exact absurd (goes.symm.trans ended) (by simp)
  | ended stream =>
    obtain ⟨reader, found, rfl⟩ := Option.map_eq_some_iff.mp stepped
    obtain ⟨present, goes⟩ := reading_eq_some found
    have inStep := (separate reader (List.mem_of_getElem? present)).1 (by simp [goes])
    have same : state.decoder.finish.1 = (Decoder.after reader.received).finish.1 := by
      refine Decoder.finish_congr ?_
      simpa [undisturbed, present] using check
    exact separate.set stream _ (fun goesOn => absurd rfl goesOn) fun _ => inStep.endRead same
  | failed stream =>
    obtain ⟨reader, found, rfl⟩ := Option.map_eq_some_iff.mp stepped
    obtain ⟨present, goes⟩ := reading_eq_some found
    have inStep := (separate reader (List.mem_of_getElem? present)).1 (by simp [goes])
    refine separate.set stream _ (fun _ => inStep) ?_
    intro ended
    exact absurd ended (by simp)

theorem Separate.initial (limits : List Int) : Separate (ReadState.initial limits) := by
  intro reader member
  obtain ⟨limit, -, rfl⟩ := List.mem_map.mp member
  exact ⟨fun _ => rfl, fun ended => absurd ended (by simp [startReading])⟩

theorem lines_per_stream {limits : List Int}
    (reached : Reaches readStep (fun state event => undisturbed state event = true)
      (ReadState.initial limits) state) : ∀ reader ∈ state.readers, reader.Faithful := by
  have separate := reached.invariant Separate (Separate.initial limits)
    fun _ _ _ separate check stepped => separate.step check stepped
  intro reader member
  by_cases ended : reader.status = .ended
  · exact (separate reader member).2 ended
  · exact ((separate reader member).1 ended).faithful ended

theorem lines_per_stream_whole : ∃ state : ReadState,
    (state.readers.map fun reader => reader.lines.emitted) =
      [[utf16 "é".toList], [utf16 "ok".toList]] ∧
    ∀ reader ∈ state.readers, reader.Faithful := by
  have ran : (run readStep undisturbed (ReadState.initial [80, 80])
      [.chunkRead 0 [0xC3, 0xA9], .chunkRead 1 [0x6F], .chunkRead 0 [0x0A], .chunkRead 1 [0x6B],
        .ended 0, .ended 1]).map
        (fun state => state.readers.map fun reader => reader.lines.emitted) =
      some [[utf16 "é".toList], [utf16 "ok".toList]] := by
    decide +kernel
  obtain ⟨state, ran, seen⟩ := Option.map_eq_some_iff.mp ran
  exact ⟨state, seen, lines_per_stream (reaches_of_run ran)⟩

theorem lines_mixed : ∃ state,
    Reaches readStep Unrestricted (ReadState.initial [80, 80]) state ∧
      ¬∀ reader ∈ state.readers, reader.Faithful := by
  have ran : (run readStep (fun _ _ => true) (ReadState.initial [80, 80])
      [.chunkRead 0 [0xC3], .chunkRead 1 [0x6F, 0x6B, 0x0A], .chunkRead 0 [0xA9, 0x0A], .ended 0,
        .ended 1]).map
        (fun state => state.readers.any fun reader =>
          decide (reader.status = .ended ∧ reader.lines.emitted ≠
            linesOf reader.maxLineLength (utf16 (Utf8.decode reader.received)))) = some true := by
    decide +kernel
  obtain ⟨state, ran, seen⟩ := Option.map_eq_some_iff.mp ran
  refine ⟨state, (reaches_of_run ran).unrestricted, fun faithful => ?_⟩
  obtain ⟨reader, member, differs⟩ := List.any_eq_true.mp seen
  obtain ⟨ended, wrong⟩ := of_decide_eq_true differs
  have lines := faithful reader member
  rw [StreamReader.Faithful, if_pos ended] at lines
  exact wrong lines

end Metidos.Sidecar
