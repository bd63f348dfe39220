import Metidos.Library.HeadArray
import Metidos.Terminal.TerminalCore

/-!
The class `TerminalOutputBuffer` with its head indices and its index of clean lines, and that its
segments are those of `TerminalCore`.
-/

namespace Metidos.Terminal

def TERMINAL_RETAINED_LINE_CAP : Nat := 50000

def TERMINAL_BUFFER_COMPACTION_HEAD_MINIMUM : Nat := 128

def lineFeed : Nat := 10

def carriageReturn : Nat := 13

def splitLineFeeds : Units → List Units
  | [] => [[]]
  | unit :: rest =>
    if unit = lineFeed then [] :: splitLineFeeds rest
    else
      match splitLineFeeds rest with
      | [] => [[unit]]
      | first :: later => (unit :: first) :: later

structure TerminalLineEntry where
  byteLength : Nat
  text : Units
  deriving DecidableEq

structure TerminalLines where
  lineByteLength : Nat
  lineEntries : HeadArray TerminalLineEntry
  deriving DecidableEq

namespace TerminalLines

def new : TerminalLines := ⟨0, .ofList [⟨0, []⟩]⟩

variable (lines : TerminalLines)

def cleanLineCount : Nat := lines.lineEntries.retained.length

def current : TerminalLineEntry := lines.lineEntries.last?.getD ⟨0, []⟩

def setCurrent (text : Units) : TerminalLines where
  lineByteLength := lines.lineByteLength - lines.current.byteLength + encodedSize text
  lineEntries := lines.lineEntries.replaceLast ⟨encodedSize text, text⟩

def closeCurrent : TerminalLines :=
  if lines.current.text.getLast? = some carriageReturn then
    lines.setCurrent lines.current.text.dropLast
  else lines

def openLine : TerminalLines := { lines with lineEntries := lines.lineEntries.push ⟨0, []⟩ }

def appendPart (part : Units) : TerminalLines :=
  if part = [] then lines else lines.setCurrent (lines.current.text ++ part)

def compactLineEntries : TerminalLines :=
  { lines with
    lineEntries := lines.lineEntries.compact TERMINAL_BUFFER_COMPACTION_HEAD_MINIMUM }

def appendLineEntries (text : Units) : TerminalLines :=
  let started := if lines.lineEntries.last? = none then lines.openLine else lines
  match splitLineFeeds text with
  | [] => started.compactLineEntries
  | first :: later =>
    (later.foldl (fun lines part => (lines.closeCurrent.openLine).appendPart part)
      (started.appendPart first)).compactLineEntries

def trimLoop (maxBytes : Nat) (lines : TerminalLines) : TerminalLines :=
  if maxBytes < lines.lineByteLength ∨ TERMINAL_RETAINED_LINE_CAP < lines.cleanLineCount then
    match _found : lines.lineEntries.first? with
    | none => lines
    | some entry =>
      let overflowBytes := lines.lineByteLength - maxBytes
      if TERMINAL_RETAINED_LINE_CAP < lines.cleanLineCount ∨
          entry.byteLength ≤ overflowBytes then
        trimLoop maxBytes
          { lineByteLength := lines.lineByteLength - entry.byteLength
            lineEntries := lines.lineEntries.advance }
      else
        let keptText := trimStringToMaxBytes entry.text (entry.byteLength - overflowBytes)
        let keptByteLength := encodedSize keptText
        { lineByteLength := lines.lineByteLength - entry.byteLength + keptByteLength
          lineEntries := lines.lineEntries.replaceFirst ⟨keptByteLength, keptText⟩ }
  else lines
termination_by lines.lineEntries.retained.length
decreasing_by exact HeadArray.advance_shorter ‹_›

def trimLineEntriesToMaxBytes (maxBytes : Nat) : TerminalLines :=
  if maxBytes = 0 then lines else (trimLoop maxBytes lines).compactLineEntries

end TerminalLines

structure TerminalReplayBuffer where
  maxBytes : Nat
  byteLength : Nat
  segments : HeadArray TerminalOutputSegment
  lines : TerminalLines
  deriving DecidableEq

namespace TerminalReplayBuffer

def new (maxBytes : Nat) : TerminalReplayBuffer where
  maxBytes := maxBytes
  byteLength := 0
  segments := .ofList []
  lines := .new

def trimLoop (maxBytes byteLength : Nat) (segments : HeadArray TerminalOutputSegment) :
    Nat × HeadArray TerminalOutputSegment :=
  if maxBytes < byteLength then
    match _found : segments.first? with
    | none => (byteLength, segments)
    | some segment =>
      let overflowBytes := byteLength - maxBytes
      if segment.byteLength ≤ overflowBytes then
        trimLoop maxBytes (byteLength - segment.byteLength) segments.advance
      else
        let keptText := trimStringToMaxBytes segment.text (segment.byteLength - overflowBytes)
        let keptByteLength := encodedSize keptText
        (byteLength - segment.byteLength + keptByteLength,
          segments.replaceFirst ⟨keptByteLength, keptText⟩)
  else (byteLength, segments)
termination_by segments.retained.length
decreasing_by exact HeadArray.advance_shorter ‹_›

variable (buffer : TerminalReplayBuffer)

def trimToMaxBytes : TerminalReplayBuffer :=
  if buffer.maxBytes = 0 then buffer
  else
    let (byteLength, segments) := trimLoop buffer.maxBytes buffer.byteLength buffer.segments
    { buffer with
      byteLength
      segments := segments.compact TERMINAL_BUFFER_COMPACTION_HEAD_MINIMUM }

def segmentText (maxBytes : Nat) (text : Units) : Units :=
  if 0 < maxBytes ∧ maxBytes < encodedSize text then trimStringToMaxBytes text maxBytes else text

def append (text : Units) : TerminalReplayBuffer :=
  if text = [] then buffer
  else
    let kept := segmentText buffer.maxBytes text
    let pushed : TerminalReplayBuffer :=
      { buffer with
        segments := buffer.segments.push ⟨encodedSize kept, kept⟩
        byteLength := buffer.byteLength + encodedSize kept
        lines := buffer.lines.appendLineEntries kept }
    let trimmed := pushed.trimToMaxBytes
    { trimmed with lines := trimmed.lines.trimLineEntriesToMaxBytes buffer.maxBytes }

def toUnits : Units := buffer.segments.retained.flatMap TerminalOutputSegment.text

def lineTexts : List Units := buffer.lines.lineEntries.retained.map TerminalLineEntry.text

def toOutputBuffer : TerminalOutputBuffer where
  maxBytes := buffer.maxBytes
  byteLength := buffer.byteLength
  segments := buffer.segments.retained

theorem toUnits_toOutputBuffer : buffer.toOutputBuffer.toUnits = buffer.toUnits := rfl

theorem trimLoop_retained (maxBytes byteLength : Nat)
    (segments : HeadArray TerminalOutputSegment) :
    ((trimLoop maxBytes byteLength segments).1,
        (trimLoop maxBytes byteLength segments).2.retained) =
      TerminalOutputBuffer.trimSegments maxBytes byteLength segments.retained := by
  fun_induction trimLoop maxBytes byteLength segments with
  | case1 byteLength segments above ended =>
    rw [HeadArray.first?_eq, List.head?_eq_none_iff] at ended
    rw [ended]
    rfl
  | case2 byteLength segments above segment found overflowBytes whole ih =>
    rw [HeadArray.first?_eq, List.head?_eq_some_iff] at found
    obtain ⟨rest, before⟩ := found
    rw [ih, HeadArray.retained_advance, before, List.tail_cons,
      TerminalOutputBuffer.trimSegments, if_neg (Nat.not_le_of_lt above), if_pos whole]
  | case3 byteLength segments above segment found overflowBytes part keptText keptByteLength =>
    rw [HeadArray.first?_eq, List.head?_eq_some_iff] at found
    obtain ⟨rest, before⟩ := found
    rw [HeadArray.retained_replaceFirst before, before, TerminalOutputBuffer.trimSegments,
      if_neg (Nat.not_le_of_lt above), if_neg part]
  | case4 byteLength segments fits =>
    cases before : segments.retained with
    | nil => rfl
    | cons segment rest =>
      rw [TerminalOutputBuffer.trimSegments, if_pos (Nat.le_of_not_lt fits)]

theorem trimToMaxBytes_toOutputBuffer :
    buffer.trimToMaxBytes.toOutputBuffer = buffer.toOutputBuffer.trimToMaxBytes := by
  have loops := trimLoop_retained buffer.maxBytes buffer.byteLength buffer.segments
  have cap : buffer.toOutputBuffer.maxBytes = buffer.maxBytes := rfl
  rw [trimToMaxBytes, TerminalOutputBuffer.trimToMaxBytes, cap]
  by_cases unbounded : buffer.maxBytes = 0
  · rw [if_pos unbounded, if_pos unbounded]
  · rw [if_neg unbounded, if_neg unbounded]
    simp only [toOutputBuffer, HeadArray.retained_compact, ← loops]

theorem append_toOutputBuffer (text : Units) :
    (buffer.append text).toOutputBuffer = buffer.toOutputBuffer.append text := by
  rw [append, TerminalOutputBuffer.append]
  split
  · rfl
  · have pushed := @HeadArray.retained_push _ buffer.segments
      ⟨encodedSize (segmentText buffer.maxBytes text), segmentText buffer.maxBytes text⟩
    refine (trimToMaxBytes_toOutputBuffer _).trans ?_
    simp only [toOutputBuffer, pushed]
    rfl

end TerminalReplayBuffer

end Metidos.Terminal
