import Metidos.Library.Transition
import Metidos.Terminal.CleanLines
import Metidos.Terminal.ReplaySizes

/-!
The index of clean lines: a chunk continues its last line, and the trimming leaves its last lines
and counts them right.
-/

namespace Metidos.Terminal

def lineEntry (text : Units) : TerminalLineEntry := ⟨encodedSize text, text⟩

def linesSize (texts : List Units) : Nat := (texts.map encodedSize).sum

theorem linesSize_cons (text : Units) (texts : List Units) :
    linesSize (text :: texts) = encodedSize text + linesSize texts := by
  rw [linesSize, List.map_cons, List.sum_cons, linesSize]

theorem linesSize_append (first second : List Units) :
    linesSize (first ++ second) = linesSize first + linesSize second := by
  rw [linesSize, List.map_append, List.sum_append, linesSize, linesSize]

namespace TerminalLines

structure Shows (lines : TerminalLines) (texts : List Units) : Prop where
  entries : lines.lineEntries.retained = texts.map lineEntry
  total : lines.lineByteLength = linesSize texts

variable {lines : TerminalLines} {front texts : List Units} {last : Units}

theorem new_shows : new.Shows [[]] := ⟨rfl, rfl⟩

theorem Shows.count (shows' : lines.Shows texts) : lines.cleanLineCount = texts.length := by
  rw [cleanLineCount, shows'.entries, List.length_map]

theorem Shows.compact (shows' : lines.Shows texts) : lines.compactLineEntries.Shows texts :=
  ⟨(HeadArray.retained_compact _).trans shows'.entries, shows'.total⟩

theorem Shows.split (shows' : lines.Shows (front ++ [last])) :
    lines.lineEntries.retained = front.map lineEntry ++ [lineEntry last] := by
  rw [shows'.entries, List.map_append, List.map_singleton]

theorem Shows.current (shows' : lines.Shows (front ++ [last])) :
    lines.current = lineEntry last := by
  rw [TerminalLines.current, HeadArray.last?_eq shows'.split, Option.getD_some]

theorem Shows.setCurrent (shows' : lines.Shows (front ++ [last])) (text : Units) :
    (lines.setCurrent text).Shows (front ++ [text]) := by
  have total := shows'.total
  refine ⟨?_, ?_⟩
  · rw [List.map_append, List.map_singleton]
    exact HeadArray.retained_replaceLast shows'.split _
  · rw [linesSize_append, linesSize_cons] at total
    rw [TerminalLines.setCurrent, shows'.current, linesSize_append, linesSize_cons]
    simp only [lineEntry]
    omega

theorem Shows.closeCurrent (shows' : lines.Shows (front ++ [last])) :
    lines.closeCurrent.Shows (front ++ [stripReturn last]) := by
  rw [TerminalLines.closeCurrent, stripReturn, shows'.current, lineEntry]
  split
  · exact shows'.setCurrent _
  · exact shows'

theorem Shows.openLine (shows' : lines.Shows texts) : lines.openLine.Shows (texts ++ [[]]) := by
  refine ⟨?_, ?_⟩
  · rw [TerminalLines.openLine, HeadArray.retained_push, shows'.entries, List.map_append]
    rfl
  · rw [linesSize_append]
    exact shows'.total

theorem Shows.appendPart (shows' : lines.Shows (front ++ [last])) (part : Units) :
    (lines.appendPart part).Shows (front ++ [last ++ part]) := by
  rw [TerminalLines.appendPart]
  split
  · rename_i none
    rw [none, List.append_nil]
    exact shows'
  · rw [shows'.current]
    exact shows'.setCurrent _

theorem Shows.appendParts (shows' : lines.Shows (front ++ [last])) (parts : List Units) :
    (parts.foldl (fun lines part => (lines.closeCurrent.openLine).appendPart part) lines).Shows
      (front ++ endLines last parts) := by
  induction parts generalizing lines front last with
  | nil => exact shows'
  | cons part parts ih =>
    have next := shows'.closeCurrent.openLine.appendPart part
    rw [List.nil_append] at next
    have later := ih next
    rw [List.append_assoc] at later
    exact later

theorem Shows.appendLineEntries (shows' : lines.Shows (front ++ [last]))
    (plain : lineFeed ∉ last) (text : Units) :
    (lines.appendLineEntries text).Shows (continueLines (front ++ [last]) text) := by
  obtain ⟨part, parts, isSplit, ends⟩ := linesOf_parts plain text
  have started : lines.lineEntries.last? ≠ none := by
    rw [HeadArray.last?_eq shows'.split]
    exact Option.some_ne_none _
  rw [TerminalLines.appendLineEntries, if_neg started, isSplit, continueLines_append, ends]
  exact ((shows'.appendPart part).appendParts parts).compact

structure TrimmedTo (maxBytes : Nat) (all kept : List Units) : Prop where
  small : linesSize kept ≤ maxBytes
  last : ∃ dropped whole cut later, kept = cut :: later ∧ all = dropped ++ whole :: later ∧
    cut <:+ whole ∧ (cut = whole ∨ linesSize later < maxBytes)

theorem TrimmedTo.lastLines {maxBytes : Nat} {all kept : List Units}
    (trimmed : TrimmedTo maxBytes all kept) : LastLines kept all := by
  obtain ⟨dropped, whole, cut, later, isKept, isAll, isCut, -⟩ := trimmed.last
  exact ⟨dropped, whole, cut, later, isKept, isAll, isCut⟩

theorem Shows.first (shows' : lines.Shows texts) {entry : TerminalLineEntry}
    (found : lines.lineEntries.first? = some entry) :
    ∃ text later, texts = text :: later ∧ entry = lineEntry text := by
  rw [HeadArray.first?_eq, shows'.entries] at found
  cases texts with
  | nil => cases found
  | cons text later => exact ⟨text, later, rfl, (Option.some.inj found).symm⟩

theorem trimLoop_spec {maxBytes : Nat} (positive : 0 < maxBytes) (shows' : lines.Shows texts)
    (some' : texts ≠ []) :
    ∃ kept, (trimLoop maxBytes lines).Shows kept ∧ TrimmedTo maxBytes texts kept := by
  fun_induction trimLoop maxBytes lines generalizing texts with
  | case1 lines above ended =>
    rw [HeadArray.first?_eq, shows'.entries, List.head?_eq_none_iff, List.map_eq_nil_iff] at ended
    exact absurd ended some'
  | case2 lines above entry found overflowBytes whole =>
    rename_i ih
    obtain ⟨text, later, rfl, rfl⟩ := shows'.first found
    have total := shows'.total
    have count := shows'.count
    rw [linesSize_cons] at total
    have advanced : TerminalLines.Shows
        { lineByteLength := lines.lineByteLength - (lineEntry text).byteLength
          lineEntries := lines.lineEntries.advance } later := by
      refine ⟨?_, ?_⟩
      · rw [HeadArray.retained_advance, shows'.entries]
        rfl
      · simp only [lineEntry]
        omega
    have more : later ≠ [] := by
      rintro rfl
      simp only [List.length_singleton, linesSize, List.map_nil, List.sum_nil,
        TERMINAL_RETAINED_LINE_CAP, lineEntry, overflowBytes] at count total above whole
      omega
    obtain ⟨kept, shown, small, dropped, full, cut, rest, isKept, isLater, isCut, room⟩ :=
      ih advanced more
    exact ⟨kept, shown, small, text :: dropped, full, cut, rest, isKept,
      congrArg (List.cons text) isLater, isCut, room⟩
  | case3 lines above entry found overflowBytes part keptText =>
    rename_i keptByteLength
    obtain ⟨text, later, rfl, rfl⟩ := shows'.first found
    have total := shows'.total
    rw [linesSize_cons] at total
    rw [not_or] at part
    simp only [lineEntry, overflowBytes] at part
    have room : linesSize later < maxBytes := by omega
    have small := trimString_size text
      (show 0 < encodedSize text - (lines.lineByteLength - maxBytes) by omega)
    refine ⟨keptText :: later, ⟨?_, ?_⟩, ?_, [], text, keptText, later, rfl, rfl,
      trimString_suffix _ _, Or.inr room⟩
    · exact HeadArray.retained_replaceFirst shows'.entries _
    · rw [linesSize_cons]
      simp only [lineEntry, keptByteLength]
      omega
    · rw [linesSize_cons]
      simp only [keptText, lineEntry, overflowBytes]
      omega
  | case4 lines fits =>
    rw [not_or, Nat.not_lt] at fits
    refine ⟨texts, shows', shows'.total ▸ fits.1, ?_⟩
    cases texts with
    | nil => exact absurd rfl some'
    | cons text later => exact ⟨[], text, text, later, rfl, rfl, List.suffix_rfl, Or.inl rfl⟩

theorem Shows.trimLineEntries {maxBytes : Nat} (positive : 0 < maxBytes)
    (shows' : lines.Shows texts) (some' : texts ≠ []) :
    ∃ kept, (lines.trimLineEntriesToMaxBytes maxBytes).Shows kept ∧
      TrimmedTo maxBytes texts kept := by
  obtain ⟨kept, shown, trimmed⟩ := trimLoop_spec positive shows' some'
  rw [trimLineEntriesToMaxBytes, if_neg (Nat.ne_of_gt positive)]
  exact ⟨kept, shown.compact, trimmed⟩

end TerminalLines

end Metidos.Terminal

/-!
The replay buffer against all the text that was appended: what it replays is the end of it within
the cap, the lines it keeps are the last ones, and its counters are their sizes, as long as no
chunk above the cap is cut behind earlier output that stays.
-/

namespace Metidos.Terminal

open TerminalLines TerminalReplayBuffer Transition

structure TerminalTranscript where
  buffer : TerminalReplayBuffer
  appended : Units
  deriving DecidableEq

def TerminalTranscript.initial (maxBytes : Nat) : TerminalTranscript := ⟨.new maxBytes, []⟩

def replayStep (transcript : TerminalTranscript) (text : Units) : Option TerminalTranscript :=
  some ⟨transcript.buffer.append text, transcript.appended ++ text⟩

/-- A chunk is within the cap; or it is cut before it is appended and there is no earlier output,
or what is kept of it fills the cap, has no line feed and follows no empty line. -/
def isAppendable (transcript : TerminalTranscript) (text : Units) : Bool :=
  let buffer := transcript.buffer
  let kept := trimStringToMaxBytes text buffer.maxBytes
  encodedSize text ≤ buffer.maxBytes ∨
    (buffer.toUnits = [] ∧ buffer.lineTexts = [[]]) ∨
    (encodedSize kept = buffer.maxBytes ∧ lineFeed ∉ kept ∧ ¬[[], []] <:+ buffer.lineTexts)

def Appendable (transcript : TerminalTranscript) (text : Units) : Prop :=
  isAppendable transcript text = true

theorem segmentText_suffix (maxBytes : Nat) (text : Units) : segmentText maxBytes text <:+ text := by
  rw [segmentText]
  split
  · exact trimString_suffix text maxBytes
  · exact List.suffix_rfl

theorem segmentText_whole {maxBytes : Nat} {text : Units} (fits : encodedSize text ≤ maxBytes) :
    segmentText maxBytes text = text :=
  if_neg fun above => absurd fits (Nat.not_le_of_lt above.2)

theorem segmentText_cut {maxBytes : Nat} {text : Units} (positive : 0 < maxBytes)
    (above : maxBytes < encodedSize text) :
    segmentText maxBytes text = trimStringToMaxBytes text maxBytes := if_pos ⟨positive, above⟩

theorem trimToMaxBytes_spec {buffer : TerminalOutputBuffer} (positive : 0 < buffer.maxBytes)
    (counts : CountsSegments buffer.byteLength buffer.segments) :
    CountsSegments buffer.trimToMaxBytes.byteLength buffer.trimToMaxBytes.segments ∧
      buffer.trimToMaxBytes.byteLength ≤ buffer.maxBytes ∧
      buffer.trimToMaxBytes.toUnits <:+ buffer.toUnits := by
  rw [TerminalOutputBuffer.trimToMaxBytes, if_neg (Nat.ne_of_gt positive)]
  exact trimSegments_spec counts

theorem appendSegment_spec {buffer : TerminalOutputBuffer} (positive : 0 < buffer.maxBytes)
    (counts : CountsSegments buffer.byteLength buffer.segments) {text : Units}
    (some' : text ≠ []) :
    CountsSegments (buffer.append text).byteLength (buffer.append text).segments ∧
      (buffer.append text).byteLength ≤ buffer.maxBytes ∧
      (buffer.append text).toUnits <:+ buffer.toUnits ++ segmentText buffer.maxBytes text := by
  have pushed : CountsSegments
      (buffer.byteLength + encodedSize (segmentText buffer.maxBytes text))
      (buffer.segments ++ [⟨encodedSize (segmentText buffer.maxBytes text),
        segmentText buffer.maxBytes text⟩]) := by
    refine ⟨?_, ?_⟩
    · intro segment member
      rcases List.mem_append.mp member with old | isNew
      · exact counts.sizes segment old
      · rw [List.mem_singleton.mp isNew]
    · rw [List.map_append, List.sum_append, ← counts.total]
      rfl
  have trimmed := @trimToMaxBytes_spec { buffer with
    byteLength := buffer.byteLength + encodedSize (segmentText buffer.maxBytes text)
    segments := buffer.segments ++ [⟨encodedSize (segmentText buffer.maxBytes text),
      segmentText buffer.maxBytes text⟩] } positive pushed
  rw [TerminalOutputBuffer.append, if_neg some']
  refine ⟨trimmed.1, trimmed.2.1, ?_⟩
  refine trimmed.2.2.trans ?_
  rw [TerminalOutputBuffer.toUnits, List.flatMap_append]
  simp [TerminalOutputBuffer.toUnits]

theorem append_lines (buffer : TerminalReplayBuffer) {text : Units} (some' : text ≠ []) :
    (buffer.append text).lines =
      (buffer.lines.appendLineEntries
        (segmentText buffer.maxBytes text)).trimLineEntriesToMaxBytes buffer.maxBytes := by
  rw [TerminalReplayBuffer.append, if_neg some']
  simp only [TerminalReplayBuffer.trimToMaxBytes]
  split
  · rfl
  · rfl

theorem lineTexts_of_shows {buffer : TerminalReplayBuffer} {texts : List Units}
    (shows' : buffer.lines.Shows texts) : buffer.lineTexts = texts := by
  rw [lineTexts, shows'.entries, List.map_map]
  exact List.map_id texts

theorem LastLines.plain {kept : List Units} {text : Units}
    (last : LastLines kept (linesOf text)) : ∀ line ∈ kept, lineFeed ∉ line := by
  obtain ⟨dropped, whole, cut, later, rfl, all, isCut⟩ := last
  have plain := (linesOf_lines text).1
  rw [all] at plain
  intro line member
  rcases List.mem_cons.mp member with rfl | isLater
  · exact fun feed => plain whole (by simp) (isCut.mem feed)
  · exact plain line (by simp [isLater])

theorem empty_of_size {text : Units} (none : encodedSize text = 0) : text = [] :=
  Classical.byContradiction fun some' => Nat.ne_of_gt (encodedSize_pos some') none

theorem lastLine_empty {before : List Units} (some' : before ≠ [])
    (none : linesSize before = 0) : ∃ front, before = front ++ [[]] := by
  obtain ⟨front, last, rfl⟩ : ∃ front last, before = front ++ [last] :=
    ⟨_, _, (List.dropLast_concat_getLast some').symm⟩
  rw [linesSize_append, linesSize_cons] at none
  have isEmpty : last = [] := empty_of_size (by omega)
  exact ⟨front, by rw [isEmpty]⟩

theorem TerminalLines.TrimmedTo.filled {maxBytes : Nat} {front kept : List Units} {last text : Units}
    (trimmed : TrimmedTo maxBytes (front ++ [last ++ text]) kept)
    (fills : encodedSize text = maxBytes) (apart : ¬[[], []] <:+ front ++ [last]) :
    ∃ cut, kept = [cut] ∧ cut <:+ text := by
  obtain ⟨small, dropped, whole, cut, later, rfl, all, isCut, room⟩ := trimmed
  rcases List.eq_nil_or_concat later with rfl | ⟨middle, final, rfl⟩
  · obtain ⟨-, isWhole⟩ := List.append_inj' all rfl
    have isLast := (List.singleton_inj.mp isWhole).symm
    subst isLast
    refine ⟨cut, rfl, suffix_of_size isCut ?_⟩
    rw [linesSize_cons] at small
    omega
  · rw [List.concat_eq_append] at all small room
    have parts : front ++ [last ++ text] = (dropped ++ whole :: middle) ++ [final] := by
      rw [all, List.append_assoc, List.cons_append]
    obtain ⟨isFront, isFinal⟩ := List.append_inj' parts rfl
    rw [← List.singleton_inj.mp isFinal] at small room
    have least := encodedSize_le_append last text
    rw [linesSize_cons, linesSize_append, linesSize_cons] at small
    rw [linesSize_append, linesSize_cons] at room
    have isWhole : cut = whole := by
      rcases room with same | room
      · exact same
      · omega
    subst isWhole
    have noLast : last = [] := by
      cases last with
      | nil => rfl
      | cons unit rest =>
        have larger := encodedSize_cons_lt unit (rest ++ text)
        have restLeast := encodedSize_le_append rest text
        rw [List.cons_append] at small
        omega
    obtain ⟨earlier, isEarlier⟩ := lastLine_empty (List.cons_ne_nil cut middle)
      (by rw [linesSize_cons]; omega)
    refine absurd ⟨dropped ++ earlier, ?_⟩ apart
    rw [isFront, isEarlier, noLast, List.append_assoc, List.append_assoc, List.append_assoc]
    rfl

structure Replays (maxBytes : Nat) (transcript : TerminalTranscript) : Prop where
  cap : transcript.buffer.maxBytes = maxBytes
  counts : CountsSegments transcript.buffer.byteLength transcript.buffer.segments.retained
  bounded : transcript.buffer.byteLength ≤ maxBytes
  suffix : transcript.buffer.toUnits <:+ transcript.appended
  shown : transcript.buffer.lines.Shows transcript.buffer.lineTexts
  last : LastLines transcript.buffer.lineTexts (linesOf transcript.appended)

theorem initial_replays (maxBytes : Nat) : Replays maxBytes (.initial maxBytes) where
  cap := rfl
  counts := ⟨fun _ member => absurd member List.not_mem_nil, rfl⟩
  bounded := Nat.zero_le _
  suffix := List.suffix_rfl
  shown := new_shows
  last := LastLines.refl (List.cons_ne_nil _ _)

variable {maxBytes : Nat} {transcript next : TerminalTranscript} {text : Units}

theorem Replays.append_suffix (replays : Replays maxBytes transcript) (positive : 0 < maxBytes)
    (may : Appendable transcript text) (some' : text ≠ []) :
    CountsSegments (transcript.buffer.append text).byteLength
        (transcript.buffer.append text).segments.retained ∧
      (transcript.buffer.append text).byteLength ≤ maxBytes ∧
      (transcript.buffer.append text).toUnits <:+ transcript.appended ++ text := by
  have isCap := replays.cap
  subst isCap
  have spec := @appendSegment_spec transcript.buffer.toOutputBuffer positive replays.counts text
    some'
  rw [← append_toOutputBuffer] at spec
  obtain ⟨counts, bounded, isEnd⟩ := spec
  refine ⟨counts, bounded, ?_⟩
  rw [toUnits_toOutputBuffer, toUnits_toOutputBuffer] at isEnd
  have keptEnd := (segmentText_suffix transcript.buffer.maxBytes text).trans
    (List.suffix_append transcript.appended text)
  by_cases fits : encodedSize text ≤ transcript.buffer.maxBytes
  · have whole : segmentText transcript.buffer.toOutputBuffer.maxBytes text = text :=
      segmentText_whole fits
    rw [whole] at isEnd
    obtain ⟨front, isFront⟩ := replays.suffix
    exact isEnd.trans ⟨front, by rw [← List.append_assoc, isFront]⟩
  · rcases of_decide_eq_true may with within | ⟨none, -⟩ | ⟨fills, -⟩
    · exact absurd within fits
    · rw [none, List.nil_append] at isEnd
      exact isEnd.trans keptEnd
    · rw [← segmentText_cut positive (Nat.lt_of_not_le fits)] at fills
      refine (suffix_of_size isEnd ?_).trans keptEnd
      exact Nat.le_trans (Nat.le_trans counts.text_size bounded) (Nat.le_of_eq fills.symm)

theorem Replays.append_last (replays : Replays maxBytes transcript) (positive : 0 < maxBytes)
    (may : Appendable transcript text) (some' : text ≠ []) :
    (transcript.buffer.append text).lines.Shows (transcript.buffer.append text).lineTexts ∧
      LastLines (transcript.buffer.append text).lineTexts
        (linesOf (transcript.appended ++ text)) := by
  have isCap := replays.cap
  subst isCap
  have plain := replays.last.plain
  have apart := of_decide_eq_true may
  have last := replays.last
  have shown := replays.shown
  generalize transcript.buffer.lineTexts = texts at plain apart last shown
  obtain ⟨front, final, rfl⟩ : ∃ front final, texts = front ++ [final] := by
    obtain ⟨dropped, whole, cut, later, rfl, -⟩ := last
    exact ⟨_, _, (List.dropLast_concat_getLast (List.cons_ne_nil cut later)).symm⟩
  have continued := shown.appendLineEntries (plain final (by simp))
    (segmentText transcript.buffer.maxBytes text)
  obtain ⟨kept, isKept, trimmed⟩ := continued.trimLineEntries positive
    (by
      rw [continueLines_append]
      exact List.append_ne_nil_of_right_ne_nil _ (linesOf_ne_nil _))
  rw [← append_lines transcript.buffer some'] at isKept
  rw [lineTexts_of_shows isKept]
  refine ⟨isKept, ?_⟩
  obtain ⟨lost, isText⟩ := segmentText_suffix transcript.buffer.maxBytes text
  have keptLast : LastLines (linesOf (segmentText transcript.buffer.maxBytes text))
      (linesOf (transcript.appended ++ text)) := by
    have ended := lastLines_append (transcript.appended ++ lost)
      (segmentText transcript.buffer.maxBytes text)
    rwa [List.append_assoc, isText] at ended
  by_cases fits : encodedSize text ≤ transcript.buffer.maxBytes
  · rw [segmentText_whole fits] at trimmed
    rw [linesOf_append]
    exact trimmed.lastLines.trans (last.continue' text)
  · rcases apart with within | ⟨-, none⟩ | ⟨fills, noFeed, apart⟩
    · exact absurd within fits
    · rw [none] at trimmed
      exact trimmed.lastLines.trans keptLast
    · rw [← segmentText_cut positive (Nat.lt_of_not_le fits)] at fills noFeed
      have noFeeds : lineFeed ∉ final ++ segmentText transcript.buffer.maxBytes text := by
        rw [List.mem_append, not_or]
        exact ⟨plain final (by simp), noFeed⟩
      rw [continueLines_append, linesOf_plain noFeeds] at trimmed
      obtain ⟨cut, rfl, isCut⟩ := trimmed.filled fills apart
      rw [linesOf_plain noFeed] at keptLast
      refine LastLines.trans ?_ keptLast
      exact ⟨[], _, cut, [], rfl, rfl, isCut⟩

theorem Replays.step (replays : Replays maxBytes transcript) (positive : 0 < maxBytes)
    (may : Appendable transcript text) (step : replayStep transcript text = some next) :
    Replays maxBytes next := by
  cases step
  by_cases none : text = []
  · subst none
    rw [List.append_nil]
    exact replays
  · obtain ⟨counts, bounded, isEnd⟩ := replays.append_suffix positive may none
    obtain ⟨shown, last⟩ := replays.append_last positive may none
    refine ⟨?_, counts, bounded, isEnd, shown, last⟩
    rw [TerminalReplayBuffer.append, if_neg none, ← replays.cap]
    simp only [TerminalReplayBuffer.trimToMaxBytes]
    split
    · rfl
    · rfl

theorem reaches_replays (positive : 0 < maxBytes)
    (reached : Reaches replayStep Appendable (.initial maxBytes) transcript) :
    Replays maxBytes transcript :=
  reached.invariant (Replays maxBytes) (initial_replays maxBytes)
    fun _ _ _ replays may step => replays.step positive may step

theorem LastLines.tail_suffix {kept all : List Units} (last : LastLines kept all) :
    kept.tail <:+ all := by
  obtain ⟨dropped, whole, cut, later, rfl, rfl, -⟩ := last
  exact ⟨dropped ++ [whole], by rw [List.append_assoc]; rfl⟩

/-- In every run the buffer replays the end of what it was given, within the cap, its counters are
the sizes of what it keeps, and its lines are the last ones; after the same text in other chunks
it keeps the same up to the place of the cut. -/
theorem replay_buffer_faithful (maxBytes : Nat) (positive : 0 < maxBytes)
    (transcript : TerminalTranscript)
    (reached : Reaches replayStep Appendable (.initial maxBytes) transcript) :
    transcript.buffer.toUnits <:+ transcript.appended ∧
      encodedSize transcript.buffer.toUnits ≤ maxBytes ∧
      (transcript.buffer.byteLength =
          (transcript.buffer.segments.retained.map TerminalOutputSegment.byteLength).sum ∧
        ∀ segment ∈ transcript.buffer.segments.retained,
          segment.byteLength = encodedSize segment.text) ∧
      (transcript.buffer.lines.lineByteLength =
          (transcript.buffer.lines.lineEntries.retained.map TerminalLineEntry.byteLength).sum ∧
        ∀ line ∈ transcript.buffer.lines.lineEntries.retained,
          line.byteLength = encodedSize line.text) ∧
      LastLines transcript.buffer.lineTexts (linesOf transcript.appended) ∧
      ∀ other, Reaches replayStep Appendable (.initial maxBytes) other →
        other.appended = transcript.appended →
        (other.buffer.toUnits <:+ transcript.buffer.toUnits ∨
          transcript.buffer.toUnits <:+ other.buffer.toUnits) ∧
        (other.buffer.lineTexts.tail <:+ transcript.buffer.lineTexts.tail ∨
          transcript.buffer.lineTexts.tail <:+ other.buffer.lineTexts.tail) := by
  have replays := reaches_replays positive reached
  refine ⟨replays.suffix, Nat.le_trans replays.counts.text_size replays.bounded,
    ⟨replays.counts.total, replays.counts.sizes⟩, ⟨?_, ?_⟩, replays.last, ?_⟩
  · rw [replays.shown.total, replays.shown.entries, List.map_map]
    rfl
  · intro line member
    rw [replays.shown.entries] at member
    obtain ⟨text, -, rfl⟩ := List.mem_map.mp member
    rfl
  · intro other otherReached same
    have otherReplays := reaches_replays positive otherReached
    have suffix := otherReplays.suffix
    have last := otherReplays.last
    rw [same] at suffix last
    exact ⟨List.suffix_or_suffix_of_suffix suffix replays.suffix,
      List.suffix_or_suffix_of_suffix last.tail_suffix replays.last.tail_suffix⟩

namespace Sample

def replayChunks : List Units := [units "ab\r", units "\ncd", units "e€f"]

def euros : Units := [0x20AC, 0x20AC]

end Sample

theorem replay_buffer_faithful_chunks :
    ∃ transcript : TerminalTranscript,
      transcript.buffer.toUnits = units "de€f" ∧ transcript.buffer.lineTexts = [units "de€f"] ∧
      transcript.buffer.toUnits <:+ transcript.appended := by
  have ran : (Transition.run replayStep isAppendable (.initial 6) Sample.replayChunks).any
      (fun transcript => decide (transcript.buffer.toUnits = units "de€f" ∧
        transcript.buffer.lineTexts = [units "de€f"])) = true := by
    decide +kernel
  obtain ⟨transcript, isRun, facts⟩ := (Option.any_eq_true _ _).mp ran
  obtain ⟨replayed, lines⟩ := of_decide_eq_true facts
  exact ⟨transcript, replayed, lines,
    (replay_buffer_faithful 6 (by decide) transcript (reaches_of_run isRun)).1⟩

/-- Of a chunk above the cap of four bytes the last euro sign is kept, and before it a letter that
was not there. -/
theorem replay_buffer_gap :
    ∃ transcript, Reaches replayStep Unrestricted (.initial 4) transcript ∧
      ¬transcript.buffer.toUnits <:+ transcript.appended := by
  have ran : (Transition.run replayStep (fun _ _ => true) (.initial 4)
      [units "ab", Sample.euros]).any (fun transcript => decide
        (¬transcript.buffer.toUnits <:+ transcript.appended)) = true := by
    decide +kernel
  obtain ⟨transcript, isRun, gap⟩ := (Option.any_eq_true _ _).mp ran
  exact ⟨transcript, (reaches_of_run isRun).unrestricted, of_decide_eq_true gap⟩

end Metidos.Terminal
