import Metidos.Library.JsNumber
import Metidos.Library.KeysetPages
import Metidos.Thread.ActivityWriter

/-!
The pages of the messages of a thread, `listThreadMessagesPage` of `src/bun/db.ts`, and the
messages that a client collects by following `nextCursor` while newer messages are stored.
-/

namespace Metidos.Thread

open KeysetPages

inductive ThreadActivityKind
  | chat
  | reasoning
  | command
  | fileChange
  | toolCall
  | webSearch
  | error
  deriving DecidableEq

structure ThreadMessageRow where
  id : Int
  threadId : Int
  role : MessageRole
  kind : ThreadActivityKind
  itemId : Option Text
  text : Text
  state : Option Text
  payloadJson : Option Text
  createdAt : Text
  updatedAt : Option Text
  deriving DecidableEq

structure ThreadMessageRecord where
  id : Int
  threadId : Int
  role : MessageRole
  kind : ThreadActivityKind
  itemId : Option Text
  text : Text
  state : Option Text
  payloadJson : Option Text
  createdAt : Text
  updatedAt : Text
  deriving DecidableEq

def ThreadMessageRow.record (row : ThreadMessageRow) : ThreadMessageRecord where
  id := row.id
  threadId := row.threadId
  role := row.role
  kind := row.kind
  itemId := row.itemId
  text := row.text
  state := row.state
  payloadJson := row.payloadJson
  createdAt := row.createdAt
  updatedAt := row.updatedAt.getD row.createdAt

/-- The rows with the largest id that the table has given out: `AUTOINCREMENT` gives the next row
the id after it. -/
structure ThreadMessageTable where
  rows : List ThreadMessageRow
  sequence : Int
  numbered : ∀ row ∈ rows, row.id ≤ sequence
  distinct : Distinct ThreadMessageRow.id rows

namespace ThreadMessageTable

variable (table : ThreadMessageTable)

def insert (row : ThreadMessageRow) : ThreadMessageTable where
  rows := table.rows ++ [{ row with id := table.sequence + 1 }]
  sequence := table.sequence + 1
  numbered := by
    intro stored member
    rcases List.mem_append.mp member with before | isNew
    · exact Int.le_trans (table.numbered stored before) (Int.le_add_one (Int.le_refl _))
    · rw [List.mem_singleton.mp isNew]
  distinct := by
    rw [Distinct, List.map_append, List.nodup_append]
    refine ⟨table.distinct, List.nodup_singleton _, fun id member other isNew same => ?_⟩
    obtain ⟨stored, before, isId⟩ := List.mem_map.mp member
    have within := table.numbered stored before
    have isNext : other = table.sequence + 1 := List.mem_singleton.mp isNew
    omega

def insertAll (rows : List ThreadMessageRow) : ThreadMessageTable := rows.foldl insert table

end ThreadMessageTable

def threadMessagesPageDefaultLimit : Nat := 100
def threadMessagesPageMinLimit : Nat := 1
def threadMessagesPageMaxLimit : Nat := 200

def normalizeThreadMessagesPageLimit : Option JsNumber → Nat
  | some (.finite limit) =>
    min threadMessagesPageMaxLimit (max threadMessagesPageMinLimit limit.floor.toNat)
  | _ => threadMessagesPageDefaultLimit

structure ThreadMessagesPage where
  messages : List ThreadMessageRecord
  nextCursor : Option Int
  deriving DecidableEq

/-- `WHERE thread_id = ? AND id < ?`, the second test only with a cursor. -/
def isListed (threadId : Int) (cursor : Option Int) (row : ThreadMessageRow) : Bool :=
  row.threadId == threadId && cursor.all (row.id < ·)

def listThreadMessages (table : ThreadMessageTable) (threadId : Int) : List ThreadMessageRecord :=
  (ascending ThreadMessageRow.id (table.rows.filter fun row => row.threadId == threadId)).map
    ThreadMessageRow.record

def listThreadMessagesPage (table : ThreadMessageTable) (threadId : Int) (cursor : Option Int)
    (limit : Option JsNumber) : ThreadMessagesPage :=
  let limit := normalizeThreadMessagesPageLimit limit
  let rows := ((descending ThreadMessageRow.id
    (table.rows.filter (isListed threadId cursor))).take (limit + 1)).map ThreadMessageRow.record
  let hasMore := limit < rows.length
  let pageRows := (if hasMore then rows.take limit else rows).reverse
  { messages := pageRows
    nextCursor := if hasMore then pageRows.head?.map ThreadMessageRecord.id else none }

/-- The pages from a cursor on, newest first, until `nextCursor` is null; between two requests the
given messages are stored. No answer means that there are more pages than the given number. -/
@[grind =] def followNextCursor (threadId : Int) (limits : Nat → Option JsNumber)
    (stored : Nat → List ThreadMessageRow) :
    Nat → Nat → ThreadMessageTable → Option Int → Option (List (List ThreadMessageRecord))
  | 0, _, _, _ => none
  | pages + 1, request, table, cursor =>
    let page := listThreadMessagesPage table threadId cursor (limits request)
    match page.nextCursor with
    | none => some [page.messages]
    | some next =>
      (followNextCursor threadId limits stored pages (request + 1)
        (table.insertAll (stored request)) (some next)).map (page.messages :: ·)

variable {table : ThreadMessageTable} {threadId cursor : Int} {limit : Option JsNumber}

theorem limit_pos (limit : Option JsNumber) : 0 < normalizeThreadMessagesPageLimit limit := by
  unfold normalizeThreadMessagesPageLimit
  split
  · exact Nat.lt_min.mpr ⟨by decide, Nat.lt_of_lt_of_le (by decide) (Nat.le_max_left _ _)⟩
  · decide

def listedRows (table : ThreadMessageTable) (threadId : Int) (cursor : Option Int) :
    List ThreadMessageRow :=
  descending ThreadMessageRow.id (table.rows.filter (isListed threadId cursor))

theorem listedRows_eq (table : ThreadMessageTable) (threadId : Int) (cursor : Option Int) :
    listedRows table threadId cursor =
      (descending ThreadMessageRow.id table.rows).filter (isListed threadId cursor) :=
  descending_filter table.distinct _

theorem listedRows_falling (table : ThreadMessageTable) (threadId : Int) (cursor : Option Int) :
    Falling ThreadMessageRow.id (listedRows table threadId cursor) := by
  rw [listedRows_eq]
  exact (descending_falling table.distinct).filter _

theorem listedRows_below {start : Option Int} (below : start.all (cursor ≤ ·) = true) :
    listedRows table threadId (some cursor) =
      (listedRows table threadId start).filter fun row => row.id < cursor := by
  rw [listedRows_eq, listedRows_eq, List.filter_filter]
  refine List.filter_congr fun row _ => ?_
  cases start with
  | none => simp [isListed, Bool.and_comm]
  | some start =>
    have isBelow : cursor ≤ start := by simpa using below
    by_cases isLower : row.id < cursor
    · have lower : row.id < start := Int.lt_of_lt_of_le isLower isBelow
      simp [isListed, isLower, lower]
    · simp [isListed, isLower]

theorem listedRows_insert (given : cursor ≤ table.sequence) (row : ThreadMessageRow) :
    listedRows (table.insert row) threadId (some cursor) =
      listedRows table threadId (some cursor) := by
  have above : isListed threadId (some cursor) { row with id := table.sequence + 1 } = false := by
    have notBelow : ¬table.sequence + 1 < cursor := by omega
    simp [isListed, notBelow]
  have kept : (table.insert row).rows.filter (isListed threadId (some cursor)) =
      table.rows.filter (isListed threadId (some cursor)) := by
    rw [ThreadMessageTable.insert, List.filter_append, List.filter_singleton, above]
    simp
  rw [listedRows, kept, listedRows]

theorem listedRows_insertAll (given : cursor ≤ table.sequence) (rows : List ThreadMessageRow) :
    listedRows (table.insertAll rows) threadId (some cursor) =
      listedRows table threadId (some cursor) := by
  induction rows generalizing table with
  | nil => rfl
  | cons row rows ih =>
    have later : cursor ≤ (table.insert row).sequence :=
      Int.le_trans given (Int.le_add_one (Int.le_refl _))
    rw [← listedRows_insert given row]
    exact ih later

theorem listThreadMessagesPage_eq (table : ThreadMessageTable) (threadId : Int)
    (cursor : Option Int) (limit : Option JsNumber) :
    listThreadMessagesPage table threadId cursor limit =
      { messages := (((listedRows table threadId cursor).take
          (normalizeThreadMessagesPageLimit limit)).map ThreadMessageRow.record).reverse
        nextCursor :=
          if normalizeThreadMessagesPageLimit limit < (listedRows table threadId cursor).length
          then (((listedRows table threadId cursor).take
            (normalizeThreadMessagesPageLimit limit)).getLast?.map ThreadMessageRow.id)
          else none } := by
  rw [listThreadMessagesPage, ← listedRows]
  generalize listedRows table threadId cursor = rows
  generalize normalizeThreadMessagesPageLimit limit = size
  have more : (size < ((rows.take (size + 1)).map ThreadMessageRow.record).length) =
      (size < rows.length) := by
    rw [List.length_map, List.length_take]
    exact propext ⟨fun less => by omega, fun less => by omega⟩
  simp only [more]
  by_cases hasMore : size < rows.length
  · simp only [if_pos hasMore, ← List.map_take, List.take_take]
    have smaller : min size (size + 1) = size := by omega
    rw [smaller, List.head?_reverse, List.getLast?_map, Option.map_map]
    rfl
  · simp only [if_neg hasMore]
    rw [List.take_of_length_le (by omega), List.take_of_length_le (by omega)]

theorem followNextCursor_listed (limits : Nat → Option JsNumber)
    (stored : Nat → List ThreadMessageRow) (pages request : Nat) (table : ThreadMessageTable)
    (start : Option Int) (enough : (listedRows table threadId start).length < pages) :
    ∃ collected, followNextCursor threadId limits stored pages request table start =
      some collected ∧ collected.reverse.flatten =
        ((listedRows table threadId start).map ThreadMessageRow.record).reverse := by
  induction pages generalizing request table start with
  | zero => exact absurd enough (Nat.not_lt_zero _)
  | succ pages ih =>
    rw [followNextCursor, listThreadMessagesPage_eq]
    have positive := limit_pos (limits request)
    have falling := listedRows_falling table threadId start
    generalize isSize : normalizeThreadMessagesPageLimit (limits request) = size at positive ⊢
    by_cases hasMore : size < (listedRows table threadId start).length
    · have nonempty : ((listedRows table threadId start).take size) ≠ [] := by
        intro empty
        have none := congrArg List.length empty
        rw [List.length_take, List.length_nil] at none
        omega
      have isLast := List.getLast?_eq_some_getLast nonempty
      generalize ((listedRows table threadId start).take size).getLast nonempty = last at isLast
      have member : last ∈ listedRows table threadId start :=
        List.mem_of_mem_take (List.mem_of_getLast? isLast)
      have listed := List.mem_filter.mp (List.mem_mergeSort.mp member)
      have given : last.id ≤ table.sequence := table.numbered last listed.1
      have below : start.all (last.id ≤ ·) = true := by
        cases start with
        | none => rfl
        | some start =>
          have lower : last.id < start := by
            have both := listed.2
            simp only [isListed, Bool.and_eq_true, Option.all_some, decide_eq_true_eq] at both
            exact both.2
          simpa using Int.le_of_lt lower
      have rest : listedRows (table.insertAll (stored request)) threadId (some last.id) =
          (listedRows table threadId start).drop size := by
        rw [listedRows_insertAll given, listedRows_below below]
        exact filter_below_last falling isLast
      have fewer : (listedRows (table.insertAll (stored request)) threadId
          (some last.id)).length < pages := by
        rw [rest, List.length_drop]
        omega
      obtain ⟨collected, followed, whole⟩ := ih (request + 1) _ _ fewer
      simp only [if_pos hasMore, isLast, Option.map_some, followed]
      refine ⟨_, rfl, ?_⟩
      rw [List.reverse_cons, List.flatten_append, whole, rest, List.flatten_singleton,
        ← List.reverse_append, ← List.map_append, List.take_append_drop]
    · simp only [if_neg hasMore]
      refine ⟨_, rfl, ?_⟩
      rw [List.take_of_length_le (Nat.le_of_not_lt hasMore)]
      simp

/-- Every message of the first request is collected once and in the stored order, and there is an
end: at most one page for each message and one more. -/
theorem message_pages_complete (table : ThreadMessageTable) (threadId : Int)
    (limits : Nat → Option JsNumber) (stored : Nat → List ThreadMessageRow) :
    ∃ pages, followNextCursor threadId limits stored (table.rows.length + 1) 0 table none =
      some pages ∧ pages.reverse.flatten = listThreadMessages table threadId ∧
        (pages.reverse.flatten.map ThreadMessageRecord.id).Nodup := by
  have whole : table.rows.filter (fun row => row.threadId == threadId) =
      table.rows.filter (isListed threadId none) :=
    List.filter_congr fun row _ => by simp [isListed]
  have distinct : Distinct ThreadMessageRow.id (table.rows.filter (isListed threadId none)) :=
    table.distinct.sublist (List.filter_sublist.map ThreadMessageRow.id)
  have inOrder : listThreadMessages table threadId =
      ((listedRows table threadId none).map ThreadMessageRow.record).reverse := by
    rw [listThreadMessages, whole, ascending_eq_reverse distinct, List.map_reverse]
    rfl
  have fewer : (listedRows table threadId none).length < table.rows.length + 1 := by
    rw [listedRows, (descending_perm _ _).length_eq]
    exact Nat.lt_succ_of_le (List.length_filter_le _ _)
  obtain ⟨pages, followed, collected⟩ :=
    followNextCursor_listed limits stored (table.rows.length + 1) 0 table none fewer
  refine ⟨pages, followed, by rw [collected, inOrder], ?_⟩
  have ids : (listedRows table threadId none).map ThreadMessageRow.id =
      ((listedRows table threadId none).map ThreadMessageRow.record).map ThreadMessageRecord.id := by
    rw [List.map_map]
    rfl
  rw [collected, List.map_reverse, List.nodup_reverse, ← ids]
  exact ((descending_perm _ _).map ThreadMessageRow.id).nodup_iff.mpr distinct

end Metidos.Thread
