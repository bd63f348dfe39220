import Mathlib.Data.List.Basic

/-!
`RpcRequestQueue` of `src/mainview/rpc-request-queue.ts`: permits for at most `limit` requests, a
queue by priority, and abort signals whose listeners are called one by one, with any other calls in
between.  The proofs live in `RequestQueueRuns`.
-/

namespace Metidos.Client.RequestQueue

inductive RpcRequestPriority
  | background
  | default
  | foreground
  deriving DecidableEq

def RpcRequestPriority.rank : RpcRequestPriority → Nat
  | background => 0
  | default => 1
  | foreground => 2

inductive AbortReason
  | error (value : Nat)
  | other
  deriving DecidableEq

inductive AbortError
  | reason (value : Nat)
  | abortError
  deriving DecidableEq

def createAbortError : AbortReason → AbortError
  | .error value => .reason value
  | .other => .abortError

/-- What the promise of a request is settled with; the permit is that of the request. -/
inductive Settlement
  | granted
  | rejected (error : AbortError)
  deriving DecidableEq

/-- `request` counts the calls of `acquire`, and stands for the promise of the call. -/
structure QueuedRpcRequest where
  request : Nat
  sequence : Nat
  priority : RpcRequestPriority
  signal : Option Nat
  deriving DecidableEq

/-- The fields of the queue, with the abort listeners, the signals that are aborted, the permits that
are released and every call of a `resolve` or `reject`. -/
structure RpcRequestQueue where
  activeCount : Nat
  nextSequence : Nat
  queue : List QueuedRpcRequest
  listeners : List QueuedRpcRequest
  aborted : List (Nat × AbortReason)
  released : List Nat
  requests : Nat
  settlements : List (Nat × Settlement)

namespace RpcRequestQueue

def initial : RpcRequestQueue where
  activeCount := 0
  nextSequence := 1
  queue := []
  listeners := []
  aborted := []
  released := []
  requests := 0
  settlements := []

def abortReason (state : RpcRequestQueue) (signal : Option Nat) : Option AbortReason :=
  signal.bind fun signal => state.aborted.lookup signal

def settle (state : RpcRequestQueue) (request : Nat) (settlement : Settlement) : RpcRequestQueue :=
  { state with settlements := state.settlements ++ [(request, settlement)] }

def acquire (limit : Nat) (state : RpcRequestQueue) (priority : RpcRequestPriority)
    (signal : Option Nat) : RpcRequestQueue :=
  let request := state.requests
  let state := { state with requests := request + 1 }
  match state.abortReason signal with
  | some reason => state.settle request (.rejected (createAbortError reason))
  | none =>
    if state.activeCount < limit then
      { state with activeCount := state.activeCount + 1 }.settle request .granted
    else
      let entry := { request, sequence := state.nextSequence, priority, signal }
      { state with
        nextSequence := state.nextSequence + 1
        queue := state.queue ++ [entry]
        listeners := if signal.isSome then state.listeners ++ [entry] else state.listeners }

def beats (candidate selected : QueuedRpcRequest) : Bool :=
  selected.priority.rank < candidate.priority.rank ||
    (candidate.priority.rank = selected.priority.rank && candidate.sequence < selected.sequence)

def preferred (queue : List QueuedRpcRequest) (selectedIndex index : Nat) : Nat :=
  match queue[selectedIndex]?, queue[index]? with
  | some selected, some candidate => if beats candidate selected then index else selectedIndex
  | _, _ => selectedIndex

def nextQueueIndex (queue : List QueuedRpcRequest) : Nat :=
  (List.range' 1 (queue.length - 1)).foldl (preferred queue) 0

def drainLoop (limit : Nat) : Nat → RpcRequestQueue → RpcRequestQueue
  | 0, state => state
  | rounds + 1, state =>
    if state.activeCount < limit then
      match state.queue[nextQueueIndex state.queue]? with
      | none => state
      | some entry =>
        let state :=
          { state with
            queue := state.queue.eraseIdx (nextQueueIndex state.queue)
            listeners := state.listeners.erase entry }
        match state.abortReason entry.signal with
        | some reason =>
          drainLoop limit rounds
            (state.settle entry.request (.rejected (createAbortError reason)))
        | none =>
          drainLoop limit rounds
            ({ state with activeCount := state.activeCount + 1 }.settle entry.request .granted)
    else state

def drain (limit : Nat) (state : RpcRequestQueue) : RpcRequestQueue :=
  drainLoop limit state.queue.length state

def release (limit : Nat) (state : RpcRequestQueue) (request : Nat) : RpcRequestQueue :=
  if request ∈ state.released then state
  else
    drain limit
      { state with
        released := request :: state.released
        activeCount := state.activeCount - 1 }

/-- The queue and the listeners after an entry is taken out. -/
def without (state : RpcRequestQueue) (entry : QueuedRpcRequest) : RpcRequestQueue :=
  { state with queue := state.queue.erase entry, listeners := state.listeners.erase entry }

def handleAbort (state : RpcRequestQueue) (entry : QueuedRpcRequest) (reason : AbortReason) :
    RpcRequestQueue :=
  (state.without entry).settle entry.request (.rejected (createAbortError reason))

/-- `abort` is the moment at which a signal is aborted, `notify` the call of one of its listeners. -/
inductive Event
  | acquire (priority : RpcRequestPriority) (signal : Option Nat)
  | release (request : Nat)
  | abort (signal : Nat) (reason : AbortReason)
  | notify (entry : QueuedRpcRequest)

def step (limit : Nat) (state : RpcRequestQueue) : Event → Option RpcRequestQueue
  | .acquire priority signal => some (state.acquire limit priority signal)
  | .release request =>
    if (request, .granted) ∈ state.settlements then some (state.release limit request) else none
  | .abort signal reason =>
    if (state.aborted.lookup signal).isSome then some state
    else some { state with aborted := (signal, reason) :: state.aborted }
  | .notify entry =>
    if entry ∈ state.listeners then
      (state.abortReason entry.signal).map fun reason => state.handleAbort entry reason
    else none

def granted (state : RpcRequestQueue) : List Nat :=
  (state.settlements.filter fun settled => settled.2 = .granted).map Prod.fst

def held (state : RpcRequestQueue) : List Nat :=
  state.granted.filter fun request => request ∉ state.released

def Settled (state : RpcRequestQueue) (request : Nat) : Prop :=
  request ∈ state.settlements.map Prod.fst

def Rejected (state : RpcRequestQueue) (request : Nat) : Prop :=
  ∃ error, (request, .rejected error) ∈ state.settlements

/-- Of the queued requests that are not aborted, the one of highest priority, and of those the one
that was submitted first. -/
structure IsFirst (state : RpcRequestQueue) (entry : QueuedRpcRequest) : Prop where
  queued : entry ∈ state.queue
  live : state.abortReason entry.signal = none
  best : ∀ other ∈ state.queue, state.abortReason other.signal = none →
    other.priority.rank < entry.priority.rank ∨
      other.priority.rank = entry.priority.rank ∧ entry.request ≤ other.request

theorem beats_trans {first second third : QueuedRpcRequest} (lower : beats second first = false)
    (next : beats third second = false) : beats third first = false := by
  simp only [beats, Bool.or_eq_false_iff, Bool.and_eq_false_iff, decide_eq_false_iff_not]
    at lower next ⊢
  omega

theorem beats_irrefl (entry : QueuedRpcRequest) : beats entry entry = false := by
  simp [beats]

theorem beats_asymm {first second : QueuedRpcRequest} (wins : beats second first = true) :
    beats first second = false := by
  simp only [beats, Bool.or_eq_true, Bool.and_eq_true, decide_eq_true_eq, Bool.or_eq_false_iff,
    Bool.and_eq_false_iff, decide_eq_false_iff_not] at wins ⊢
  omega

theorem foldl_preferred (queue : List QueuedRpcRequest) (count : Nat) (some : count < queue.length) :
    ∃ entry, queue[(List.range' 1 count).foldl (preferred queue) 0]? = .some entry ∧
      ∀ index ≤ count, ∀ other, queue[index]? = .some other → beats other entry = false := by
  induction count with
  | zero =>
    refine ⟨queue[0], List.getElem?_eq_getElem some, fun index below other isOther => ?_⟩
    obtain rfl : index = 0 := Nat.le_zero.mp below
    rw [List.getElem?_eq_getElem some] at isOther
    obtain rfl := Option.some.inj isOther
    exact beats_irrefl _
  | succ count ih =>
    obtain ⟨entry, isEntry, best⟩ := ih (Nat.lt_of_succ_lt some)
    have isNext : queue[count + 1]? = .some queue[count + 1] := List.getElem?_eq_getElem some
    rw [List.range'_1_concat, List.foldl_append, List.foldl_cons, List.foldl_nil, preferred,
      isEntry, Nat.add_comm 1 count, isNext]
    dsimp only
    split
    · rename_i wins
      refine ⟨queue[count + 1], isNext, fun index below other isOther => ?_⟩
      rcases Nat.le_succ_iff.mp below with lower | rfl
      · exact beats_trans (beats_asymm wins) (best index lower other isOther)
      · rw [isNext] at isOther
        obtain rfl := Option.some.inj isOther
        exact beats_irrefl _
    · rename_i loses
      refine ⟨entry, isEntry, fun index below other isOther => ?_⟩
      rcases Nat.le_succ_iff.mp below with lower | rfl
      · exact best index lower other isOther
      · rw [isNext] at isOther
        obtain rfl := Option.some.inj isOther
        exact eq_false_of_ne_true loses

theorem nextQueueIndex_best {queue : List QueuedRpcRequest} (some : queue ≠ []) :
    ∃ entry, queue[nextQueueIndex queue]? = .some entry ∧
      ∀ other ∈ queue, beats other entry = false := by
  have size := List.length_pos_of_ne_nil some
  obtain ⟨entry, isEntry, best⟩ := foldl_preferred queue (queue.length - 1) (by omega)
  refine ⟨entry, isEntry, fun other member => ?_⟩
  obtain ⟨index, below, isOther⟩ := List.mem_iff_getElem.mp member
  exact best index (by omega) other (by rw [List.getElem?_eq_getElem below, isOther])

end RpcRequestQueue

end Metidos.Client.RequestQueue
