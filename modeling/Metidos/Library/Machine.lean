import Mathlib.Data.List.Basic
import Mathlib.Data.List.Induction
import Mathlib.Logic.Function.Basic

/-!
Machines that answer one event after the other, machines that give the same answers, and
families with a machine of its own for every key.
-/

structure Machine (σ ε ρ : Type) where
  start : σ
  step : σ → ε → σ × ρ

namespace Machine

variable {σ τ ε ρ κ : Type}

structure Run (σ ε ρ : Type) where
  state : σ
  answers : List (ε × ρ)
  deriving DecidableEq

def advance (machine : Machine σ ε ρ) (run : Run σ ε ρ) (event : ε) : Run σ ε ρ where
  state := (machine.step run.state event).1
  answers := run.answers ++ [(event, (machine.step run.state event).2)]

def run (machine : Machine σ ε ρ) (events : List ε) : Run σ ε ρ :=
  events.foldl machine.advance { state := machine.start, answers := [] }

theorem run_nil (machine : Machine σ ε ρ) :
    machine.run [] = { state := machine.start, answers := [] } := rfl

theorem run_append_one (machine : Machine σ ε ρ) (events : List ε) (event : ε) :
    machine.run (events ++ [event]) = machine.advance (machine.run events) event := by
  rw [run, List.foldl_append]
  rfl

theorem state_append_one (machine : Machine σ ε ρ) (events : List ε) (event : ε) :
    (machine.run (events ++ [event])).state =
      (machine.step (machine.run events).state event).1 := by
  rw [run_append_one]
  rfl

def reply (machine : Machine σ ε ρ) (events : List ε) (event : ε) : ρ :=
  (machine.step (machine.run events).state event).2

theorem answers_append_one (machine : Machine σ ε ρ) (events : List ε) (event : ε) :
    (machine.run (events ++ [event])).answers =
      (machine.run events).answers ++ [(event, machine.reply events event)] := by
  rw [run_append_one]
  rfl

theorem map_fst_answers (machine : Machine σ ε ρ) (events : List ε) :
    (machine.run events).answers.map Prod.fst = events := by
  induction events using List.reverseRecOn with
  | nil => rfl
  | append_singleton events event ih =>
    rw [answers_append_one, List.map_append, ih]
    rfl

theorem answers_split {machine : Machine σ ε ρ} {events : List ε} {before after : List (ε × ρ)}
    {answer : ε × ρ} (split : (machine.run events).answers = before ++ answer :: after) :
    (machine.run (before.map Prod.fst)).answers = before ∧
      answer.2 = machine.reply (before.map Prod.fst) answer.1 := by
  induction events using List.reverseRecOn generalizing after with
  | nil => simp [run_nil] at split
  | append_singleton events event ih =>
    rw [answers_append_one] at split
    rcases List.eq_nil_or_concat after with rfl | ⟨shorter, last, rfl⟩
    · obtain ⟨same, isLast⟩ := List.append_inj' split rfl
      rw [← same, map_fst_answers]
      obtain rfl : _ = answer := by simpa using isLast
      exact ⟨rfl, rfl⟩
    · rw [List.concat_eq_append, ← List.cons_append, ← List.append_assoc] at split
      exact ih (List.append_inj' split rfl).1

theorem run_invariant (machine : Machine σ ε ρ) {allowed : List ε → Prop}
    (shorter : ∀ events event, allowed (events ++ [event]) → allowed events)
    (invariant : List ε → Run σ ε ρ → Prop) (initially : invariant [] (machine.run []))
    (preserved : ∀ events event, allowed (events ++ [event]) →
      invariant events (machine.run events) →
      invariant (events ++ [event]) (machine.advance (machine.run events) event))
    {events : List ε} (valid : allowed events) : invariant events (machine.run events) := by
  induction events using List.reverseRecOn with
  | nil => exact initially
  | append_singleton events event ih =>
    rw [run_append_one]
    exact preserved events event valid (ih (shorter events event valid))

theorem run_simulates (machine : Machine σ ε ρ) (other : Machine τ ε ρ)
    {allowed : List ε → Prop}
    (shorter : ∀ events event, allowed (events ++ [event]) → allowed events)
    (related : List ε → σ → τ → Prop) (initially : related [] machine.start other.start)
    (preserved : ∀ events event state spec, allowed (events ++ [event]) →
      spec = (other.run events).state → related events state spec →
      (machine.step state event).2 = (other.step spec event).2 ∧
        related (events ++ [event]) (machine.step state event).1 (other.step spec event).1)
    {events : List ε} (valid : allowed events) :
    (machine.run events).answers = (other.run events).answers ∧
      related events (machine.run events).state (other.run events).state := by
  induction events using List.reverseRecOn with
  | nil => exact ⟨rfl, initially⟩
  | append_singleton events event ih =>
    obtain ⟨same, stillRelated⟩ := ih (shorter events event valid)
    obtain ⟨answer, next⟩ := preserved events event _ _ valid rfl stillRelated
    rw [answers_append_one, answers_append_one, state_append_one, state_append_one, same, reply,
      answer]
    exact ⟨rfl, next⟩

variable [DecidableEq κ]

def keyed (keyOf : ε → κ) (machine : Machine σ ε ρ) : Machine (κ → σ) ε ρ where
  start := fun _ => machine.start
  step := fun states event =>
    let stepped := machine.step (states (keyOf event)) event
    (Function.update states (keyOf event) stepped.1, stepped.2)

def own (keyOf : ε → κ) (key : κ) (events : List ε) : List ε :=
  events.filter fun event => keyOf event = key

theorem own_append (keyOf : ε → κ) (key : κ) (events others : List ε) :
    own keyOf key (events ++ others) = own keyOf key events ++ own keyOf key others :=
  List.filter_append events others

theorem own_self (keyOf : ε → κ) (event : ε) : own keyOf (keyOf event) [event] = [event] := by
  simp [own]

theorem own_append_others {keyOf : ε → κ} (events : List ε) (event : ε) {others : List ε}
    (apart : ∀ other ∈ others, keyOf other ≠ keyOf event) :
    own keyOf (keyOf event) (events ++ [event] ++ others) =
      own keyOf (keyOf event) events ++ [event] := by
  have none : own keyOf (keyOf event) others = [] := by
    simpa [own] using apart
  rw [own_append, own_append, own_self, none, List.append_nil]

theorem own_other {keyOf : ε → κ} {event : ε} {key : κ} (other : keyOf event ≠ key) :
    own keyOf key [event] = [] := by
  simp [own, other]

theorem own_sublist (keyOf : ε → κ) (key : κ) (events : List ε) :
    (own keyOf key events).Sublist events := List.filter_sublist

theorem own_own (keyOf : ε → κ) (key : κ) (events : List ε) :
    own keyOf key (own keyOf key events) = own keyOf key events := by
  rw [own, own, List.filter_filter]
  simp

def ownAnswers (keyOf : ε → κ) (key : κ) (answers : List (ε × ρ)) : List (ε × ρ) :=
  answers.filter fun answer => keyOf answer.1 = key

theorem keyed_state (keyOf : ε → κ) (machine : Machine σ ε ρ) (events : List ε) (key : κ) :
    ((machine.keyed keyOf).run events).state key =
      (machine.run (own keyOf key events)).state := by
  induction events using List.reverseRecOn with
  | nil => rfl
  | append_singleton events event ih =>
    rw [state_append_one, own_append]
    simp only [keyed] at ih ⊢
    by_cases isOwn : keyOf event = key
    · subst isOwn
      rw [Function.update_self, own_self, ih, state_append_one]
    · rw [Function.update_of_ne (Ne.symm isOwn), own_other isOwn, List.append_nil]
      exact ih

theorem keyed_reply (keyOf : ε → κ) (machine : Machine σ ε ρ) (events : List ε) (event : ε) :
    (machine.keyed keyOf).reply events event =
      machine.reply (own keyOf (keyOf event) events) event := by
  rw [reply, reply, ← keyed_state]
  rfl

theorem ownAnswers_append (keyOf : ε → κ) (key : κ) (answers others : List (ε × ρ)) :
    ownAnswers keyOf key (answers ++ others) =
      ownAnswers keyOf key answers ++ ownAnswers keyOf key others :=
  List.filter_append answers others

theorem keyed_answers (keyOf : ε → κ) (machine : Machine σ ε ρ) (events : List ε) (key : κ) :
    ownAnswers keyOf key ((machine.keyed keyOf).run events).answers =
      (machine.run (own keyOf key events)).answers := by
  induction events using List.reverseRecOn with
  | nil => rfl
  | append_singleton events event ih =>
    rw [answers_append_one, ownAnswers_append, ih, keyed_reply, own_append]
    by_cases isOwn : keyOf event = key
    · subst isOwn
      rw [own_self, answers_append_one]
      simp [ownAnswers]
    · rw [own_other isOwn, List.append_nil]
      simp [ownAnswers, isOwn]

theorem keyed_answers_own (keyOf : ε → κ) (machine : Machine σ ε ρ) (events : List ε) (key : κ) :
    ((machine.keyed keyOf).run (own keyOf key events)).answers =
      (machine.run (own keyOf key events)).answers := by
  have alone := keyed_answers keyOf machine (own keyOf key events) key
  rw [own_own] at alone
  rw [← alone, ownAnswers, eq_comm, List.filter_eq_self]
  intro answer member
  have isEvent : answer.1 ∈ own keyOf key events := by
    rw [← map_fst_answers (machine.keyed keyOf) (own keyOf key events)]
    exact List.mem_map_of_mem member
  exact (List.mem_filter.mp isEvent).2

end Machine
