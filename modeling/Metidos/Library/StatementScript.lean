import Mathlib.Data.List.Basic

/-!
Scripts of atomic statements that read the state between them: what a whole run leaves, and what
it leaves when one of its statements throws.
-/

/-- A script; a statement that gives no state is an error that ends it. -/
inductive StatementScript (σ : Type)
  | done
  | issue (statement : σ → Option σ) (next : StatementScript σ)
  | read (next : σ → StatementScript σ)

namespace StatementScript

variable {σ : Type}

@[grind =] def run : StatementScript σ → σ → Option σ
  | done, state => some state
  | issue statement next, state => (statement state).bind next.run
  | read next, state => (next state).run state

/-- The state that a run leaves when its statement of this position throws; a run that ends before
leaves none. -/
@[grind =] def thrownAt : StatementScript σ → Nat → σ → Option σ
  | done, _, _ => none
  | issue _ _, 0, state => some state
  | issue statement next, position + 1, state => (statement state).bind (next.thrownAt position)
  | read next, position, state => (next state).thrownAt position state

@[grind =] def Throughout (property : σ → Prop) : StatementScript σ → σ → Prop
  | done, state => property state
  | issue statement next, state =>
    property state ∧ ∀ after, statement state = some after → next.Throughout property after
  | read next, state => (next state).Throughout property state

def andThen : StatementScript σ → StatementScript σ → StatementScript σ
  | done, second => second
  | issue statement next, second => issue statement (next.andThen second)
  | read next, second => read fun state => (next state).andThen second

def sequence : List (StatementScript σ) → StatementScript σ
  | [] => done
  | first :: rest => first.andThen (sequence rest)

def each {α : Type} (items : List α) (script : α → StatementScript σ) : StatementScript σ :=
  sequence (items.map script)

def statement (statement : σ → Option σ) : StatementScript σ := issue statement done

def issueUnless (skip : σ → Bool) (statement : σ → Option σ) : StatementScript σ :=
  read fun state => if skip state then done else issue statement done

variable {script first second : StatementScript σ} {state left final : σ} {property : σ → Prop}

theorem run_andThen (first second : StatementScript σ) (state : σ) :
    (first.andThen second).run state = (first.run state).bind second.run := by
  induction first generalizing state with
  | done => rfl
  | issue statement next ih =>
    rw [andThen, run, run]
    cases statement state with
    | none => rfl
    | some after => exact ih after
  | read next ih => exact ih state state

theorem Throughout.weaken {weaker : σ → Prop} (holds : script.Throughout property state)
    (implies : ∀ state, property state → weaker state) : script.Throughout weaker state := by
  induction script generalizing state with
  | done => exact implies state holds
  | issue statement next ih =>
    exact ⟨implies state holds.1, fun after isAfter => ih (holds.2 after isAfter)⟩
  | read next ih => exact ih state holds

theorem Throughout.thrownAt (holds : script.Throughout property state) {position : Nat}
    (thrown : script.thrownAt position state = some left) : property left := by
  induction script generalizing state position with
  | done => cases thrown
  | issue statement next ih =>
    cases position with
    | zero =>
      cases thrown
      exact holds.1
    | succ position =>
      obtain ⟨after, isAfter, rest⟩ := Option.bind_eq_some_iff.mp thrown
      exact ih (holds.2 after isAfter) rest
  | read next ih => exact ih state holds thrown

theorem Throughout.run (holds : script.Throughout property state)
    (ran : script.run state = some final) : property final := by
  induction script generalizing state with
  | done =>
    cases ran
    exact holds
  | issue statement next ih =>
    obtain ⟨after, isAfter, rest⟩ := Option.bind_eq_some_iff.mp ran
    exact ih (holds.2 after isAfter) rest
  | read next ih => exact ih state holds ran

theorem Throughout.andThen (holds : first.Throughout property state)
    (next : ∀ middle, first.run state = some middle → property middle →
      second.Throughout property middle) : (first.andThen second).Throughout property state := by
  induction first generalizing state with
  | done => exact next state rfl holds
  | issue statement rest ih =>
    refine ⟨holds.1, fun after isAfter => ih (holds.2 after isAfter) fun middle ran => ?_⟩
    exact next middle (by rw [StatementScript.run, isAfter, Option.bind_some, ran])
  | read rest ih => exact ih state holds next

theorem throughout_each {α : Type} {items : List α} {script : α → StatementScript σ}
    (keeps : ∀ item ∈ items, ∀ state, property state → (script item).Throughout property state)
    (initially : property state) : (each items script).Throughout property state := by
  induction items generalizing state with
  | nil => exact initially
  | cons item rest ih =>
    refine (keeps item List.mem_cons_self state initially).andThen fun middle _ holds => ?_
    exact ih (fun other member => keeps other (List.mem_cons_of_mem _ member)) holds

theorem run_sequence_cons (first : StatementScript σ) (rest : List (StatementScript σ))
    (state : σ) : (sequence (first :: rest)).run state =
      (first.run state).bind (sequence rest).run :=
  run_andThen first (sequence rest) state

theorem run_each {α τ : Type} {items : List α} {script : α → StatementScript σ} {lift : τ → σ}
    {effect : τ → α → τ} (total : ∀ item ∈ items, ∀ inner,
      (script item).run (lift inner) = some (lift (effect inner item))) (inner : τ) :
    (each items script).run (lift inner) = some (lift (items.foldl effect inner)) := by
  induction items generalizing inner with
  | nil => rfl
  | cons item rest ih =>
    rw [each, List.map_cons, run_sequence_cons, total item List.mem_cons_self inner,
      Option.bind_some, List.foldl_cons]
    exact ih (fun other member => total other (List.mem_cons_of_mem _ member)) _

end StatementScript
