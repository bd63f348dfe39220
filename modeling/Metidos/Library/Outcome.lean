import Mathlib.Logic.Basic

/-!
Outcomes of computations that are given fuel and may be stopped at chosen points: the relations
between two runs of one program that sequencing keeps, and the rule for runs that do not run out
of fuel.
-/

universe u v

inductive Outcome (α : Type u)
  | done (value : α)
  | stopped
  | outOfFuel
  deriving DecidableEq

namespace Outcome

variable {α β : Type}

def andThen (outcome : Outcome α) (next : α → Outcome β) : Outcome β :=
  match outcome with
  | .done value => next value
  | .stopped => .stopped
  | .outOfFuel => .outOfFuel

instance : Monad Outcome where
  pure := Outcome.done
  bind := andThen

@[simp] theorem pure_eq (value : α) : (pure value : Outcome α) = .done value := rfl

@[simp] theorem done_bind (value : α) (next : α → Outcome β) :
    ((Outcome.done value : Outcome α) >>= next) = next value := rfl

@[simp] theorem stopped_bind (next : α → Outcome β) :
    ((.stopped : Outcome α) >>= next) = .stopped := rfl

@[simp] theorem outOfFuel_bind (next : α → Outcome β) :
    ((.outOfFuel : Outcome α) >>= next) = .outOfFuel := rfl

theorem bind_eq_done_iff {outcome : Outcome α} {next : α → Outcome β} {value : β} :
    (outcome >>= next) = .done value ↔ ∃ middle, outcome = .done middle ∧
      next middle = .done value := by
  cases outcome with
  | done middle => simp
  | stopped => simp
  | outOfFuel => simp

theorem bind_ne_outOfFuel {outcome : Outcome α} {next : α → Outcome β}
    (enough : outcome ≠ .outOfFuel)
    (then' : ∀ value, outcome = .done value → next value ≠ .outOfFuel) :
    (outcome >>= next) ≠ .outOfFuel := by
  cases outcome with
  | done value => exact then' value rfl
  | stopped => simp
  | outOfFuel => exact absurd rfl enough

structure Relates (related : (α : Type) → Outcome α → Outcome α → Prop) : Prop where
  refl : ∀ (α : Type) (outcome : Outcome α), related α outcome outcome
  bind : ∀ (α β : Type) (left right : Outcome α) (leftNext rightNext : α → Outcome β),
    related α left right → (∀ value, related β (leftNext value) (rightNext value)) →
      related β (left >>= leftNext) (right >>= rightNext)

def Prolongs (α : Type) (left right : Outcome α) : Prop := left = .outOfFuel ∨ left = right

def StopsFirst (α : Type) (left right : Outcome α) : Prop :=
  left = right ∨ left = .stopped ∧ right = .outOfFuel

theorem prolongs_relates : Relates Prolongs where
  refl := fun _ _ => Or.inr rfl
  bind := by
    rintro α β left right leftNext rightNext (rfl | rfl) next
    · exact Or.inl rfl
    · cases left with
      | done value => exact next value
      | stopped => exact Or.inr rfl
      | outOfFuel => exact Or.inl rfl

theorem stopsFirst_relates : Relates StopsFirst where
  refl := fun _ _ => Or.inl rfl
  bind := by
    rintro α β left right leftNext rightNext (rfl | ⟨rfl, rfl⟩) next
    · cases left with
      | done value => exact next value
      | stopped => exact Or.inl rfl
      | outOfFuel => exact Or.inl rfl
    · exact Or.inr ⟨rfl, rfl⟩

theorem Prolongs.eq_done {left right : Outcome α} {value : α} (prolongs : Prolongs α left right)
    (isDone : left = .done value) : right = .done value := by
  rcases prolongs with isOut | same
  · exact absurd (isOut.symm.trans isDone) (by simp)
  · exact same ▸ isDone

end Outcome
