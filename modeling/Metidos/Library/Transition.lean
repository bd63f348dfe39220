import Mathlib.Logic.Relation

/-!
Runs of a partial step function whose steps all meet a condition on the state and the event:
the invariant rule, and runs given as a list of events.
-/

namespace Transition

variable {σ ε : Type}

def Steps (step : σ → ε → Option σ) (allowed : σ → ε → Prop) (before after : σ) : Prop :=
  ∃ event, allowed before event ∧ step before event = some after

def Reaches (step : σ → ε → Option σ) (allowed : σ → ε → Prop) : σ → σ → Prop :=
  Relation.ReflTransGen (Steps step allowed)

def Unrestricted (_ : σ) (_ : ε) : Prop := True

variable {step : σ → ε → Option σ} {allowed : σ → ε → Prop} {start middle finish : σ}

theorem Reaches.refl (start : σ) : Reaches step allowed start start := Relation.ReflTransGen.refl

theorem Reaches.tail {event : ε} (reached : Reaches step allowed start middle)
    (may : allowed middle event) (stepped : step middle event = some finish) :
    Reaches step allowed start finish :=
  Relation.ReflTransGen.tail reached ⟨event, may, stepped⟩

theorem Reaches.invariant (reached : Reaches step allowed start finish) (invariant : σ → Prop)
    (initially : invariant start)
    (preserved : ∀ before event after, invariant before → allowed before event →
      step before event = some after → invariant after) : invariant finish := by
  induction reached with
  | refl => exact initially
  | tail _ stepped ih =>
    obtain ⟨event, may, result⟩ := stepped
    exact preserved _ event _ ih may result

theorem Reaches.weaken {weaker : σ → ε → Prop} (reached : Reaches step allowed start finish)
    (implies : ∀ state event, allowed state event → weaker state event) :
    Reaches step weaker start finish := by
  induction reached with
  | refl => exact Reaches.refl _
  | tail _ stepped ih =>
    obtain ⟨event, may, result⟩ := stepped
    exact ih.tail (implies _ _ may) result

theorem Reaches.unrestricted (reached : Reaches step allowed start finish) :
    Reaches step Unrestricted start finish :=
  reached.weaken fun _ _ _ => trivial

@[grind =] def run (step : σ → ε → Option σ) (check : σ → ε → Bool) : σ → List ε → Option σ
  | state, [] => some state
  | state, event :: events =>
    if check state event then (step state event).bind fun next => run step check next events
    else none

theorem reaches_of_run {check : σ → ε → Bool} {events : List ε}
    (ran : run step check start events = some finish) :
    Reaches step (fun state event => check state event = true) start finish := by
  induction events generalizing start with
  | nil =>
    simp only [run, Option.some.injEq] at ran
    exact ran ▸ Reaches.refl start
  | cons event events ih =>
    simp only [run] at ran
    split at ran
    · rename_i passes
      obtain ⟨next, stepped, rest⟩ := Option.bind_eq_some_iff.mp ran
      exact Relation.ReflTransGen.head ⟨event, passes, stepped⟩ (ih rest)
    · exact absurd ran (by simp)

end Transition
