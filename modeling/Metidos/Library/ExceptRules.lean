import Mathlib.Data.List.Basic

/-!
Rules for computations that may fail: inversion of a bind, and the invariant and success
rules of a monadic left fold.
-/

namespace ExceptRules

variable {ε α β σ : Type}

@[simp] theorem ok_bind (value : α) (next : α → Except ε β) :
    ((Except.ok value : Except ε α) >>= next) = next value := rfl

@[simp] theorem error_bind (error : ε) (next : α → Except ε β) :
    ((Except.error error : Except ε α) >>= next) = .error error := rfl

@[simp] theorem pure_eq_ok (value : α) : (pure value : Except ε α) = .ok value := rfl

theorem bind_eq_ok {first : Except ε α} {next : α → Except ε β} {result : β} :
    (first >>= next) = .ok result ↔ ∃ value, first = .ok value ∧ next value = .ok result := by
  cases first with
  | error error => simp
  | ok value => simp

theorem map_eq_ok {first : Except ε α} {transform : α → β} {result : β} :
    first.map transform = .ok result ↔ ∃ value, first = .ok value ∧ transform value = result := by
  cases first with
  | error error => simp [Except.map]
  | ok value => simp [Except.map]

theorem foldlM_invariant {step : σ → α → Except ε σ} (invariant : List α → σ → Prop)
    {items : List α} {start finish : σ} (folded : items.foldlM step start = .ok finish)
    (initially : invariant [] start)
    (preserved : ∀ processed item before after, item ∈ items → invariant processed before →
      step before item = .ok after → invariant (processed ++ [item]) after) :
    invariant items finish := by
  have general : ∀ (rest processed : List α) (state : σ), (∀ item ∈ rest, item ∈ items) →
      invariant processed state → rest.foldlM step state = .ok finish →
      invariant (processed ++ rest) finish := by
    intro rest
    induction rest with
    | nil =>
      intro processed state _ holds ended
      simp only [List.foldlM_nil, pure_eq_ok, Except.ok.injEq] at ended
      subst ended
      simpa using holds
    | cons item rest ih =>
      intro processed state inside holds ended
      rw [List.foldlM_cons, bind_eq_ok] at ended
      obtain ⟨after, stepped, remaining⟩ := ended
      have next := preserved processed item state after (inside item (by simp)) holds stepped
      have tail := ih (processed ++ [item]) after
        (fun other member => inside other (List.mem_cons_of_mem _ member)) next remaining
      simpa using tail
  simpa using general items [] start (fun _ member => member) initially folded

theorem foldlM_succeeds (step : σ → α → Except ε σ) (items : List α) (start : σ)
    (steps : ∀ state, ∀ item ∈ items, ∃ next, step state item = .ok next) :
    ∃ finish, items.foldlM step start = .ok finish := by
  induction items generalizing start with
  | nil => exact ⟨start, rfl⟩
  | cons item items ih =>
    obtain ⟨next, stepped⟩ := steps start item (by simp)
    rw [List.foldlM_cons, stepped, ok_bind]
    exact ih next fun state other member => steps state other (List.mem_cons_of_mem _ member)

theorem forM_eq_ok {check : α → Except ε Unit} {items : List α} :
    forM items check = .ok () ↔ ∀ item ∈ items, check item = .ok () := by
  induction items with
  | nil => simp
  | cons item items ih =>
    simp only [List.forM_cons, bind_eq_ok, ih, List.mem_cons, forall_eq_or_imp]
    constructor
    · rintro ⟨_, first, rest⟩
      exact ⟨first, rest⟩
    · rintro ⟨first, rest⟩
      exact ⟨(), first, rest⟩

theorem mapM_eq_ok {convert : α → Except ε β} {items : List α} {results : List β} :
    items.mapM convert = .ok results ↔
      (∀ item ∈ items, ∃ value, convert item = .ok value) ∧
        results = items.filterMap fun item => (convert item).toOption := by
  induction items generalizing results with
  | nil => simp [eq_comm]
  | cons item items ih =>
    simp only [List.mapM_cons, bind_eq_ok, pure_eq_ok, Except.ok.injEq, List.mem_cons,
      forall_eq_or_imp, ih]
    constructor
    · rintro ⟨value, converts, rest, ⟨all, is⟩, rfl⟩
      refine ⟨⟨⟨value, converts⟩, all⟩, ?_⟩
      rw [List.filterMap_cons, converts, is]
      rfl
    · rintro ⟨⟨⟨value, converts⟩, all⟩, is⟩
      refine ⟨value, converts, _, ⟨all, rfl⟩, ?_⟩
      rw [is, List.filterMap_cons, converts]
      rfl

end ExceptRules
