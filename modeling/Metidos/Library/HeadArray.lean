import Mathlib.Data.List.Basic

/-!
An array whose first items are given up by moving a head index, and that is cut down to the
retained items now and then.
-/

structure HeadArray (α : Type) where
  items : List α
  head : Nat
  inside : head ≤ items.length
  deriving DecidableEq

namespace HeadArray

variable {α : Type} (array : HeadArray α)

def ofList (items : List α) : HeadArray α := ⟨items, 0, Nat.zero_le _⟩

def retained : List α := array.items.drop array.head

def first? : Option α := array.items[array.head]?

def last? : Option α := array.items.getLast?

def push (item : α) : HeadArray α where
  items := array.items ++ [item]
  head := array.head
  inside := by
    have inside := array.inside
    rw [List.length_append]
    omega

def advance : HeadArray α :=
  if more : array.head < array.items.length then ⟨array.items, array.head + 1, more⟩ else array

def replaceFirst (item : α) : HeadArray α where
  items := array.items.set array.head item
  head := array.head
  inside := by
    rw [List.length_set]
    exact array.inside

def replaceLast (item : α) : HeadArray α where
  items := array.items.set (array.items.length - 1) item
  head := array.head
  inside := by
    rw [List.length_set]
    exact array.inside

def compact (minimum : Nat) : HeadArray α :=
  if minimum < array.head ∧ array.items.length < array.head * 2 then ofList array.retained
  else array

variable {array}

theorem retained_ofList (items : List α) : (ofList items).retained = items := rfl

theorem first?_eq : array.first? = array.retained.head? := by
  rw [first?, retained, List.head?_drop]

theorem retained_push (item : α) : (array.push item).retained = array.retained ++ [item] :=
  List.drop_append_of_le_length array.inside

theorem retained_advance : array.advance.retained = array.retained.tail := by
  rw [advance]
  split
  · simp only [retained, List.tail_drop]
  · rename_i ended
    rw [retained, List.drop_eq_nil_of_le (Nat.le_of_not_lt ended)]
    rfl

theorem advance_shorter {item : α} (more : array.first? = some item) :
    array.advance.retained.length < array.retained.length := by
  rw [first?_eq] at more
  rw [retained_advance]
  cases before : array.retained with
  | nil =>
    rw [before] at more
    cases more
  | cons first rest => exact Nat.lt_succ_self _

theorem retained_replaceFirst {old : α} {rest : List α} (before : array.retained = old :: rest)
    (item : α) : (array.replaceFirst item).retained = item :: rest := by
  simp only [retained, replaceFirst, List.drop_set, Nat.lt_irrefl, if_false, Nat.sub_self]
  rw [retained] at before
  rw [before, List.set_cons_zero]

theorem last?_eq {front : List α} {last : α} (before : array.retained = front ++ [last]) :
    array.last? = some last := by
  rw [last?, ← List.take_append_drop array.head array.items, ← retained, before,
    ← List.append_assoc]
  exact List.getLast?_concat

theorem retained_replaceLast {front : List α} {old : α} (before : array.retained = front ++ [old])
    (item : α) : (array.replaceLast item).retained = front ++ [item] := by
  have length := congrArg List.length before
  rw [retained, List.length_drop, List.length_append, List.length_singleton] at length
  have notBefore : ¬array.items.length - 1 < array.head := by omega
  have atFront : array.items.length - 1 - array.head = front.length := by omega
  rw [retained] at before
  simp only [retained, replaceLast, List.drop_set, if_neg notBefore]
  rw [before, atFront, List.set_append_right _ _ (Nat.le_refl _), Nat.sub_self,
    List.set_cons_zero]

theorem retained_compact (minimum : Nat) : (array.compact minimum).retained = array.retained := by
  rw [compact]
  split
  · exact retained_ofList _
  · rfl

end HeadArray
