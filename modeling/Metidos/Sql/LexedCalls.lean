import Metidos.Sql.FunctionCalls
import Metidos.Sql.TokenScan

/-!
The tokens of SQLite are cut where they end: each is the start of the text it is read from.
-/

namespace Metidos.Sql

open JsText

variable {text rest value : List Char} {character : Char} {test : Char → Bool}

theorem parameterSuffix_isPrefix (text : List Char) : parameterSuffix text <+: text := by
  rw [parameterSuffix]
  have inner := List.prefix_iff_eq_append.mp
    (List.takeWhile_prefix (l := text) fun char => !isSqliteGap char && char != ')')
  split
  · rename_i closed
    cases after : text.drop (text.takeWhile fun char => !isSqliteGap char && char != ')').length with
    | nil =>
      rw [after] at closed
      cases closed
    | cons mark more =>
      rw [after] at closed inner
      have isMark : mark = ')' := Option.some.inj closed
      rw [isMark] at inner
      refine ⟨more, ?_⟩
      rw [List.append_assoc]
      exact inner
  · exact ⟨_, inner⟩

theorem parameterBody_isPrefix (named : Bool) (text : List Char) :
    parameterBody named text <+: text := by
  fun_induction parameterBody named text with
  | case1 => exact List.prefix_rfl
  | case2 => exact List.prefix_rfl
  | case3 => exact List.nil_prefix
  | case4 =>
    rename_i ih
    simpa using ih
  | case5 => simpa using parameterSuffix_isPrefix _
  | case6 =>
    rename_i ih
    simpa using ih
  | case7 => exact List.nil_prefix

theorem lexToken_isPrefix (character : Char) (rest : List Char) :
    ∃ tail, (lexToken character rest).text = character :: tail ∧ tail <+: rest := by
  simp only [lexToken]
  split
  · exact ⟨_, rfl, List.takeWhile_prefix _⟩
  · split
    · exact ⟨_, rfl, List.nil_prefix⟩
    · split
      · exact ⟨_, rfl, List.takeWhile_prefix _⟩
      · split
        · rename_i opens
          obtain ⟨_, second⟩ := opens
          obtain ⟨more, rfl⟩ := List.head?_eq_some_iff.mp second
          exact ⟨_, rfl, (List.prefix_cons_inj '*').mpr (blockBody_isPrefix more)⟩
        · split
          · exact ⟨_, rfl, quotedBody_isPrefix _ _⟩
          · split
            · exact ⟨_, rfl, quotedBody_isPrefix _ _⟩
            · split
              · exact ⟨_, rfl, bracketBody_isPrefix _⟩
              · split
                · exact ⟨_, rfl, List.takeWhile_prefix _⟩
                · split
                  · exact ⟨_, rfl, parameterBody_isPrefix _ _⟩
                  · split
                    · exact ⟨_, rfl, List.takeWhile_prefix _⟩
                    · exact ⟨_, rfl, List.nil_prefix⟩

def afterToken (character : Char) (rest : List Char) : List Char :=
  (character :: rest).drop (lexToken character rest).text.length

theorem length_afterToken (character : Char) (rest : List Char) :
    (afterToken character rest).length ≤ rest.length := by
  obtain ⟨tail, isText, _⟩ := lexToken_isPrefix character rest
  rw [afterToken, isText, List.length_cons, List.drop_succ_cons, List.length_drop]
  exact Nat.sub_le _ _

theorem text_afterToken (character : Char) (rest : List Char) :
    (lexToken character rest).text ++ afterToken character rest = character :: rest := by
  obtain ⟨tail, isText, inside⟩ := lexToken_isPrefix character rest
  rw [afterToken, isText]
  exact List.prefix_iff_eq_append.mp ((List.prefix_cons_inj character).mpr inside)

end Metidos.Sql
