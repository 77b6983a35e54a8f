import MonkeyLang.Proofs.Syntax.Pieces
import MonkeyLang.Proofs.Token.Printing

namespace MonkeyLang

/-! # Integers with too many digits

An integer with too many digits breaks the reading off, whatever stands behind it, and so nothing is
known of a program that begins with one.
-/

namespace Parse

variable {token : Token} (oversized : token.Oversized)

include oversized

theorem integer_oversized (cursor : Cursor) :
    integer token cursor = .error (.broken (.tooManyDigits token.literal.toList.length)) cursor := by
  obtain ⟨_, digits, tooMany⟩ := oversized
  have nonempty : token.literal.toList ≠ [] := by
    intro none
    rw [none] at tooMany
    exact Nat.not_lt_zero _ tooMany
  unfold integer
  dsimp only
  rw [if_neg (by simpa [nonempty] using digits), if_pos tooMany]
  rfl

theorem statement_oversized (depth : Nat) (cursor : Cursor) (first : cursor.current = token) :
    statement (expression (depth + 1)) cursor =
      .error (.broken (.tooManyDigits token.literal.toList.length)) cursor := by
  have isInteger := oversized.isInteger
  have read : expression (depth + 1) loosest cursor =
      .error (.broken (.tooManyDigits token.literal.toList.length)) cursor := by
    refine bind_error ((bind_ok (current_ran cursor)).trans ?_)
    rw [first, isInteger]
    exact integer_oversized oversized cursor
  have form : statementForm (expression (depth + 1)) cursor =
      .error (.broken (.tooManyDigits token.literal.toList.length)) cursor := by
    refine (bind_ok (current_ran cursor)).trans ?_
    rw [first, isInteger]
    exact bind_error read
  rw [statement, form]

end Parse

theorem Parsed.ofTokens_oversized {token : Token} (oversized : token.Oversized) (rest : List Token)
    (depth : Nat) : Parsed.ofTokens (depth + 1) (token :: rest) =
      .error (.tooManyDigits token.literal.toList.length) := by
  have read : ∀ cursor : Parse.Cursor, cursor.tokens = token :: rest →
      Parse.programForm (depth + 1) cursor =
        .error (.broken (.tooManyDigits token.literal.toList.length)) cursor := by
    intro cursor same
    have first := Parse.Cursor.current_eq_first same
    have count : cursor.count = rest.length + 1 := by
      rw [← cursor.length_tokens, same, List.length_cons]
    refine (Parse.bind_ok (Parse.current_ran cursor)).trans
      ((Parse.bind_ok (Parse.remaining_ran cursor)).trans (Parse.bind_error ?_))
    rw [count]
    refine (Parse.bind_ok (Parse.current_ran cursor)).trans ?_
    rw [first, oversized.isInteger]
    exact Parse.bind_error (Parse.statement_oversized oversized depth cursor first)
  unfold ofTokens
  rw [read _ rfl]

section Digits

variable {digits : List Char} (all : ∀ digit ∈ digits, Token.isDigit digit = true)

include all

theorem Parsed.ofText_digits (tooMany : Parse.digitLimit < digits.length) :
    Parsed.ofText (String.ofList digits) = .error (.tooManyDigits digits.length) := by
  have nonempty : digits ≠ [] := by
    rintro rfl
    exact Nat.not_lt_zero _ tooMany
  have prints : Token.Prints (String.ofList digits).toList [(.integer, String.ofList digits)] := by
    rw [String.toList_ofList]
    exact Token.prints_number nonempty all
  obtain ⟨token, rest, scanned, same, _⟩ := List.map_eq_cons_iff.mp prints.scan
  have literal : token.literal.toList = digits :=
    (congrArg String.toList (congrArg Prod.snd same)).trans String.toList_ofList
  have oversized : token.Oversized :=
    ⟨congrArg Prod.fst same, literal.symm ▸ all, literal.symm ▸ tooMany⟩
  rw [Parsed.ofText, scanned, ← literal]
  exact Parsed.ofTokens_oversized oversized rest 4999

end Digits

end MonkeyLang
