import MonkeyLang.Proofs.Syntax.Walking

namespace MonkeyLang

open Grammar (Tokens)

namespace Parse

/-! # One error for each statement that is dropped -/

theorem expression_walks (depth : Nat) (tokens : Tokens) (power : Nat) (inner : Cursor)
    (tight : loosest ≤ power) (within : inner.Within tokens) :
    Walks (Breaks depth tokens) (expression depth power) inner fun _ _ => True :=
  (Walks.expression depth tight within.ending).weaken fun _ breaks => breaks.wider within.suffix

section Statement

variable {depth : Nat} {cursor after : Cursor} (isEnd : cursor.ending.kind = .endOfInput)

include isEnd

theorem statement_kept {node : Node}
    (ran : statement (expression depth) cursor = .ok (some node) after) : cursor.Inside after := by
  rcases Walks.statement (expression_walks depth cursor.tokens) ⟨List.suffix_refl _, isEnd⟩ with
    ⟨_, _, asked, inside⟩ | ⟨_, _, asked, _⟩ | ⟨_, _, asked, _⟩ <;> cases ran.symm.trans asked
  exact inside

theorem statement_dropped (ran : statement (expression depth) cursor = .ok none after) :
    ∃ place error, after = place.report error ∧ cursor.Inside place := by
  rcases Walks.statement (expression_walks depth cursor.tokens) ⟨List.suffix_refl _, isEnd⟩ with
    ⟨_, _, asked, _⟩ | ⟨error, place, asked, inside⟩ | ⟨_, _, asked, _⟩ <;>
    cases ran.symm.trans asked
  exact ⟨place, error, rfl, inside⟩

end Statement

end Parse

namespace Parsed

open Parse

variable {depth : Nat} {tokens : Tokens} {after : Cursor}

theorem ofTokens_ok {program : Node} (ran : programForm depth (beginning tokens) = .ok program after) :
    ofTokens depth tokens = .ok ⟨program, after.errors.toList⟩ := by
  unfold beginning at ran
  unfold ofTokens
  rw [ran]

theorem ofTokens_broken {reason : Breakoff}
    (ran : programForm depth (beginning tokens) = .error (.broken reason) after) :
    ofTokens depth tokens = .error reason := by
  unfold beginning at ran
  unfold ofTokens
  rw [ran]

theorem programForm_beginning (depth : Nat) (tokens : Tokens) :
    programForm depth (beginning tokens) =
      (statements (expression depth) (fun _ => false) tokens.length #[] >>= fun body =>
        Pure.pure (Node.program ⟨(beginning tokens).current, body.toList⟩)) (beginning tokens) := by
  rw [programForm, bind_ok (current_ran _), bind_ok (remaining_ran _)]
  rfl

/-- A program is read up to the end of the input, unless its reading is broken off. -/
theorem programForm_traverses (depth : Nat) (tokens : Tokens) :
    (∃ program requests after, programForm depth (beginning tokens) = .ok program after ∧
      Traverses (.body fun _ => false) (beginning tokens) requests after ∧
      after.current.kind = .endOfInput) ∨
    ∃ reason after, programForm depth (beginning tokens) = .error (.broken reason) after ∧
      Breaks depth tokens reason := by
  have start := programForm_beginning depth tokens
  have body : Passes (Breaks depth tokens) (fun _ => false) (beginning tokens)
      (statements (expression depth) (fun _ => false) tokens.length #[] (beginning tokens)) :=
    Walks.statements (expression_walks depth tokens) _ ⟨List.suffix_refl tokens, endingOf_kind tokens⟩
      (Nat.le_refl _)
  unfold Passes at body
  split at body
  · rename_i nodes after ran
    obtain ⟨⟨requests, traverses⟩, ended⟩ := body
    exact .inl ⟨_, requests, after, start.trans (bind_ok ran), traverses, by
      simpa [endsBody] using ended⟩
  · exact body.elim
  · rename_i reason after ran
    exact .inr ⟨reason, after, start.trans (bind_error ran), body⟩

/-- Reading tokens gives a program with the errors of the statements that were dropped, unless it is
broken off. -/
theorem ofTokens_traverses (depth : Nat) (tokens : Tokens) :
    (∃ parsed requests after, ofTokens depth tokens = .ok parsed ∧
      Traverses (.body fun _ => false) (beginning tokens) requests after ∧
      after.current.kind = .endOfInput ∧ parsed.errors = errorsOf requests) ∨
    ∃ reason, ofTokens depth tokens = .error reason ∧ Breaks depth tokens reason := by
  rcases programForm_traverses depth tokens with
    ⟨program, requests, after, ran, traverses, isOver⟩ | ⟨reason, after, ran, breaks⟩
  · exact .inl ⟨_, requests, after, ofTokens_ok ran, traverses, isOver, traverses.errors⟩
  · exact .inr ⟨reason, ofTokens_broken ran, breaks⟩

end Parsed

/-- Each statement that is asked for is kept, and then adds no error of its own, or is dropped, and then
adds one, after those of the statements that were dropped inside its blocks.  So a program that was
read has as many errors as statements were dropped, at any depth: at most one for each token that is
no end token. -/
theorem dropped_statements_leave_one_error :
    (∀ (depth : Nat) (cursor : Parse.Cursor), cursor.ending.kind = .endOfInput →
      (∀ node after, Parse.statement (Parse.expression depth) cursor = .ok (some node) after →
        ∃ requests, Parse.Traverses .inside cursor requests after ∧
          after.errors.toList = cursor.errors.toList ++ Parse.errorsOf requests) ∧
      ∀ after, Parse.statement (Parse.expression depth) cursor = .ok none after →
        ∃ requests place error, Parse.Traverses .inside cursor requests place ∧
          after = place.report error ∧
          after.errors.toList = cursor.errors.toList ++ Parse.errorsOf requests ++ [error]) ∧
    ∀ tokens : Tokens,
      ((∀ token ∈ tokens, ¬ token.Oversized) →
        ∀ depth, tokens.length < depth → ∃ parsed, Parsed.ofTokens depth tokens = .ok parsed) ∧
      ∀ depth parsed, Parsed.ofTokens depth tokens = .ok parsed →
        ∃ requests after,
          Parse.Traverses (.body fun _ => false) (Parse.beginning tokens) requests after ∧
          after.current.kind = .endOfInput ∧
          (∀ others last,
            Parse.Traverses (.body fun _ => false) (Parse.beginning tokens) others last →
              others = requests) ∧
          parsed.errors = Parse.errorsOf requests ∧
          parsed.errors.length = requests.countP (·.error?.isSome) ∧
          (parsed.errors = [] ↔ ∀ request ∈ requests, request.error? = none) ∧
          parsed.errors.length ≤ tokens.countP (·.kind != .endOfInput) := by
  refine ⟨fun depth cursor isEnd => ⟨fun node after ran => ?_, fun after ran => ?_⟩,
    fun tokens => ⟨fun limited depth room => ?_, fun depth parsed read => ?_⟩⟩
  · obtain ⟨requests, traverses⟩ := Parse.statement_kept isEnd ran
    exact ⟨requests, traverses, traverses.errors⟩
  · obtain ⟨place, error, rfl, requests, traverses⟩ := Parse.statement_dropped isEnd ran
    refine ⟨requests, place, error, traverses, rfl, ?_⟩
    rw [← traverses.errors]
    exact Array.toList_push
  · rcases Parsed.ofTokens_traverses depth tokens with ⟨parsed, _, _, read, _⟩ | ⟨reason, _, breaks⟩
    · exact ⟨parsed, read⟩
    · cases reason with
      | tooDeep => exact absurd breaks (Nat.not_le.mpr room)
      | tooManyDigits count =>
          obtain ⟨token, member, oversized, _⟩ := breaks
          exact absurd oversized (limited token member)
  · rcases Parsed.ofTokens_traverses depth tokens with
      ⟨_, requests, after, given, traverses, isOver, errors⟩ | ⟨_, given, _⟩ <;>
      cases read.symm.trans given
    have count : parsed.errors.length = requests.countP (·.error?.isSome) := by
      rw [errors, Parse.errorsOf, List.length_filterMap_eq_countP]
    have bound := traverses.length (Parse.endingOf_kind tokens)
    refine ⟨requests, after, traverses, isOver, fun others last other => ?_, errors, count, ?_, ?_⟩
    · exact (other.unique traverses nofun).1
    · rw [errors, Parse.errorsOf, List.filterMap_eq_nil_iff]
    · rw [count]
      exact Nat.le_trans List.countP_le_length (Nat.le_trans (Nat.le_add_right _ _) bound)

/-- `if (a) { ) } )`: one statement is dropped inside the block of a statement that is kept, and one
behind that. -/
theorem dropped_statements_leave_one_error_in_block :
    let token : Token.Kind → String → Token := fun kind literal => ⟨kind, literal, 1, 1⟩
    let closing := token .rightParen ")"
    let stray := SyntaxError.noExpression .rightParen
    let tokens := [token .ifKeyword "if", token .leftParen "(", token .identifier "a", closing,
      token .leftBrace "\x7b", closing, token .rightBrace "\x7d", closing]
    (∃ requests after, Parse.Traverses .inside (Parse.beginning tokens) requests after ∧
      Parse.errorsOf requests = [stray]) ∧
    (∃ requests place, Parse.Traverses .inside (Parse.beginning [closing]) requests place ∧
      Parse.errorsOf requests = []) ∧
    ∃ parsed requests after, Parsed.ofTokens 9 tokens = .ok parsed ∧
      Parse.Traverses (.body fun _ => false) (Parse.beginning tokens) requests after ∧
      parsed.errors = [stray, stray] ∧ requests.countP (·.error?.isSome) = 2 := by
  intro token closing stray tokens
  have noIntegers : ∀ token ∈ tokens, token.kind ≠ .integer := by decide
  have limited : ∀ token ∈ tokens, ¬ token.Oversized :=
    fun token member oversized => noIntegers token member oversized.isInteger
  obtain ⟨each, whole⟩ := dropped_statements_leave_one_error
  refine ⟨?_, ?_, ?_⟩
  · obtain ⟨requests, traverses, errors⟩ := (each 9 (Parse.beginning tokens) rfl).1 _ _ rfl
    exact ⟨requests, _, traverses, errors.symm⟩
  · obtain ⟨requests, place, error, traverses, _, errors⟩ :=
      (each 1 (Parse.beginning [closing]) rfl).2 _ rfl
    have errors : [] ++ [stray] = Parse.errorsOf requests ++ [error] := errors
    exact ⟨requests, place, traverses, (List.append_inj_left' errors rfl).symm⟩
  · obtain ⟨parsed, read⟩ := (whole tokens).1 limited 9 (by decide)
    obtain ⟨requests, after, traverses, _, _, _, count, _⟩ := (whole tokens).2 9 parsed read
    have errors : parsed.errors = [stray, stray] := by
      cases read
      rfl
    exact ⟨parsed, requests, after, read, traverses, errors, by rw [← count, errors]; rfl⟩

end MonkeyLang
