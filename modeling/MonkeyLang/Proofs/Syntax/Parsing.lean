import MonkeyLang.Proofs.Syntax.Completeness
import MonkeyLang.Proofs.Token.Spelling

namespace MonkeyLang

open Grammar (Tokens)

/-! # The parser and its grammar -/

namespace Parse

theorem endingOf_kind (tokens : List Token) : (endingOf tokens).kind = .endOfInput := by
  unfold endingOf
  split <;> rfl

theorem Cursor.views_beginning {tokens ends : Tokens}
    (proper : ∀ token ∈ tokens, token.kind ≠ .endOfInput)
    (allEnd : ∀ token ∈ ends, token.kind = .endOfInput) :
    Cursor.Views ⟨tokens ++ ends, (tokens ++ ends).length, endingOf (tokens ++ ends), #[], rfl⟩
      tokens :=
  ⟨⟨ends, rfl, allEnd⟩, proper, endingOf_kind _⟩

end Parse

namespace Parsed

/-- A program keeps the first token of the input. -/
theorem ofTokens_token {depth : Nat} {tokens : List Token} {parsed : Parsed}
    (read : ofTokens depth tokens = .ok parsed) (clean : parsed.errors = []) :
    ∃ body, parsed.program = .program ⟨tokens.headD (Parse.endingOf tokens), body⟩ := by
  have opened : ∀ cursor : Parse.Cursor, ∀ program after,
      Parse.programForm depth cursor = .ok program after →
      ∃ body, program = .program ⟨cursor.current, body⟩ := by
    intro cursor program after ran
    change EStateM.bind (Parse.statements (Parse.expression depth) (fun _ => false) cursor.count #[])
      (fun body => Pure.pure (Node.program ⟨cursor.current, body.toList⟩)) cursor = _ at ran
    unfold EStateM.bind at ran
    split at ran
    · cases ran
      exact ⟨_, rfl⟩
    · cases ran
  unfold ofTokens at read
  split at read
  · rename_i program after ran
    cases read
    exact opened _ _ _ ran
  · cases read
    cases clean
  · cases read

variable {depth : Nat} {tokens ends : Tokens}
  (proper : ∀ token ∈ tokens, token.kind ≠ .endOfInput)
  (allEnd : ∀ token ∈ ends, token.kind = .endOfInput)

include proper allEnd

/-- Reading breaks off only where the limits on depth and digits demand it. -/
theorem ofTokens_error {reason : Breakoff} (broken : ofTokens depth (tokens ++ ends) = .error reason) :
    Parse.Breaks depth tokens reason := by
  have met := Parse.programForm_derives depth tokens #[] _
    (Parse.Cursor.views_beginning proper allEnd) rfl
  unfold ofTokens at broken
  split at broken
  · cases broken
  · cases broken
  · rename_i ran
    cases broken
    rw [ran] at met
    exact met

theorem ofTokens_readable {parsed : Parsed} (read : ofTokens depth (tokens ++ ends) = .ok parsed)
    (clean : parsed.errors = []) :
    ∃ token body, parsed.program = .program ⟨token, body⟩ ∧
      Grammar.Statements (Parse.Readable depth Parse.loosest) tokens body [] := by
  have met := Parse.programForm_derives depth tokens #[] _
    (Parse.Cursor.views_beginning proper allEnd) rfl
  unfold ofTokens at read
  split at read
  · rename_i program after ran
    cases read
    rw [ran] at met
    obtain ⟨place, _, _, derives⟩ := met
    exact (derives (Array.toList_eq_nil_iff.mp clean)).2
  · cases read
    cases clean
  · cases read

theorem ofTokens_sound {parsed : Parsed} (read : ofTokens depth (tokens ++ ends) = .ok parsed)
    (clean : parsed.errors = []) :
    ∃ token body, parsed.program = .program ⟨token, body⟩ ∧ Grammar.Program tokens body := by
  obtain ⟨token, body, same, derived⟩ := ofTokens_readable proper allEnd read clean
  exact ⟨token, body, same, derived.mono fun ranked => ranked.expression⟩

theorem ofTokens_complete {parsed : Parsed} {body : List Node}
    (read : ofTokens depth (tokens ++ ends) = .ok parsed) (derived : Grammar.Program tokens body) :
    parsed.errors = [] := by
  have reads := Parse.chains_reads (Parse.expression_finishes depth)
  have met := Parse.programForm_accepts reads derived #[] _
    (Parse.Cursor.views_beginning proper allEnd) rfl
  unfold ofTokens at read
  split at read
  · rename_i program after ran
    cases read
    rw [ran] at met
    obtain ⟨place, _, _, same, _⟩ := met
    rw [same]
  · rename_i error after ran
    rw [ran] at met
    obtain ⟨_, _, impossible⟩ := met
    exact impossible.elim
  · cases read

end Parsed

/-- The parser reports no error exactly for the sequences of statements, and then the program that
it gives spells, read in order, exactly the tokens of the input.  It gives a program whenever there
is room for as many nested expressions as there are tokens. -/
theorem parser_accepts_grammar (tokens : List Token)
    (proper : ∀ token ∈ tokens, token.kind ≠ .endOfInput)
    (limited : ∀ token ∈ tokens, ¬ token.Oversized) :
    (∀ depth, tokens.length < depth → ∃ parsed, Parsed.ofTokens depth tokens = .ok parsed) ∧
      ∀ depth parsed, Parsed.ofTokens depth tokens = .ok parsed →
        (parsed.errors = [] ↔ ∃ body, Grammar.Program tokens body) ∧
        (parsed.errors = [] →
          ∃ token body, parsed.program = .program ⟨token, body⟩ ∧ Grammar.Program tokens body) := by
  have noEnds : ∀ token ∈ ([] : Tokens), token.kind = .endOfInput := List.forall_mem_nil _
  have alone : tokens ++ [] = tokens := List.append_nil tokens
  constructor
  · intro depth room
    cases read : Parsed.ofTokens depth tokens with
    | ok parsed => exact ⟨parsed, rfl⟩
    | error reason =>
        have breaks := Parsed.ofTokens_error proper noEnds (alone.symm ▸ read)
        cases reason with
        | tooDeep => exact absurd breaks (Nat.not_le.mpr room)
        | tooManyDigits count =>
            obtain ⟨token, member, oversized, _⟩ := breaks
            exact absurd oversized (limited token member)
  · intro depth parsed read
    have read' : Parsed.ofTokens depth (tokens ++ []) = .ok parsed := alone.symm ▸ read
    refine ⟨⟨fun clean => ?_, ?_⟩, Parsed.ofTokens_sound proper noEnds read'⟩
    · obtain ⟨token, body, _, derived⟩ := Parsed.ofTokens_sound proper noEnds read' clean
      exact ⟨body, derived⟩
    · intro given
      obtain ⟨body, derived⟩ := given
      exact Parsed.ofTokens_complete proper noEnds read' derived

/-- `fn(x) { -x` with its closing brace missing at the end of the input. -/
theorem parser_accepts_unclosed_function :
    let place : Token.Kind → String → Token := fun kind literal => ⟨kind, literal, 1, 1⟩
    let tokens := [place .fnKeyword "fn", place .leftParen "(", place .identifier "x",
      place .rightParen ")", place .leftBrace "\x7b", place .minus "-", place .identifier "x"]
    ∃ body, Grammar.Program tokens body := by
  intro place tokens
  have noIntegers : ∀ token ∈ tokens, token.kind ≠ .integer := by decide
  have limited : ∀ token ∈ tokens, ¬ token.Oversized :=
    fun token member oversized => noIntegers token member oversized.isInteger
  obtain ⟨_, accepts⟩ := parser_accepts_grammar tokens (by decide) limited
  exact (accepts 5 _ rfl).1.mp rfl

namespace Scanner

/-- Tokens with end tokens at most at their end. -/
def Split (scanned : List Token) : Prop :=
  ∃ tokens ends, scanned = tokens ++ ends ∧ (∀ token ∈ tokens, token.kind ≠ .endOfInput) ∧
    ∀ token ∈ ends, token.kind = .endOfInput

theorem split_scan (text : String) : Split (Token.scan text) := by
  obtain ⟨tokens, finish, scanned, isEnd, proper⟩ := Token.scan_split text
  exact ⟨tokens, [finish], scanned, proper, List.forall_mem_singleton.mpr isEnd⟩

end Scanner

/-- Reading a text breaks off for its depth, or for an integer with too many digits. -/
theorem Parsed.ofText_breaks {text : String} {reason : Breakoff}
    (broken : Parsed.ofText text = .error reason) :
    reason = .tooDeep ∨ ∃ token ∈ Token.scan text,
      token.Oversized ∧ reason = .tooManyDigits token.literal.toList.length := by
  obtain ⟨tokens, ends, scanned, proper, allEnd⟩ := Scanner.split_scan text
  unfold Parsed.ofText at broken
  rw [scanned] at broken
  have breaks := Parsed.ofTokens_error proper allEnd broken
  cases reason with
  | tooDeep => exact .inl rfl
  | tooManyDigits count =>
      obtain ⟨token, member, oversized, same⟩ := breaks
      exact .inr ⟨token, scanned ▸ List.mem_append_left ends member, oversized,
        congrArg Breakoff.tooManyDigits same.symm⟩

theorem Parsed.ofText_error {text : String} {reason : Breakoff}
    (broken : Parsed.ofText text = .error reason) :
    reason = .tooDeep ∨ ∃ token ∈ Token.scan text, token.Oversized := by
  rcases Parsed.ofText_breaks broken with tooDeep | ⟨token, member, oversized, _⟩
  · exact .inl tooDeep
  · exact .inr ⟨token, member, oversized⟩

end MonkeyLang
