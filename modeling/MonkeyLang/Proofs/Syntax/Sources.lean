import MonkeyLang.Proofs.Syntax.Following
import MonkeyLang.Proofs.Token.Pulling

namespace MonkeyLang

open Grammar (Tokens)

/-! # Where tokens come from

A list of tokens is made a stream by end tokens behind it, each at the place of the token before it.
Reading such a stream comes to an end, whatever tokens the list has, and gives what reading the list
gives.  So it does on the tokens that a scanner gives one by one.
-/

namespace Parse

/-- The token at the head of a list, or an end token at the place of the token before. -/
def given (last : Token) : Tokens → Token
  | [] => ⟨.endOfInput, "", last.line, last.column⟩
  | token :: _ => token

def supply (last : Token) (tokens : Tokens) : Nat → Token
  | 0 => given last tokens
  | place + 1 => supply (given last tokens) tokens.tail place

/-- The tokens of a list one by one, and end tokens behind them for ever. -/
def supplied (tokens : Tokens) : Nat → Token := supply ⟨.endOfInput, "", 0, 0⟩ tokens

theorem supply_eq (last : Token) (tokens : Tokens) (place : Nat) :
    supply last tokens place = tokens.getD place (given (tokens.getLast?.getD last) []) := by
  induction place generalizing last tokens with
  | zero => cases tokens <;> rfl
  | succ place ih =>
      rw [supply, ih]
      cases tokens with
      | nil => rfl
      | cons token tokens => rw [List.getLast?_cons, List.getD_cons_succ]; rfl

theorem supplied_eq (tokens : Tokens) (place : Nat) :
    supplied tokens place = tokens.getD place (endingOf tokens) := by
  rw [supplied, supply_eq, endingOf]
  cases tokens.getLast? <;> rfl

theorem supplied_zero (tokens : Tokens) : supplied tokens 0 = (beginning tokens).current := by
  cases tokens <;> rfl

/-- Tokens with the end token that stands behind them, on a stream of tokens like them. -/
def Feed.ofTokens {similar : Token → Token → Prop} (spelled : Token.Spelled similar) (tokens : Tokens)
    {stream : Nat → Token}
    (alike : ∀ place, (supplied tokens place).Alike similar (stream place)) : Feed where
  similar := similar
  spelled := spelled
  tokens := tokens
  ending := endingOf tokens
  isEnd := endingOf_kind tokens
  stream := stream
  alike place := supplied_eq tokens place ▸ alike place

/-- What comes of reading a whole stream. -/
inductive Parses (stream : Nat → Token) (depth : Nat) : Except Breakoff Parsed → Prop
  | read {starts : List Nat} {program : Node} {after : Spot}
      (run : Runs stream depth Code.program .start starts (.ok program after)) :
      Parses stream depth (.ok ⟨program, after.errors.toList⟩)
  | broken {starts : List Nat} {reason : Breakoff} {after : Spot}
      (run : Runs stream depth Code.program .start starts (.error (.broken reason) after)) :
      Parses stream depth (.error reason)

theorem Parses.unique {stream : Nat → Token} {depth : Nat} {outcome other : Except Breakoff Parsed}
    (parses : Parses stream depth outcome) (otherParses : Parses stream depth other) :
    outcome = other := by
  cases parses with
  | read run | broken run =>
      cases otherParses with
      | read otherRun | broken otherRun => cases (run.unique otherRun).2 <;> rfl

section Program

variable {similar : Token → Token → Prop} {stream : Nat → Token} {tokens : Tokens} {depth : Nat}

/-- How a run on a whole stream ends that some tokens are like: as reading the tokens does. -/
inductive Concludes (similar : Token → Token → Prop) (stream : Nat → Token) (depth : Nat)
    (tokens : Tokens) : EStateM.Result Stop Spot Node → Prop
  | read {program other : Node} {after : Spot}
      (read : Parsed.ofTokens depth tokens = .ok ⟨program, after.errors.toList⟩)
      (programs : Follows.Programs similar (supplied tokens 0) (stream 0) program other)
      (isOver : (stream after.place).kind = .endOfInput) :
      Concludes similar stream depth tokens (.ok other after)
  | broken {reason : Breakoff} {after : Spot} (read : Parsed.ofTokens depth tokens = .error reason)
      (breaks : Breaks depth tokens reason) :
      Concludes similar stream depth tokens (.error (.broken reason) after)

theorem program_runs (spelled : Token.Spelled similar)
    (alike : ∀ place, (supplied tokens place).Alike similar (stream place)) (depth : Nat) :
    ∃ starts ending, Runs stream depth Code.program .start starts ending ∧
      Rising stream 0 (spotOf ending).place starts ∧
      Concludes similar stream depth tokens ending := by
  let feed := Feed.ofTokens spelled tokens alike
  have here : feed.At 0 (beginning tokens) .start := ⟨rfl, rfl, rfl, Nat.zero_le _⟩
  obtain ⟨starts, ending, run, matched, rising, _⟩ := Follows.program depth here (Nat.le_refl _)
  refine ⟨starts, ending, run, rising, ?_⟩
  rcases Parsed.programForm_traverses depth tokens with
    ⟨program, _, after, ran, _, isOver⟩ | ⟨reason, after, ran, breaks⟩
  · have read := Parsed.ofTokens_ok ran
    rw [ran] at matched
    cases matched with
    | done programs there =>
        rw [there.errors] at read
        rw [← supplied_zero] at programs
        exact .read read programs (there.current.kind ▸ isOver)
  · rw [ran] at matched
    cases matched with
    | stopped _ there => exact .broken (Parsed.ofTokens_broken ran) breaks

end Program

theorem Follows.Programs.eq {token : Token} {program other : Node}
    (programs : Follows.Programs Eq token token program other) : program = other := by
  cases programs with
  | program bodies => rw [Node.Similar.eqAll _ bodies]

theorem alike_rfl (token : Token) : token.Alike Eq token := ⟨rfl, fun _ => rfl⟩

theorem spelled_eq : Token.Spelled Eq := fun same => same ▸ .rfl

section Alike

variable {similar : Token → Token → Prop} {stream : Nat → Token} {tokens : Tokens}

/-- Reading a stream of similar tokens gives similar trees and the same errors, or the same reason. -/
theorem parses_alike (spelled : Token.Spelled similar)
    (alike : ∀ place, (supplied tokens place).Alike similar (stream place)) (depth : Nat) :
    (∃ program other errors, Parsed.ofTokens depth tokens = .ok ⟨program, errors⟩ ∧
      Parses stream depth (.ok ⟨other, errors⟩) ∧
      Follows.Programs similar (supplied tokens 0) (stream 0) program other) ∨
    ∃ reason, Parsed.ofTokens depth tokens = .error reason ∧ Parses stream depth (.error reason) := by
  obtain ⟨starts, ending, run, _, concludes⟩ := program_runs spelled alike depth
  cases concludes with
  | read read programs _ => exact .inl ⟨_, _, _, read, .read run, programs⟩
  | broken read _ => exact .inr ⟨_, read, .broken run⟩

/-- Reading a stream of the same tokens gives what reading the list gives, wherever their end tokens
are. -/
theorem parses_iff (alike : ∀ place, (supplied tokens place).Alike Eq (stream place))
    (first : supplied tokens 0 = stream 0) (depth : Nat) (outcome : Except Breakoff Parsed) :
    Parses stream depth outcome ↔ outcome = Parsed.ofTokens depth tokens := by
  have parses : Parses stream depth (Parsed.ofTokens depth tokens) := by
    rcases parses_alike spelled_eq alike depth with
      ⟨program, other, errors, read, parses, programs⟩ | ⟨reason, read, parses⟩
    · rw [← first] at programs
      rwa [read, programs.eq]
    · rwa [read]
  exact ⟨fun other => other.unique parses, fun same => same ▸ parses⟩

end Alike

theorem parses_supplied (tokens : Tokens) (depth : Nat) (outcome : Except Breakoff Parsed) :
    Parses (supplied tokens) depth outcome ↔ outcome = Parsed.ofTokens depth tokens :=
  parses_iff (fun _ => alike_rfl _) rfl depth outcome

/-- What tokens a list gives does not depend on an end token at its end. -/
theorem supplied_concat (tokens : Tokens) {finish : Token} (isEnd : finish.kind = .endOfInput)
    (place : Nat) : (supplied tokens place).Alike Eq (supplied (tokens ++ [finish]) place) := by
  rw [supplied_eq, supplied_eq, List.getD_eq_getElem?_getD, List.getD_eq_getElem?_getD]
  rcases Nat.lt_or_ge place tokens.length with inside | beyond
  · rw [List.getElem?_append_left inside, List.getElem?_eq_getElem inside]
    exact alike_rfl _
  · have ends : ((tokens ++ [finish])[place]?.getD (endingOf (tokens ++ [finish]))).kind =
        .endOfInput := by
      rw [List.getElem?_append_right beyond]
      cases place - tokens.length with
      | zero => exact isEnd
      | succ => exact endingOf_kind _
    rw [List.getElem?_eq_none beyond]
    have isEnding : (endingOf tokens).kind = .endOfInput := endingOf_kind tokens
    exact ⟨isEnding.trans ends.symm, fun proper => absurd isEnding proper⟩

theorem ofTokens_concat {tokens : Tokens} (some : tokens ≠ []) {finish : Token}
    (isEnd : finish.kind = .endOfInput) (depth : Nat) :
    Parsed.ofTokens depth (tokens ++ [finish]) = Parsed.ofTokens depth tokens := by
  have first : supplied tokens 0 = supplied (tokens ++ [finish]) 0 := by
    cases tokens with
    | nil => exact absurd rfl some
    | cons => rfl
  have onward := parses_iff (supplied_concat tokens isEnd) first depth
  exact (onward _).mp ((parses_supplied _ depth _).mpr rfl)

end Parse

/-- Reading ends on every list of tokens, made a stream by end tokens behind it.  Each of the places at
which a statement is asked for lies behind the one before and has a token of the list that is no end
token.  What was read is what reading the list gives, and ends at an end token. -/
theorem reading_ends_on_every_stream (tokens : Tokens) (depth : Nat) :
    ∃ starts ending,
      (∀ others last, Parse.Runs (Parse.supplied tokens) depth Parse.Code.program .start others last ↔
        others = starts ∧ last = ending) ∧
      starts.Pairwise (· < ·) ∧
      (∀ start ∈ starts, ∃ token, tokens[start]? = some token ∧ token.kind ≠ .endOfInput) ∧
      ((∃ program after, ending = .ok program after ∧
          (Parse.supplied tokens after.place).kind = .endOfInput ∧
          Parsed.ofTokens depth tokens = .ok ⟨program, after.errors.toList⟩) ∨
        ∃ reason after, ending = .error (.broken reason) after ∧
          Parsed.ofTokens depth tokens = .error reason) ∧
      ((∀ token ∈ tokens, ¬ token.Oversized) → tokens.length < depth →
        ∃ program after, ending = .ok program after) := by
  obtain ⟨starts, ending, run, rising, concludes⟩ :=
    Parse.program_runs Parse.spelled_eq (fun place => Parse.alike_rfl (Parse.supplied tokens place)) depth
  refine ⟨starts, ending, fun others last => ⟨fun other => other.unique run, ?_⟩, rising.increasing,
    fun start member => ?_, ?_, fun limited room => ?_⟩
  · rintro ⟨rfl, rfl⟩
    exact run
  · have proper := rising.proper start member
    rw [Parse.supplied_eq, List.getD_eq_getElem?_getD] at proper
    cases found : tokens[start]? with
    | none =>
        rw [found] at proper
        exact absurd (Parse.endingOf_kind tokens) proper
    | some token =>
        rw [found] at proper
        exact ⟨token, rfl, proper⟩
  · cases concludes with
    | read read programs isOver => exact .inl ⟨_, _, rfl, isOver, programs.eq ▸ read⟩
    | broken read => exact .inr ⟨_, _, rfl, read⟩
  · cases concludes with
    | read => exact ⟨_, _, rfl⟩
    | broken _ breaks => exact absurd breaks (Parse.not_breaks limited room _)

/-- `if (a) { EOF ) b`: the end token ends the block and is passed over, and what stands behind it is
read on, with an error. -/
theorem reading_ends_behind_inner_end :
    let token : Token.Kind → String → Token := fun kind literal => ⟨kind, literal, 1, 1⟩
    let tokens := [token .ifKeyword "if", token .leftParen "(", token .identifier "a",
      token .rightParen ")", token .leftBrace "\x7b", token .endOfInput "", token .rightParen ")",
      token .identifier "b"]
    (∀ token ∈ tokens, ¬ token.Oversized) ∧ tokens.length < 9 ∧
      ∃ starts program after,
        Parse.Runs (Parse.supplied tokens) 9 Parse.Code.program .start starts (.ok program after) ∧
        starts.Pairwise (· < ·) ∧ (Parse.supplied tokens after.place).kind = .endOfInput ∧
        after.errors.toList = [.noExpression .rightParen] := by
  intro token tokens
  have noIntegers : ∀ token ∈ tokens, token.kind ≠ .integer := by decide
  have limited : ∀ token ∈ tokens, ¬ token.Oversized :=
    fun token member oversized => noIntegers token member oversized.isInteger
  obtain ⟨starts, ending, runs, increasing, _, ends, whole⟩ := reading_ends_on_every_stream tokens 9
  obtain ⟨program, after, rfl⟩ := whole limited (by decide)
  refine ⟨limited, by decide, starts, program, after, (runs _ _).mpr ⟨rfl, rfl⟩, increasing, ?_⟩
  rcases ends with ⟨_, _, same, isOver, read⟩ | ⟨_, _, other, _⟩
  · cases same
    have errors : ∀ parsed, Parsed.ofTokens 9 tokens = .ok parsed →
        parsed.errors = [.noExpression .rightParen] := by
      rintro _ ⟨⟩
      rfl
    exact ⟨isOver, errors _ read⟩
  · cases other

theorem stream_scan (text : String) :
    (Scanner.ofText text.toList).stream = Parse.supplied (Token.scan text) := by
  obtain ⟨last, gives⟩ := Scanner.scan_gives text
  funext place
  rw [gives.stream, Parse.supplied_eq, Parse.endingOf, gives.ends.1]
  rfl

/-- The tokens of a text are read alike when they are pulled from the scanner one by one, when they are
listed, and when they are listed without the end token, but for the token of an empty program.  Pulled
one by one they are those listed, the end token again and again behind them, and the scanner stays at
the end of the text. -/
theorem token_sources_read_alike (text : String) (depth : Nat) :
    let tokens := Token.scan text
    let scanner := Scanner.ofText text.toList
    (∀ outcome, Parse.Parses scanner.stream depth outcome ↔
      outcome = Parsed.ofTokens depth tokens) ∧
    (∀ outcome, Parse.Parses (Parse.supplied tokens) depth outcome ↔
      outcome = Parsed.ofTokens depth tokens) ∧
    (∀ outcome, Parse.Parses (Parse.supplied tokens.dropLast) depth outcome ↔
      outcome = Parsed.ofTokens depth tokens.dropLast) ∧
    (tokens.dropLast ≠ [] → Parsed.ofTokens depth tokens.dropLast = Parsed.ofTokens depth tokens) ∧
    (tokens.dropLast = [] → ∃ token other,
      Parsed.ofTokens depth tokens = .ok ⟨.program ⟨token, []⟩, []⟩ ∧
      Parsed.ofTokens depth tokens.dropLast = .ok ⟨.program ⟨other, []⟩, []⟩) ∧
    ∃ finish, tokens.getLast? = some finish ∧ finish.kind = .endOfInput ∧
      ∀ count, (scanner.pull count).1 =
          tokens.take count ++ List.replicate (count - tokens.length) finish ∧
        (tokens.length ≤ count → (scanner.pull count).2 = ⟨[], Position.behind text.toList⟩) := by
  intro tokens scanner
  obtain ⟨last, gives⟩ := Scanner.scan_gives text
  have isLast := Scanner.scan_getLast text
  obtain ⟨proper, split⟩ := List.getLast?_eq_some_iff.mp isLast
  have dropped : tokens.dropLast = proper :=
    (congrArg List.dropLast split).trans List.dropLast_concat
  refine ⟨fun outcome => ?_, Parse.parses_supplied tokens depth,
    Parse.parses_supplied tokens.dropLast depth, fun some => ?_, fun none => ?_, _, isLast, rfl,
    fun count => Scanner.ofText_finish text.toList ▸ gives.pull count⟩
  · rw [stream_scan]
    exact Parse.parses_supplied tokens depth outcome
  · rw [dropped] at some ⊢
    have isEnd : (Token.endAt (Position.behind text.toList)).kind = .endOfInput := rfl
    have read := Parse.ofTokens_concat some isEnd depth
    exact (split ▸ read).symm
  · rw [dropped] at none ⊢
    subst none
    exact ⟨_, _, congrArg (Parsed.ofTokens depth) split, rfl⟩

/-- A block, a list and a hash are open where `fn(x) { [{` ends; a blank has no tokens. -/
theorem token_sources_read_alike_unclosed :
    let text := "fn(x) \x7b [\x7b"
    let scanner := Scanner.ofText text.toList
    (Token.scan text).dropLast ≠ [] ∧
      Parsed.ofTokens 9 (Token.scan text).dropLast = Parsed.ofTokens 9 (Token.scan text) ∧
      Parse.Parses scanner.stream 9 (Parsed.ofTokens 9 (Token.scan text)) ∧
      (Token.scan text).length ≤ 9 ∧ (scanner.pull 9).2 = ⟨[], Position.behind text.toList⟩ ∧
      (Token.scan " ").dropLast = [] ∧
      ∃ token, Parsed.ofTokens 9 (Token.scan " ") = .ok ⟨.program ⟨token, []⟩, []⟩ := by
  intro text scanner
  have some : (Token.scan text).dropLast ≠ [] := by decide +kernel
  have short : (Token.scan text).length ≤ 9 := by decide +kernel
  have none : (Token.scan " ").dropLast = [] := by decide +kernel
  obtain ⟨pulled, _, _, same, _, _, _, _, stays⟩ := token_sources_read_alike text 9
  obtain ⟨_, _, _, _, empty, _⟩ := token_sources_read_alike " " 9
  obtain ⟨token, _, blank, _⟩ := empty none
  exact ⟨some, same some, (pulled _).mpr rfl, short, (stays 9).2 short, none, token, blank⟩

end MonkeyLang
