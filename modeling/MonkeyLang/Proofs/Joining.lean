import MonkeyLang.Proofs.Pieces
import MonkeyLang.Proofs.Syntax.Sources

namespace MonkeyLang

open Grammar (Tokens)

/-! # Texts read in a row

What is read of a text is not changed by a piece of program before it, nor is the piece by what stands
behind it, be it broken: statements are those of both texts, and errors those of the second one.
-/

namespace Parse

/-- Statements that were found before stay in front. -/
theorem statements_found (expression : Nat → Parse Node) (closes : Token.Kind → Bool) (turns : Nat)
    (found more : Array Node) :
    statements expression closes turns (found ++ more) = do
      let nodes ← statements expression closes turns more
      return found ++ nodes := by
  induction turns generalizing more with
  | zero => rfl
  | succ turns ih =>
      rw [statements, statements]
      simp only [bind_assoc]
      congr 1
      funext token
      split
      · rfl
      · simp only [bind_assoc]
        congr 1
        funext next
        cases next with
        | none => simp only [ih]
        | some node => simp only [← Array.append_push, ih]

theorem Cursor.same {cursor other : Cursor} (tokens : cursor.tokens = other.tokens)
    (ending : cursor.ending = other.ending) (errors : cursor.errors = other.errors) :
    cursor = other := by
  obtain ⟨tokens, count, ending, errors, length⟩ := cursor
  obtain ⟨others, otherCount, otherEnding, otherErrors, otherLength⟩ := other
  subst tokens ending errors length otherLength
  rfl

theorem Feed.At.unique {feed : Feed} {low high : Nat} {cursor other : Cursor} {spot : Spot}
    (here : feed.At low cursor spot) (there : feed.At high other spot) : cursor = other :=
  Cursor.same (here.tokens.trans there.tokens.symm) (here.ending.trans there.ending.symm)
    (here.errors.trans there.errors.symm)

/-- More turns than there are tokens change nothing. -/
theorem statements_enough (depth : Nat) (closes : Token.Kind → Bool) {tokens : Tokens} {turns : Nat}
    (enough : tokens.length ≤ turns) :
    statements (expression depth) closes turns #[] (beginning tokens) =
      statements (expression depth) closes tokens.length #[] (beginning tokens) := by
  let feed := Feed.ofTokens spelled_eq tokens fun place => alike_rfl (supplied tokens place)
  have here : feed.At 0 (beginning tokens) .start := ⟨rfl, rfl, rfl, Nat.zero_le _⟩
  have follows := fun {turns : Nat} (enough : tokens.length ≤ turns) =>
    Follows.statements (Follows.expression depth) closes (.nil : feed.Found #[] #[]) here
      (Nat.le_refl 0) enough
  obtain ⟨_, ending, run, matched, _⟩ := follows enough
  obtain ⟨_, _, otherRun, otherMatched, _⟩ := follows (Nat.le_refl _)
  obtain ⟨_, rfl⟩ := run.unique otherRun
  generalize statements (expression depth) closes turns #[] (beginning tokens) = first at matched ⊢
  generalize statements (expression depth) closes tokens.length #[] (beginning tokens) = second
    at otherMatched ⊢
  cases matched with
  | done found there =>
      cases otherMatched with
      | done otherFound otherThere =>
          have same := (Node.Similar.eqAll _ found).trans (Node.Similar.eqAll _ otherFound).symm
          rw [Array.toList_inj.mp same, there.unique otherThere]
  | stopped reason there =>
      cases otherMatched with
      | stopped _ otherThere => rw [there.unique otherThere]

theorem endingOf_eq (tokens : Tokens) :
    endingOf tokens = ⟨.endOfInput, "", (endingOf tokens).line, (endingOf tokens).column⟩ := by
  unfold endingOf
  split <;> rfl

theorem endingOf_append (tokens : Tokens) {rest : Tokens} (nonempty : rest ≠ []) :
    endingOf (tokens ++ rest) = endingOf rest := by
  rw [endingOf, List.getLast?_append_of_ne_nil _ nonempty, endingOf]

/-- The statements of a piece are read in front of anything, and what stands behind them is reached. -/
theorem Reads.joined {depth : Nat} {piece rest : Tokens} {body : List Node} {after : Cursor}
    (isPiece : Piece piece) (proper : ∀ token ∈ piece, token.kind ≠ .endOfInput) (nonempty : rest ≠ [])
    (reads : Reads depth (beginning (piece ++ [endingOf rest])) body after)
    (isOver : after.current.kind = .endOfInput) (clean : after.errors = #[]) :
    Reads depth (beginning (piece ++ rest)) body (beginning rest) := by
  let border : Border := ⟨Eq, fun _ => rfl, spelled_eq, [endingOf rest], rest, False, False.elim,
    List.length_pos_iff.mpr nonempty⟩
  have allEnd : ∀ token ∈ [endingOf rest], token.kind = .endOfInput :=
    List.forall_mem_singleton.mpr (endingOf_kind rest)
  have endings : endingOf (piece ++ [endingOf rest]) = endingOf (piece ++ rest) := by
    rw [endingOf_append piece nonempty, endingOf, List.getLast?_concat]
    exact (endingOf_eq rest).symm
  have here : border.At piece piece (beginning (piece ++ [endingOf rest])) (beginning (piece ++ rest)) :=
    ⟨rfl, rfl, List.forall₂_refl piece, endings, rfl⟩
  obtain ⟨bodies, last, otherReads, similar, there⟩ :=
    reads.carriedPiece allEnd here (Cursor.views_beginning proper allEnd) isPiece isOver clean
  have reached : last = beginning rest := by
    refine Cursor.same there.otherSplit ?_ (there.errors.symm.trans clean)
    exact otherReads.behind.ending.trans (endingOf_append piece nonempty)
  rw [Node.Similar.eqAll body similar, ← reached]
  exact otherReads

end Parse

namespace Parsed

open Parse

variable {depth : Nat} {piece rest : Tokens}

/-- A program with statements in front, and its first token from there. -/
def after (token : Token) (body : List Node) (parsed : Parsed) : Parsed :=
  ⟨.program ⟨token, body ++ parsed.program.body⟩, parsed.errors⟩

/-- What stands behind some statements is read as it is alone. -/
theorem ofTokens_behind {body : List Node}
    (reads : Reads depth (beginning (piece ++ rest)) body (beginning rest)) :
    ofTokens depth (piece ++ rest) =
      (ofTokens depth rest).map (after (beginning (piece ++ rest)).current body) := by
  have looped : statements (expression depth) (fun _ => false) (piece ++ rest).length #[]
      (beginning (piece ++ rest)) =
        (statements (expression depth) (fun _ => false) rest.length #[] >>= fun nodes =>
          Pure.pure (body.toArray ++ nodes)) (beginning rest) := by
    have enough : body.length + rest.length ≤ (piece ++ rest).length :=
      reads.length (endingOf_kind (piece ++ rest))
    obtain ⟨more, split⟩ := Nat.exists_eq_add_of_le enough
    have turns : (piece ++ rest).length = (rest.length + more) + body.length := by omega
    have first := reads.statements (fun _ => rfl) (rest.length + more) #[]
    have front := congrFun (statements_found (expression depth) (fun _ => false) (rest.length + more)
      body.toArray #[]) (beginning rest)
    rw [Array.empty_append] at first
    rw [Array.append_empty] at front
    rw [turns, first, front]
    change EStateM.bind _ _ _ = EStateM.bind _ _ _
    rw [EStateM.bind, statements_enough depth _ (Nat.le_add_right rest.length more), EStateM.bind]
  cases found : statements (expression depth) (fun _ => false) rest.length #[] (beginning rest) with
  | ok nodes last =>
      have alone := (programForm_beginning depth rest).trans (bind_ok found)
      have whole := (programForm_beginning depth (piece ++ rest)).trans
        (bind_ok (looped.trans (bind_ok found)))
      rw [ofTokens_ok alone, ofTokens_ok whole]
      simp [Except.map, after, Node.body]
  | error stop last =>
      have alone := (programForm_beginning depth rest).trans (bind_error found)
      have whole := (programForm_beginning depth (piece ++ rest)).trans
        (bind_error (looped.trans (bind_error found)))
      rcases programForm_traverses depth rest with ⟨_, _, _, ran, _⟩ | ⟨reason, _, ran, _⟩ <;>
        cases alone.symm.trans ran
      rw [ofTokens_broken alone, ofTokens_broken whole]
      rfl

/-- A piece is read as it is, and what stands behind it as tokens like those. -/
theorem ofTokens_joined {similar : Token → Token → Prop} (spelled : Token.Spelled similar)
    {others : Tokens} {finish : Token} {parsed : Parsed} (isPiece : Piece piece) (some : piece ≠ [])
    (proper : ∀ token ∈ piece, token.kind ≠ .endOfInput) (isEnd : finish.kind = .endOfInput)
    (nonempty : rest ≠ [])
    (alike : ∀ place, (supplied others place).Alike similar (supplied rest place))
    (read : ofTokens depth (piece ++ [finish]) = .ok parsed) (clean : parsed.errors = []) :
    (∀ reason, ofTokens depth others = .error reason →
      ofTokens depth (piece ++ rest) = .error reason) ∧
    ∀ second, ofTokens depth others = .ok second →
      ∃ bodies, ofTokens depth (piece ++ rest) =
          .ok ⟨.program ⟨parsed.program.token, parsed.program.body ++ bodies⟩, second.errors⟩ ∧
        List.Forall₂ (Node.Similar similar) second.program.body bodies := by
  have alone := (ofTokens_concat some (endingOf_kind rest) depth).trans
    (ofTokens_concat some isEnd depth).symm
  obtain ⟨token, body, last, program, reads, isOver, noErrors⟩ := ofTokens_reads (alone.trans read) clean
  have whole := ofTokens_behind (reads.joined isPiece proper nonempty isOver noErrors)
  have opening : parsed.program.token = (beginning (piece ++ rest)).current := by
    obtain ⟨_, same⟩ := ofTokens_token read clean
    rw [same]
    cases piece with
    | nil => exact absurd rfl some
    | cons => rfl
  have ownBody : parsed.program.body = body := by rw [program, Node.body]
  rw [whole, opening, ownBody]
  rcases parses_alike spelled alike depth with
    ⟨program, other, errors, otherRead, parses, programs⟩ | ⟨reason, otherRead, parses⟩
  · refine ⟨fun reason broken => (nomatch otherRead.symm.trans broken), fun second given => ?_⟩
    cases otherRead.symm.trans given
    rw [← (parses_supplied rest depth _).mp parses]
    cases programs with
    | program bodies => exact ⟨_, rfl, bodies⟩
  · refine ⟨fun other broken => ?_, fun second given => (nomatch otherRead.symm.trans given)⟩
    cases otherRead.symm.trans broken
    rw [← (parses_supplied rest depth _).mp parses]
    rfl

end Parsed

theorem Token.spelled_lowered (lines : Nat) :
    Token.Spelled fun token other => other = token.lowered lines :=
  fun same => same ▸ ⟨rfl, rfl⟩

theorem Parse.endingOf_lowered {tokens : Tokens} (some : tokens ≠ []) (lines : Nat) :
    Parse.endingOf (tokens.map (Token.lowered lines)) = (Parse.endingOf tokens).lowered lines := by
  obtain ⟨front, last, rfl⟩ := List.eq_nil_or_concat' tokens |>.resolve_left some
  rw [List.map_append, List.map_singleton, Parse.endingOf, Parse.endingOf, List.getLast?_concat,
    List.getLast?_concat]
  rfl

theorem Parse.supplied_lowered {tokens : Tokens} (some : tokens ≠ []) (lines place : Nat) :
    (Parse.supplied tokens place).Alike (fun token other => other = token.lowered lines)
      (Parse.supplied (tokens.map (Token.lowered lines)) place) := by
  have same : Parse.supplied (tokens.map (Token.lowered lines)) place =
      (Parse.supplied tokens place).lowered lines := by
    rw [Parse.supplied_eq, Parse.supplied_eq, Parse.endingOf_lowered some,
      List.getD_eq_getElem?_getD, List.getD_eq_getElem?_getD, List.getElem?_map, Option.getD_map]
  rw [same]
  exact ⟨rfl, fun _ => rfl⟩

/-- Statements that end with a semicolon and close all braces that they open are read as they are in
front of any text, and that text is read as it is alone, its tokens some lines further down.  Its errors
are those of the whole; if its reading is broken off, so is that of the whole. -/
theorem joined_texts_read_in_a_row (text other : String) (depth : Nat) (piece : IsPiece text)
    {parsed : Parsed} (read : Parsed.ofTokens depth (Token.scan text) = .ok parsed)
    (clean : parsed.errors = []) :
    let whole := Parsed.ofTokens depth (Token.scan (text ++ "\n" ++ other))
    let lines := 1 + text.toList.count '\n'
    (∀ reason, Parsed.ofTokens depth (Token.scan other) = .error reason → whole = .error reason) ∧
    ∀ second, Parsed.ofTokens depth (Token.scan other) = .ok second →
      ∃ bodies, whole =
          .ok ⟨.program ⟨parsed.program.token, parsed.program.body ++ bodies⟩, second.errors⟩ ∧
        List.Forall₂ (Node.Similar fun token lowered => lowered = token.lowered lines)
          second.program.body bodies := by
  intro whole lines
  obtain ⟨tokens, finish, split, isEnd, proper, isPiece⟩ := piece.split
  have dropped : (Token.scan text).dropLast = tokens := by rw [split, List.dropLast_concat]
  have joined := Token.scan_joined text other fun token isLast => by
    rw [dropped] at isLast
    rw [isPiece.ends token isLast]
    nofun
  have some : tokens ≠ [] := by
    rintro rfl
    obtain ⟨before, semicolon, last, ends, _⟩ := piece.ends
    have lengths := congrArg List.length (split.symm.trans ends)
    simp at lengths
  have otherSome : Token.scan other ≠ [] := by
    obtain ⟨front, last, otherSplit, _⟩ := Token.scan_split other
    rw [otherSplit]
    exact List.concat_ne_nil last front
  have whole : whole = Parsed.ofTokens depth (tokens ++ (Token.scan other).map (Token.lowered lines)) := by
    rw [← dropped, ← joined]
  rw [whole]
  exact Parsed.ofTokens_joined (Token.spelled_lowered lines) isPiece some proper isEnd
    (mt List.map_eq_nil_iff.mp otherSome) (Parse.supplied_lowered otherSome lines) (split ▸ read) clean

/-- A call without its closing parenthesis leaves two errors, and the statement behind it is kept. -/
theorem joined_texts_read_in_a_row_broken :
    let text := "let f =\n  fn(x) \x7b x \x7d;"
    let other := "f(1;\nf"
    IsPiece text ∧ ∃ parsed second bodies, Parsed.ofTokens 20 (Token.scan text) = .ok parsed ∧
      parsed.errors = [] ∧ Parsed.ofTokens 20 (Token.scan other) = .ok second ∧
      second.errors = [.unexpected .rightParen .semicolon, .noExpression .semicolon] ∧
      Parsed.ofTokens 20 (Token.scan (text ++ "\n" ++ other)) =
        .ok ⟨.program ⟨parsed.program.token, parsed.program.body ++ bodies⟩, second.errors⟩ ∧
      List.Forall₂ (Node.Similar fun token lowered => lowered = token.lowered 2)
        second.program.body bodies := by
  intro text other
  have piece : IsPiece text := by
    refine ⟨⟨(Token.scan text).dropLast.dropLast, (Token.scan text).dropLast.getLast!,
      (Token.scan text).getLast!, ?_, ?_⟩, ?_⟩
    all_goals decide +kernel
  have reads : (match Parsed.ofTokens 20 (Token.scan text) with
      | .ok parsed => parsed.errors.isEmpty
      | .error _ => false) = true := by decide +kernel
  have otherReads : (match Parsed.ofTokens 20 (Token.scan other) with
      | .ok second =>
          second.errors == [.unexpected .rightParen .semicolon, .noExpression .semicolon]
      | .error _ => false) = true := by decide +kernel
  cases read : Parsed.ofTokens 20 (Token.scan text) with
  | error reason => rw [read] at reads; cases reads
  | ok parsed =>
      cases otherRead : Parsed.ofTokens 20 (Token.scan other) with
      | error reason => rw [otherRead] at otherReads; cases otherReads
      | ok second =>
          rw [read] at reads
          rw [otherRead] at otherReads
          have clean := List.isEmpty_iff.mp reads
          have lines : 1 + text.toList.count '\n' = 2 := by decide +kernel
          obtain ⟨bodies, whole, similar⟩ :=
            (joined_texts_read_in_a_row text other 20 piece read clean).2 second otherRead
          rw [lines] at similar
          exact ⟨piece, parsed, second, bodies, rfl, clean, rfl, eq_of_beq otherReads, whole, similar⟩

end MonkeyLang
