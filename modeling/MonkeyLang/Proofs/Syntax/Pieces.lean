import MonkeyLang.Proofs.Syntax.Braces
import MonkeyLang.Proofs.Syntax.Congruence

namespace MonkeyLang.Parse

open Grammar (Tokens Extent opened closed)

/-! # Programs read piece by piece

A program is read statement by statement.  Where the tokens of its first part end with a semicolon and
close all braces that they open, none of these statements looks at what stands behind that part.
-/

section Bind

variable {α β : Type} {action : Parse α} {next : α → Parse β} {cursor after : Cursor}

theorem bind_ok {result : α} (ran : action cursor = .ok result after) :
    (action >>= next) cursor = next result after := by
  change EStateM.bind action next cursor = _
  rw [EStateM.bind, ran]

theorem bind_error {stop : Stop} (ran : action cursor = .error stop after) :
    (action >>= next) cursor = .error stop after := by
  change EStateM.bind action next cursor = _
  rw [EStateM.bind, ran]

theorem bind_inv {final : β} (ran : (action >>= next) cursor = .ok final after) :
    ∃ result between, action cursor = .ok result between ∧ next result between = .ok final after := by
  change EStateM.bind action next cursor = _ at ran
  unfold EStateM.bind at ran
  split at ran
  · rename_i result between first
    exact ⟨result, between, first, ran⟩
  · cases ran

end Bind

theorem current_ran (cursor : Cursor) :
    (current : Parse Token) cursor = .ok cursor.current cursor :=
  rfl

theorem upcoming_ran (cursor : Cursor) :
    (upcoming : Parse Token) cursor = .ok cursor.upcoming cursor :=
  rfl

theorem remaining_ran (cursor : Cursor) : remaining cursor = .ok cursor.count cursor := rfl

theorem advance_ran (cursor : Cursor) : advance cursor = .ok () cursor.advance := rfl

/-- Statements that are read from one cursor up to another, none of them with an error. -/
inductive Reads (depth : Nat) : Cursor → List Node → Cursor → Prop
  | none (cursor : Cursor) : Reads depth cursor [] cursor
  | next {cursor between after : Cursor} {node : Node} {nodes : List Node}
      (goesOn : cursor.current.kind ≠ .endOfInput)
      (ran : statement (expression depth) cursor = .ok (some node) between)
      (rest : Reads depth between.advance nodes after) : Reads depth cursor (node :: nodes) after

/-- Tokens before nothing, each compared with itself. -/
def Border.alone : Border :=
  ⟨Eq, fun _ => rfl, fun same => same ▸ .rfl, [], [], True, fun _ => ⟨rfl, rfl⟩, Nat.le_refl _⟩

theorem statement_wanes (depth : Nat) : Wanes (statement (expression depth)) :=
  have agree : Agree .alone 0 _ _ _ := Agree.statement (Agree.expression depth)
  agree.wanes

variable {depth : Nat} {cursor between after : Cursor} {body : List Node}

theorem statement_behind {result : Option Node}
    (ran : statement (expression depth) cursor = .ok result between) : cursor.Behind between := by
  have behind := statement_wanes depth cursor
  rw [ran] at behind
  exact behind

/-- A refused statement leaves an error behind. -/
theorem statement_none (ran : statement (expression depth) cursor = .ok none between) :
    between.errors ≠ #[] := by
  unfold statement at ran
  split at ran
  · cases ran
  · cases ran
    simp [Cursor.report]
  · cases ran

theorem advance_behind (cursor : Cursor) : cursor.Behind cursor.advance := Agree.advances cursor

theorem Reads.behind (reads : Reads depth cursor body after) : cursor.Behind after := by
  induction reads with
  | none cursor => exact .rfl
  | next _ ran _ ih => exact (statement_behind ran).trans ((advance_behind _).trans ih)

theorem Reads.append {others : List Node} {last : Cursor} (reads : Reads depth cursor body after)
    (more : Reads depth after others last) : Reads depth cursor (body ++ others) last := by
  induction reads with
  | none cursor => exact more
  | next goesOn ran _ ih => exact .next goesOn ran (ih more)

theorem count_pos (isEnd : cursor.ending.kind = .endOfInput)
    (goesOn : cursor.current.kind ≠ .endOfInput) : 0 < cursor.count := by
  refine Nat.pos_of_ne_zero fun none => goesOn ?_
  rw [Cursor.current_eq_ending (Cursor.tokens_eq_nil none)]
  exact isEnd

/-- Every statement takes a token. -/
theorem Reads.length (isEnd : cursor.ending.kind = .endOfInput)
    (reads : Reads depth cursor body after) : body.length + after.count ≤ cursor.count := by
  induction reads with
  | none cursor => exact Nat.le_of_eq (Nat.zero_add _)
  | @next cursor between after node nodes goesOn ran _ ih =>
      have some := count_pos isEnd goesOn
      have behind := statement_behind ran
      have rest := ih (behind.ending ▸ isEnd)
      have taken : between.advance.count = between.count - 1 := rfl
      have count := behind.count
      rw [List.length_cons]
      omega

/-- The loop reads statements, each within a turn of its own. -/
theorem Reads.statements {closes : Token.Kind → Bool} (never : ∀ kind, closes kind = false)
    (reads : Reads depth cursor body after) (turns : Nat) (found : Array Node) :
    Parse.statements (expression depth) closes (turns + body.length) found cursor =
      Parse.statements (expression depth) closes turns (found ++ body.toArray) after := by
  induction reads generalizing found with
  | none cursor => simp
  | @next cursor between after node nodes goesOn ran _ ih =>
      have turn : Parse.statements (expression depth) closes (turns + nodes.length + 1) found cursor =
          Parse.statements (expression depth) closes (turns + nodes.length) (found.push node)
            between.advance := by
        have goes : (closes cursor.current.kind || cursor.current.kind == .endOfInput) = false := by
          simp [never, goesOn]
        rw [Parse.statements, bind_ok (current_ran cursor)]
        rw [goes, if_neg Bool.false_ne_true, bind_ok ran, bind_ok (advance_ran between)]
      rw [List.length_cons, ← Nat.add_assoc, turn, ih]
      simp

/-- What the loop reads without an error are statements up to the end of the input. -/
theorem statements_reads {closes : Token.Kind → Bool} (never : ∀ kind, closes kind = false)
    {turns : Nat} {found nodes : Array Node} (enough : cursor.count ≤ turns)
    (isEnd : cursor.ending.kind = .endOfInput)
    (ran : Parse.statements (expression depth) closes turns found cursor = .ok nodes after)
    (clean : after.errors = #[]) :
    ∃ body, nodes.toList = found.toList ++ body ∧ Reads depth cursor body after ∧
      after.current.kind = .endOfInput := by
  induction turns generalizing cursor found with
  | zero =>
      cases ran
      refine ⟨[], (List.append_nil _).symm, .none after, ?_⟩
      rw [Cursor.current_eq_ending (Cursor.tokens_eq_nil (Nat.le_zero.mp enough))]
      exact isEnd
  | succ turns ih =>
      rw [Parse.statements, bind_ok (current_ran cursor)] at ran
      rw [never, Bool.false_or] at ran
      by_cases stops : cursor.current.kind = .endOfInput
      · rw [if_pos (beq_iff_eq.mpr stops)] at ran
        cases ran
        exact ⟨[], (List.append_nil _).symm, .none after, stops⟩
      · rw [if_neg (fun same => stops (beq_iff_eq.mp same))] at ran
        cases first : statement (expression depth) cursor with
        | error stop between =>
            rw [bind_error first] at ran
            cases ran
        | ok result between =>
            rw [bind_ok first, bind_ok (advance_ran between)] at ran
            have behind := statement_behind first
            have some := count_pos isEnd stops
            have taken : between.advance.count = between.count - 1 := rfl
            have fewer := behind.count
            obtain ⟨body, listed, reads, isOver⟩ :=
              ih (by omega) (behind.ending ▸ isEnd) ran
            cases result with
            | some node =>
                refine ⟨node :: body, ?_, .next stops first reads, isOver⟩
                rw [listed, Array.toList_push, List.append_assoc, List.singleton_append]
            | none =>
                -- A refusal leaves an error behind, which stays.
                have betweenClean : between.errors = #[] := reads.behind.errors clean
                exact absurd betweenClean (statement_none first)

section Border

variable {border : Border} {left right : Cursor}

/-- Where nothing stands behind similar tokens, the same statements are read. -/
theorem Reads.carried (closed : border.closed) (reads : Reads depth left body after) {reach : Nat}
    (cursors : border.Cursors reach left right) :
    ∃ others last, Reads depth right others last ∧
      List.Forall₂ (Node.Similar border.similar) body others ∧ border.Cursors reach after last := by
  induction reads generalizing right with
  | none cursor => exact ⟨[], right, .none right, .nil, cursors⟩
  | @next cursor between after node nodes goesOn ran _ ih =>
      have straight : ∀ {cursor}, ¬ border.Stray cursor := fun stray => stray.1 closed
      have first : Agree border reach _ _ _ := Agree.statement (Agree.expression depth)
      have ended := first.ends _ _ cursors
      rw [ran] at ended
      generalize otherRan : statement (expression depth) right = ending at ended
      cases ended with
      | astray _ _ stray => exact absurd stray straight
      | done results between =>
          cases results with
          | some nodes =>
              have advanced := between.advance.resolve_right straight
              obtain ⟨others, last, rest, similar, final⟩ := ih (advanced.widen (Nat.sub_le _ _))
              have current := cursors.current.resolve_right straight
              have otherGoesOn := (border.spelled current).kind ▸ goesOn
              exact ⟨_ :: others, last, .next otherGoesOn otherRan rest, .cons nodes similar, final⟩

/-- A statement without the semicolon behind it. -/
def unended (expression : Nat → Parse Node) : Parse Node := do
  let token ← current
  match token.kind with
  | .letKeyword => do
      expect .identifier
      let name ← current
      expect .assign
      advance
      let value ← expression loosest
      return .letStatement token ⟨name, name.literal⟩ value
  | .returnKeyword => do
      advance
      let value ← expression loosest
      return .returnStatement token value
  | _ => do
      let value ← expression loosest
      return .expressionStatement token value

theorem statementForm_eq (expression : Nat → Parse Node) :
    statementForm expression = do
      let node ← unended expression
      skipSemicolon
      return node := by
  unfold statementForm unended
  simp only [bind_assoc]
  congr 1
  funext token
  generalize token.kind = kind
  cases kind with
  | letKeyword => simp only [letStatement, bind_assoc, pure_bind]
  | returnKeyword => simp only [returnStatement, bind_assoc, pure_bind]
  | _ => simp only [expressionStatement, bind_assoc, pure_bind]

theorem Agree.unended {expression : Nat → Parse Node} {reach : Nat}
    (expressions : ∀ reach power, Agree border reach (Node.Similar border.similar)
      (expression power) (expression power)) :
    Agree border reach (Node.Similar border.similar) (Parse.unended expression)
      (Parse.unended expression) := by
  refine onCurrent fun token other tokens => ?_
  rw [(border.spelled tokens).kind]
  split
  · refine (expect _).andThen (onCurrent fun name otherName names => ?_)
    refine (expect _).andThen (advanced.andThen ?_)
    refine (expressions _ _).bind nodes_refl fun value otherValue values => ?_
    exact pure (.letStatement tokens ⟨names, (border.spelled names).literal⟩ values)
  · refine advanced.andThen ((expressions _ _).bind nodes_refl fun value otherValue values => ?_)
    exact pure (.returnStatement tokens values)
  · refine (expressions _ _).bind nodes_refl fun value otherValue values => ?_
    exact pure (.expressionStatement tokens values)

theorem expression_extent (depth : Nat) (tokens : Tokens) :
    Derives (fun _ => True) (expression depth loosest) tokens fun _ place =>
      Extent True tokens place.tail :=
  (expression_derives depth loosest tokens (Nat.le_refl _) (by decide)).weaken
    (fun _ _ => trivial) fun _ _ reading => reading.expression.expression.extent

theorem unended_extent (depth : Nat) (token : Token) (input : Tokens) :
    Derives (fun _ => True) (unended (expression depth)) (token :: input) fun _ place =>
      Extent True (token :: input) place.tail := by
  refine .current ?_
  split
  · rename_i isLet
    refine .expect nofun fun name behindName nameNext isName => ?_
    refine .current (.expect nofun fun assign behindAssign assignNext isAssign => ?_)
    rw [List.tail_cons] at nameNext assignNext
    subst nameNext assignNext
    refine .advance (.bind (expression_extent depth _) fun value place _ => .pure fun extent => ?_)
    exact .first isLet (by decide) (.first isName (by decide) (.first isAssign (by decide) extent))
  · rename_i isReturn
    refine .advance (.bind (expression_extent depth _) fun value place _ => .pure fun extent => ?_)
    exact .first isReturn (by decide) extent
  · exact .bind (expression_extent depth _) fun value place _ => .pure id

/-- Tokens that end with a semicolon, if there are any, and that close the braces that they open. -/
structure Piece (tokens : Tokens) : Prop where
  ends : ∀ last, tokens.getLast? = some last → last.kind = .semicolon
  braces : opened tokens ≤ closed tokens

/-- No expression takes all the tokens of a piece. -/
theorem Piece.continues {tokens rest : Tokens} (piece : Piece tokens)
    (extent : Extent True tokens rest) : ∃ next others, rest = next :: others ∧ Piece rest := by
  cases extent with
  | unclosed _ missing => exact absurd piece.braces (Nat.not_le.mpr missing)
  | closed consumed split balanced finished =>
      obtain ⟨before, last, same, proper⟩ := finished trivial
      cases rest with
      | nil =>
          refine absurd (piece.ends last ?_) proper
          rw [split, same, List.append_nil, List.getLast?_concat]
      | cons next others =>
          have braces := piece.braces
          rw [split, Grammar.opened_append, Grammar.closed_append, balanced] at braces
          refine ⟨next, others, rfl, fun last isLast => piece.ends last ?_, by omega⟩
          rw [split, List.getLast?_append, isLast]
          rfl

theorem Piece.behind {token : Token} {tokens : Tokens} (piece : Piece (token :: tokens))
    (isSemicolon : token.kind = .semicolon) : Piece tokens where
  ends last isLast := piece.ends last (by rw [List.getLast?_cons, isLast]; rfl)
  braces := by
    have braces := piece.braces
    simpa [opened, closed, isSemicolon] using braces

/-- What stands behind tokens without an end token does not depend on where one looks from. -/
theorem ends_eq {tokens behind place ends : Tokens} (suffix : place ++ ends <:+ tokens ++ behind)
    (nonempty : place ≠ []) (proper : ∀ token ∈ tokens, token.kind ≠ .endOfInput)
    (placeProper : ∀ token ∈ place, token.kind ≠ .endOfInput)
    (allEnd : ∀ token ∈ behind, token.kind = .endOfInput)
    (endsEnd : ∀ token ∈ ends, token.kind = .endOfInput) : ends = behind := by
  obtain ⟨before, same⟩ := suffix
  rw [← List.append_assoc] at same
  rcases List.append_eq_append_iff.mp same with ⟨more, rfl, rfl⟩ | ⟨more, split, rfl⟩
  · cases more with
    | nil => rfl
    | cons token more =>
        have isEnd := endsEnd token (List.mem_append_left _ List.mem_cons_self)
        exact absurd isEnd (proper token (List.mem_append_right _ List.mem_cons_self))
  · rcases List.eq_nil_or_concat' more with rfl | ⟨more, token, rfl⟩
    · rfl
    · have isEnd := allEnd token (List.mem_append_left _ List.mem_concat_self)
      have isLast := congrArg List.getLast? split
      rw [List.getLast?_append_of_ne_nil _ nonempty, ← List.append_assoc,
        List.getLast?_concat] at isLast
      exact absurd isEnd (placeProper token (List.mem_of_getLast? isLast))

theorem skipSemicolon_ran (cursor : Cursor) :
    skipSemicolon cursor =
      .ok () (if cursor.upcoming.kind = .semicolon then cursor.advance else cursor) := by
  rw [skipSemicolon, bind_ok (upcoming_ran cursor)]
  split <;> rfl

theorem statement_some {expression : Nat → Parse Node} {node : Node}
    (ran : statement expression cursor = .ok (some node) after) :
    statementForm expression cursor = .ok node after := by
  unfold statement at ran
  split at ran
  · rename_i form
    cases ran
    exact form
  · cases ran
  · cases ran

theorem statement_of_form {expression : Nat → Parse Node} {node : Node}
    (ran : statementForm expression cursor = .ok node after) :
    statement expression cursor = .ok (some node) after := by
  simp only [statement, ran]

/-- By the grammar, a statement at the beginning of a piece leaves tokens of the piece behind it. -/
theorem unended_leaves {token : Token} {input : Tokens} (views : left.Views (token :: input))
    (piece : Piece (token :: input)) {node : Node} {mid : Cursor}
    (begun : unended (expression depth) left = .ok node mid) (clean : mid.errors = #[]) :
    ∃ first next rest, mid.Views (first :: next :: rest) ∧ Piece (next :: rest) := by
  have met := unended_extent depth token input left.errors left views rfl
  rw [begun] at met
  obtain ⟨place, viewed, _, derives⟩ := met
  obtain ⟨_, extent⟩ := derives clean
  obtain ⟨next, rest, behind, pieceBehind⟩ := piece.continues extent
  cases place with
  | nil => cases behind
  | cons first others =>
      rw [List.tail_cons] at behind
      subst behind
      exact ⟨first, next, rest, viewed, pieceBehind⟩

/-- Up to its semicolon, it is read alike whatever stands behind the piece. -/
theorem unended_carried (allEnd : ∀ token ∈ border.behind, token.kind = .endOfInput)
    {input others : Tokens} (here : border.At input others left right) (views : left.Views input)
    {node : Node} {mid : Cursor} {first next : Token} {rest : Tokens}
    (begun : unended (expression depth) left = .ok node mid) (clean : mid.errors = #[])
    (viewed : mid.Views (first :: next :: rest)) :
    ∃ other otherMid otherFirst otherNext otherRest,
      unended (expression depth) right = .ok other otherMid ∧
      node.Similar border.similar other ∧
      border.At (first :: next :: rest) (otherFirst :: otherNext :: otherRest) mid otherMid := by
  have agree : Agree border input.length _ _ _ := Agree.unended (Agree.expression depth)
  obtain ⟨ends, split, endsEnd⟩ := viewed.split
  have same : ends = border.behind := by
    have wanes := (agree.wanes left).tokens
    rw [begun] at wanes
    rw [cursorOf, split, here.split] at wanes
    exact ends_eq wanes (List.cons_ne_nil _ _) views.proper viewed.proper allEnd endsEnd
  subst same
  have straight : ¬ border.Stray mid := by
    have count := mid.length_tokens
    rw [split, List.length_append, List.length_cons, List.length_cons] at count
    rintro ⟨_, errors | few⟩
    · exact errors clean
    · omega
  have ended := agree.ends left right here.cursors
  rw [begun] at ended
  generalize unended (expression depth) right = ending at ended ⊢
  cases ended with
  | astray _ _ stray => exact absurd stray straight
  | @done _ other _ otherMid nodes cursors =>
      obtain ⟨tokens, otherTokens, at', _⟩ := cursors
      have tokensSame : tokens = first :: next :: rest :=
        List.append_cancel_right (at'.split.symm.trans split)
      subst tokensSame
      cases at'.similar with | @cons _ otherFirst _ _ _ restSimilar
      cases restSimilar with | @cons _ otherNext _ otherRest _ _
      exact ⟨other, otherMid, otherFirst, otherNext, otherRest, rfl, nodes, at'⟩

/-- A statement at the beginning of a piece is the same whatever stands behind the piece. -/
theorem statement_carried
    (allEnd : ∀ token ∈ border.behind, token.kind = .endOfInput) {token : Token}
    {input others : Tokens} (here : border.At (token :: input) others left right)
    (views : left.Views (token :: input)) (piece : Piece (token :: input)) {node : Node}
    (ran : statement (expression depth) left = .ok (some node) after) (clean : after.errors = #[]) :
    ∃ other last next rest otherNext otherRest,
      statement (expression depth) right = .ok (some other) last ∧
      node.Similar border.similar other ∧
      border.At (next :: rest) (otherNext :: otherRest) after last ∧ after.Views (next :: rest) ∧
      Piece rest := by
  have form := statement_some ran
  rw [statementForm_eq] at form
  obtain ⟨_, mid, begun, form⟩ := bind_inv form
  rw [bind_ok (skipSemicolon_ran mid)] at form
  cases form
  have midClean : mid.errors = #[] := by
    split at clean <;> exact clean
  obtain ⟨first, next, rest, viewed, pieceBehind⟩ := unended_leaves views piece begun midClean
  obtain ⟨other, otherMid, otherFirst, otherNext, otherRest, otherBegun, nodes, at'⟩ :=
    unended_carried allEnd here views begun midClean viewed
  have upcoming : mid.upcoming = next := by
    rw [Cursor.upcoming, at'.split]
    rfl
  have otherUpcoming : otherMid.upcoming = otherNext := by
    rw [Cursor.upcoming, at'.otherSplit]
    rfl
  have nextSimilar : border.similar next otherNext := by
    cases at'.similar with | cons _ restSimilar
    cases restSimilar with | cons nextSimilar _
    exact nextSimilar
  have otherRan : statement (expression depth) right = .ok (some other)
      (if next.kind = .semicolon then otherMid.advance else otherMid) := by
    apply statement_of_form
    rw [statementForm_eq, bind_ok otherBegun, bind_ok (skipSemicolon_ran otherMid), otherUpcoming,
      (border.spelled nextSimilar).kind]
    rfl
  rw [upcoming]
  by_cases isSemicolon : next.kind = .semicolon
  · rw [if_pos isSemicolon] at otherRan ⊢
    exact ⟨other, _, next, rest, otherNext, otherRest, otherRan, nodes, at'.advance,
      viewed.advance, pieceBehind.behind isSemicolon⟩
  · rw [if_neg isSemicolon] at otherRan ⊢
    exact ⟨other, _, first, next :: rest, otherFirst, otherNext :: otherRest, otherRan, nodes, at',
      viewed, pieceBehind⟩

/-- The statements of a piece are the same whatever stands behind it. -/
theorem Reads.carriedPiece
    (allEnd : ∀ token ∈ border.behind, token.kind = .endOfInput)
    (reads : Reads depth left body after) {tokens others : Tokens}
    (here : border.At tokens others left right) (views : left.Views tokens) (piece : Piece tokens)
    (isOver : after.current.kind = .endOfInput) (clean : after.errors = #[]) :
    ∃ bodies last, Reads depth right bodies last ∧
      List.Forall₂ (Node.Similar border.similar) body bodies ∧ border.At [] [] after last := by
  induction reads generalizing right tokens others with
  | none cursor =>
      have none := views.nil_of_kind (views.current_kind.symm.trans isOver)
      subst none
      cases here.similar with | nil
      exact ⟨[], right, .none right, .nil, here⟩
  | @next cursor between after node nodes goesOn ran rest ih =>
      cases tokens with
      | nil => exact absurd views.current_kind goesOn
      | cons token input =>
          have betweenClean : between.errors = #[] := rest.behind.errors clean
          obtain ⟨other, last, next, behind, otherNext, otherBehind, otherRan, similar, at', viewed,
            pieceBehind⟩ := statement_carried allEnd here views piece ran betweenClean
          obtain ⟨bodies, final, otherReads, bodiesSimilar, end'⟩ :=
            ih at'.advance viewed.advance pieceBehind isOver clean
          have current : border.similar cursor.current right.current := by
            cases here.similar with | cons tokens _
            rw [Cursor.current, Cursor.current, here.split, here.otherSplit]
            exact tokens
          have otherGoesOn := (border.spelled current).kind ▸ goesOn
          exact ⟨other :: bodies, final, .next otherGoesOn otherRan otherReads,
            .cons similar bodiesSimilar, end'⟩

end Border

/-- The cursor before some tokens, without an error so far. -/
def beginning (tokens : Tokens) : Cursor := ⟨tokens, tokens.length, endingOf tokens, #[], rfl⟩

theorem programForm_reads {program : Node} (isEnd : cursor.ending.kind = .endOfInput)
    (ran : programForm depth cursor = .ok program after) (clean : after.errors = #[]) :
    ∃ token body, program = .program ⟨token, body⟩ ∧ Reads depth cursor body after ∧
      after.current.kind = .endOfInput := by
  rw [programForm, bind_ok (current_ran cursor), bind_ok (remaining_ran cursor)] at ran
  obtain ⟨nodes, last, looped, given⟩ := bind_inv ran
  cases given
  obtain ⟨body, listed, reads, isOver⟩ :=
    statements_reads (fun _ => rfl) (Nat.le_refl _) isEnd looped clean
  exact ⟨cursor.current, nodes.toList, rfl, listed ▸ reads, isOver⟩

theorem Reads.programForm (isEnd : cursor.ending.kind = .endOfInput)
    (reads : Reads depth cursor body after) (isOver : after.current.kind = .endOfInput) :
    Parse.programForm depth cursor = .ok (.program ⟨cursor.current, body⟩) after := by
  have stopped : ∀ turns found, Parse.statements (expression depth) (fun _ => false) turns found after =
      .ok found after := by
    intro turns found
    cases turns with
    | zero => rfl
    | succ turns =>
        rw [Parse.statements, bind_ok (current_ran after), isOver]
        rfl
  have looped : Parse.statements (expression depth) (fun _ => false) cursor.count #[] cursor =
      .ok (#[] ++ body.toArray) after := by
    have length := reads.length isEnd
    obtain ⟨turns, split⟩ := Nat.exists_eq_add_of_le (Nat.le_trans (Nat.le_add_right _ _) length)
    rw [split, Nat.add_comm, reads.statements (fun _ => rfl), stopped]
  rw [Parse.programForm, bind_ok (current_ran cursor), bind_ok (remaining_ran cursor),
    bind_ok looped]
  simp
  rfl

end MonkeyLang.Parse

namespace MonkeyLang.Parsed

open Grammar (Tokens)
open Parse (Reads Piece)

variable {depth : Nat} {tokens : Tokens} {parsed : Parsed}

theorem ofTokens_reads (read : ofTokens depth tokens = .ok parsed) (clean : parsed.errors = []) :
    ∃ token body after, parsed.program = .program ⟨token, body⟩ ∧
      Reads depth (Parse.beginning tokens) body after ∧ after.current.kind = .endOfInput ∧
      after.errors = #[] := by
  unfold ofTokens at read
  split at read
  · rename_i program after ran
    cases read
    have noErrors := Array.toList_eq_nil_iff.mp clean
    obtain ⟨token, body, same, reads, isOver⟩ :=
      Parse.programForm_reads (Parse.endingOf_kind tokens) ran noErrors
    exact ⟨token, body, after, same, reads, isOver, noErrors⟩
  · cases read
    cases clean
  · cases read

theorem ofTokens_of_reads {body : List Node} {after : Parse.Cursor}
    (reads : Reads depth (Parse.beginning tokens) body after)
    (isOver : after.current.kind = .endOfInput) (clean : after.errors = #[]) :
    ofTokens depth tokens = .ok ⟨.program ⟨(Parse.beginning tokens).current, body⟩, []⟩ := by
  have ran := reads.programForm (Parse.endingOf_kind tokens) isOver
  unfold ofTokens
  rw [Parse.beginning] at ran
  rw [ran]
  simp only [clean]
  rfl

/-- A piece and what is read behind it are read alike when they stand in one row of tokens. -/
theorem ofTokens_append {similar : Token → Token → Prop} (reflexive : Token.Reflexive similar)
    (spelled : Token.Spelled similar)
    (endings : ∀ left right, similar (Parse.endingOf left) (Parse.endingOf right))
    {piece otherPiece others finals : Tokens} {finish : Token} (isPiece : Piece piece)
    (proper : ∀ token ∈ piece, token.kind ≠ .endOfInput) (isEnd : finish.kind = .endOfInput)
    (pieces : List.Forall₂ similar piece otherPiece) (rests : List.Forall₂ similar others finals)
    (nonempty : finals ≠ []) {second : Parsed}
    (read : ofTokens depth (piece ++ [finish]) = .ok parsed) (clean : parsed.errors = [])
    (otherRead : ofTokens depth others = .ok second) (otherClean : second.errors = []) :
    ∃ token bodies otherBodies,
      ofTokens depth (otherPiece ++ finals) = .ok ⟨.program ⟨token, bodies ++ otherBodies⟩, []⟩ ∧
      List.Forall₂ (Node.Similar similar) parsed.program.body bodies ∧
      List.Forall₂ (Node.Similar similar) second.program.body otherBodies := by
  obtain ⟨token, body, after, program, reads, isOver, noErrors⟩ := ofTokens_reads read clean
  obtain ⟨otherToken, otherBody, otherAfter, otherProgram, otherReads, otherOver, noOtherErrors⟩ :=
    ofTokens_reads otherRead otherClean
  let border : Parse.Border := ⟨similar, reflexive, spelled, [finish], finals, False, False.elim,
    List.length_pos_iff.mpr nonempty⟩
  have allEnd : ∀ token ∈ [finish], token.kind = .endOfInput := List.forall_mem_singleton.mpr isEnd
  have here : border.At piece otherPiece (Parse.beginning (piece ++ [finish]))
      (Parse.beginning (otherPiece ++ finals)) := ⟨rfl, rfl, pieces, endings _ _, rfl⟩
  obtain ⟨bodies, last, firstReads, firstSimilar, end'⟩ :=
    reads.carriedPiece allEnd here (Parse.Cursor.views_beginning proper allEnd) isPiece isOver noErrors
  let shut : Parse.Border := ⟨similar, reflexive, spelled, [], [], True, fun _ => ⟨rfl, rfl⟩,
    Nat.le_refl _⟩
  have there : shut.At others finals (Parse.beginning others) last := by
    refine ⟨(List.append_nil others).symm, ?_, rests, ?_, ?_⟩
    · exact end'.otherSplit.trans (List.append_nil finals).symm
    · rw [firstReads.behind.ending]
      exact endings _ _
    · exact noErrors.symm.trans end'.errors
  obtain ⟨otherBodies, final, secondReads, secondSimilar, cursors⟩ :=
    otherReads.carried trivial there.cursors
  have current := cursors.current.resolve_right fun stray => stray.1 trivial
  have finalOver := (spelled current).kind ▸ otherOver
  have finalClean := cursors.errors ▸ noOtherErrors
  rw [program, otherProgram]
  exact ⟨_, bodies, otherBodies,
    ofTokens_of_reads (firstReads.append secondReads) finalOver finalClean, firstSimilar,
    secondSimilar⟩

end MonkeyLang.Parsed
