import MonkeyLang.Proofs.Syntax.Traversal

namespace MonkeyLang

open Grammar (Tokens)

namespace Parse

/-! # Forms get on through parts of a statement

What does not fit the grammar is refused with one error.  Every form hands a refusal on as it is, up to
the statement, which keeps its error and is dropped.  So no form asks for statements but in its blocks,
and none leaves errors behind but those of the statements that were dropped there.
-/

namespace Cursor

/-- Another cursor is reached through parts of a statement. -/
def Inside (cursor after : Cursor) : Prop := ∃ requests, Traverses .inside cursor requests after

variable {cursor between after : Cursor}

theorem Inside.rfl : cursor.Inside cursor := ⟨[], .here cursor⟩

theorem Inside.trans (one : cursor.Inside between) (other : between.Inside after) :
    cursor.Inside after := by
  obtain ⟨requests, traverses⟩ := one
  obtain ⟨others, onward⟩ := other
  exact ⟨requests ++ others, traverses.append onward⟩

theorem Inside.behind (inside : cursor.Inside after) : cursor.Behind after := by
  obtain ⟨requests, traverses⟩ := inside
  exact traverses.behind

theorem Inside.advance (noBlock : ¬ cursor.OpensBlock) : cursor.Inside cursor.advance :=
  ⟨[], .past noBlock (.here _)⟩

theorem not_opensBlock {kind : Token.Kind} (isKind : cursor.current.kind = kind)
    (plain : kind ≠ .rightParen ∧ kind ≠ .elseKeyword) : ¬ cursor.OpensBlock :=
  fun opens => opens.1.elim (plain.1 ∘ isKind.symm.trans) (plain.2 ∘ isKind.symm.trans)

theorem not_opensBlock_before {kind : Token.Kind} (isKind : cursor.upcoming.kind = kind)
    (other : kind ≠ .leftBrace) : ¬ cursor.OpensBlock :=
  fun opens => other (isKind.symm.trans opens.2)

theorem Behind.advance (behind : cursor.Behind after) : cursor.advance.Behind after.advance where
  tokens := by
    obtain ⟨front, split⟩ := behind.tokens
    cases front with
    | nil => exact ⟨[], congrArg List.tail split⟩
    | cons _ front => exact (List.tail_suffix _).trans ⟨front, congrArg List.tail split⟩
  ending := behind.ending
  errors := behind.errors

/-- A cursor somewhere in some tokens. -/
structure Within (cursor : Cursor) (tokens : Tokens) : Prop where
  suffix : cursor.tokens <:+ tokens
  ending : cursor.ending.kind = .endOfInput

variable {tokens : Tokens}

theorem Within.behind (within : cursor.Within tokens) (behind : cursor.Behind after) :
    after.Within tokens :=
  ⟨behind.tokens.trans within.suffix, behind.ending ▸ within.ending⟩

theorem Within.inside (within : cursor.Within tokens) (inside : cursor.Inside after) :
    after.Within tokens :=
  within.behind inside.behind

/-- What comes behind a cursor is, after one more token, where the next cursor is or behind it. -/
theorem Within.beyond (within : cursor.advance.Within tokens) (inside : cursor.Inside after) :
    after.advance.Within tokens :=
  within.behind inside.behind.advance

theorem Within.advance (within : cursor.Within tokens) : cursor.advance.Within tokens :=
  within.behind (advance_behind cursor)

end Cursor

/-- A reading gets on through parts of a statement, whether it gives a result or refuses. -/
def Walks {α : Type} (broken : Breakoff → Prop) (action : Parse α) (cursor : Cursor)
    (done : α → Cursor → Prop) : Prop :=
  match action cursor with
  | .ok result after => cursor.Inside after ∧ done result after
  | .error (.refused _) after => cursor.Inside after
  | .error (.broken reason) _ => broken reason

theorem expect_ran {wanted : Token.Kind} {cursor : Cursor} (isWanted : cursor.upcoming.kind = wanted) :
    expect wanted cursor = .ok () cursor.advance := by
  rw [expect, bind_ok (upcoming_ran cursor), if_pos isWanted]
  rfl

theorem expect_refused {wanted : Token.Kind} {cursor : Cursor}
    (isOther : cursor.upcoming.kind ≠ wanted) :
    expect wanted cursor =
      .error (.refused (.unexpected wanted cursor.upcoming.kind)) cursor := by
  rw [expect, bind_ok (upcoming_ran cursor), if_neg isOther]
  rfl

/-- The statements of a body have been read up to where it ends, unless the reading was broken off. -/
def Passes (broken : Breakoff → Prop) (closes : Token.Kind → Bool) (cursor : Cursor) :
    EStateM.Result Stop Cursor (Array Node) → Prop
  | .ok _ after => (∃ requests, Traverses (.body closes) cursor requests after) ∧
      endsBody closes after.current.kind = true
  | .error (.refused _) _ => False
  | .error (.broken reason) _ => broken reason

theorem Passes.before {broken : Breakoff → Prop} {closes : Token.Kind → Bool} {cursor mid : Cursor}
    {ending : EStateM.Result Stop Cursor (Array Node)} (passes : Passes broken closes mid ending)
    (first : ∀ others after, Traverses (.body closes) mid others after →
      ∃ requests, Traverses (.body closes) cursor requests after) :
    Passes broken closes cursor ending := by
  unfold Passes at passes ⊢
  split <;> simp only at passes
  · obtain ⟨⟨others, onward⟩, ended⟩ := passes
    exact ⟨first others _ onward, ended⟩
  · exact passes

section Loop

variable {expression : Nat → Parse Node} {closes : Token.Kind → Bool} {cursor between : Cursor}
  {turns : Nat} {found : Array Node}

theorem statements_ended (stops : endsBody closes cursor.current.kind = true) :
    statements expression closes (turns + 1) found cursor = .ok found cursor := by
  rw [statements, bind_ok (current_ran cursor)]
  exact congrFun (if_pos stops) cursor

variable (goesOn : endsBody closes cursor.current.kind = false)

include goesOn

theorem statements_bind :
    statements expression closes (turns + 1) found cursor =
      (statement expression >>= fun next => do
        advance
        statements expression closes turns
          (match next with | some node => found.push node | none => found)) cursor := by
  rw [statements, bind_ok (current_ran cursor)]
  exact congrFun (if_neg (ne_true_of_eq_false goesOn)) cursor

theorem statements_next {next : Option Node} (asked : statement expression cursor = .ok next between) :
    statements expression closes (turns + 1) found cursor =
      statements expression closes turns (next.elim found found.push) between.advance := by
  rw [statements_bind goesOn, bind_ok asked, bind_ok (advance_ran between)]
  cases next <;> rfl

theorem statements_stopped {stop : Stop} (asked : statement expression cursor = .error stop between) :
    statements expression closes (turns + 1) found cursor = .error stop between := by
  rw [statements_bind goesOn, bind_error asked]

end Loop

namespace Walks

section Rules

variable {α β : Type} {broken : Breakoff → Prop} {action : Parse α} {cursor between : Cursor}
  {done : α → Cursor → Prop}

theorem pure {result : α} (holds : done result cursor) :
    Walks broken (Pure.pure result) cursor done :=
  ⟨.rfl, holds⟩

theorem refuse {error : SyntaxError} : Walks broken (Parse.refuse error : Parse α) cursor done :=
  Cursor.Inside.rfl

theorem breakOff {reason : Breakoff} (holds : broken reason) :
    Walks broken (throw (.broken reason) : Parse α) cursor done :=
  holds

theorem weaken {wider : Breakoff → Prop} (walks : Walks broken action cursor done)
    (breakage : ∀ reason, broken reason → wider reason) : Walks wider action cursor done := by
  unfold Walks at walks ⊢
  split <;> rename_i ran <;> rw [ran] at walks
  · exact walks
  · exact walks
  · exact breakage _ walks

/-- A reading that comes to another cursor on its way goes on from there. -/
theorem moved {other : Parse α} (inside : cursor.Inside between)
    (same : other cursor = action between) (walks : Walks broken action between done) :
    Walks broken other cursor done := by
  unfold Walks at walks ⊢
  rw [same]
  split <;> rename_i ran <;> rw [ran] at walks
  · exact ⟨inside.trans walks.1, walks.2⟩
  · exact inside.trans walks
  · exact walks

theorem bind {next : α → Parse β} {last : β → Cursor → Prop} (walks : Walks broken action cursor done)
    (onward : ∀ result between, cursor.Inside between → done result between →
      Walks broken (next result) between last) :
    Walks broken (action >>= next) cursor last := by
  unfold Walks at walks
  split at walks <;> rename_i ran
  · exact (onward _ _ walks.1 walks.2).moved walks.1 (bind_ok ran)
  · unfold Walks
    rw [bind_error ran]
    exact walks
  · unfold Walks
    rw [bind_error ran]
    exact walks

variable {last : β → Cursor → Prop}

theorem current {next : Token → Parse β} (onward : Walks broken (next cursor.current) cursor last) :
    Walks broken (Parse.current >>= next) cursor last :=
  onward.moved .rfl (bind_ok (current_ran cursor))

theorem upcoming {next : Token → Parse β}
    (onward : Walks broken (next cursor.upcoming) cursor last) :
    Walks broken (Parse.upcoming >>= next) cursor last :=
  onward.moved .rfl (bind_ok (upcoming_ran cursor))

theorem remaining {next : Nat → Parse β} (onward : Walks broken (next cursor.count) cursor last) :
    Walks broken (Parse.remaining >>= next) cursor last :=
  onward.moved .rfl (bind_ok (remaining_ran cursor))

theorem advance {next : Unit → Parse β} (noBlock : ¬ cursor.OpensBlock)
    (onward : Walks broken (next ()) cursor.advance last) :
    Walks broken (Parse.advance >>= next) cursor last :=
  onward.moved (.advance noBlock) (bind_ok (advance_ran cursor))

/-- A brace is expected by blocks only. -/
theorem expect {wanted : Token.Kind} {next : Unit → Parse β} (other : wanted ≠ .leftBrace)
    (onward : cursor.advance.current.kind = wanted → Walks broken (next ()) cursor.advance last) :
    Walks broken (Parse.expect wanted >>= next) cursor last := by
  by_cases isWanted : cursor.upcoming.kind = wanted
  · exact (onward isWanted).moved (.advance (Cursor.not_opensBlock_before isWanted other))
      (bind_ok (expect_ran isWanted))
  · unfold Walks
    rw [bind_error (expect_refused isWanted)]
    exact .rfl

theorem skipSemicolon {next : Unit → Parse β}
    (onward : ∀ between, Walks broken (next ()) between last) :
    Walks broken (Parse.skipSemicolon >>= next) cursor last := by
  have skipped : Walks broken Parse.skipSemicolon cursor fun _ _ => True := by
    refine .upcoming ?_
    split
    · rename_i isSemicolon
      exact ⟨.advance (Cursor.not_opensBlock_before isSemicolon nofun), trivial⟩
    · exact .pure trivial
  exact skipped.bind fun _ between _ _ => onward between

end Rules

/-! ## Forms -/

section Forms

variable {depth : Nat} {broken : Breakoff → Prop} {inside : Tokens} {cursor : Cursor}
  (reads : ∀ power (cursor : Cursor), loosest ≤ power → cursor.Within inside →
    Walks broken (expression depth power) cursor fun _ _ => True)

include reads

theorem loose {β : Type} {next : Node → Parse β} {last : β → Cursor → Prop}
    (within : cursor.Within inside)
    (onward : ∀ node between, cursor.Inside between → Walks broken (next node) between last) :
    Walks broken (expression depth loosest >>= next) cursor last :=
  (reads loosest cursor (Nat.le_refl _) within).bind fun node between reached _ =>
    onward node between reached

theorem letStatement {token : Token} (within : cursor.Within inside) :
    Walks broken (Parse.letStatement (expression depth) token) cursor fun _ _ => True := by
  refine .expect nofun fun _ => .current (.expect nofun fun isAssign => ?_)
  refine .advance (Cursor.not_opensBlock isAssign (by decide)) ?_
  refine loose reads within.advance.advance.advance fun value _ _ => ?_
  exact .skipSemicolon fun _ => .pure trivial

theorem returnStatement {token : Token} (isReturn : cursor.current.kind = .returnKeyword)
    (within : cursor.Within inside) :
    Walks broken (Parse.returnStatement (expression depth) token) cursor fun _ _ => True := by
  refine .advance (Cursor.not_opensBlock isReturn (by decide)) ?_
  exact loose reads within.advance fun value _ _ => .skipSemicolon fun _ => .pure trivial

theorem expressionStatement {token : Token} (within : cursor.Within inside) :
    Walks broken (Parse.expressionStatement (expression depth) token) cursor fun _ _ => True :=
  loose reads within fun _ _ _ => .skipSemicolon fun _ => .pure trivial

theorem statementForm (within : cursor.Within inside) :
    Walks broken (Parse.statementForm (expression depth)) cursor fun _ _ => True := by
  refine .current ?_
  split
  · exact letStatement reads within
  · rename_i isReturn
    exact returnStatement reads isReturn within
  · exact expressionStatement reads within

/-- A statement is kept, or dropped with one more error, or broken off. -/
theorem statement (within : cursor.Within inside) :
    (∃ node after, Parse.statement (expression depth) cursor = .ok (some node) after ∧
      cursor.Inside after) ∨
    (∃ error place, Parse.statement (expression depth) cursor = .ok none (place.report error) ∧
      cursor.Inside place) ∨
    ∃ reason after, Parse.statement (expression depth) cursor = .error (.broken reason) after ∧
      broken reason := by
  have form := statementForm reads within
  unfold Walks at form
  split at form <;> rename_i ran <;> unfold Parse.statement <;> rw [ran]
  · exact .inl ⟨_, _, rfl, form.1⟩
  · exact .inr (.inl ⟨_, _, rfl, form⟩)
  · exact .inr (.inr ⟨_, _, rfl, form⟩)

/-- The statements of a body are read up to where it ends. -/
theorem statements (closes : Token.Kind → Bool) {turns : Nat} {found : Array Node}
    (within : cursor.Within inside) (enough : cursor.count ≤ turns) :
    Passes broken closes cursor (Parse.statements (expression depth) closes turns found cursor) := by
  induction turns generalizing cursor found with
  | zero =>
      -- The turns are as many as the tokens, so that only the end is left.
      have isEnd : cursor.current.kind = .endOfInput := by
        rw [Cursor.current_eq_ending (Cursor.tokens_eq_nil (Nat.le_zero.mp enough))]
        exact within.ending
      have stops : endsBody closes cursor.current.kind = true := by simp [endsBody, isEnd]
      exact ⟨⟨[], .ended stops⟩, stops⟩
  | succ turns ih =>
      cases goesOn : endsBody closes cursor.current.kind with
      | true =>
          rw [statements_ended goesOn]
          exact ⟨⟨[], .ended goesOn⟩, goesOn⟩
      | false =>
          have onward : ∀ result mid, Parse.statement (expression depth) cursor = .ok result mid →
              Passes broken closes mid.advance
                (Parse.statements (expression depth) closes (turns + 1) found cursor) := by
            intro result mid asked
            have behind := statement_behind asked
            have some := count_pos within.ending (endsBody_false goesOn)
            have taken : mid.advance.count = mid.count - 1 := rfl
            have fewer := behind.count
            rw [statements_next goesOn asked]
            exact ih (within.behind behind).advance (by omega)
          rcases statement reads within with ⟨node, mid, asked, _, inside⟩ |
            ⟨error, place, asked, _, inside⟩ | ⟨reason, after, asked, breaks⟩
          · exact (onward _ _ asked).before fun _ _ others => ⟨_, .kept goesOn asked inside others⟩
          · exact (onward _ _ asked).before fun _ _ others => ⟨_, .dropped goesOn asked inside others⟩
          · rw [statements_stopped goesOn asked]
            exact breaks

/-- A block where one may open: behind a closing parenthesis, or behind `else`. -/
theorem braced {β : Type} {next : Block Node → Parse β} {last : β → Cursor → Prop}
    (follows : cursor.current.kind = .rightParen ∨ cursor.current.kind = .elseKeyword)
    (within : cursor.Within inside)
    (onward : ∀ block between, cursor.Inside between → Walks broken (next block) between last) :
    Walks broken (Parse.expect .leftBrace >>= fun _ => Parse.block (expression depth) >>= next) cursor
      last := by
  by_cases opens : cursor.upcoming.kind = .leftBrace
  · let first := cursor.advance.advance
    have start : Parse.block (expression depth) cursor.advance =
        (Parse.statements (expression depth) (· == .rightBrace) first.count #[] >>= fun body =>
          Pure.pure (⟨cursor.advance.current, body.toList⟩ : Block Node)) first := by
      rw [Parse.block, bind_ok (current_ran _), bind_ok (advance_ran _), bind_ok (remaining_ran _)]
    have body : Passes broken (· == .rightBrace) first
        (Parse.statements (expression depth) (· == .rightBrace) first.count #[] first) :=
      statements reads _ within.advance.advance (Nat.le_refl _)
    unfold Passes at body
    split at body
    · rename_i nodes after ran
      obtain ⟨⟨requests, traverses⟩, _⟩ := body
      have passed : cursor.Inside after := ⟨_, .block ⟨follows, opens⟩ traverses (.here after)⟩
      have read : Parse.block (expression depth) cursor.advance =
          .ok ⟨cursor.advance.current, nodes.toList⟩ after := start.trans (bind_ok ran)
      exact (onward _ after passed).moved passed ((bind_ok (expect_ran opens)).trans (bind_ok read))
    · exact body.elim
    · rename_i ran
      unfold Walks
      rw [bind_ok (expect_ran opens), bind_error (start.trans (bind_error ran))]
      exact body
  · unfold Walks
    rw [bind_error (expect_refused opens)]
    exact .rfl

theorem moreExpressions {turns : Nat} {found : Array Node} (within : cursor.advance.Within inside) :
    Walks broken (Parse.moreExpressions (expression depth) turns found) cursor fun _ _ => True := by
  induction turns generalizing cursor found with
  | zero => exact .pure trivial
  | succ turns ih =>
      refine .upcoming ?_
      split
      · rename_i isComma
        refine .advance (Cursor.not_opensBlock_before isComma nofun) ?_
        refine .advance (Cursor.not_opensBlock isComma (by decide)) ?_
        refine loose reads within.advance fun item between reached => ?_
        exact ih (within.advance.inside reached).advance
      · exact .pure trivial

theorem expressions {closing : Token.Kind} (noBlock : ¬ cursor.OpensBlock)
    (other : closing ≠ .leftBrace) (within : cursor.advance.Within inside) :
    Walks broken (Parse.expressions (expression depth) closing) cursor fun _ _ => True := by
  refine .upcoming ?_
  split
  · exact .advance noBlock (.pure trivial)
  · refine .advance noBlock (loose reads within fun first between reached => .remaining ?_)
    refine (moreExpressions reads (within.inside reached).advance).bind fun items _ _ _ => ?_
    exact .expect other fun _ => .pure trivial

theorem pairs {turns : Nat} {found : Array (Node × Node)} (noBlock : ¬ cursor.OpensBlock)
    (within : cursor.advance.Within inside) :
    Walks broken (Parse.pairs (expression depth) turns found) cursor fun _ _ => True := by
  induction turns generalizing cursor found with
  | zero => exact .pure trivial
  | succ turns ih =>
      refine .upcoming ?_
      split
      · exact .pure trivial
      · refine .advance noBlock (loose reads within fun key mid reached => ?_)
        refine .expect nofun fun isColon => .advance (Cursor.not_opensBlock isColon (by decide)) ?_
        have behind := (within.inside reached).advance.advance
        refine loose reads behind fun value place valued => .upcoming ?_
        have onward := (behind.inside valued).advance
        split
        · exact .expect nofun fun isComma =>
            ih (Cursor.not_opensBlock isComma (by decide)) onward.advance
        · rename_i closes
          exact ih (Cursor.not_opensBlock_before (not_not.mp closes) nofun) onward

theorem hash {token : Token} (noBlock : ¬ cursor.OpensBlock) (within : cursor.advance.Within inside) :
    Walks broken (Parse.hash (expression depth) token) cursor fun _ _ => True := by
  refine .remaining ((pairs reads noBlock within).bind fun found _ _ _ => ?_)
  exact .expect nofun fun _ => .pure trivial

theorem grouped (noBlock : ¬ cursor.OpensBlock) (within : cursor.advance.Within inside) :
    Walks broken (Parse.grouped (expression depth)) cursor fun _ _ => True := by
  refine .advance noBlock (loose reads within fun inner _ _ => ?_)
  exact .expect nofun fun _ => .pure trivial

theorem conditional {token : Token} (within : cursor.advance.Within inside) :
    Walks broken (Parse.conditional (expression depth) token) cursor fun _ _ => True := by
  refine .expect nofun fun opens => .advance (Cursor.not_opensBlock opens (by decide)) ?_
  refine loose reads within.advance fun condition mid reached => ?_
  have behind := (within.advance.inside reached).advance
  refine .expect nofun fun closes => braced reads (.inl closes) behind fun consequence place passed => ?_
  refine .upcoming ?_
  split
  · rename_i isElse
    refine .advance (Cursor.not_opensBlock_before isElse nofun) ?_
    refine braced reads (.inr isElse) (behind.inside passed).advance fun alternative _ _ => ?_
    exact .pure trivial
  · exact .pure trivial

omit reads in
theorem parameter : Walks broken Parse.parameter cursor fun _ _ => True :=
  .expect nofun fun _ => .current (.pure trivial)

omit reads in
theorem moreParameters {turns : Nat} {found : Array Identifier} :
    Walks broken (Parse.moreParameters turns found) cursor fun _ _ => True := by
  induction turns generalizing cursor found with
  | zero => exact .pure trivial
  | succ turns ih =>
      refine .upcoming ?_
      split
      · rename_i isComma
        refine .advance (Cursor.not_opensBlock_before isComma nofun) ?_
        exact parameter.bind fun _ _ _ _ => ih
      · exact .pure trivial

omit reads in
/-- Parameters end with a parenthesis, behind which a block may open. -/
theorem parameters :
    Walks broken Parse.parameters cursor fun _ after => after.current.kind = .rightParen := by
  refine .upcoming ?_
  split
  · rename_i closes
    exact .advance (Cursor.not_opensBlock_before closes nofun) (.pure closes)
  · refine parameter.bind fun first _ _ _ => .remaining (moreParameters.bind fun names _ _ _ => ?_)
    exact .expect nofun fun closes => .pure closes

theorem function {token : Token} (within : cursor.advance.Within inside) :
    Walks broken (Parse.function (expression depth) token) cursor fun _ _ => True := by
  refine .expect nofun fun _ => parameters.bind fun names mid reached closes => ?_
  exact braced reads (.inl closes) (within.inside reached) fun body _ _ => .pure trivial

omit reads in
theorem integer {token : Token} (isInteger : token.kind = .integer)
    (oversized : token.Oversized → broken (.tooManyDigits token.literal.toList.length)) :
    Walks broken (Parse.integer token) cursor fun _ _ => True := by
  unfold Parse.integer
  dsimp only
  split
  · exact .refuse
  · rename_i numeral
    simp only [Bool.or_eq_true, not_or, Bool.not_eq_true, Bool.not_eq_false', List.isEmpty_eq_false_iff,
      List.all_eq_true] at numeral
    split
    · rename_i tooMany
      exact .breakOff (oversized ⟨isInteger, numeral.2, tooMany⟩)
    · split
      · exact .refuse
      · exact .pure trivial

theorem unary {token : Token} {kind : Token.Kind} (isKind : cursor.current.kind = kind)
    (plain : kind ≠ .rightParen ∧ kind ≠ .elseKeyword) (within : cursor.advance.Within inside) :
    Walks broken (do
      Parse.advance
      let operand ← Parse.expression depth unaryPower
      return Node.unary token token.literal operand) cursor fun _ _ => True := by
  refine .advance (Cursor.not_opensBlock isKind plain) ?_
  exact (reads unaryPower _ (by decide) within).bind fun operand _ _ _ => .pure trivial

theorem operand (within : cursor.advance.Within inside)
    (oversized : cursor.current.Oversized →
      broken (.tooManyDigits cursor.current.literal.toList.length)) :
    Walks broken (Parse.operand (expression depth)) cursor fun _ _ => True := by
  refine .current ?_
  split
  · exact .pure trivial
  · rename_i isInteger
    exact integer isInteger oversized
  · exact .pure trivial
  · exact .pure trivial
  · exact .pure trivial
  · rename_i isBang
    exact unary reads isBang (by decide) within
  · rename_i isMinus
    exact unary reads isMinus (by decide) within
  · rename_i opens
    exact grouped reads (Cursor.not_opensBlock opens (by decide)) within
  · exact conditional reads within
  · exact function reads within
  · rename_i opens
    have noBlock := Cursor.not_opensBlock opens (by decide)
    exact (expressions reads noBlock (by decide) within).bind fun _ _ _ _ => .pure trivial
  · rename_i opens
    exact hash reads (Cursor.not_opensBlock opens (by decide)) within
  · exact .refuse

theorem extension {left : Node} (binds : loosest < bindingPower cursor.current.kind)
    (within : cursor.advance.Within inside) :
    Walks broken (Parse.extension (expression depth) left) cursor fun _ _ => True := by
  have noBlock : ¬ cursor.OpensBlock := by
    rintro ⟨isKind | isKind, _⟩ <;> rw [isKind] at binds <;> exact Nat.lt_irrefl _ binds
  refine .current ?_
  split
  · exact (expressions reads noBlock (by decide) within).bind fun _ _ _ _ => .pure trivial
  · refine .advance noBlock (loose reads within fun position _ _ => ?_)
    exact .expect nofun fun _ => .pure trivial
  · refine .advance noBlock ?_
    exact (reads _ _ (Nat.le_of_lt binds) within).bind fun right _ _ _ => .pure trivial

theorem extensions {power turns : Nat} {left : Node} (tight : loosest ≤ power)
    (within : cursor.advance.Within inside) :
    Walks broken (Parse.extensions (expression depth) power turns left) cursor fun _ _ => True := by
  induction turns generalizing cursor left with
  | zero => exact .pure trivial
  | succ turns ih =>
      refine .upcoming ?_
      split
      · rename_i binds
        have binds : loosest < bindingPower cursor.advance.current.kind := Nat.lt_of_le_of_lt tight binds
        have noBlock : ¬ cursor.OpensBlock := by
          intro opens
          have isBrace : cursor.advance.current.kind = .leftBrace := opens.2
          rw [isBrace] at binds
          exact Nat.lt_irrefl _ binds
        refine .advance noBlock ((extension reads binds within.advance).bind fun _ _ reached _ => ?_)
        exact ih (within.inside reached).advance
      · exact .pure trivial

end Forms

theorem expression (depth : Nat) {power : Nat} {cursor : Cursor} (tight : loosest ≤ power)
    (isEnd : cursor.ending.kind = .endOfInput) :
    Walks (Breaks depth cursor.tokens) (Parse.expression depth power) cursor fun _ _ => True := by
  induction depth generalizing power cursor with
  | zero => exact .breakOff (Nat.zero_le _)
  | succ depth ih =>
      cases split : cursor.tokens with
      | nil =>
          have none : cursor.current.kind = .endOfInput := by
            rw [Cursor.current_eq_ending split]
            exact isEnd
          have refused : Walks (Breaks (depth + 1) []) (Parse.operand (Parse.expression depth)) cursor
              fun _ _ => False := by
            refine .current ?_
            rw [none]
            exact .refuse
          exact refused.bind fun _ _ _ impossible => impossible.elim
      | cons token input =>
          -- What is nested one level deeper is read behind the first token.
          have within : cursor.advance.Within input := ⟨by simp [Cursor.advance, split], isEnd⟩
          have reads : ∀ power (inner : Cursor), loosest ≤ power → inner.Within input →
              Walks (Breaks (depth + 1) (token :: input)) (Parse.expression depth power) inner
                fun _ _ => True :=
            fun power inner tight within => (ih tight within.ending).weaken fun _ breaks =>
              breaks.inside within.suffix
          have isFirst := Cursor.current_eq_first split
          have oversized : cursor.current.Oversized → Breaks (depth + 1) (token :: input)
              (.tooManyDigits cursor.current.literal.toList.length) :=
            fun oversized => ⟨cursor.current, isFirst ▸ List.mem_cons_self, oversized, rfl⟩
          refine (operand reads within oversized).bind fun first between reached _ => .remaining ?_
          exact extensions reads tight (within.beyond reached)

end Walks

end Parse

end MonkeyLang
