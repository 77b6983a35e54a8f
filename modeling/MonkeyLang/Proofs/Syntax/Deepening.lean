import MonkeyLang.Proofs.Syntax.Pieces

namespace MonkeyLang.Parse

/-! # Room for deeper expressions

A reading that is not broken off for want of room is the same with more room.
-/

/-- Another reading does the same as the first one, unless that lacks room. -/
def Deepens {α : Type} (action other : Parse α) : Prop :=
  ∀ cursor, (∃ after, action cursor = .error (.broken .tooDeep) after) ∨ other cursor = action cursor

namespace Deepens

section Rules

variable {α β : Type} {action other : Parse α} {next otherNext : α → Parse β}

theorem rfl : Deepens action action := fun _ => .inr (Eq.refl _)

theorem bind (deepens : Deepens action other)
    (onward : ∀ result, Deepens (next result) (otherNext result)) :
    Deepens (action >>= next) (other >>= otherNext) := by
  intro cursor
  rcases deepens cursor with ⟨after, lacks⟩ | same
  · exact .inl ⟨after, bind_error lacks⟩
  · cases ran : action cursor with
    | ok result between =>
        rw [bind_ok ran, bind_ok (same.trans ran)]
        exact onward result between
    | error stop after =>
        rw [bind_error ran, bind_error (same.trans ran)]
        exact .inr (Eq.refl _)

/-- Readings that begin alike. -/
theorem behind (onward : ∀ result, Deepens (next result) (otherNext result)) :
    Deepens (action >>= next) (action >>= otherNext) :=
  rfl.bind onward

end Rules

section Forms

variable {left right : Nat → Parse Node} (deeper : ∀ power, Deepens (left power) (right power))

include deeper

theorem statementForm : Deepens (Parse.statementForm left) (Parse.statementForm right) := by
  refine .behind fun token => ?_
  split
  · refine .behind fun _ => .behind fun name => .behind fun _ => .behind fun _ => ?_
    exact (deeper loosest).bind fun _ => .rfl
  · exact .behind fun _ => (deeper loosest).bind fun _ => .rfl
  · exact (deeper loosest).bind fun _ => .rfl

theorem statement : Deepens (Parse.statement left) (Parse.statement right) := by
  intro cursor
  unfold Parse.statement
  rcases statementForm deeper cursor with ⟨after, lacks⟩ | same
  · rw [lacks]
    exact .inl ⟨after, Eq.refl _⟩
  · rw [same]
    exact .inr (Eq.refl _)

theorem statements (closes : Token.Kind → Bool) (turns : Nat) (found : Array Node) :
    Deepens (Parse.statements left closes turns found) (Parse.statements right closes turns found) := by
  induction turns generalizing found with
  | zero => exact .rfl
  | succ turns ih =>
      refine .behind fun token => ?_
      dsimp only
      split
      · exact .rfl
      · exact (statement deeper).bind fun next => .behind fun _ => ih _

theorem block : Deepens (Parse.block left) (Parse.block right) :=
  .behind fun _ => .behind fun _ => .behind fun _ => (statements deeper _ _ _).bind fun _ => .rfl

theorem moreExpressions (turns : Nat) (found : Array Node) :
    Deepens (Parse.moreExpressions left turns found) (Parse.moreExpressions right turns found) := by
  induction turns generalizing found with
  | zero => exact .rfl
  | succ turns ih =>
      refine .behind fun token => ?_
      split
      · exact .behind fun _ => .behind fun _ => (deeper loosest).bind fun item => ih _
      · exact .rfl

theorem expressions (closing : Token.Kind) :
    Deepens (Parse.expressions left closing) (Parse.expressions right closing) := by
  refine .behind fun token => ?_
  split
  · exact .rfl
  · refine .behind fun _ => (deeper loosest).bind fun first => .behind fun _ => ?_
    exact (moreExpressions deeper _ _).bind fun _ => .rfl

theorem pairs (turns : Nat) (found : Array (Node × Node)) :
    Deepens (Parse.pairs left turns found) (Parse.pairs right turns found) := by
  induction turns generalizing found with
  | zero => exact .rfl
  | succ turns ih =>
      refine .behind fun token => ?_
      split
      · exact .rfl
      · refine .behind fun _ => (deeper loosest).bind fun key => .behind fun _ => .behind fun _ => ?_
        refine (deeper loosest).bind fun value => .behind fun next => ?_
        split
        · exact .behind fun _ => ih _
        · exact ih _

theorem conditional (token : Token) :
    Deepens (Parse.conditional left token) (Parse.conditional right token) := by
  refine .behind fun _ => .behind fun _ => (deeper loosest).bind fun condition => ?_
  refine .behind fun _ => .behind fun _ => (block deeper).bind fun consequence => .behind fun next => ?_
  split
  · exact .behind fun _ => .behind fun _ => (block deeper).bind fun _ => .rfl
  · exact .rfl

theorem function (token : Token) :
    Deepens (Parse.function left token) (Parse.function right token) :=
  .behind fun _ => .behind fun _ => .behind fun _ => (block deeper).bind fun _ => .rfl

theorem operand : Deepens (Parse.operand left) (Parse.operand right) := by
  refine .behind fun token => ?_
  split
  · exact .rfl
  · exact .rfl
  · exact .rfl
  · exact .rfl
  · exact .rfl
  · exact .behind fun _ => (deeper unaryPower).bind fun _ => .rfl
  · exact .behind fun _ => (deeper unaryPower).bind fun _ => .rfl
  · exact .behind fun _ => (deeper loosest).bind fun _ => .rfl
  · exact conditional deeper token
  · exact function deeper token
  · exact (expressions deeper _).bind fun _ => .rfl
  · exact .behind fun _ => (pairs deeper _ _).bind fun _ => .rfl
  · exact .rfl

theorem extension (node : Node) :
    Deepens (Parse.extension left node) (Parse.extension right node) := by
  refine .behind fun token => ?_
  split
  · exact (expressions deeper _).bind fun _ => .rfl
  · exact .behind fun _ => (deeper loosest).bind fun _ => .rfl
  · exact .behind fun _ => (deeper _).bind fun _ => .rfl

theorem extensions (power turns : Nat) (node : Node) :
    Deepens (Parse.extensions left power turns node) (Parse.extensions right power turns node) := by
  induction turns generalizing node with
  | zero => exact .rfl
  | succ turns ih =>
      refine .behind fun token => ?_
      split
      · exact .behind fun _ => (extension deeper node).bind fun longer => ih longer
      · exact .rfl

end Forms

theorem expression (depth power : Nat) :
    Deepens (Parse.expression depth power) (Parse.expression (depth + 1) power) := by
  induction depth generalizing power with
  | zero => exact fun cursor => .inl ⟨cursor, Eq.refl _⟩
  | succ depth ih => exact (operand ih).bind fun first => .behind fun _ => extensions ih power _ first

end Deepens

variable {depth otherDepth : Nat} {cursor after last : Cursor} {result otherResult : Option Node}

theorem statement_deeper (ran : statement (expression depth) cursor = .ok result after) (more : Nat) :
    statement (expression (depth + more)) cursor = .ok result after := by
  induction more with
  | zero => exact ran
  | succ more ih =>
      rcases Deepens.statement (Deepens.expression (depth + more)) cursor with ⟨_, lacks⟩ | same
      · cases lacks.symm.trans ih
      · exact same.trans ih

/-- What becomes of a statement does not depend on the room there is. -/
theorem statement_unique (ran : statement (expression depth) cursor = .ok result after)
    (otherRan : statement (expression otherDepth) cursor = .ok otherResult last) :
    result = otherResult ∧ after = last := by
  have one := statement_deeper ran otherDepth
  have other := statement_deeper otherRan depth
  rw [Nat.add_comm, one] at other
  cases other
  exact ⟨rfl, rfl⟩

end MonkeyLang.Parse
