import MonkeyLang.Proofs.Syntax.Proper

namespace MonkeyLang.Grammar

/-! # Braces

A form closes all the braces that it opens, unless a block in it is ended by the end of the input.
And unless this happens, an expression does not end with a semicolon.
-/

def opened (tokens : Tokens) : Nat := tokens.countP (·.kind == .leftBrace)

def closed (tokens : Tokens) : Nat := tokens.countP (·.kind == .rightBrace)

theorem opened_append (tokens others : Tokens) :
    opened (tokens ++ others) = opened tokens + opened others :=
  List.countP_append

theorem closed_append (tokens others : Tokens) :
    closed (tokens ++ others) = closed tokens + closed others :=
  List.countP_append

/-- The last token is no semicolon. -/
def Finished (tokens : Tokens) : Prop :=
  ∃ before last, tokens = before ++ [last] ∧ last.kind ≠ .semicolon

theorem Finished.append (tokens : Tokens) {others : Tokens} (finished : Finished others) :
    Finished (tokens ++ others) := by
  obtain ⟨before, last, rfl, proper⟩ := finished
  exact ⟨tokens ++ before, last, (List.append_assoc tokens before [last]).symm, proper⟩

/-- What a form takes of its input: tokens with as many closing braces as opening ones, or the whole
rest of the input, which lacks closing braces. -/
inductive Extent (finishes : Prop) (input rest : Tokens) : Prop
  | closed (consumed : Tokens) (split : input = consumed ++ rest)
      (balanced : opened consumed = Grammar.closed consumed) (ends : finishes → Finished consumed)
  | unclosed (isOver : rest = []) (missing : Grammar.closed input < opened input)

namespace Extent

variable {finishes : Prop} {input between rest : Tokens}

theorem none (input : Tokens) : Extent False input input :=
  .closed [] rfl rfl False.elim

theorem append {first : Prop} (one : Extent first input between) (other : Extent finishes between rest) :
    Extent finishes input rest := by
  cases one with
  | closed consumed split balanced _ =>
      subst split
      cases other with
      | closed others split othersBalanced ends =>
          refine .closed (consumed ++ others) ?_ ?_ fun needed => (ends needed).append consumed
          · rw [split, List.append_assoc]
          · rw [opened_append, closed_append, balanced, othersBalanced]
      | unclosed isOver missing =>
          refine .unclosed isOver ?_
          rw [opened_append, closed_append, balanced]
          exact Nat.add_lt_add_left missing _
  | unclosed isOver missing =>
      subst isOver
      refine .unclosed ?_ missing
      cases other with
      | closed others split _ _ => exact (List.append_eq_nil_iff.mp split.symm).2
      | unclosed isOver _ => exact isOver

theorem loosen (extent : Extent finishes input rest) : Extent False input rest := by
  cases extent with
  | closed consumed split balanced _ => exact .closed consumed split balanced False.elim
  | unclosed isOver missing => exact .unclosed isOver missing

theorem plain {token : Token} (plain : token.kind ∉ [Token.Kind.leftBrace, .rightBrace])
    (proper : finishes → token.kind ≠ .semicolon) : Extent finishes (token :: rest) rest := by
  obtain ⟨noOpening, noClosing⟩ : token.kind ≠ .leftBrace ∧ token.kind ≠ .rightBrace := by
    simpa using plain
  refine .closed [token] rfl ?_ fun needed => ⟨[], token, rfl, proper needed⟩
  simp [opened, Grammar.closed, noOpening, noClosing]

section Kinds

variable {token : Token} {kind : Token.Kind} (isKind : token.kind = kind)
  (ordinary : kind ∉ [Token.Kind.leftBrace, .rightBrace, .semicolon])

include isKind ordinary

theorem last : Extent finishes (token :: rest) rest := by
  subst isKind
  refine .plain (fun brace => ordinary (List.mem_append_left [_] brace)) fun _ semicolon => ?_
  rw [semicolon] at ordinary
  exact ordinary (by decide)

theorem first (behind : Extent finishes input rest) : Extent finishes (token :: input) rest :=
  append (last isKind ordinary : Extent True _ _) behind

end Kinds

theorem braced {opening closing : Token} (opens : opening.kind = .leftBrace)
    (inside : Extent False input (closing :: rest)) (closes : closing.kind = .rightBrace) :
    Extent finishes (opening :: input) rest := by
  cases inside with
  | closed consumed split balanced _ =>
      refine .closed (opening :: consumed ++ [closing]) ?_ ?_ fun _ => ?_
      · rw [split, List.cons_append, List.cons_append, List.append_assoc, List.singleton_append]
      · have openedOne : opened (opening :: consumed ++ [closing]) = opened consumed + 1 := by
          simp [opened, opens, closes]
        have closedOne : Grammar.closed (opening :: consumed ++ [closing]) =
            Grammar.closed consumed + 1 := by
          simp [Grammar.closed, opens, closes]
        rw [openedOne, closedOne, balanced]
      · exact ⟨opening :: consumed, closing, rfl, by rw [closes]; decide⟩
  | unclosed isOver _ => exact nomatch isOver

theorem unbraced {opening : Token} (opens : opening.kind = .leftBrace)
    (inside : Extent False input []) : Extent finishes (opening :: input) [] := by
  refine .unclosed rfl ?_
  have openedOne : opened (opening :: input) = opened input + 1 := by simp [opened, opens]
  have closedSame : Grammar.closed (opening :: input) = Grammar.closed input := by
    simp [Grammar.closed, opens]
  rw [openedOne, closedSame]
  cases inside with
  | closed consumed split balanced _ =>
      rw [split, List.append_nil, balanced]
      exact Nat.lt_succ_self _
  | unclosed _ missing => exact Nat.lt_succ_of_lt missing

end Extent

section Items

variable {α : Type} {Item : Tokens → α → Tokens → Prop} {input rest : Tokens} {items : List α}
  (each : ∀ {input item rest}, Item input item rest → Extent False input rest)

include each

theorem More.extent (more : More Item input items rest) : Extent False input rest := by
  induction more with
  | none rest => exact .none rest
  | next separator first _ ih => exact .first separator (by decide) ((each first).append ih)

theorem Listed.extent {closing : Token.Kind} (listed : Listed Item closing input items rest) :
    ∃ token, token.kind = closing ∧ Extent False input (token :: rest) := by
  cases listed with
  | empty closes => exact ⟨_, closes, .none _⟩
  | items first others closes => exact ⟨_, closes, (each first).append (others.extent each)⟩

end Items

theorem Name.extent {input rest : Tokens} {name : Identifier} (named : Name input name rest) :
    Extent False input rest := by
  cases named with
  | identifier rest isName => exact .last isName (by decide)

section Forms

variable {E : Tokens → Node → Tokens → Prop} {input rest : Tokens} {node : Node}
  (each : ∀ {input node rest}, E input node rest → Extent True input rest)

include each

omit each in
theorem Ending.extent (ending : Ending input rest) : Extent False input rest := by
  cases ending with
  | semicolon rest isSemicolon => exact .plain (by rw [isSemicolon]; decide) False.elim
  | bare stops => exact .none _

theorem Statement.extent (statement : Statement E input node rest) : Extent False input rest := by
  cases statement with
  | letStatement isLet isName isAssign bound ends =>
      exact .first isLet (by decide) <| .first isName (by decide) <|
        .first isAssign (by decide) <| (each bound).append ends.extent
  | returnStatement isReturn given ends =>
      exact .first isReturn (by decide) ((each given).append ends.extent)
  | expressionStatement evaluated ends => exact (each evaluated).append ends.extent

theorem Statements.extent {body : List Node} (statements : Statements E input body rest) :
    Extent False input rest := by
  induction statements with
  | none rest => exact .none rest
  | next first _ ih => exact (first.extent each).append ih

theorem Braced.extent {block : Block Node} (braced : Braced E input block rest) :
    Extent True input rest := by
  cases braced with
  | closed opens statements closes => exact .braced opens (statements.extent each) closes
  | unclosed opens statements => exact .unbraced opens (statements.extent each)

theorem Entry.extent {pair : Node × Node} (entry : Entry E input pair rest) :
    Extent False input rest := by
  cases entry with
  | pair named isColon given =>
      exact (each named).append (.first isColon (by decide) (each given).loosen)

theorem Entries.extent {pairs : List (Node × Node)} (entries : Entries E input pairs rest) :
    ∃ token, token.kind = .rightBrace ∧ Extent False input (token :: rest) := by
  cases entries with
  | listed entries => exact entries.extent (Entry.extent each)
  | trailing first others separator closes =>
      exact ⟨_, closes, (first.extent each).append <|
        (others.extent (Entry.extent each)).append (.last separator (by decide))⟩

theorem Primary.extent (primary : Primary E input node rest) : Extent True input rest := by
  cases primary with
  | identifier rest isName => exact .last isName (by decide)
  | integer rest isInteger => exact .last isInteger (by decide)
  | string rest isString => exact .last isString (by decide)
  | trueKeyword rest isTrue => exact .last isTrue (by decide)
  | falseKeyword rest isFalse => exact .last isFalse (by decide)
  | grouped opens grouped closes =>
      exact .first opens (by decide) <| (each grouped).append <|
        .last closes (by decide)
  | conditional isIf opens tested closes consequent =>
      exact .first isIf (by decide) <| .first opens (by decide) <|
        (each tested).append <| .first closes (by decide) (consequent.extent each)
  | alternative isIf opens tested closes consequent isElse alternate =>
      exact .first isIf (by decide) <| .first opens (by decide) <|
        (each tested).append <| .first closes (by decide) <|
        (consequent.extent each).append <| .first isElse (by decide) <|
        alternate.extent each
  | function isFunction opens named braced =>
      obtain ⟨closing, closes, names⟩ := named.extent Name.extent
      exact .first isFunction (by decide) <| .first opens (by decide) <|
        names.append <| .first closes (by decide) (braced.extent each)
  | array opens listed =>
      obtain ⟨closing, closes, items⟩ := listed.extent fun item => (each item).loosen
      exact .first opens (by decide) (items.append (.last closes (by decide)))
  | hash opens listed =>
      obtain ⟨closing, closes, pairs⟩ := listed.extent each
      exact .braced opens pairs closes

/-- Suffixes end what stands before them as they end themselves, if there are any. -/
theorem Suffixes.extent {left whole : Node} (suffixes : Suffixes E left input whole rest)
    {start : Tokens} (before : Extent True start input) : Extent True start rest := by
  induction suffixes with
  | none => exact before
  | call opens listed _ ih =>
      obtain ⟨closing, closes, arguments⟩ := listed.extent fun item => (each item).loosen
      exact ih (before.append <| .first opens (by decide) <|
        arguments.append (.last closes (by decide)))
  | index opens selected closes _ ih =>
      exact ih (before.append <| .first opens (by decide) <|
        (each selected).append (.last closes (by decide)))

theorem Operand.extent (operand : Operand E input node rest) : Extent True input rest := by
  induction operand with
  | unary isOperator _ ih =>
      refine (Extent.plain (fun brace => ?_) False.elim).append ih
      simp only [unaryOperators, List.mem_cons, List.not_mem_nil, or_false] at isOperator brace
      rcases isOperator with isOperator | isOperator <;> simp [isOperator] at brace
  | suffixed primary suffixes => exact suffixes.extent each (primary.extent each)

theorem Joined.extent (joined : Joined E input node rest) : Extent True input rest := by
  induction joined with
  | operand operand => exact operand.extent each
  | binary _ isOperator _ left right =>
      refine left.append ((Extent.plain (fun brace => ?_) False.elim).append right)
      rcases List.mem_cons.mp brace with isBrace | later
      · rw [isBrace] at isOperator
        exact absurd isOperator (by decide)
      · rw [List.mem_singleton.mp later] at isOperator
        exact absurd isOperator (by decide)

end Forms

/-- The tokens of an expression are closed and do not end with a semicolon, unless a block in it ends
with the input. -/
theorem Expression.extent {input rest : Tokens} {node : Node}
    (expression : Expression input node rest) : Extent True input rest :=
  @Expression.least (fun input _ rest => Extent True input rest) (fun joined => joined.extent id)
    _ _ _ expression

end MonkeyLang.Grammar
