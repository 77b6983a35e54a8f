import MonkeyLang.Proofs.Syntax.Parsing
import MonkeyLang.Proofs.Syntax.Shape

namespace MonkeyLang

open Grammar (Tokens)

/-! # Trees of programs

In a proper tree every operand is of a form that has a value, and every statement is of such a form or
a let statement.  The programs of texts without errors are proper.
-/

namespace Node

def isLet : Node → Bool
  | letStatement .. => true
  | _ => false

def isBare : Node → Bool
  | bare .. => true
  | _ => false

/-- The statements of a node, also those of a function's body. -/
def statements : Node → List Node
  | function _ _ body => body.statements
  | tree => tree.body

inductive Proper : Node → Prop
  | node {tree : Node} (supported : tree.isBare = false)
      (valued : ∀ operand ∈ tree.operands, operand.isValued = true)
      (operands : ∀ operand ∈ tree.operands, Proper operand)
      (standing : ∀ statement ∈ tree.statements,
        statement.isLet = true ∨ statement.isValued = true)
      (statements : ∀ statement ∈ tree.statements, Proper statement) : Proper tree

structure ProperOperand (tree : Node) : Prop where
  isValued : tree.isValued = true
  proper : tree.Proper

structure ProperStatement (tree : Node) : Prop where
  stands : tree.isLet = true ∨ tree.isValued = true
  proper : tree.Proper

variable {tree : Node}

theorem Proper.of (supported : tree.isBare = false)
    (operands : ∀ operand ∈ tree.operands, operand.ProperOperand)
    (statements : ∀ statement ∈ tree.statements, statement.ProperStatement) : tree.Proper :=
  .node supported (fun operand member => (operands operand member).isValued)
    (fun operand member => (operands operand member).proper)
    (fun statement member => (statements statement member).stands)
    fun statement member => (statements statement member).proper

theorem Proper.supported (proper : tree.Proper) : tree.isBare = false := by
  cases proper with
  | node supported => exact supported

theorem Proper.operand (proper : tree.Proper) :
    ∀ operand ∈ tree.operands, operand.ProperOperand := by
  cases proper with
  | node _ valued operands =>
      exact fun operand member => ⟨valued operand member, operands operand member⟩

theorem Proper.statement (proper : tree.Proper) :
    ∀ statement ∈ tree.statements, statement.ProperStatement := by
  cases proper with
  | node _ _ _ standing statements =>
      exact fun statement member => ⟨standing statement member, statements statement member⟩

/-- The statements of a node are those of its body, functions apart. -/
theorem body_statements {statement : Node} (member : statement ∈ tree.body) :
    statement ∈ tree.statements := by
  cases tree with
  | function => cases member
  | _ => exact member

end Node

namespace Grammar

/-- The expressions are the least relation that is closed under joining. -/
theorem Expression.least {P : Tokens → Node → Tokens → Prop}
    (closed : ∀ {input node rest}, Joined P input node rest → P input node rest)
    {input rest : Tokens} {node : Node} (expression : Expression input node rest) :
    P input node rest :=
  @Expression.rec
    (fun input node rest _ => P input node rest)
    (fun input node rest _ => Joined P input node rest)
    (fun input node rest _ => Operand P input node rest)
    (fun input node rest _ => Primary P input node rest)
    (fun left input whole rest _ => Suffixes P left input whole rest)
    (fun input block rest _ => Braced P input block rest)
    (fun input items rest _ => Listed P .rightBracket input items rest)
    (fun input pairs rest _ => Entries P input pairs rest)
    (fun input arguments rest _ => Listed P .rightParen input arguments rest)
    (fun input body rest _ => Statements P input body rest)
    (fun input items rest _ => More P input items rest)
    (fun input pairs rest _ => Listed (Entry P) .rightBrace input pairs rest)
    (fun input pair rest _ => Entry P input pair rest)
    (fun input pairs rest _ => More (Entry P) input pairs rest)
    (fun input statement rest _ => Statement P input statement rest)
    (fun _ joined => closed joined)
    (fun _ operand => .operand operand)
    (fun _ isOperator _ left right => .binary left isOperator right)
    (fun isOperator _ operand => .unary isOperator operand)
    (fun _ _ primary suffixes => .suffixed primary suffixes)
    .identifier .integer .string .trueKeyword .falseKeyword
    (fun opens _ closes inner => .grouped opens inner closes)
    (fun isIf opens _ closes _ condition consequence =>
      .conditional isIf opens condition closes consequence)
    (fun isIf opens _ closes _ isElse _ condition consequence alternative =>
      .alternative isIf opens condition closes consequence isElse alternative)
    (fun isFunction opens named _ body => .function isFunction opens named body)
    (fun opens _ items => .array opens items)
    (fun opens _ pairs => .hash opens pairs)
    .none
    (fun opens _ _ arguments others => .call opens arguments others)
    (fun opens _ closes _ position others => .index opens position closes others)
    (fun opens _ closes body => .closed opens body closes)
    (fun opens _ body => .unclosed opens body)
    .empty
    (fun _ _ closes first others => .items first others closes)
    (fun _ entries => .listed entries)
    (fun _ _ separator closes first others => .trailing first others separator closes)
    .empty
    (fun _ _ closes first others => .items first others closes)
    .none
    (fun _ _ first others => .next first others)
    .none
    (fun separator _ _ first others => .next separator first others)
    .empty
    (fun _ _ closes first others => .items first others closes)
    (fun _ isColon _ key value => .pair key isColon value)
    .none
    (fun separator _ _ first others => .next separator first others)
    (fun isLet isName isAssign _ ends value => .letStatement isLet isName isAssign value ends)
    (fun isReturn _ ends value => .returnStatement isReturn value ends)
    (fun _ ends value => .expressionStatement value ends)
    input node rest expression

section Items

variable {α : Type} {Item : Tokens → α → Tokens → Prop} {holds : α → Prop}
  {input rest : Tokens} {items : List α}
  (each : ∀ {input item rest}, Item input item rest → holds item)

include each

theorem More.all (more : More Item input items rest) : ∀ item ∈ items, holds item := by
  induction more with
  | none => exact List.forall_mem_nil _
  | next separator first others ih => exact List.forall_mem_cons.mpr ⟨each first, ih⟩

theorem Listed.all {closing : Token.Kind} (listed : Listed Item closing input items rest) :
    ∀ item ∈ items, holds item := by
  cases listed with
  | empty => exact List.forall_mem_nil _
  | items first others => exact List.forall_mem_cons.mpr ⟨each first, others.all each⟩

end Items

section Forms

variable {E : Tokens → Node → Tokens → Prop} {input rest : Tokens} {node : Node}
  (inside : ∀ {input node rest}, E input node rest → node.ProperOperand)

include inside

theorem Statement.proper (statement : Statement E input node rest) : node.ProperStatement := by
  cases statement with
  | letStatement _ _ _ bound =>
      refine ⟨.inl rfl, .of rfl ?_ (List.forall_mem_nil _)⟩
      exact List.forall_mem_singleton.mpr (inside bound)
  | returnStatement _ given =>
      refine ⟨.inr rfl, .of rfl ?_ (List.forall_mem_nil _)⟩
      exact List.forall_mem_singleton.mpr (inside given)
  | expressionStatement evaluated =>
      refine ⟨.inr rfl, .of rfl ?_ (List.forall_mem_nil _)⟩
      exact List.forall_mem_singleton.mpr (inside evaluated)

theorem Statements.proper {body : List Node} (statements : Statements E input body rest) :
    ∀ statement ∈ body, statement.ProperStatement := by
  induction statements with
  | none => exact List.forall_mem_nil _
  | next first others ih => exact List.forall_mem_cons.mpr ⟨first.proper inside, ih⟩

theorem Braced.proper {block : Block Node} (braced : Braced E input block rest) :
    ∀ statement ∈ block.statements, statement.ProperStatement := by
  cases braced with
  | closed _ statements | unclosed _ statements => exact statements.proper inside

theorem Entries.proper {pairs : List (Node × Node)} (entries : Entries E input pairs rest) :
    ∀ pair ∈ pairs, pair.1.ProperOperand ∧ pair.2.ProperOperand := by
  have each : ∀ {input pair rest}, Entry E input pair rest →
      pair.1.ProperOperand ∧ pair.2.ProperOperand := by
    intro _ _ _ entry
    cases entry with
    | pair named _ given => exact ⟨inside named, inside given⟩
  cases entries with
  | listed entries => exact entries.all each
  | trailing first others => exact List.forall_mem_cons.mpr ⟨each first, others.all each⟩

theorem Primary.proper (primary : Primary E input node rest) : node.ProperOperand := by
  have none : ∀ tree ∈ ([] : List Node), tree.ProperOperand := List.forall_mem_nil _
  have noStatement : ∀ tree ∈ ([] : List Node), tree.ProperStatement := List.forall_mem_nil _
  cases primary with
  | identifier | integer | string | trueKeyword | falseKeyword =>
      exact ⟨rfl, .of rfl none noStatement⟩
  | grouped _ grouped => exact inside grouped
  | conditional _ _ tested _ consequent =>
      refine ⟨rfl, .of rfl ?_ (consequent.proper inside)⟩
      exact List.forall_mem_singleton.mpr (inside tested)
  | alternative _ _ tested _ consequent _ alternate =>
      refine ⟨rfl, .of rfl (List.forall_mem_singleton.mpr (inside tested)) ?_⟩
      exact List.forall_mem_append.mpr ⟨consequent.proper inside, alternate.proper inside⟩
  | function _ _ _ braced => exact ⟨rfl, .of rfl none (braced.proper inside)⟩
  | array _ listed => exact ⟨rfl, .of rfl (listed.all inside) noStatement⟩
  | hash _ listed =>
      refine ⟨rfl, .of rfl (fun operand member => ?_) noStatement⟩
      obtain ⟨pair, member, within⟩ := List.mem_flatMap.mp member
      obtain ⟨key, value⟩ := listed.proper inside pair member
      simp only [List.mem_cons, List.not_mem_nil, or_false] at within
      rcases within with rfl | rfl
      · exact key
      · exact value

theorem Suffixes.proper {left whole : Node} (suffixes : Suffixes E left input whole rest)
    (proper : left.ProperOperand) : whole.ProperOperand := by
  induction suffixes with
  | none => exact proper
  | call _ listed _ ih =>
      refine ih ⟨rfl, .of rfl ?_ (List.forall_mem_nil _)⟩
      exact List.forall_mem_cons.mpr ⟨proper, listed.all inside⟩
  | index _ selected _ _ ih =>
      refine ih ⟨rfl, .of rfl ?_ (List.forall_mem_nil _)⟩
      exact List.forall_mem_cons.mpr ⟨proper, List.forall_mem_singleton.mpr (inside selected)⟩

theorem Operand.proper (operand : Operand E input node rest) : node.ProperOperand := by
  induction operand with
  | unary _ _ ih =>
      exact ⟨rfl, .of rfl (List.forall_mem_singleton.mpr ih) (List.forall_mem_nil _)⟩
  | suffixed primary suffixes => exact suffixes.proper inside (primary.proper inside)

theorem Joined.proper (joined : Joined E input node rest) : node.ProperOperand := by
  induction joined with
  | operand operand => exact operand.proper inside
  | binary _ _ _ left right =>
      refine ⟨rfl, .of rfl ?_ (List.forall_mem_nil _)⟩
      exact List.forall_mem_cons.mpr ⟨left, List.forall_mem_singleton.mpr right⟩

end Forms

theorem Expression.proper {input rest : Tokens} {node : Node}
    (expression : Expression input node rest) : node.ProperOperand :=
  @Expression.least (fun _ node _ => node.ProperOperand) (fun joined => joined.proper id) _ _ _
    expression

end Grammar

theorem Parsed.proper {text : String} {parsed : Parsed} (read : Parsed.ofText text = .ok parsed)
    (clean : parsed.errors = []) :
    ∃ token body, parsed.program = .program ⟨token, body⟩ ∧ parsed.program.Proper := by
  obtain ⟨tokens, ends, scanned, proper, allEnd⟩ := Scanner.split_scan text
  unfold Parsed.ofText at read
  rw [scanned] at read
  obtain ⟨token, body, same, derived⟩ := Parsed.ofTokens_sound proper allEnd read clean
  refine ⟨token, body, same, ?_⟩
  rw [same]
  exact .of rfl (List.forall_mem_nil _) (derived.proper fun expression => expression.proper)

end MonkeyLang
