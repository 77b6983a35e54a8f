import MonkeyLang.Proofs.Syntax.Exactness
import MonkeyLang.Proofs.Syntax.Proper
import MonkeyLang.Proofs.Token.Spelling

namespace MonkeyLang

open Grammar (Tokens kindOf)

/-! # The parts of a tree and their tokens

The trees that the parser gives are formed throughout: every part keeps a token of the input, and of
the kind that its form demands.
-/

namespace Node

/-- A node with everything inside it, the bodies of functions included. -/
inductive Part (whole : Node) : Node → Prop
  | whole : Part whole whole
  | operand {tree part : Node} (inside : Part whole tree) (member : part ∈ tree.operands) :
      Part whole part
  | statement {tree part : Node} (inside : Part whole tree) (member : part ∈ tree.statements) :
      Part whole part

/-- What is true of every part of a tree. -/
inductive Throughout (holds : Node → Prop) : Node → Prop
  | node {tree : Node} (here : holds tree)
      (operands : ∀ operand ∈ tree.operands, Throughout holds operand)
      (statements : ∀ statement ∈ tree.statements, Throughout holds statement) :
      Throughout holds tree

variable {holds : Node → Prop} {tree : Node}

theorem Throughout.here (throughout : tree.Throughout holds) : holds tree := by
  cases throughout with
  | node here => exact here

theorem Throughout.operand (throughout : tree.Throughout holds) :
    ∀ operand ∈ tree.operands, operand.Throughout holds := by
  cases throughout with
  | node _ operands => exact operands

theorem Throughout.statement (throughout : tree.Throughout holds) :
    ∀ statement ∈ tree.statements, statement.Throughout holds := by
  cases throughout with
  | node _ _ statements => exact statements

theorem Throughout.part {part : Node} (throughout : tree.Throughout holds) (inside : tree.Part part) :
    part.Throughout holds := by
  induction inside with
  | whole => exact throughout
  | operand _ member ih => exact ih.operand _ member
  | statement _ member ih => exact ih.statement _ member

theorem Throughout.imp {weaker : Node → Prop} (throughout : tree.Throughout holds)
    (weaken : ∀ node, holds node → weaker node) : tree.Throughout weaker := by
  induction throughout with
  | node here _ _ operands statements => exact .node (weaken _ here) operands statements

end Node

section Formed

variable (known : Token → Prop)

structure Token.Given (kind : Token.Kind) (token : Token) : Prop where
  known : known token
  kind : token.kind = kind

structure Identifier.Formed (name : Identifier) : Prop where
  token : name.token.Given known .identifier
  name : name.name = name.token.literal

/-- The number of an integer literal that the parser takes. -/
structure Token.Counts (token : Token) (value : Nat) : Prop where
  numeral : Grammar.Numeral token.literal value
  bounded : value ≤ 0x7fffffffffffffff
  limited : ¬ token.Oversized

/-- What the parser has seen of a node apart from what stands inside it. -/
def Node.FormedHere : Node → Prop
  | program body => known body.token
  | letStatement token name _ => token.Given known .letKeyword ∧ name.Formed known
  | returnStatement token _ => token.Given known .returnKeyword
  | expressionStatement token _ => known token
  | identifier name => name.Formed known
  | integer token value => token.Given known .integer ∧ ∃ number : Nat, value = number ∧ token.Counts number
  | boolean token value => token.Given known (if value then .trueKeyword else .falseKeyword)
  | string token value => token.Given known .string ∧ value = token.literal
  | array token _ => token.Given known .leftBracket
  | hash token _ => token.Given known .leftBrace
  | unary token operator _ =>
      known token ∧ token.kind ∈ Grammar.unaryOperators ∧ operator = token.literal
  | binary token operator _ _ =>
      known token ∧ token.kind ∈ Grammar.binaryOperators ∧ operator = token.literal
  | conditional token _ _ _ => token.Given known .ifKeyword
  | function token parameters body =>
      token.Given known .fnKeyword ∧ (∀ name ∈ parameters, name.Formed known) ∧
        body.token.Given known .leftBrace
  | call token _ _ => token.Given known .leftParen
  | index token _ _ => token.Given known .leftBracket
  | block _ | bare .. => False

abbrev Node.Formed : Node → Prop := Node.Throughout (Node.FormedHere known)

end Formed

variable {known : Token → Prop}

theorem Node.FormedHere.token {tree : Node} (formed : tree.FormedHere known) : known tree.token := by
  cases tree with
  | program | expressionStatement => exact formed
  | identifier name => exact (Identifier.Formed.token formed).known
  | letStatement | integer | string | function => exact formed.1.known
  | unary | binary => exact formed.1
  | returnStatement | boolean | array | hash | conditional | call | index =>
      exact Token.Given.known formed
  | block | bare => exact formed.elim

namespace Grammar

/-- Nothing but given tokens. -/
def Given (known : Token → Prop) (tokens : Tokens) : Prop := ∀ token ∈ tokens, known token

theorem Given.cons {token : Token} {tokens : Tokens} (all : Given known (token :: tokens)) :
    known token ∧ Given known tokens :=
  List.forall_mem_cons.mp all

section Items

variable {α : Type} {Item : Tokens → α → Tokens → Prop} {holds : α → Prop}
  {input rest : Tokens} {items : List α}
  (each : ∀ input item rest, Item input item rest → Given known input →
    holds item ∧ Given known rest)

include each

theorem More.given (more : More Item input items rest) (all : Given known input) :
    (∀ item ∈ items, holds item) ∧ Given known rest := by
  induction more with
  | none => exact ⟨List.forall_mem_nil _, all⟩
  | next separator first _ ih =>
      obtain ⟨here, between⟩ := each _ _ _ first all.cons.2
      obtain ⟨others, behind⟩ := ih between
      exact ⟨List.forall_mem_cons.mpr ⟨here, others⟩, behind⟩

theorem Listed.given {closing : Token.Kind} (listed : Listed Item closing input items rest)
    (all : Given known input) : (∀ item ∈ items, holds item) ∧ Given known rest := by
  cases listed with
  | empty => exact ⟨List.forall_mem_nil _, all.cons.2⟩
  | items first others =>
      obtain ⟨here, between⟩ := each _ _ _ first all
      obtain ⟨others, behind⟩ := others.given each between
      exact ⟨List.forall_mem_cons.mpr ⟨here, others⟩, behind.cons.2⟩

end Items

theorem Name.formed (input : Tokens) (name : Identifier) (rest : Tokens) (named : Name input name rest)
    (all : Given known input) : name.Formed known ∧ Given known rest := by
  cases named with
  | identifier rest isName =>
      obtain ⟨here, behind⟩ := all.cons
      exact ⟨⟨⟨here, isName⟩, rfl⟩, behind⟩

section Forms

variable {E : Tokens → Node → Tokens → Prop} {input rest : Tokens} {node : Node}
  (inside : ∀ input node rest, E input node rest → Given known input →
    node.Formed known ∧ Given known rest)

theorem formed_none : ∀ tree ∈ ([] : List Node), tree.Formed known := List.forall_mem_nil _

theorem Ending.given (ends : Ending input rest) (all : Given known input) : Given known rest := by
  cases ends with
  | semicolon => exact all.cons.2
  | bare => exact all

include inside

theorem Statement.formed (statement : Statement E input node rest) (all : Given known input) :
    node.Formed known ∧ Given known rest := by
  cases statement with
  | letStatement isLet isName isAssign bound ends =>
      obtain ⟨keyword, all⟩ := all.cons
      obtain ⟨name, all⟩ := all.cons
      obtain ⟨value, all⟩ := inside _ _ _ bound all.cons.2
      exact ⟨.node ⟨⟨keyword, isLet⟩, ⟨name, isName⟩, rfl⟩ (List.forall_mem_singleton.mpr value)
        formed_none, ends.given all⟩
  | returnStatement isReturn given ends =>
      obtain ⟨keyword, all⟩ := all.cons
      obtain ⟨value, all⟩ := inside _ _ _ given all
      exact ⟨.node ⟨keyword, isReturn⟩ (List.forall_mem_singleton.mpr value) formed_none,
        ends.given all⟩
  | expressionStatement evaluated ends =>
      obtain ⟨value, behind⟩ := inside _ _ _ evaluated all
      exact ⟨.node all.cons.1 (List.forall_mem_singleton.mpr value) formed_none, ends.given behind⟩

theorem Statements.formed {body : List Node} (statements : Statements E input body rest)
    (all : Given known input) : (∀ statement ∈ body, statement.Formed known) ∧ Given known rest := by
  induction statements with
  | none => exact ⟨formed_none, all⟩
  | next first _ ih =>
      obtain ⟨here, between⟩ := first.formed inside all
      obtain ⟨others, behind⟩ := ih between
      exact ⟨List.forall_mem_cons.mpr ⟨here, others⟩, behind⟩

theorem Braced.formed {block : Block Node} (braced : Braced E input block rest)
    (all : Given known input) : block.token.Given known .leftBrace ∧
      (∀ statement ∈ block.statements, statement.Formed known) ∧ Given known rest := by
  cases braced with
  | closed opens statements =>
      obtain ⟨opening, all⟩ := all.cons
      obtain ⟨body, behind⟩ := statements.formed inside all
      exact ⟨⟨opening, opens⟩, body, behind.cons.2⟩
  | unclosed opens statements =>
      obtain ⟨opening, all⟩ := all.cons
      obtain ⟨body, behind⟩ := statements.formed inside all
      exact ⟨⟨opening, opens⟩, body, behind⟩

theorem Entry.formed {pair : Node × Node} (entry : Entry E input pair rest)
    (all : Given known input) :
    (pair.1.Formed known ∧ pair.2.Formed known) ∧ Given known rest := by
  cases entry with
  | pair named _ value =>
      obtain ⟨key, all⟩ := inside _ _ _ named all
      obtain ⟨value, behind⟩ := inside _ _ _ value all.cons.2
      exact ⟨⟨key, value⟩, behind⟩

theorem Entries.formed {pairs : List (Node × Node)} (entries : Entries E input pairs rest)
    (all : Given known input) :
    (∀ pair ∈ pairs, pair.1.Formed known ∧ pair.2.Formed known) ∧ Given known rest := by
  have each : ∀ input pair rest, Entry E input pair rest → Given known input →
      (pair.1.Formed known ∧ pair.2.Formed known) ∧ Given known rest :=
    fun _ _ _ entry => entry.formed inside
  cases entries with
  | listed entries => exact entries.given each all
  | trailing first others =>
      obtain ⟨here, between⟩ := each _ _ _ first all
      obtain ⟨others, behind⟩ := others.given each between
      exact ⟨List.forall_mem_cons.mpr ⟨here, others⟩, behind.cons.2.cons.2⟩

theorem Primary.formed {token : Token} (primary : Primary E (token :: input) node rest)
    (limited : ¬ token.Oversized) (all : Given known (token :: input)) :
    node.Formed known ∧ Given known rest := by
  obtain ⟨here, behind⟩ := all.cons
  cases primary with
  | identifier rest isName =>
      exact ⟨.node ⟨⟨here, isName⟩, rfl⟩ formed_none formed_none, behind⟩
  | integer rest isInteger numeral bounded =>
      exact ⟨.node ⟨⟨here, isInteger⟩, _, rfl, numeral, bounded, limited⟩ formed_none formed_none,
        behind⟩
  | string rest isString =>
      exact ⟨.node ⟨⟨here, isString⟩, rfl⟩ formed_none formed_none, behind⟩
  | trueKeyword rest isTrue => exact ⟨.node ⟨here, isTrue⟩ formed_none formed_none, behind⟩
  | falseKeyword rest isFalse => exact ⟨.node ⟨here, isFalse⟩ formed_none formed_none, behind⟩
  | grouped _ grouped =>
      obtain ⟨inner, behind⟩ := inside _ _ _ grouped behind
      exact ⟨inner, behind.cons.2⟩
  | conditional isIf _ tested _ consequent =>
      obtain ⟨condition, behind⟩ := inside _ _ _ tested behind.cons.2
      obtain ⟨_, body, behind⟩ := consequent.formed inside behind.cons.2
      exact ⟨.node ⟨here, isIf⟩ (List.forall_mem_singleton.mpr condition) body, behind⟩
  | alternative isIf _ tested _ consequent _ alternate =>
      obtain ⟨condition, behind⟩ := inside _ _ _ tested behind.cons.2
      obtain ⟨_, body, behind⟩ := consequent.formed inside behind.cons.2
      obtain ⟨_, others, behind⟩ := alternate.formed inside behind.cons.2
      exact ⟨.node ⟨here, isIf⟩ (List.forall_mem_singleton.mpr condition)
        (List.forall_mem_append.mpr ⟨body, others⟩), behind⟩
  | function isFunction _ named braced =>
      obtain ⟨names, behind⟩ := named.given Name.formed behind.cons.2
      obtain ⟨opening, body, behind⟩ := braced.formed inside behind
      exact ⟨.node ⟨⟨here, isFunction⟩, names, opening⟩ formed_none body, behind⟩
  | array opens listed =>
      obtain ⟨items, behind⟩ := listed.given inside behind
      exact ⟨.node ⟨here, opens⟩ items formed_none, behind⟩
  | hash opens listed =>
      obtain ⟨pairs, behind⟩ := listed.formed inside behind
      refine ⟨.node ⟨here, opens⟩ (fun operand member => ?_) formed_none, behind⟩
      obtain ⟨pair, member, within⟩ := List.mem_flatMap.mp member
      obtain ⟨key, value⟩ := pairs pair member
      simp only [List.mem_cons, List.not_mem_nil, or_false] at within
      rcases within with rfl | rfl
      · exact key
      · exact value

end Forms

section Ranked

variable {E : Nat → Tokens → Node → Tokens → Prop} {input rest : Tokens} {node : Node}
  (inside : ∀ power input node rest, E power input node rest → Given known input →
    node.Formed known ∧ Given known rest)

include inside

theorem Begins.formed (begins : Begins (¬ ·.Oversized) E input node rest)
    (all : Given known input) : node.Formed known ∧ Given known rest := by
  cases begins with
  | unary isOperator applied =>
      obtain ⟨here, all⟩ := all.cons
      obtain ⟨operand, behind⟩ := inside _ _ _ _ applied all
      exact ⟨.node ⟨here, isOperator, rfl⟩ (List.forall_mem_singleton.mpr operand) formed_none,
        behind⟩
  | primary primary limited => exact primary.formed (inside _) limited all

theorem Extends.formed {power : Nat} {left whole : Node}
    (extended : Extends E power left input whole rest) (before : left.Formed known)
    (all : Given known input) : whole.Formed known ∧ Given known rest := by
  induction extended with
  | none => exact ⟨before, all⟩
  | call opens listed _ ih =>
      obtain ⟨here, all⟩ := all.cons
      obtain ⟨arguments, behind⟩ := listed.given (inside _) all
      exact ih (.node ⟨here, opens⟩ (List.forall_mem_cons.mpr ⟨before, arguments⟩) formed_none)
        behind
  | index opens selected _ _ ih =>
      obtain ⟨here, all⟩ := all.cons
      obtain ⟨position, behind⟩ := inside _ _ _ _ selected all
      have operands := List.forall_mem_cons.mpr ⟨before, List.forall_mem_singleton.mpr position⟩
      exact ih (.node ⟨here, opens⟩ operands formed_none) behind.cons.2
  | binary isOperator _ second _ ih =>
      obtain ⟨here, all⟩ := all.cons
      obtain ⟨right, behind⟩ := inside _ _ _ _ second all
      have operands := List.forall_mem_cons.mpr ⟨before, List.forall_mem_singleton.mpr right⟩
      exact ih (.node ⟨here, isOperator, rfl⟩ operands formed_none) behind

end Ranked

theorem Ranked.formed {depth power : Nat} {input rest : Tokens} {node : Node}
    (ranked : Parse.Readable depth power input node rest) (all : Given known input) :
    node.Formed known ∧ Given known rest := by
  induction depth generalizing power input node rest with
  | zero => exact ranked.elim
  | succ depth ih =>
      obtain ⟨first, between, begins, extended⟩ := ranked
      obtain ⟨before, behind⟩ := begins.formed (fun _ _ _ _ => ih) all
      exact extended.formed (fun _ _ _ _ => ih) before behind

end Grammar

/-- A program without errors is derived from the tokens of its text, without the end token. -/
theorem Parsed.derived {depth : Nat} {text : String} {program : Node}
    (read : Parsed.ofTokens depth (Token.scan text) = .ok ⟨program, []⟩) :
    ∃ tokens finish body, Token.scan text = tokens ++ [finish] ∧
      (∀ token ∈ tokens, token.kind ≠ .endOfInput) ∧
      program = .program
        ⟨(Token.scan text).headD (Parse.endingOf (Token.scan text)), body⟩ ∧
      Grammar.Statements (Parse.Readable depth Parse.loosest) tokens body [] := by
  obtain ⟨tokens, finish, split, isEnd, proper⟩ := Token.scan_split text
  have allEnd : ∀ token ∈ [finish], token.kind = .endOfInput := List.forall_mem_singleton.mpr isEnd
  obtain ⟨body, opened⟩ := Parsed.ofTokens_token read rfl
  have derived : ∃ token body, program = .program ⟨token, body⟩ ∧
      Grammar.Statements (Parse.Readable depth Parse.loosest) tokens body [] :=
    Parsed.ofTokens_readable proper allEnd (split ▸ read) rfl
  obtain ⟨token, _, rfl, statements⟩ := derived
  cases opened
  exact ⟨tokens, finish, body, split, proper, rfl, statements⟩

/-- Every part of a program without errors keeps a token of its text. -/
theorem Parsed.formed {depth : Nat} {text : String} {program : Node}
    (read : Parsed.ofTokens depth (Token.scan text) = .ok ⟨program, []⟩) :
    program.Formed (· ∈ Token.scan text) := by
  obtain ⟨tokens, finish, body, split, _, rfl, statements⟩ := Parsed.derived read
  have known : Grammar.Given (· ∈ Token.scan text) tokens :=
    fun token member => split ▸ List.mem_append_left _ member
  have first : (Token.scan text).headD (Parse.endingOf (Token.scan text)) ∈ Token.scan text := by
    rw [split]
    cases tokens <;> exact List.mem_cons_self
  exact .node first Grammar.formed_none
    (statements.formed (fun _ _ _ ranked => ranked.formed) known).1

/-- No part of its statements keeps the end token. -/
theorem Parsed.statements_formed {depth : Nat} {text : String} {program : Node}
    (read : Parsed.ofTokens depth (Token.scan text) = .ok ⟨program, []⟩) :
    ∀ statement ∈ program.body, statement.Formed fun token =>
      token ∈ Token.scan text ∧ token.kind ≠ .endOfInput := by
  obtain ⟨tokens, finish, body, split, proper, rfl, statements⟩ := Parsed.derived read
  have known : Grammar.Given (fun token => token ∈ Token.scan text ∧ token.kind ≠ .endOfInput)
      tokens :=
    fun token member => ⟨split ▸ List.mem_append_left _ member, proper token member⟩
  exact (statements.formed (fun _ _ _ ranked => ranked.formed) known).1

end MonkeyLang
