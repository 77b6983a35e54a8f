import Mathlib.Data.List.Forall2
import Mathlib.Data.Option.Basic
import MonkeyLang.Syntax.Parse
import MonkeyLang.Syntax.Render

namespace MonkeyLang

/-! # Similar trees

Two trees are similar if they differ at most in their tokens, and there only as far as a relation on
tokens allows.  Where similar tokens have the same literal, similar trees have the same text.
-/

/-- Tokens that differ in nothing but their places. -/
structure Token.SameSpelling (left right : Token) : Prop where
  kind : left.kind = right.kind
  literal : left.literal = right.literal

theorem Token.SameSpelling.rfl {token : Token} : token.SameSpelling token := ⟨.refl _, .refl _⟩

/-- What a token is apart from its place. -/
def Token.spelling (token : Token) : Token.Kind × String := (token.kind, token.literal)

theorem Token.sameSpelling_of_spelling {tokens others : List Token}
    (same : tokens.map Token.spelling = others.map Token.spelling) :
    List.Forall₂ Token.SameSpelling tokens others := by
  rw [← List.forall₂_eq_eq_eq, List.forall₂_map_left_iff, List.forall₂_map_right_iff] at same
  exact same.imp fun _ _ spellings => ⟨congrArg Prod.fst spellings, congrArg Prod.snd spellings⟩

/-- A relation on tokens that leaves them their kinds and literals. -/
abbrev Token.Spelled (similar : Token → Token → Prop) : Prop :=
  ∀ {token other}, similar token other → token.SameSpelling other

section Relations

variable (similar : Token → Token → Prop)

structure Identifier.Similar (left right : Identifier) : Prop where
  token : similar left.token right.token
  name : left.name = right.name

inductive Block.Similar {Statement : Type} (each : Statement → Statement → Prop) :
    Block Statement → Block Statement → Prop
  | block {token other : Token} {left right : List Statement} (tokens : similar token other)
      (statements : List.Forall₂ each left right) : Similar each ⟨token, left⟩ ⟨other, right⟩

inductive Node.Similar : Node → Node → Prop
  | program {left right : Block Node} (bodies : left.Similar similar Similar right) :
      Similar (.program left) (.program right)
  | block {left right : Block Node} (bodies : left.Similar similar Similar right) :
      Similar (.block left) (.block right)
  | letStatement {token other : Token} {name otherName : Identifier} {left right : Node}
      (tokens : similar token other) (names : name.Similar similar otherName)
      (values : Similar left right) :
      Similar (.letStatement token name left) (.letStatement other otherName right)
  | returnStatement {token other : Token} {left right : Node} (tokens : similar token other)
      (values : Similar left right) :
      Similar (.returnStatement token left) (.returnStatement other right)
  | expressionStatement {token other : Token} {left right : Node} (tokens : similar token other)
      (expressions : Similar left right) :
      Similar (.expressionStatement token left) (.expressionStatement other right)
  | identifier {left right : Identifier} (names : left.Similar similar right) :
      Similar (.identifier left) (.identifier right)
  | integer {token other : Token} (tokens : similar token other) (value : Int) :
      Similar (.integer token value) (.integer other value)
  | boolean {token other : Token} (tokens : similar token other) (value : Bool) :
      Similar (.boolean token value) (.boolean other value)
  | string {token other : Token} (tokens : similar token other) (value : String) :
      Similar (.string token value) (.string other value)
  | array {token other : Token} {left right : List Node} (tokens : similar token other)
      (items : List.Forall₂ Similar left right) : Similar (.array token left) (.array other right)
  | hash {token other : Token} {left right : List (Node × Node)} (tokens : similar token other)
      (pairs : List.Forall₂ (Prod.RProd Similar Similar) left right) :
      Similar (.hash token left) (.hash other right)
  | unary {token other : Token} {left right : Node} (tokens : similar token other)
      (operator : String) (operands : Similar left right) :
      Similar (.unary token operator left) (.unary other operator right)
  | binary {token other : Token} {left right second otherSecond : Node}
      (tokens : similar token other) (operator : String) (firsts : Similar left right)
      (seconds : Similar second otherSecond) :
      Similar (.binary token operator left second) (.binary other operator right otherSecond)
  | conditional {token other : Token} {left right : Node} {consequence otherConsequence : Block Node}
      {alternative otherAlternative : Option (Block Node)} (tokens : similar token other)
      (conditions : Similar left right)
      (consequences : consequence.Similar similar Similar otherConsequence)
      (alternatives : Option.Rel (Block.Similar similar Similar) alternative otherAlternative) :
      Similar (.conditional token left consequence alternative)
        (.conditional other right otherConsequence otherAlternative)
  | function {token other : Token} {parameters otherParameters : List Identifier}
      {left right : Block Node} (tokens : similar token other)
      (names : List.Forall₂ (Identifier.Similar similar) parameters otherParameters)
      (bodies : left.Similar similar Similar right) :
      Similar (.function token parameters left) (.function other otherParameters right)
  | call {token other : Token} {left right : Node} {arguments otherArguments : List Node}
      (tokens : similar token other) (callees : Similar left right)
      (supplied : List.Forall₂ Similar arguments otherArguments) :
      Similar (.call token left arguments) (.call other right otherArguments)
  | index {token other : Token} {left right position otherPosition : Node}
      (tokens : similar token other) (objects : Similar left right)
      (positions : Similar position otherPosition) :
      Similar (.index token left position) (.index other right otherPosition)
  -- The text of such a node shows the place of its token.
  | bare (token : Token) (kind : BareKind) : Similar (.bare token kind) (.bare token kind)

/-- Readings with the same errors and similar programs, or that are broken off alike. -/
inductive Parsed.Similar : Except Breakoff Parsed → Except Breakoff Parsed → Prop
  | read {left right : Parsed} (programs : left.program.Similar similar right.program)
      (errors : left.errors = right.errors) : Similar (.ok left) (.ok right)
  | broken (reason : Breakoff) : Similar (.error reason) (.error reason)

end Relations

variable {similar : Token → Token → Prop} {left right : Node}

theorem Block.Similar.statements {each : Node → Node → Prop} {left right : Block Node}
    (bodies : left.Similar similar each right) :
    List.Forall₂ each left.statements right.statements := by
  cases bodies with
  | block _ statements => exact statements

namespace Node.Similar

theorem formName (nodes : left.Similar similar right) : left.formName = right.formName := by
  cases nodes <;> rfl

theorem token (reflexive : ∀ token, similar token token) (nodes : left.Similar similar right) :
    similar left.token right.token := by
  cases nodes with
  | program bodies | block bodies => cases bodies with | block tokens _ => exact tokens
  | identifier names => exact names.token
  | bare token kind => exact reflexive token
  | _ => assumption

theorem renderNames {left right : List Identifier}
    (names : List.Forall₂ (Identifier.Similar similar) left right) :
    Node.renderNames left = Node.renderNames right := by
  have same : left.map (·.name) = right.map (·.name) := by
    induction names with
    | nil => rfl
    | cons first _ ih => rw [List.map_cons, List.map_cons, first.name, ih]
  rw [Node.renderNames, same, Node.renderNames]

mutual

theorem render (spelled : Token.Spelled similar) : ∀ (left : Node) {right : Node},
    left.Similar similar right → left.render = right.render
  | .program ⟨_, body⟩, _, nodes => by
      cases nodes with | program bodies
      cases bodies with | block _ statements
      simp only [Node.render, renderAll spelled body statements]
  | .block ⟨_, body⟩, _, nodes => by
      cases nodes with | block bodies
      cases bodies with | block _ statements
      simp only [Node.render, renderAll spelled body statements]
  | .letStatement _ _ value, _, nodes => by
      cases nodes with | letStatement _ names values
      simp only [Node.render, names.name, render spelled value values]
  | .returnStatement _ value, _, nodes => by
      cases nodes with | returnStatement _ values
      simp only [Node.render, render spelled value values]
  | .expressionStatement _ expression, _, nodes => by
      cases nodes with | expressionStatement _ expressions
      simp only [Node.render, render spelled expression expressions]
  | .identifier _, _, nodes => by
      cases nodes with | identifier names
      exact names.name
  | .integer .., _, nodes => by
      cases nodes with | integer tokens _
      exact (spelled tokens).literal
  | .boolean .., _, nodes => by
      cases nodes with | boolean tokens _
      exact (spelled tokens).literal
  | .string .., _, nodes => by
      cases nodes
      rfl
  | .array _ items, _, nodes => by
      cases nodes with | array _ others
      simp only [Node.render, renderListed spelled items others]
  | .hash _ pairs, _, nodes => by
      cases nodes with | hash _ others
      simp only [Node.render, renderPairs spelled pairs others]
  | .unary _ _ operand, _, nodes => by
      cases nodes with | unary _ _ operands
      simp only [Node.render, render spelled operand operands]
  | .binary _ _ left right, _, nodes => by
      cases nodes with | binary _ _ firsts seconds
      simp only [Node.render, render spelled left firsts, render spelled right seconds]
  | .conditional _ condition ⟨_, consequence⟩ none, _, nodes => by
      cases nodes with | conditional _ conditions consequences alternatives
      cases consequences with | block _ statements
      cases alternatives
      simp only [Node.render, render spelled condition conditions,
        renderAll spelled consequence statements]
  | .conditional _ condition ⟨_, consequence⟩ (some ⟨_, alternative⟩), _, nodes => by
      cases nodes with | conditional _ conditions consequences alternatives
      cases consequences with | block _ statements
      cases alternatives with | some alternatives
      cases alternatives with | block _ others
      simp only [Node.render, render spelled condition conditions,
        renderAll spelled consequence statements, renderAll spelled alternative others]
  | .function _ _ ⟨_, body⟩, _, nodes => by
      cases nodes with | function tokens names bodies
      cases bodies with | block _ statements
      simp only [Node.render, (spelled tokens).literal, renderNames names,
        renderAll spelled body statements]
  | .call _ callee arguments, _, nodes => by
      cases nodes with | call _ callees supplied
      simp only [Node.render, render spelled callee callees,
        renderListed spelled arguments supplied]
  | .index _ left position, _, nodes => by
      cases nodes with | index _ objects positions
      simp only [Node.render, render spelled left objects, render spelled position positions]
  | .bare .., _, nodes => by
      cases nodes
      rfl
termination_by structural left => left

theorem renderAll (spelled : Token.Spelled similar) : ∀ (left : List Node) {right : List Node},
    List.Forall₂ (Node.Similar similar) left right → Node.renderAll left = Node.renderAll right
  | [], _, .nil => rfl
  | node :: nodes, _, .cons first others => by
      simp only [Node.renderAll, render spelled node first, renderAll spelled nodes others]

theorem renderListed (spelled : Token.Spelled similar) : ∀ (left : List Node) {right : List Node},
    List.Forall₂ (Node.Similar similar) left right →
    Node.renderListed left = Node.renderListed right
  | [], _, .nil => rfl
  | [node], _, .cons first .nil => render spelled node first
  | node :: next :: nodes, _, .cons first (.cons second others) => by
      simp only [Node.renderListed, render spelled node first,
        renderListed spelled (next :: nodes) (.cons second others)]

theorem renderPairs (spelled : Token.Spelled similar) :
    ∀ (left : List (Node × Node)) {right : List (Node × Node)},
    List.Forall₂ (Prod.RProd (Node.Similar similar) (Node.Similar similar)) left right →
    Node.renderPairs left = Node.renderPairs right
  | [], _, .nil => rfl
  | [(key, value)], _, .cons (.intro keys values) .nil => by
      simp only [Node.renderPairs, render spelled key keys, render spelled value values]
  | (key, value) :: next :: pairs, _, .cons (.intro keys values) (.cons second others) => by
      simp only [Node.renderPairs, render spelled key keys, render spelled value values,
        renderPairs spelled (next :: pairs) (.cons second others)]

end

end Node.Similar

section Reflexive

/-- A relation on tokens that every token has to itself. -/
abbrev Token.Reflexive (similar : Token → Token → Prop) : Prop := ∀ token, similar token token

theorem Identifier.Similar.refl (reflexive : Token.Reflexive similar) (name : Identifier) :
    name.Similar similar name :=
  ⟨reflexive name.token, .refl _⟩

namespace Node.Similar

mutual

theorem refl (reflexive : Token.Reflexive similar) : ∀ node : Node, node.Similar similar node
  | .program ⟨token, body⟩ => .program (.block (reflexive token) (reflAll reflexive body))
  | .block ⟨token, body⟩ => .block (.block (reflexive token) (reflAll reflexive body))
  | .letStatement token name value =>
      .letStatement (reflexive token) (.refl reflexive name) (refl reflexive value)
  | .returnStatement token value => .returnStatement (reflexive token) (refl reflexive value)
  | .expressionStatement token expression =>
      .expressionStatement (reflexive token) (refl reflexive expression)
  | .identifier name => .identifier (.refl reflexive name)
  | .integer token value => .integer (reflexive token) value
  | .boolean token value => .boolean (reflexive token) value
  | .string token value => .string (reflexive token) value
  | .array token items => .array (reflexive token) (reflAll reflexive items)
  | .hash token pairs => .hash (reflexive token) (reflPairs reflexive pairs)
  | .unary token operator operand => .unary (reflexive token) operator (refl reflexive operand)
  | .binary token operator left right =>
      .binary (reflexive token) operator (refl reflexive left) (refl reflexive right)
  | .conditional token condition ⟨opening, consequence⟩ none =>
      .conditional (reflexive token) (refl reflexive condition)
        (.block (reflexive opening) (reflAll reflexive consequence)) .none
  | .conditional token condition ⟨opening, consequence⟩ (some ⟨otherwise, alternative⟩) =>
      .conditional (reflexive token) (refl reflexive condition)
        (.block (reflexive opening) (reflAll reflexive consequence))
        (.some (.block (reflexive otherwise) (reflAll reflexive alternative)))
  | .function token _ ⟨opening, body⟩ =>
      .function (reflexive token) (List.forall₂_same.mpr fun name _ => .refl reflexive name)
        (.block (reflexive opening) (reflAll reflexive body))
  | .call token callee arguments =>
      .call (reflexive token) (refl reflexive callee) (reflAll reflexive arguments)
  | .index token left position =>
      .index (reflexive token) (refl reflexive left) (refl reflexive position)
  | .bare token kind => .bare token kind

theorem reflAll (reflexive : Token.Reflexive similar) :
    ∀ nodes : List Node, List.Forall₂ (Node.Similar similar) nodes nodes
  | [] => .nil
  | node :: nodes => .cons (refl reflexive node) (reflAll reflexive nodes)

theorem reflPairs (reflexive : Token.Reflexive similar) : ∀ pairs : List (Node × Node),
    List.Forall₂ (Prod.RProd (Node.Similar similar) (Node.Similar similar)) pairs pairs
  | [] => .nil
  | (key, value) :: pairs =>
      .cons (.intro (refl reflexive key) (refl reflexive value)) (reflPairs reflexive pairs)

end

end Node.Similar

theorem Parsed.Similar.refl (reflexive : Token.Reflexive similar) :
    ∀ reading : Except Breakoff Parsed, Parsed.Similar similar reading reading
  | .ok parsed => .read (.refl reflexive parsed.program) (.refl _)
  | .error reason => .broken reason

end Reflexive

section Equal

theorem Identifier.Similar.eq {left right : Identifier} (names : left.Similar Eq right) :
    left = right := by
  obtain ⟨token, name⟩ := left
  obtain ⟨tokens, same⟩ := names
  cases tokens
  cases same
  rfl

theorem Identifier.Similar.eqAll {left right : List Identifier}
    (names : List.Forall₂ (Identifier.Similar Eq) left right) : left = right :=
  List.forall₂_eq_eq_eq ▸ names.imp fun _ _ => Identifier.Similar.eq

namespace Node.Similar

mutual

theorem eq : ∀ (left : Node) {right : Node}, left.Similar Eq right → left = right
  | .program ⟨_, body⟩, _, nodes => by
      cases nodes with | program bodies
      cases bodies with | block tokens statements
      rw [tokens, eqAll body statements]
  | .block ⟨_, body⟩, _, nodes => by
      cases nodes with | block bodies
      cases bodies with | block tokens statements
      rw [tokens, eqAll body statements]
  | .letStatement _ _ value, _, nodes => by
      cases nodes with | letStatement tokens names values
      rw [tokens, names.eq, eq value values]
  | .returnStatement _ value, _, nodes => by
      cases nodes with | returnStatement tokens values
      rw [tokens, eq value values]
  | .expressionStatement _ expression, _, nodes => by
      cases nodes with | expressionStatement tokens expressions
      rw [tokens, eq expression expressions]
  | .identifier _, _, nodes => by
      cases nodes with | identifier names
      rw [names.eq]
  | .integer .., _, nodes => by
      cases nodes with | integer tokens _
      rw [tokens]
  | .boolean .., _, nodes => by
      cases nodes with | boolean tokens _
      rw [tokens]
  | .string .., _, nodes => by
      cases nodes with | string tokens _
      rw [tokens]
  | .array _ items, _, nodes => by
      cases nodes with | array tokens others
      rw [tokens, eqAll items others]
  | .hash _ pairs, _, nodes => by
      cases nodes with | hash tokens others
      rw [tokens, eqPairs pairs others]
  | .unary _ _ operand, _, nodes => by
      cases nodes with | unary tokens _ operands
      rw [tokens, eq operand operands]
  | .binary _ _ left right, _, nodes => by
      cases nodes with | binary tokens _ firsts seconds
      rw [tokens, eq left firsts, eq right seconds]
  | .conditional _ condition ⟨_, consequence⟩ none, _, nodes => by
      cases nodes with | conditional tokens conditions consequences alternatives
      cases consequences with | block openings statements
      cases alternatives
      rw [tokens, eq condition conditions, openings, eqAll consequence statements]
  | .conditional _ condition ⟨_, consequence⟩ (some ⟨_, alternative⟩), _, nodes => by
      cases nodes with | conditional tokens conditions consequences alternatives
      cases consequences with | block openings statements
      cases alternatives with | some alternatives
      cases alternatives with | block others otherStatements
      rw [tokens, eq condition conditions, openings, eqAll consequence statements, others,
        eqAll alternative otherStatements]
  | .function _ _ ⟨_, body⟩, _, nodes => by
      cases nodes with | function tokens names bodies
      cases bodies with | block openings statements
      rw [tokens, Identifier.Similar.eqAll names, openings, eqAll body statements]
  | .call _ callee arguments, _, nodes => by
      cases nodes with | call tokens callees supplied
      rw [tokens, eq callee callees, eqAll arguments supplied]
  | .index _ left position, _, nodes => by
      cases nodes with | index tokens objects positions
      rw [tokens, eq left objects, eq position positions]
  | .bare .., _, nodes => by
      cases nodes
      rfl
termination_by structural left => left

theorem eqAll : ∀ (left : List Node) {right : List Node},
    List.Forall₂ (Node.Similar Eq) left right → left = right
  | [], _, .nil => rfl
  | node :: nodes, _, .cons first others => by rw [eq node first, eqAll nodes others]

theorem eqPairs : ∀ (left : List (Node × Node)) {right : List (Node × Node)},
    List.Forall₂ (Prod.RProd (Node.Similar Eq) (Node.Similar Eq)) left right → left = right
  | [], _, .nil => rfl
  | (key, value) :: pairs, _, .cons (.intro keys values) others => by
      rw [eq key keys, eq value values, eqPairs pairs others]

end

end Node.Similar

end Equal

end MonkeyLang
