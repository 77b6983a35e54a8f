import MonkeyLang.Proofs.Syntax.Rereading
import MonkeyLang.Value.Inspect

namespace MonkeyLang

open Grammar (Tokens kindOf)
open Parse (Readable)
open Token (Single)

/-! # Rendered programs read back

Statements without strings, conditionals and function literals are read back from their text, up to
the places of tokens and up to the first token of a bare expression, in whose place there may be the
parenthesis that the text begins with.
-/

namespace Node

def isPlainStatement : Node → Bool
  | letStatement _ _ value | returnStatement _ value | expressionStatement _ value => value.isPlain
  | _ => false

def isBareExpression : Node → Bool
  | expressionStatement .. => true
  | _ => false

/-- Plain statements, of which at most the last is a bare expression. -/
structure Straight (body : List Node) : Prop where
  plain : ∀ statement ∈ body, statement.isPlainStatement = true
  ended : ∀ statement ∈ body.dropLast, statement.isBareExpression = false

/-- A bare expression with the first token of its text. -/
def restarted : Node → Node
  | expressionStatement _ expression =>
      expressionStatement (Token.opening expression.render) expression
  | other => other

variable {text : String} {depth : Nat} {token : Token} {node : Node} {body : List Node}

/-- A statement that is similar up to its first token. -/
def Restated (depth : Nat) (statement : Node) (input rest : Tokens) : Prop :=
  ∃ copy, statement.restarted.Similar Token.SameSpelling copy ∧
    Grammar.Statement (Readable depth Parse.loosest) input copy rest

theorem keyword_rendered {kind : Token.Kind} {literal : String}
    (fixed : kind.fixed? = some literal) : Rendered literal.toList (Single kind literal) :=
  .single (Token.prints_fixed fixed)

theorem Reread.ended (value : node.Reread depth) {more : List Char} {form : Tokens → Tokens → Prop}
    (behind : Rendered more form) :
    Rendered (node.render.toList ++ ';' :: more) fun input rest => ∃ copy after between,
      node.Similar Token.SameSpelling copy ∧ Readable (depth + 1) Parse.loosest input copy after ∧
        Grammar.Ending after between ∧ form between rest := by
  refine (value.rendered.append (behind.symbol ';' rfl) (.cons rfl _)).imp fun input rest parts => ?_
  obtain ⟨_, ⟨copy, similar, leads⟩, between, ⟨last, rfl, isLast, _⟩, formed⟩ := parts
  exact ⟨copy, _, between, similar, leads.before (by simp [isLast, Parse.closers]),
    .semicolon _ isLast, formed⟩

theorem let_restated {name : Identifier} (given : token.Given (· ∈ Token.scan text) .letKeyword)
    (formed : name.Formed (· ∈ Token.scan text)) (value : node.Reread depth) {more : List Char}
    {form : Tokens → Tokens → Prop} (behind : Rendered more form) :
    Rendered ((letStatement token name node).render.toList ++ more)
      (Then ((letStatement token name node).Restated (depth + 1)) form) := by
  have shaped := given_shaped formed.token nofun
  rw [← formed.name] at shaped
  have bound := (keyword_rendered (rfl : Token.Kind.assign.fixed? = _)).append
    (value.ended behind).spaced (.cons rfl _)
  have named := (Rendered.single (shaped.prints nofun nofun)).append bound.spaced (.cons rfl _)
  have whole := (keyword_rendered (rfl : Token.Kind.letKeyword.fixed? = _)).append named.spaced
    (.cons rfl _)
  have shown : (letStatement token name node).render.toList ++ more = "let".toList ++ ' ' ::
      (name.name.toList ++ ' ' :: ("=".toList ++ ' ' :: (node.render.toList ++ ';' :: more))) := by
    simp [render]
  refine shown ▸ whole.imp fun input rest parts => ?_
  obtain ⟨_, ⟨keyword, rfl, isLet, literal⟩, _, ⟨target, rfl, isName, spelled⟩, _,
    ⟨assign, rfl, isAssign, _⟩, copy, after, between, similar, read, ends, formedBehind⟩ := parts
  refine ⟨between, ⟨_, ?_, .letStatement isLet isName isAssign read ends⟩, formedBehind⟩
  have sameKeyword : token.SameSpelling keyword :=
    ⟨given.kind.trans isLet.symm, (given_literal given rfl).trans literal.symm⟩
  have sameName : name.token.SameSpelling target :=
    ⟨formed.token.kind.trans isName.symm, formed.name.symm.trans spelled.symm⟩
  exact .letStatement sameKeyword ⟨sameName, spelled.symm⟩ similar

theorem return_restated (given : token.Given (· ∈ Token.scan text) .returnKeyword)
    (value : node.Reread depth) {more : List Char} {form : Tokens → Tokens → Prop}
    (behind : Rendered more form) :
    Rendered ((returnStatement token node).render.toList ++ more)
      (Then ((returnStatement token node).Restated (depth + 1)) form) := by
  have whole := (keyword_rendered (rfl : Token.Kind.returnKeyword.fixed? = _)).append
    (value.ended behind).spaced (.cons rfl _)
  have shown : (returnStatement token node).render.toList ++ more =
      "return".toList ++ ' ' :: (node.render.toList ++ ';' :: more) := by
    simp [render]
  refine shown ▸ whole.imp fun input rest parts => ?_
  obtain ⟨_, ⟨keyword, rfl, isReturn, literal⟩, copy, after, between, similar, read, ends, behind⟩ :=
    parts
  have same : token.SameSpelling keyword :=
    ⟨given.kind.trans isReturn.symm, (given_literal given rfl).trans literal.symm⟩
  exact ⟨between, ⟨_, .returnStatement same similar, .returnStatement isReturn read ends⟩, behind⟩

/-- A bare expression ends where no operator takes it further. -/
theorem bare_restated (value : node.Reread depth) :
    Rendered (expressionStatement token node).render.toList fun input rest =>
      kindOf rest ∉ Grammar.continuations →
        (expressionStatement token node).Restated (depth + 1) input rest := by
  have solid : ¬ node.Copied depth [] [] := by
    intro copied
    obtain ⟨copy, similar, leads⟩ := copied
    have read : Readable (depth + 1) Parse.loosest [] copy [] := leads.readable (by decide)
    exact read.expression.begins (by decide)
  refine (value.rendered.opened solid).imp fun input rest parts stops => ?_
  obtain ⟨⟨copy, similar, leads⟩, first, behind, rfl, same⟩ := parts
  exact ⟨_, .expressionStatement same similar,
    .expressionStatement (leads.readable (Parse.bare_binds stops)) (.bare stops)⟩

theorem Straight.tail {statement : Node} (straight : Straight (statement :: body)) :
    Straight body := by
  refine ⟨fun other member => straight.plain other (List.mem_cons_of_mem _ member), ?_⟩
  intro other member
  cases body with
  | nil => cases member
  | cons next others => exact straight.ended other (List.mem_cons_of_mem _ member)

theorem Straight.last {statement : Node} (straight : Straight (statement :: body))
    (bare : statement.isBareExpression = true) : body = [] := by
  cases body with
  | nil => rfl
  | cons next others =>
      have stands := straight.ended statement List.mem_cons_self
      rw [bare] at stands
      cases stands

/-- The statements of a body, bare expressions up to their first tokens. -/
def Rebuilt (body copies : List Node) : Prop :=
  List.Forall₂ (Node.Similar Token.SameSpelling) (body.map restarted) copies

theorem body_restated (straight : Straight body)
    (formed : ∀ statement ∈ body, statement.Formed (· ∈ Token.scan text))
    (room : 2 * depthOfAll body ≤ depth) :
    Rendered (renderAll body).toList (Sequence depth (Rebuilt body)) := by
  induction body with
  | nil =>
      refine Rendered.nil.imp fun input rest same _ => ?_
      subst same
      exact ⟨[], .nil, .none input⟩
  | cons statement others ih =>
      obtain ⟨here, behind⟩ := List.forall_mem_cons.mp formed
      have plain := straight.plain statement List.mem_cons_self
      simp only [depthOfAll] at room
      have least := depth_pos statement
      obtain ⟨depth, rfl⟩ : ∃ lower, depth = lower + 1 := ⟨depth - 1, by omega⟩
      have followed := ih straight.tail behind (by omega)
      have joined : ∀ input rest, Then (statement.Restated (depth + 1))
          (Sequence (depth + 1) (Rebuilt others)) input rest →
          Sequence (depth + 1) (Rebuilt (statement :: others)) input rest := by
        intro input rest parts stops
        obtain ⟨between, ⟨copy, similar, first⟩, sequence⟩ := parts
        obtain ⟨copies, rebuilt, statements⟩ := sequence stops
        exact ⟨copy :: copies, .cons similar rebuilt, .next first statements⟩
      have inner : ∀ operand ∈ statement.operands, operand.isPlain = true →
          operand.Reread depth := by
        intro operand member plain
        have lower := depth_operand member
        exact reread plain (here.operand operand member) (by omega)
      rw [renderAll, String.toList_append]
      cases statement with
      | letStatement token name value =>
          have value := inner value List.mem_cons_self plain
          exact (let_restated here.here.1 here.here.2 value followed).imp joined
      | returnStatement token value =>
          have value := inner value List.mem_cons_self plain
          exact (return_restated here.here value followed).imp joined
      | expressionStatement token value =>
          obtain rfl := straight.last rfl
          have value := inner value List.mem_cons_self plain
          rw [renderAll, String.toList_empty, List.append_nil]
          refine (bare_restated value).imp fun input rest restated stops => ?_
          obtain ⟨copy, similar, statement⟩ := restated stops
          exact ⟨[copy], .cons similar .nil, .next statement (.none rest)⟩
      | _ => cases plain

theorem restarted_render (statement : Node) : statement.restarted.render = statement.render := by
  cases statement <;> rfl

theorem renderAll_restarted (body : List Node) :
    renderAll (body.map restarted) = renderAll body := by
  induction body with
  | nil => rfl
  | cons statement others ih => rw [List.map_cons, renderAll, ih, restarted_render, renderAll]

theorem Rebuilt.renderAll {copies : List Node} (rebuilt : Rebuilt body copies) :
    Node.renderAll copies = Node.renderAll body := by
  have same := Node.Similar.renderAll id _ rebuilt
  rw [renderAll_restarted] at same
  exact same.symm

theorem intercalate_join (separator : List Char) (pieces : List (List Char)) :
    separator.intercalate pieces = Text.join separator pieces := by
  induction pieces with
  | nil => simp [Text.join]
  | cons first others ih =>
      cases others with
      | nil => simp [Text.join]
      | cons next others => rw [List.intercalate_cons_cons, ih, Text.join]

theorem renderNames_toList (names : List Identifier) :
    (renderNames names).toList = Text.join [',', ' '] (names.map fun name => name.name.toList) := by
  unfold renderNames
  rw [String.toList_intercalate, List.map_map, intercalate_join]
  rfl

theorem names_rendered {names : List Identifier}
    (formed : ∀ name ∈ names, name.Formed (· ∈ Token.scan text)) :
    Rendered ((renderNames names).toList ++ [')']) fun input rest => ∃ copies,
      List.Forall₂ (Identifier.Similar Token.SameSpelling) names copies ∧
        Grammar.Listed Grammar.Name .rightParen input copies rest := by
  rw [renderNames_toList]
  refine rendered_row rfl (by decide) fun name member => ?_
  obtain ⟨given, same⟩ := formed name member
  have shaped := given_shaped given nofun
  rw [← same] at shaped
  refine (Rendered.single (shaped.prints nofun nofun)).imp fun input rest single _ => ?_
  obtain ⟨token, rfl, isName, literal⟩ := single
  have sameToken : name.token.SameSpelling token :=
    ⟨given.kind.trans isName.symm, same.symm.trans literal.symm⟩
  exact ⟨_, ⟨sameToken, literal.symm⟩, .identifier rest isName⟩

/-- The body of a function, a bare expression at its end with the first token of its text. -/
def restartedBody (block : Block Node) : Block Node :=
  ⟨block.token, block.statements.map restarted⟩

theorem function_rendered {parameters : List Identifier} {block : Block Node}
    (formed : (function token parameters block).Formed (· ∈ Token.scan text))
    (straight : Straight block.statements) (id : ObjectId) (scope : ScopeId) :
    Rendered (Value.function id parameters block scope).inspect.toList
      (Sequence (2 * (function token parameters block).depth)
        (Alone (Node.Similar Token.SameSpelling) (.function token parameters (restartedBody block)))) := by
  obtain ⟨opening, body⟩ := block
  obtain ⟨isFunction, named, opens⟩ := formed.here
  have statements : Rendered _ (Sequence (2 * depthOfAll body + 1) (Rebuilt body)) :=
    body_restated straight formed.statement (by omega)
  have closed := statements.append ((Rendered.closing '\x7d' rfl).layout (rfl : Token.isLayout '\n' = _))
    (.cons rfl _)
  have braced := (closed.layout (rfl : Token.isLayout '\n' = _)).symbol '\x7b' rfl
  have behind := ((names_rendered named).append braced.spaced (.cons rfl _)).symbol '(' rfl
  have whole := (keyword_rendered (rfl : Token.Kind.fnKeyword.fixed? = _)).append behind (.cons rfl _)
  have shown : (Value.function id parameters ⟨opening, body⟩ scope).inspect.toList =
      "fn".toList ++ '(' :: ((renderNames parameters).toList ++ [')'] ++ ' ' :: '\x7b' :: '\n' ::
        ((renderAll body).toList ++ ['\n', '\x7d'])) := by
    simp [Value.inspect]
  refine Rendered.alone (Rendered.stated (shown ▸ whole.imp fun input rest parts => ?_))
  obtain ⟨_, ⟨keyword, rfl, isKeyword, literal⟩, _, ⟨paren, rfl, isParen, _⟩, _,
    ⟨names, sameNames, listed⟩, _, ⟨brace, rfl, isBrace, braceLiteral⟩, _, sequence, last, rfl, isLast,
    _⟩ := parts
  obtain ⟨copies, rebuilt, read⟩ := sequence (by simp [kindOf, isLast, Grammar.continuations,
    Grammar.binaryOperators])
  have sameKeyword : token.SameSpelling keyword :=
    ⟨isFunction.kind.trans isKeyword.symm, (given_literal isFunction rfl).trans literal.symm⟩
  have sameBrace : opening.SameSpelling brace :=
    ⟨opens.kind.trans isBrace.symm, (given_literal opens rfl).trans braceLiteral.symm⟩
  have primary := Grammar.Primary.function isKeyword isParen listed (.closed isBrace read isLast)
  have leads := Parse.leads_primary primary (Parse.not_oversized isKeyword (by decide)) (by simp [isKeyword])
  exact ⟨_, .function sameKeyword sameNames (.block sameBrace rebuilt), leads⟩

end Node

/-- A program without errors whose statements are plain is read back from its text up to the tokens
that keep its place and that of a bare expression, which are the first of the text.  So is a function
with plain statements in such a program. -/
theorem rendering_reads_back {depth : Nat} {text : String} {body : Block Node}
    (read : Parsed.ofTokens depth (Token.scan text) = .ok ⟨.program body, []⟩) :
    (Node.Straight body.statements →
      ReadsAs (Node.program body).render (2 * (Node.program body).depth) fun program =>
        (Node.program ⟨Token.opening (Node.program body).render,
          body.statements.map Node.restarted⟩).Similar Token.SameSpelling program ∧
        program.render = (Node.program body).render) ∧
    ∀ token parameters block, (Node.program body).Part (.function token parameters block) →
      Node.Straight block.statements → ∀ id scope,
        ReadsAs (Value.function id parameters block scope).inspect
          (2 * (Node.function token parameters block).depth) fun program =>
            ∃ opening first literal, program = .program ⟨opening, [.expressionStatement first literal]⟩ ∧
              (Node.function token parameters (Node.restartedBody block)).Similar Token.SameSpelling literal := by
  have formed := Parsed.formed read
  constructor
  · intro straight at_depth
    obtain ⟨token, statements⟩ := body
    have rendered := Node.body_restated straight formed.statement
      (by simp only [Node.depth]; omega : 2 * Node.depthOfAll statements ≤
        2 * (Node.program ⟨token, statements⟩).depth)
    rcases rendered.readsAs at_depth with ⟨program, parsed, copies, rebuilt, rfl⟩ | shallow
    · exact .inl ⟨_, parsed, .program (.block .rfl rebuilt), rebuilt.renderAll⟩
    · exact .inr shallow
  · intro token parameters block part straight id scope at_depth
    have rendered := Node.function_rendered (formed.part part) straight id scope
    rcases rendered.readsAs at_depth with ⟨program, parsed, copies, literal, rfl⟩ | shallow
    · obtain ⟨first, copy, rfl, similar⟩ := literal
      exact .inl ⟨_, parsed, _, first, copy, rfl, similar⟩
    · exact .inr shallow

/-- A text with a binding and a bare index expression, and one with a function. -/
theorem rendering_reads_back_in_binding_and_function :
    (∃ program, Parsed.ofText "let a = ((-b) + 1);(f([a])[0])" = .ok ⟨program, []⟩ ∧
      program.render = "let a = ((-b) + 1);(f([a])[0])") ∧
    ∃ opening first literal, Parsed.ofText "fn(x) \x7b\nlet y = x;(y + 1)\n\x7d" =
      .ok ⟨.program ⟨opening, [.expressionStatement first literal]⟩, []⟩ := by
  constructor
  · have read := rendering_reads_back
      (rfl : Parsed.ofTokens Parsed.depthLimit (Token.scan "let a = -b + 1; f([a])[0]") = _)
    rcases read.1 ⟨by decide, by decide⟩ Parsed.depthLimit with ⟨program, again, _, same⟩ | ⟨shallow, _⟩
    · exact ⟨program, again, same⟩
    · exact absurd shallow (by decide)
  · have read := rendering_reads_back
      (rfl : Parsed.ofTokens Parsed.depthLimit (Token.scan "fn(x) \x7b let y = x; y + 1 \x7d") = _)
    have part : ∀ opening first literal,
        (Node.program ⟨opening, [.expressionStatement first literal]⟩).Part literal :=
      fun _ _ _ => .operand (.statement .whole List.mem_cons_self) List.mem_cons_self
    have inspected := read.2 _ _ _ (part _ _ _) ⟨by decide, by decide⟩ 0 0
      Parsed.depthLimit
    rcases inspected with ⟨_, again, literal⟩ | ⟨shallow, _⟩
    · obtain ⟨opening, first, literal, rfl, _⟩ := literal
      exact ⟨opening, first, literal, again⟩
    · exact absurd shallow (by decide)

/-- The text of a bare sum begins with a parenthesis, which the sum does not. -/
theorem rendered_sum_restarts : ∃ body again,
    Parsed.ofText "1 + 2" = .ok ⟨.program body, []⟩ ∧ Node.Straight body.statements ∧
      Parsed.ofText (Node.program body).render = .ok ⟨again, []⟩ ∧
      ¬ (Node.program body).Similar Token.SameSpelling again := by
  refine ⟨_, _, rfl, ⟨by decide, by decide⟩, rfl, fun similar => ?_⟩
  have first := (similar.token fun _ => .rfl).kind
  exact absurd first (by decide)

end MonkeyLang
