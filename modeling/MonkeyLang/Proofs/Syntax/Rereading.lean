import MonkeyLang.Proofs.Syntax.Parts
import MonkeyLang.Proofs.Syntax.Rendering

namespace MonkeyLang

open Grammar (Tokens kindOf)
open Parse (Readable Leads)
open Token (Single)

/-! # Rendered expressions read back

The text of an expression without strings, conditionals and function literals is read as a tree that
differs from it in the places of tokens alone.
-/

namespace Node

mutual

/-- Expressions without strings, conditionals and function literals. -/
def isPlain : Node → Bool
  | identifier _ | integer .. | boolean .. => true
  | array _ items => allPlain items
  | hash _ pairs => allPlainPairs pairs
  | unary _ _ operand => operand.isPlain
  | binary _ _ left right => left.isPlain && right.isPlain
  | call _ callee arguments => callee.isPlain && allPlain arguments
  | index _ left position => left.isPlain && position.isPlain
  | _ => false

def allPlain : List Node → Bool
  | [] => true
  | node :: nodes => node.isPlain && allPlain nodes

def allPlainPairs : List (Node × Node) → Bool
  | [] => true
  | (key, value) :: pairs => key.isPlain && value.isPlain && allPlainPairs pairs

end

theorem isPlain_item {items : List Node} (plain : allPlain items = true) :
    ∀ item ∈ items, item.isPlain = true := by
  induction items with
  | nil => exact List.forall_mem_nil _
  | cons first others ih =>
      obtain ⟨here, behind⟩ := Bool.and_eq_true_iff.mp plain
      exact List.forall_mem_cons.mpr ⟨here, ih behind⟩

theorem isPlain_pair {pairs : List (Node × Node)} (plain : allPlainPairs pairs = true) :
    ∀ pair ∈ pairs, pair.1.isPlain = true ∧ pair.2.isPlain = true := by
  induction pairs with
  | nil => exact List.forall_mem_nil _
  | cons first others ih =>
      obtain ⟨here, behind⟩ := Bool.and_eq_true_iff.mp plain
      exact List.forall_mem_cons.mpr ⟨Bool.and_eq_true_iff.mp here, ih behind⟩

theorem isPlain_operand {tree operand : Node} (plain : tree.isPlain = true)
    (member : operand ∈ tree.operands) : operand.isPlain = true := by
  cases tree with
  | array token items => exact isPlain_item plain operand member
  | hash token pairs =>
      obtain ⟨pair, inside, within⟩ := List.mem_flatMap.mp member
      obtain ⟨key, value⟩ := isPlain_pair plain pair inside
      simp only [List.mem_cons, List.not_mem_nil, or_false] at within
      rcases within with rfl | rfl
      · exact key
      · exact value
  | unary token operator inner => exact List.mem_singleton.mp member ▸ plain
  | binary | index =>
      obtain ⟨left, right⟩ := Bool.and_eq_true_iff.mp plain
      simp only [operands, List.mem_cons, List.not_mem_nil, or_false] at member
      rcases member with rfl | rfl
      · exact left
      · exact right
  | call token callee arguments =>
      obtain ⟨first, others⟩ := Bool.and_eq_true_iff.mp plain
      rcases List.mem_cons.mp member with rfl | inside
      · exact first
      · exact isPlain_item others operand inside
  | identifier | integer | boolean => cases member
  | _ => cases plain

/-- A similar tree leads the tokens. -/
abbrev Copied (depth : Nat) : Node → Tokens → Tokens → Prop :=
  Led depth (Node.Similar Token.SameSpelling)

/-- The text of an expression is read as a similar expression. -/
structure Reread (depth : Nat) (node : Node) : Prop where
  rendered : Rendered node.render.toList (node.Copied depth)
  opens : ∃ first rest, node.render.toList = first :: rest ∧ first ≠ '='

section Forms

variable {text : String} {depth : Nat} {token : Token}

theorem given_shaped {kind : Token.Kind} (given : token.Given (· ∈ Token.scan text) kind)
    (proper : kind ≠ .endOfInput) : Token.Shaped (kind, token.literal) := by
  obtain ⟨member, rfl⟩ := given
  exact Token.scan_shaped member proper

theorem given_literal {kind : Token.Kind} {spelling : String}
    (given : token.Given (· ∈ Token.scan text) kind) (fixed : kind.fixed? = some spelling) :
    token.literal = spelling := by
  refine (given_shaped given ?_).literal fixed
  intro isEnd
  rw [isEnd] at fixed
  cases fixed

/-- An expression that is a single token. -/
theorem atom_reread {kind : Token.Kind} {literal : String} {node : Node}
    (shaped : Token.Shaped (kind, literal)) (atom : kind ∈ Token.atoms) (text : node.render = literal)
    (copies : ∀ other : Token, other.kind = kind → other.literal = literal →
      ¬ other.Oversized ∧ ∃ copy, node.Similar Token.SameSpelling copy ∧
        ∀ rest, Grammar.Primary (Readable depth Parse.loosest) (other :: rest) copy rest) :
    node.Reread depth := by
  have other : kind ≠ .string ∧ kind ≠ .illegal ∧ kind ≠ .ifKeyword := by
    refine ⟨?_, ?_, ?_⟩ <;> exact fun same => absurd (same ▸ atom) (by decide)
  subst text
  refine ⟨?_, shaped.opens atom⟩
  refine (Rendered.single (shaped.prints other.1 other.2.1)).imp fun input rest single => ?_
  obtain ⟨token, rfl, isKind, sameLiteral⟩ := single
  obtain ⟨limited, copy, similar, primary⟩ := copies token isKind sameLiteral
  exact ⟨copy, similar, Parse.leads_primary (primary rest) limited (isKind ▸ other.2.2)⟩

theorem identifier_reread {name : Identifier} (formed : name.Formed (· ∈ Token.scan text)) :
    (identifier name).Reread depth := by
  obtain ⟨given, same⟩ := formed
  have shaped := given_shaped given nofun
  rw [← same] at shaped
  refine atom_reread shaped (by decide) rfl fun other isKind literal => ?_
  refine ⟨Parse.not_oversized isKind nofun, _, .identifier ⟨?_, literal.symm⟩, fun rest =>
    .identifier rest isKind⟩
  exact ⟨given.kind.trans isKind.symm, (literal.trans same).symm⟩

theorem integer_reread {value : Nat} (given : token.Given (· ∈ Token.scan text) .integer)
    (counts : token.Counts value) : (integer token value).Reread depth := by
  refine atom_reread (given_shaped given nofun) (by decide) rfl fun other isKind literal => ?_
  have same : token.SameSpelling other := ⟨given.kind.trans isKind.symm, literal.symm⟩
  refine ⟨fun oversized => counts.limited ?_, _, .integer same _, fun rest =>
    .integer rest isKind ?_ counts.bounded⟩
  · exact ⟨given.kind, literal ▸ oversized.digits, literal ▸ oversized.tooMany⟩
  · rw [literal]
    exact counts.numeral

theorem boolean_reread {value : Bool}
    (given : token.Given (· ∈ Token.scan text) (if value then .trueKeyword else .falseKeyword)) :
    (boolean token value).Reread depth := by
  cases value with
  | true =>
      refine atom_reread (given_shaped given nofun) (by decide) rfl fun other isKind literal => ?_
      exact ⟨Parse.not_oversized isKind nofun, _,
        .boolean ⟨given.kind.trans isKind.symm, literal.symm⟩ _, fun rest => .trueKeyword rest isKind⟩
  | false =>
      refine atom_reread (given_shaped given nofun) (by decide) rfl fun other isKind literal => ?_
      exact ⟨Parse.not_oversized isKind nofun, _,
        .boolean ⟨given.kind.trans isKind.symm, literal.symm⟩ _, fun rest => .falseKeyword rest isKind⟩

theorem renderListed_toList (items : List Node) :
    (renderListed items).toList = Text.join [',', ' '] (items.map fun item => item.render.toList) := by
  induction items with
  | nil => rfl
  | cons first others ih =>
      cases others with
      | nil => rfl
      | cons next others =>
          rw [renderListed, String.toList_append, ih]
          simp [Text.join]

theorem renderPairs_toList (pairs : List (Node × Node)) :
    (renderPairs pairs).toList = Text.join [',', ' ']
      (pairs.map fun pair => pair.1.render.toList ++ ':' :: pair.2.render.toList) := by
  induction pairs with
  | nil => rfl
  | cons first others ih =>
      obtain ⟨key, value⟩ := first
      cases others with
      | nil => simp [renderPairs, Text.join]
      | cons next others =>
          rw [renderPairs, String.toList_append, ih]
          simp [Text.join]

variable {node left right : Node} {items : List Node} {pairs : List (Node × Node)}

theorem listed_rendered (close : Char) {closing : Token.Kind}
    (isSymbol : Token.symbolKind? close = some closing)
    (closes : closing ∈ [Token.Kind.rightParen, .rightBracket, .rightBrace])
    (each : ∀ item ∈ items, item.Reread depth) :
    Rendered ((renderListed items).toList ++ [close]) fun input rest =>
      ∃ copies, List.Forall₂ (Node.Similar Token.SameSpelling) items copies ∧
        Grammar.Listed (Readable (depth + 1) Parse.loosest) closing input copies rest := by
  rw [renderListed_toList]
  exact rendered_row isSymbol closes fun item member => (each item member).rendered.stated

theorem array_reread (given : token.Given (· ∈ Token.scan text) .leftBracket)
    (each : ∀ item ∈ items, item.Reread depth) : (array token items).Reread (depth + 1) := by
  have rendered := array_rendered fun item member => (each item member).rendered.stated
  rw [← renderListed_toList] at rendered
  have shown : (array token items).render.toList = '[' :: ((renderListed items).toList ++ [']']) := by
    simp [render]
  refine ⟨shown ▸ rendered.imp fun input rest parts => ?_, _, _, shown, by decide⟩
  obtain ⟨opening, copies, ⟨opens, literal⟩, similar, leads⟩ := parts
  exact ⟨_, .array ⟨given.kind.trans opens.symm, (given_literal given rfl).trans literal.symm⟩ similar,
    leads⟩

theorem hash_reread (given : token.Given (· ∈ Token.scan text) .leftBrace)
    (each : ∀ pair ∈ pairs, pair.1.Reread depth ∧ pair.2.Reread depth) :
    (hash token pairs).Reread (depth + 1) := by
  have rendered := hash_rendered (fun key => key.render.toList) (fun value => value.render.toList)
    fun pair member => ⟨(each pair member).1.rendered.stated, (each pair member).2.rendered.stated⟩
  rw [← renderPairs_toList] at rendered
  have shown : (hash token pairs).render.toList =
      '\x7b' :: ((renderPairs pairs).toList ++ ['\x7d']) := by
    simp [render]
  refine ⟨shown ▸ rendered.imp fun input rest parts => ?_, _, _, shown, by decide⟩
  obtain ⟨opening, copies, ⟨opens, literal⟩, similar, leads⟩ := parts
  have pairs := similar.imp fun pair copy same => Prod.RProd.intro same.1 same.2
  exact ⟨_, .hash ⟨given.kind.trans opens.symm, (given_literal given rfl).trans literal.symm⟩ pairs,
    leads⟩

theorem call_reread (given : token.Given (· ∈ Token.scan text) .leftParen)
    (callee : node.Reread (depth + 1)) (each : ∀ item ∈ items, item.Reread depth) :
    (call token node items).Reread (depth + 1) := by
  have supplied := (listed_rendered ')' rfl (by decide) each).symbol '(' rfl
  have rendered := callee.rendered.append supplied (.cons rfl _)
  have shown : (call token node items).render.toList =
      node.render.toList ++ '(' :: ((renderListed items).toList ++ [')']) := by
    simp [render]
  refine ⟨shown ▸ rendered.imp fun input rest parts => ?_, ?_⟩
  · obtain ⟨_, ⟨copy, similar, leads⟩, _, ⟨opening, rfl, opens, literal⟩, copies, similars, listed⟩ :=
      parts
    have same : token.SameSpelling opening :=
      ⟨given.kind.trans opens.symm, (given_literal given rfl).trans literal.symm⟩
    exact ⟨_, .call same similar similars, leads.call opens listed⟩
  · obtain ⟨first, others, begins, noEqual⟩ := callee.opens
    exact ⟨first, _, by rw [shown, begins, List.cons_append], noEqual⟩

/-- A form in parentheses. -/
theorem grouped_rendered {inside : List Char} {form : Tokens → Tokens → Prop}
    (rendered : Rendered inside form) :
    Rendered ('(' :: (inside ++ [')'])) fun input rest => ∃ opening closing between,
      input = opening :: between ∧ opening.kind = .leftParen ∧ form between (closing :: rest) ∧
        closing.kind = .rightParen := by
  have closed := (rendered.append (Rendered.closing ')' rfl) (.cons rfl _)).symbol
    '(' rfl
  refine closed.imp fun input rest parts => ?_
  obtain ⟨between, ⟨opening, rfl, opens, _⟩, _, inner, closing, rfl, closes, _⟩ := parts
  exact ⟨opening, closing, between, rfl, opens, inner, closes⟩

theorem index_reread (given : token.Given (· ∈ Token.scan text) .leftBracket)
    (object : left.Reread (depth + 1)) (position : right.Reread depth) :
    (index token left right).Reread (depth + 2) := by
  have selected := (position.rendered.append (Rendered.closing ']' rfl)
    (.cons rfl _)).symbol '[' rfl
  have rendered := grouped_rendered (object.rendered.append selected (.cons rfl _))
  have shown : (index token left right).render.toList =
      '(' :: (left.render.toList ++ ('[' :: (right.render.toList ++ [']'])) ++ [')']) := by
    simp [render]
  refine ⟨shown ▸ rendered.imp fun input rest parts => ?_, _, _, shown, by decide⟩
  obtain ⟨opening, closing, _, rfl, opens, parts, closes⟩ := parts
  obtain ⟨_, ⟨copy, similar, leads⟩, _, ⟨bracket, rfl, isBracket, literal⟩, _,
    ⟨other, sameOther, leadsOther⟩, last, rfl, isLast, _⟩ := parts
  have same : token.SameSpelling bracket :=
    ⟨given.kind.trans isBracket.symm, (given_literal given rfl).trans literal.symm⟩
  have chosen := leadsOther.before (by simp [isLast, Parse.closers])
  have whole := (leads.index isBracket chosen isLast).before (by simp [closes, Parse.closers])
  exact ⟨_, .index same similar sameOther, Parse.leads_grouped opens whole closes⟩

theorem operator_shaped {kinds : List Token.Kind} (member : token ∈ Token.scan text)
    (isOperator : token.kind ∈ kinds)
    (spelled : ∀ kind ∈ kinds, kind.fixed?.isSome = true) :
    token.kind.fixed? = some token.literal := by
  obtain ⟨literal, fixed⟩ := Option.isSome_iff_exists.mp (spelled _ isOperator)
  rw [given_literal ⟨member, rfl⟩ fixed]
  exact fixed

theorem unary_reread (member : token ∈ Token.scan text)
    (isOperator : token.kind ∈ Grammar.unaryOperators) (operand : node.Reread depth) :
    (unary token token.literal node).Reread (depth + 2) := by
  have fixed := operator_shaped member isOperator (by decide)
  have applied : Rendered (token.literal.toList ++ node.render.toList)
      (Then (Single token.kind token.literal) (node.Copied depth)) := by
    obtain ⟨first, others, begins, noEqual⟩ := operand.opens
    refine operand.rendered.cons _ fun prints => ?_
    simp only [Grammar.unaryOperators, List.mem_cons, List.not_mem_nil, or_false] at isOperator
    rcases isOperator with isBang | isMinus
    · rw [isBang] at fixed ⊢
      rw [← Option.some.inj fixed, begins] at *
      exact prints.bang noEqual
    · rw [isMinus] at fixed ⊢
      rw [← Option.some.inj fixed]
      exact prints.symbol rfl
  have shown : (unary token token.literal node).render.toList =
      '(' :: (token.literal.toList ++ node.render.toList ++ [')']) := by
    simp [render]
  refine ⟨shown ▸ (grouped_rendered applied).imp fun input rest parts => ?_, _, _, shown, by decide⟩
  obtain ⟨opening, closing, _, rfl, opens, parts, closes⟩ := parts
  obtain ⟨_, ⟨operator, rfl, isKind, literal⟩, copy, similar, leads⟩ := parts
  have binds : Parse.bindingPower (kindOf (closing :: rest)) ≤ Parse.unaryPower := by
    rw [show kindOf (closing :: rest) = .rightParen from closes]
    decide
  have whole := (Parse.leads_unary (isKind ▸ isOperator) (leads.readable binds)).before
    (by simp [closes, Parse.closers])
  refine ⟨_, ?_, Parse.leads_grouped opens whole closes⟩
  rw [literal]
  exact .unary ⟨isKind.symm, literal.symm⟩ _ similar

theorem binary_reread (member : token ∈ Token.scan text)
    (isOperator : token.kind ∈ Grammar.binaryOperators) (first : left.Reread (depth + 1))
    (second : right.Reread depth) :
    (binary token token.literal left right).Reread (depth + 2) := by
  have fixed := operator_shaped member isOperator (by decide)
  have middle : Rendered (token.literal.toList ++ ' ' :: right.render.toList)
      (Then (Single token.kind token.literal) (right.Copied depth)) :=
    (Rendered.single (Token.prints_fixed fixed)).append second.rendered.spaced (.cons rfl _)
  have rendered := grouped_rendered (first.rendered.append middle.spaced (.cons rfl _))
  have shown : (binary token token.literal left right).render.toList = '(' ::
      (left.render.toList ++ ' ' :: (token.literal.toList ++ ' ' :: right.render.toList) ++ [')']) := by
    simp [render]
  refine ⟨shown ▸ rendered.imp fun input rest parts => ?_, _, _, shown, by decide⟩
  obtain ⟨opening, closing, _, rfl, opens, parts, closes⟩ := parts
  obtain ⟨_, ⟨copy, similar, leads⟩, _, ⟨operator, rfl, isKind, literal⟩, other, sameOther,
    leadsOther⟩ := parts
  have isBinary : operator.kind ∈ Grammar.binaryOperators := isKind ▸ isOperator
  have stops : Parse.bindingPower (kindOf (closing :: rest)) ≤ Parse.loosest :=
    Parse.closer_binds (by simp [closes, Parse.closers])
  have tight := Nat.le_of_lt (Grammar.binaryOperator_binds isBinary).1
  have whole := leads.binary isBinary (leadsOther.readable (Nat.le_trans stops tight)) stops
  refine ⟨_, ?_, Parse.leads_grouped opens whole closes⟩
  rw [literal]
  exact .binary ⟨isKind.symm, literal.symm⟩ _ similar sameOther

end Forms

theorem reread {text : String} {node : Node} {depth : Nat} (plain : node.isPlain = true)
    (formed : node.Formed (· ∈ Token.scan text)) (room : 2 * node.depth ≤ depth) :
    node.Reread depth := by
  induction formed generalizing depth with
  | @node tree here _ _ ih =>
      have least := depth_pos tree
      obtain ⟨depth, rfl⟩ : ∃ lower, depth = lower + 2 := ⟨depth - 2, by omega⟩
      have inner : ∀ operand ∈ tree.operands, ∀ place, depth ≤ place → operand.Reread place := by
        intro operand member place within
        have lower := depth_operand member
        exact ih operand member (isPlain_operand plain member) (by omega)
      have same := Nat.le_refl depth
      have next := Nat.le_succ depth
      cases tree with
      | identifier name => exact identifier_reread here
      | integer token value =>
          obtain ⟨given, number, rfl, counts⟩ := here
          exact integer_reread given counts
      | boolean token value => exact boolean_reread here
      | array token items => exact array_reread here fun item member => inner item member _ next
      | hash token pairs =>
          refine hash_reread here fun pair member => ?_
          obtain ⟨key, value⟩ := operands_hash member
          exact ⟨inner _ key _ next, inner _ value _ next⟩
      | unary token operator operand =>
          obtain ⟨member, isOperator, rfl⟩ := here
          exact unary_reread member isOperator (inner operand (by simp [operands]) _ same)
      | binary token operator left right =>
          obtain ⟨member, isOperator, rfl⟩ := here
          exact binary_reread member isOperator (inner left (by simp [operands]) _ next)
            (inner right (by simp [operands]) _ same)
      | call token callee arguments =>
          refine call_reread here (inner callee (by simp [operands]) _ (Nat.le_add_right _ 2)) ?_
          exact fun argument member => inner argument (List.mem_cons_of_mem _ member) _ next
      | index token left position =>
          exact index_reread here (inner left (by simp [operands]) _ next)
            (inner position (by simp [operands]) _ same)
      | _ => cases plain

end Node

end MonkeyLang
