import MonkeyLang.Proofs.Syntax.Leading
import MonkeyLang.Proofs.Syntax.Levels
import MonkeyLang.Proofs.Syntax.Oversized

namespace MonkeyLang

open Grammar (Tokens kindOf)

/-! # Formulas

A formula is a row of operands with binary operators between them.  An operand has unary operators in
front and argument lists and indices behind, and parentheses hold formulas.  The parser groups it as the
levels of its operators demand, and a unary operator applies to its operand alone.
-/

/-- A token of one of some kinds. -/
abbrev Token.Of (kinds : List Token.Kind) := { token : Token // token.kind ∈ kinds }

theorem Token.Of.kind {kind : Token.Kind} (token : Token.Of [kind]) : token.1.kind = kind :=
  List.mem_singleton.mp token.2

namespace Formula

/-- An operand that is a single token. -/
inductive Atom where
  | identifier (token : Token) (isName : token.kind = .identifier)
  | integer (token : Token) (value : Nat) (isInteger : token.kind = .integer)
      (numeral : Grammar.Numeral token.literal value) (bounded : value ≤ 0x7fffffffffffffff)
  | trueKeyword (token : Token) (isTrue : token.kind = .trueKeyword)
  | falseKeyword (token : Token) (isFalse : token.kind = .falseKeyword)

namespace Atom

def token : Atom → Token
  | identifier token _ | integer token .. | trueKeyword token _ | falseKeyword token _ => token

def node : Atom → Node
  | identifier token _ => .identifier ⟨token, token.literal⟩
  | integer token value .. => .integer token value
  | trueKeyword token _ => .boolean token true
  | falseKeyword token _ => .boolean token false

end Atom

mutual

/-- Operands with binary operators between them. -/
inductive Sequence where
  | single (operand : Operand)
  | joined (operand : Operand) (operator : Operator) (others : Sequence)

/-- A term with unary operators in front. -/
inductive Operand where
  | unary (operator : Token.Of Grammar.unaryOperators) (operand : Operand)
  | plain (term : Term)

/-- An atom or a formula in parentheses, with argument lists and indices behind. -/
inductive Term where
  | atom (atom : Atom)
  | grouped (opening : Token.Of [.leftParen]) (inner : Sequence) (closing : Token.Of [.rightParen])
  | call (callee : Term) (opening : Token.Of [.leftParen]) (arguments : Arguments)
      (closing : Token.Of [.rightParen])
  | index (left : Term) (opening : Token.Of [.leftBracket]) (position : Sequence)
      (closing : Token.Of [.rightBracket])

inductive Arguments where
  | none
  | some (first : Sequence) (others : MoreArguments)

inductive MoreArguments where
  | none
  | next (comma : Token.Of [.comma]) (argument : Sequence) (others : MoreArguments)

end

mutual

def Sequence.tokens : Sequence → Tokens
  | .single operand => operand.tokens
  | .joined operand operator others => operand.tokens ++ operator.1 :: others.tokens

def Operand.tokens : Operand → Tokens
  | .unary operator operand => operator.1 :: operand.tokens
  | .plain term => term.tokens

def Term.tokens : Term → Tokens
  | .atom atom => [atom.token]
  | .grouped opening inner closing => opening.1 :: (inner.tokens ++ [closing.1])
  | .call callee opening arguments closing =>
      callee.tokens ++ opening.1 :: (arguments.tokens ++ [closing.1])
  | .index left opening position closing =>
      left.tokens ++ opening.1 :: (position.tokens ++ [closing.1])

def Arguments.tokens : Arguments → Tokens
  | .none => []
  | .some first others => first.tokens ++ others.tokens

def MoreArguments.tokens : MoreArguments → Tokens
  | .none => []
  | .next comma argument others => comma.1 :: (argument.tokens ++ others.tokens)

end

end Formula

def Grouping.node : Grouping Node → Node
  | operand first => first
  | binary left operator right => .binary operator.1 operator.1.literal left.node right.node

namespace Formula

mutual

/-- The operands and operators of a formula from left to right. -/
def Sequence.row : Sequence → Row Node
  | .single operand => ⟨operand.node, []⟩
  | .joined operand operator others => ⟨operand.node, (operator, others.row.first) :: others.row.others⟩

def Operand.node : Operand → Node
  | .unary operator operand => .unary operator.1 operator.1.literal operand.node
  | .plain term => term.node

def Term.node : Term → Node
  | .atom atom => atom.node
  | .grouped _ inner _ => inner.row.grouping.node
  | .call callee opening arguments _ => .call opening.1 callee.node arguments.nodes
  | .index left opening position _ => .index opening.1 left.node position.row.grouping.node

def Arguments.nodes : Arguments → List Node
  | .none => []
  | .some first others => first.row.grouping.node :: others.nodes

def MoreArguments.nodes : MoreArguments → List Node
  | .none => []
  | .next _ argument others => argument.row.grouping.node :: others.nodes

end

/-- A tree leads the tokens up to a place where no suffix comes, at every depth that these tokens can
need. -/
def Ahead (input : Tokens) (node : Node) (place : Tokens) : Prop :=
  Parse.bindingPower (kindOf place) ≤ Parse.unaryPower →
    ∀ depth, input.length ≤ depth → Parse.Leads depth input node place

/-- Each operand of a row leads the tokens up to the operator behind it. -/
inductive Reads : Tokens → Row Node → Tokens → Prop
  | single {input rest : Tokens} {first : Node} (ahead : Ahead input first rest) :
      Reads input ⟨first, []⟩ rest
  | joined {input between rest : Tokens} {first next : Node} {operator : Operator}
      {others : List (Operator × Node)} (ahead : Ahead input first (operator.1 :: between))
      (shorter : between.length < input.length) (behind : Reads between ⟨next, others⟩ rest) :
      Reads input ⟨first, (operator, next) :: others⟩ rest

section Reads

variable {input rest : Tokens}

theorem Reads.split {first next : Node} {before behind : List (Operator × Node)} {operator : Operator}
    (reads : Reads input ⟨first, before ++ (operator, next) :: behind⟩ rest) :
    ∃ between, Reads input ⟨first, before⟩ (operator.1 :: between) ∧ between.length < input.length ∧
      Reads between ⟨next, behind⟩ rest := by
  induction before generalizing input first with
  | nil =>
      cases reads with
      | joined ahead shorter behind => exact ⟨_, .single ahead, shorter, behind⟩
  | cons entry before ih =>
      cases reads with
      | joined ahead shorter others =>
          obtain ⟨between, reads, less, behind⟩ := ih others
          exact ⟨between, .joined ahead shorter reads, Nat.lt_trans less shorter, behind⟩

theorem operator_loose (operator : Operator) (rest : Tokens) :
    Parse.bindingPower (kindOf (operator.1 :: rest)) ≤ Parse.unaryPower :=
  Nat.le_of_lt (Grammar.binaryOperator_binds operator.2).2

/-- The parser takes a row as its ordered grouping, up to a place where the outermost operator ends, and
under a power that lets this operator pass. -/
theorem Reads.grouped {grouping : Grouping Node} (ordered : grouping.Ordered)
    (reads : Reads input grouping.reading rest)
    (loose : Parse.bindingPower (kindOf rest) ≤ Parse.unaryPower)
    (ends : ∀ root ∈ grouping.root?, Parse.bindingPower (kindOf rest) ≤ root.level + 1)
    {depth power : Nat} (passes : ∀ root ∈ grouping.root?, power ≤ root.level)
    (enough : input.length ≤ depth) {whole : Node} {behind : Tokens}
    (extended : Grammar.Extends (Parse.Readable depth) power grouping.node rest whole behind) :
    Parse.Readable (depth + 1) power input whole behind := by
  induction grouping generalizing input rest depth power whole behind with
  | operand first =>
      cases reads with
      | single ahead => exact ahead loose depth enough _ _ _ extended
  | binary left operator right leftGrouped rightGrouped =>
      obtain ⟨leftOrdered, rightOrdered, leftHigher, rightHigher⟩ := ordered
      obtain ⟨between, leftReads, shorter, rightReads⟩ := reads.split
      have ends := ends operator rfl
      have passes := passes operator rfl
      have binds := operator.binds
      have second : Parse.Readable depth (Parse.bindingPower operator.1.kind) between right.node rest := by
        obtain ⟨less, rfl⟩ : ∃ less, depth = less + 1 := ⟨depth - 1, by omega⟩
        refine rightGrouped rightOrdered rightReads loose (fun root isRoot => ?_)
          (fun root isRoot => ?_) (by omega) (.none (by omega))
        · have higher := rightHigher root isRoot
          omega
        · have higher := rightHigher root isRoot
          omega
      refine leftGrouped leftOrdered leftReads (operator_loose operator between) (fun root isRoot => ?_)
        (fun root isRoot => ?_) enough (.binary operator.2 (by omega) second extended)
      · have higher := leftHigher root isRoot
        change Parse.bindingPower operator.1.kind ≤ root.level + 1
        omega
      · exact Nat.le_trans passes (leftHigher root isRoot)

/-- A row that is read is readable as its grouping where a closing token or nothing stands behind it. -/
theorem Reads.readable {row : Row Node} (reads : Reads input row rest)
    (ends : Parse.bindingPower (kindOf rest) ≤ Parse.loosest) {depth : Nat}
    (enough : input.length < depth) :
    Parse.Readable depth Parse.loosest input row.grouping.node rest := by
  obtain ⟨less, rfl⟩ : ∃ less, depth = less + 1 := ⟨depth - 1, by omega⟩
  have reads' : Reads input row.grouping.reading rest := row.grouping_reading.symm ▸ reads
  refine reads'.grouped row.grouping_ordered (Nat.le_trans ends (by decide)) (fun root _ => ?_)
    (fun root _ => root.level_pos) (Nat.le_of_lt_succ enough) (.none ends)
  exact Nat.le_trans ends (Nat.le_succ_of_le root.level_pos)

end Reads

/-! ## Formulas are read -/

theorem Atom.primary (atom : Atom) (rest : Tokens) {E : Tokens → Node → Tokens → Prop} :
    Grammar.Primary E (atom.token :: rest) atom.node rest := by
  cases atom with
  | identifier token isName => exact .identifier rest isName
  | integer token value isInteger numeral bounded => exact .integer rest isInteger numeral bounded
  | trueKeyword token isTrue => exact .trueKeyword rest isTrue
  | falseKeyword token isFalse => exact .falseKeyword rest isFalse

theorem Atom.notIf (atom : Atom) : atom.token.kind ≠ .ifKeyword := by
  cases atom with
  | identifier token same | integer token _ same | trueKeyword token same | falseKeyword token same =>
      exact fun isIf => nomatch same.symm.trans isIf

theorem stops_at {kind : Token.Kind} (token : Token.Of [kind]) (closes : kind ∈ Parse.closers)
    {rest : Tokens} : Parse.bindingPower (kindOf (token.1 :: rest)) ≤ Parse.loosest :=
  Parse.closer_binds (token.kind.symm ▸ closes)

theorem MoreArguments.stops (others : MoreArguments) (closing : Token.Of [.rightParen]) (rest : Tokens) :
    Parse.bindingPower (kindOf (others.tokens ++ closing.1 :: rest)) ≤ Parse.loosest := by
  cases others with
  | none => exact stops_at closing (by decide)
  | next comma argument others => exact stops_at comma (by decide)

mutual

theorem Sequence.reads (sequence : Sequence) (rest : Tokens)
    (limited : ∀ token ∈ sequence.tokens, ¬ token.Oversized) :
    Reads (sequence.tokens ++ rest) sequence.row rest := by
  match sequence with
  | .single operand => exact .single (operand.ahead rest limited)
  | .joined operand operator others =>
      obtain ⟨first, behind⟩ := List.forall_mem_append.mp limited
      have ahead := operand.ahead (operator.1 :: (others.tokens ++ rest)) first
      have reads := others.reads rest (List.forall_mem_cons.mp behind).2
      rw [Sequence.tokens, List.append_assoc, List.cons_append]
      refine .joined ahead ?_ reads
      simp only [List.length_append, List.length_cons]
      omega

theorem Operand.ahead (operand : Operand) (rest : Tokens)
    (limited : ∀ token ∈ operand.tokens, ¬ token.Oversized) :
    Ahead (operand.tokens ++ rest) operand.node rest := by
  intro loose depth enough
  match operand with
  | .unary operator operand =>
      have ahead := operand.ahead rest (List.forall_mem_cons.mp limited).2
      rw [Operand.tokens, List.cons_append, List.length_cons] at enough
      obtain ⟨less, rfl⟩ : ∃ less, depth = less + 1 := ⟨depth - 1, by omega⟩
      have applied := (ahead loose less (by omega)).readable loose
      exact Parse.leads_unary operator.2 applied
  | .plain term => exact term.leads rest limited depth enough

theorem Term.leads (term : Term) (rest : Tokens) (limited : ∀ token ∈ term.tokens, ¬ token.Oversized)
    (depth : Nat) (enough : (term.tokens ++ rest).length ≤ depth) :
    Parse.Leads depth (term.tokens ++ rest) term.node rest := by
  match term with
  | .atom atom =>
      exact Parse.leads_primary (atom.primary rest) (limited atom.token List.mem_cons_self) atom.notIf
  | .grouped opening inner closing =>
      have within := (List.forall_mem_append.mp (List.forall_mem_cons.mp limited).2).1
      have reads := inner.reads (closing.1 :: rest) within
      simp only [Term.tokens, List.cons_append, List.append_assoc, List.nil_append] at enough ⊢
      have grouped := reads.readable (stops_at closing (by decide)) (Nat.lt_of_succ_le enough)
      exact Parse.leads_grouped opening.kind grouped closing.kind
  | .call callee opening arguments closing =>
      obtain ⟨first, behind⟩ := List.forall_mem_append.mp limited
      have within := (List.forall_mem_append.mp (List.forall_mem_cons.mp behind).2).1
      simp only [Term.tokens, List.cons_append, List.append_assoc, List.nil_append] at enough ⊢
      have leads := callee.leads _ first depth enough
      rw [List.length_append, List.length_cons] at enough
      exact leads.call opening.kind (arguments.listed closing rest within depth (by omega))
  | .index left opening position closing =>
      obtain ⟨first, behind⟩ := List.forall_mem_append.mp limited
      have within := (List.forall_mem_append.mp (List.forall_mem_cons.mp behind).2).1
      have reads := position.reads (closing.1 :: rest) within
      simp only [Term.tokens, List.cons_append, List.append_assoc, List.nil_append] at enough ⊢
      have leads := left.leads _ first depth enough
      rw [List.length_append, List.length_cons] at enough
      have selected : Parse.Readable depth Parse.loosest _ _ _ :=
        reads.readable (stops_at closing (by decide)) (by omega)
      exact leads.index opening.kind selected closing.kind

theorem Arguments.listed (arguments : Arguments) (closing : Token.Of [.rightParen]) (rest : Tokens)
    (limited : ∀ token ∈ arguments.tokens, ¬ token.Oversized) (depth : Nat)
    (enough : (arguments.tokens ++ closing.1 :: rest).length < depth) :
    Grammar.Listed (Parse.Readable depth Parse.loosest) .rightParen
      (arguments.tokens ++ closing.1 :: rest) arguments.nodes rest := by
  match arguments with
  | .none => exact .empty closing.kind
  | .some first others =>
      obtain ⟨here, later⟩ := List.forall_mem_append.mp limited
      have reads := first.reads (others.tokens ++ closing.1 :: rest) here
      simp only [Arguments.tokens, List.append_assoc] at enough ⊢
      have given := reads.readable (others.stops closing rest) enough
      rw [List.length_append] at enough
      exact .items given (others.more closing rest later depth (by omega)) closing.kind

theorem MoreArguments.more (others : MoreArguments) (closing : Token.Of [.rightParen]) (rest : Tokens)
    (limited : ∀ token ∈ others.tokens, ¬ token.Oversized) (depth : Nat)
    (enough : (others.tokens ++ closing.1 :: rest).length < depth) :
    Grammar.More (Parse.Readable depth Parse.loosest) (others.tokens ++ closing.1 :: rest) others.nodes
      (closing.1 :: rest) := by
  match others with
  | .none => exact .none _
  | .next comma argument others =>
      obtain ⟨here, later⟩ := List.forall_mem_append.mp (List.forall_mem_cons.mp limited).2
      have reads := argument.reads (others.tokens ++ closing.1 :: rest) here
      simp only [MoreArguments.tokens, List.cons_append, List.append_assoc] at enough ⊢
      have given := reads.readable (others.stops closing rest) (Nat.lt_of_succ_lt enough)
      rw [List.length_cons, List.length_append] at enough
      exact .next comma.kind given (others.more closing rest later depth (by omega))

end

/-- The kinds of tokens that formulas are written with. -/
def kinds : List Token.Kind :=
  [.identifier, .integer, .trueKeyword, .falseKeyword, .leftParen, .rightParen, .leftBracket,
    .rightBracket, .comma] ++ Grammar.binaryOperators ++ Grammar.unaryOperators

theorem kinds_of {kinds : List Token.Kind} (token : Token.Of kinds) (among : kinds ⊆ Formula.kinds) :
    token.1.kind ∈ Formula.kinds :=
  among token.2

theorem enclosed_written {opens closes : Token.Kind} (opening : Token.Of [opens])
    (closing : Token.Of [closes]) (among : [opens, closes] ⊆ kinds) {inner : Tokens}
    (written : ∀ token ∈ inner, token.kind ∈ kinds) :
    ∀ token ∈ opening.1 :: (inner ++ [closing.1]), token.kind ∈ kinds := by
  have first : opening.1.kind ∈ kinds := opening.kind.symm ▸ among List.mem_cons_self
  have last : closing.1.kind ∈ kinds :=
    closing.kind.symm ▸ among (List.mem_cons_of_mem _ List.mem_cons_self)
  exact List.forall_mem_cons.mpr
    ⟨first, List.forall_mem_append.mpr ⟨written, List.forall_mem_singleton.mpr last⟩⟩

theorem Atom.kind (atom : Atom) : atom.token.kind ∈ kinds := by
  cases atom with
  | identifier token same | integer token _ same | trueKeyword token same | falseKeyword token same =>
      change token.kind ∈ kinds
      rw [same]
      decide

mutual

theorem Sequence.written (sequence : Sequence) : ∀ token ∈ sequence.tokens, token.kind ∈ kinds := by
  match sequence with
  | .single operand => exact operand.written
  | .joined operand operator others =>
      exact List.forall_mem_append.mpr ⟨operand.written,
        List.forall_mem_cons.mpr ⟨kinds_of operator (by decide), others.written⟩⟩

theorem Operand.written (operand : Operand) : ∀ token ∈ operand.tokens, token.kind ∈ kinds := by
  match operand with
  | .unary operator operand =>
      exact List.forall_mem_cons.mpr ⟨kinds_of operator (by decide), operand.written⟩
  | .plain term => exact term.written

theorem Term.written (term : Term) : ∀ token ∈ term.tokens, token.kind ∈ kinds := by
  match term with
  | .atom atom => exact List.forall_mem_singleton.mpr atom.kind
  | .grouped opening inner closing =>
      exact enclosed_written opening closing (by decide) inner.written
  | .call callee opening arguments closing =>
      exact List.forall_mem_append.mpr ⟨callee.written,
        enclosed_written opening closing (by decide) arguments.written⟩
  | .index left opening position closing =>
      exact List.forall_mem_append.mpr ⟨left.written,
        enclosed_written opening closing (by decide) position.written⟩

theorem Arguments.written (arguments : Arguments) :
    ∀ token ∈ arguments.tokens, token.kind ∈ kinds := by
  match arguments with
  | .none => exact List.forall_mem_nil _
  | .some first others => exact List.forall_mem_append.mpr ⟨first.written, others.written⟩

theorem MoreArguments.written (others : MoreArguments) :
    ∀ token ∈ others.tokens, token.kind ∈ kinds := by
  match others with
  | .none => exact List.forall_mem_nil _
  | .next comma argument others =>
      exact List.forall_mem_cons.mpr ⟨kinds_of comma (by decide),
        List.forall_mem_append.mpr ⟨argument.written, others.written⟩⟩

end

theorem Sequence.opens (sequence : Sequence) : ∃ first rest, sequence.tokens = first :: rest := by
  refine List.exists_cons_of_ne_nil ?_
  cases sequence with
  | joined operand operator others => exact List.append_ne_nil_of_right_ne_nil _ (List.cons_ne_nil _ _)
  | single operand =>
      cases operand with
      | unary operator operand => exact List.cons_ne_nil _ _
      | plain term =>
          cases term with
          | atom atom => exact List.cons_ne_nil _ _
          | grouped opening inner closing => exact List.cons_ne_nil _ _
          | call callee opening arguments closing | index callee opening arguments closing =>
              exact List.append_ne_nil_of_right_ne_nil _ (List.cons_ne_nil _ _)

end Formula

/-! ## How the parser groups formulas -/

/-- A formula is grouped by the levels of its operators: of all groupings that read as its row, one has
to the left of no operator one of a lower level outermost, and to the right only ones of a higher level.
The operands of the row are its terms with their suffixes, under the unary operators in front of them.
Read by itself, with or without end tokens behind it, the formula gives a program of this one expression
and no errors, unless there is less depth than it has tokens.  This is for formulas in which no integer
has too many digits. -/
theorem operators_bind_by_level (formula : Formula.Sequence) :
    (formula.row.grouping.Ordered ∧ formula.row.grouping.reading = formula.row ∧
      ∀ grouping : Grouping Node, grouping.Ordered → grouping.reading = formula.row →
        grouping = formula.row.grouping) ∧
    ((∀ token ∈ formula.tokens, ¬ token.Oversized) →
      ∃ first rest, formula.tokens = first :: rest ∧
        ∀ ends : List Token, (∀ token ∈ ends, token.kind = .endOfInput) → ∀ depth,
          Parsed.ofTokens depth (formula.tokens ++ ends) =
            .ok ⟨.program ⟨first, [.expressionStatement first formula.row.grouping.node]⟩, []⟩ ∨
          depth ≤ formula.tokens.length ∧
            Parsed.ofTokens depth (formula.tokens ++ ends) = .error .tooDeep) := by
  refine ⟨⟨formula.row.grouping_ordered, formula.row.grouping_reading, ?_⟩, fun limited => ?_⟩
  · rintro grouping ordered rfl'
    exact (rfl' ▸ Row.grouping_of_ordered ordered).symm
  · obtain ⟨first, rest, opens⟩ := formula.opens
    refine ⟨first, rest, opens, fun ends allEnd depth => ?_⟩
    have proper : ∀ token ∈ formula.tokens, token.kind ≠ .endOfInput := by
      intro token member isEnd
      have written := formula.written token member
      rw [isEnd] at written
      exact absurd written (by decide)
    have reads := formula.reads [] limited
    rw [List.append_nil] at reads
    have readable : Parse.Readable (formula.tokens.length + 1) Parse.loosest formula.tokens
        formula.row.grouping.node [] := reads.readable (Nat.le_refl _) (Nat.lt_succ_self _)
    have derived : Grammar.Statements (Parse.Readable (formula.tokens.length + 1) Parse.loosest)
        formula.tokens [.expressionStatement first formula.row.grouping.node] [] := by
      rw [opens] at readable ⊢
      exact .next (.expressionStatement readable (.bare (by decide))) (.none [])
    have outcome : (∃ token, Parsed.ofTokens depth (formula.tokens ++ ends) = .ok ⟨.program ⟨token, _⟩, []⟩) ∨ _ :=
      Parsed.ofTokens_given proper allEnd derived
    rcases outcome with ⟨token, given⟩ | ⟨less, broken⟩
    · obtain ⟨body, same⟩ := Parsed.ofTokens_token given rfl
      rw [opens] at same
      cases same
      exact .inl given
    · exact .inr ⟨Nat.le_of_lt_succ less, broken⟩

/-- `-f(a) - b * c - d` groups as the difference of `-f(a) - (b * c)` and `d`. -/
theorem operators_bind_by_level_differences :
    let token : Token.Kind → String → Token := fun kind literal => ⟨kind, literal, 1, 1⟩
    let name : String → Node := fun literal => .identifier ⟨token .identifier literal, literal⟩
    let minus := token .minus "-"
    let opening := token .leftParen "("
    let call := Node.unary minus "-" (.call opening (name "f") [name "a"])
    let product := Node.binary (token .star "*") "*" (name "b") (name "c")
    Parsed.ofTokens 13 [minus, token .identifier "f", opening, token .identifier "a",
        token .rightParen ")", minus, token .identifier "b", token .star "*", token .identifier "c",
        minus, token .identifier "d"] =
      .ok ⟨.program ⟨minus, [.expressionStatement minus
        (.binary minus "-" (.binary minus "-" call product) (name "d"))]⟩, []⟩ := by
  intro token name minus opening call product
  let term : String → Formula.Term := fun literal => .atom (.identifier (token .identifier literal) rfl)
  let called : Formula.Term := .call (term "f") ⟨opening, by decide⟩
    (.some (.single (.plain (term "a"))) .none) ⟨token .rightParen ")", by decide⟩
  let formula : Formula.Sequence :=
    .joined (.unary ⟨minus, by decide⟩ (.plain called)) ⟨minus, by decide⟩
      (.joined (.plain (term "b")) ⟨token .star "*", by decide⟩
        (.joined (.plain (term "c")) ⟨minus, by decide⟩ (.single (.plain (term "d")))))
  have noIntegers : ∀ token ∈ formula.tokens, token.kind ≠ .integer := by decide
  have limited : ∀ token ∈ formula.tokens, ¬ token.Oversized :=
    fun token member oversized => noIntegers token member oversized.isInteger
  obtain ⟨first, rest, opens, read⟩ := (operators_bind_by_level formula).2 limited
  cases opens
  rcases read [] (List.forall_mem_nil _) 13 with given | ⟨shallow, _⟩
  · exact given
  · exact absurd shallow (by decide)

/-- Any number of zeros is a numeral for 0. -/
theorem numeral_zeros {count : Nat} (positive : 0 < count) :
    Grammar.Numeral (String.ofList (List.replicate count '0')) 0 where
  nonempty := by
    rw [String.toList_ofList]
    exact fun none => Nat.ne_of_gt positive ((List.replicate_eq_nil_iff _).mp none)
  digits digit member := by
    rw [String.toList_ofList] at member
    rw [(List.mem_replicate.mp member).2]
    decide
  value := by
    rw [String.toList_ofList]
    clear positive
    induction count with
    | zero => rfl
    | succ count ih => exact ih

/-- Leading zeros count as digits: the number 0, written with 4301 of them, is not read. -/
theorem zeros_unread :
    let token : Token := ⟨.integer, String.ofList (List.replicate 4301 '0'), 1, 1⟩
    (∃ formula : Formula.Sequence, formula.tokens = [token] ∧
      formula.row.grouping.node = .integer token 0) ∧
    ∀ depth, Parsed.ofTokens (depth + 1) [token] = .error (.tooManyDigits 4301) := by
  intro token
  have numeral : Grammar.Numeral token.literal 0 := numeral_zeros (Nat.succ_pos 4300)
  have length : token.literal.toList.length = 4301 := by
    rw [String.toList_ofList, List.length_replicate]
  have oversized : token.Oversized := ⟨rfl, numeral.digits, length.symm ▸ Nat.lt_succ_self 4300⟩
  constructor
  · exact ⟨.single (.plain (.atom (.integer token 0 rfl numeral (Nat.zero_le _)))), rfl, rfl⟩
  · intro depth
    rw [Parsed.ofTokens_oversized oversized [] depth, length]

end MonkeyLang
