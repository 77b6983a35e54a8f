import MonkeyLang.Dialogue
import MonkeyLang.Proofs.Syntax.Exactness
import MonkeyLang.Proofs.Token.Spelling

namespace MonkeyLang.Grammar

/-! # Brackets

The brackets of a program close one another, but for the braces of blocks, which the end of the input
closes too.  Which braces these are can be told from the tokens alone: a block opens directly behind
`else`, or behind the parentheses that stand behind `if` or `fn`.
-/

/-- A bracket that is open. -/
inductive Bracket where
  | parenthesis (ofHeader : Bool)
  | square
  | brace (ofBlock : Bool)
deriving DecidableEq, Repr

/-- What the next token opens if it is a bracket: the parentheses of a header, a block, or neither. -/
inductive Lead where
  | header | block | neither
deriving DecidableEq, Repr

/-- The brackets that are open, innermost first, before a token. -/
structure Nesting where
  opened : List Bracket
  lead : Lead
deriving DecidableEq, Repr

namespace Nesting

/-- What a token makes of a nesting.  A bracket closes none but its like. -/
def take (nesting : Nesting) : Token.Kind → Option Nesting
  | .ifKeyword | .fnKeyword => some ⟨nesting.opened, .header⟩
  | .elseKeyword => some ⟨nesting.opened, .block⟩
  | .leftParen => some ⟨.parenthesis (nesting.lead == .header) :: nesting.opened, .neither⟩
  | .leftBracket => some ⟨.square :: nesting.opened, .neither⟩
  | .leftBrace => some ⟨.brace (nesting.lead == .block) :: nesting.opened, .neither⟩
  | .rightParen =>
      match nesting.opened with
      | .parenthesis ofHeader :: outer => some ⟨outer, if ofHeader then .block else .neither⟩
      | _ => none
  | .rightBracket =>
      match nesting.opened with
      | .square :: outer => some ⟨outer, .neither⟩
      | _ => none
  | .rightBrace =>
      match nesting.opened with
      | .brace _ :: outer => some ⟨outer, .neither⟩
      | _ => none
  | _ => some ⟨nesting.opened, .neither⟩

def takeAll (nesting : Nesting) : Tokens → Option Nesting
  | [] => some nesting
  | token :: tokens => (nesting.take token.kind).bind (·.takeAll tokens)

theorem takeAll_append (nesting : Nesting) (tokens others : Tokens) :
    nesting.takeAll (tokens ++ others) = (nesting.takeAll tokens).bind (·.takeAll others) := by
  induction tokens generalizing nesting with
  | nil => rfl
  | cons token tokens ih =>
      simp only [List.cons_append, takeAll, Option.bind_assoc]
      cases nesting.take token.kind with
      | none => rfl
      | some between => exact ih between

theorem take_operator {nesting : Nesting} {kind : Token.Kind}
    (isOperator : kind ∈ unaryOperators ∨ kind ∈ binaryOperators) :
    nesting.take kind = some ⟨nesting.opened, .neither⟩ := by
  simp only [unaryOperators, binaryOperators, List.mem_cons, List.not_mem_nil, or_false] at isOperator
  rcases isOperator with (rfl | rfl) | rfl | rfl | rfl | rfl | rfl | rfl | rfl | rfl <;> rfl

end Nesting

/-- The brackets that tokens leave open, innermost first, unless one is closed by another's like. -/
def unclosed (tokens : Tokens) : Option (List Bracket) :=
  (Nesting.takeAll ⟨[], .neither⟩ tokens).map (·.opened)

def Bracket.pair : Bracket → Token.Kind × Token.Kind
  | parenthesis _ => (.leftParen, .rightParen)
  | square => (.leftBracket, .rightBracket)
  | brace _ => (.leftBrace, .rightBrace)

def bracketPairs : List (Token.Kind × Token.Kind) :=
  [(.leftParen, .rightParen), (.leftBracket, .rightBracket), (.leftBrace, .rightBrace)]

def countOf (kind : Token.Kind) (tokens : Tokens) : Nat := tokens.countP (·.kind == kind)

theorem take_counts {nesting after : Nesting} {kind : Token.Kind}
    (took : nesting.take kind = some after) {pair : Token.Kind × Token.Kind}
    (isPair : pair ∈ bracketPairs) :
    nesting.opened.countP (·.pair == pair) + (if kind = pair.1 then 1 else 0) =
      after.opened.countP (·.pair == pair) + (if kind = pair.2 then 1 else 0) := by
  simp only [bracketPairs, List.mem_cons, List.not_mem_nil, or_false] at isPair
  unfold Nesting.take at took
  split at took
  case h_7 | h_8 | h_9 =>
    split at took
    · rename_i isOpened
      cases took
      rw [isOpened]
      rcases isPair with rfl | rfl | rfl <;> simp [Bracket.pair]
    · cases took
  case h_10 =>
    cases took
    rcases isPair with rfl | rfl | rfl <;> simp_all
  all_goals
    cases took
    rcases isPair with rfl | rfl | rfl <;> simp [Bracket.pair]

theorem takeAll_counts {nesting after : Nesting} {tokens : Tokens}
    (took : nesting.takeAll tokens = some after) {pair : Token.Kind × Token.Kind}
    (isPair : pair ∈ bracketPairs) :
    nesting.opened.countP (·.pair == pair) + countOf pair.1 tokens =
      after.opened.countP (·.pair == pair) + countOf pair.2 tokens := by
  induction tokens generalizing nesting with
  | nil =>
      cases took
      rfl
  | cons token tokens ih =>
      obtain ⟨between, first, others⟩ := Option.bind_eq_some_iff.mp took
      have one := take_counts first isPair
      have rest := ih others
      simp only [countOf, List.countP_cons, beq_iff_eq] at rest ⊢
      omega

/-- Tokens that close all brackets that they open, but for `count` blocks at the end of the input. -/
structure Nests (first last : Lead) (count : Nat) (input rest : Tokens) : Prop where
  atEnd : 0 < count → rest = []
  taken : ∃ consumed, input = consumed ++ rest ∧ ∀ outer,
    Nesting.takeAll ⟨outer, first⟩ consumed =
      some ⟨List.replicate count (.brace true) ++ outer, last⟩

namespace Nests

variable {first middle last : Lead} {count others : Nat} {input between rest : Tokens}

theorem none (input : Tokens) : Nests first first 0 input input :=
  ⟨nofun, [], rfl, fun _ => rfl⟩

theorem append (one : Nests first middle count input between)
    (other : Nests middle last others between rest) : Nests first last (others + count) input rest where
  atEnd some := by
    by_cases isOpen : 0 < others
    · exact other.atEnd isOpen
    · obtain ⟨consumed, split, _⟩ := other.taken
      have noneLeft : [] = consumed ++ rest := one.atEnd (by omega) ▸ split
      exact (List.append_eq_nil_iff.mp noneLeft.symm).2
  taken := by
    obtain ⟨consumed, rfl, taken⟩ := one.taken
    obtain ⟨more, rfl, takenMore⟩ := other.taken
    refine ⟨consumed ++ more, (List.append_assoc _ _ _).symm, fun outer => ?_⟩
    rw [Nesting.takeAll_append, taken, Option.bind_some, takenMore,
      ← List.replicate_append_replicate, List.append_assoc]

theorem token {token : Token}
    (took : ∀ outer, Nesting.take ⟨outer, first⟩ token.kind = some ⟨outer, last⟩) :
    Nests first last 0 (token :: rest) rest := by
  refine ⟨nofun, [token], rfl, fun outer => ?_⟩
  rw [Nesting.takeAll, took, Option.bind_some]
  rfl

/-- Tokens between a bracket and its like. -/
theorem enclosed {opening closing : Token} (bracket : Bracket)
    (opens : ∀ outer, Nesting.take ⟨outer, first⟩ opening.kind = some ⟨bracket :: outer, middle⟩)
    (inside : Nests middle .neither 0 input (closing :: rest))
    (closes : ∀ outer, Nesting.take ⟨bracket :: outer, .neither⟩ closing.kind = some ⟨outer, last⟩) :
    Nests first last 0 (opening :: input) rest := by
  obtain ⟨consumed, rfl, taken⟩ := inside.taken
  refine ⟨nofun, opening :: (consumed ++ [closing]), ?_, fun outer => ?_⟩
  · rw [List.cons_append, List.append_assoc, List.singleton_append]
  · rw [Nesting.takeAll, opens, Option.bind_some, Nesting.takeAll_append, taken, Option.bind_some]
    simp only [List.replicate_zero, List.nil_append, Nesting.takeAll, closes, Option.bind_some]

/-- A block that the end of the input closes. -/
theorem unclosed {opening : Token} (opens : opening.kind = .leftBrace)
    (inside : Nests .neither .neither count input []) :
    Nests .block .neither (count + 1) (opening :: input) [] := by
  obtain ⟨consumed, rfl, taken⟩ := inside.taken
  refine ⟨fun _ => rfl, opening :: consumed, rfl, fun outer => ?_⟩
  have opened : Nesting.take ⟨outer, .block⟩ opening.kind = some ⟨.brace true :: outer, .neither⟩ := by
    rw [opens]
    rfl
  rw [Nesting.takeAll, opened, Option.bind_some, taken, List.replicate_succ', List.append_assoc]
  rfl

end Nests

/-- Braces that close blocks. -/
def closers (count : Nat) : Tokens := List.replicate count ⟨.rightBrace, "\x7d", 0, 0⟩

/-- A form that may leave blocks open, and that is the same form with braces behind it that close
them. -/
def Leaves {α : Type} (Form : Tokens → α → Tokens → Prop) (lead : Lead) (input : Tokens) (item : α)
    (rest : Tokens) : Prop :=
  ∃ count, Nests lead .neither count input rest ∧
    ∀ more, Form (input ++ closers (more + count)) item (rest ++ closers more)

namespace Leaves

variable {α β γ : Type} {F : Tokens → α → Tokens → Prop} {G : Tokens → β → Tokens → Prop}
  {H : Tokens → γ → Tokens → Prop} {lead next : Lead} {input between rest : Tokens} {item : α}
  {other : β} {whole : γ}

theorem closed (nests : Nests lead .neither 0 input rest)
    (completes : ∀ more, F (input ++ closers more) item (rest ++ closers more)) :
    Leaves F lead input item rest :=
  ⟨0, nests, completes⟩

/-- Nothing is left open where the input goes on. -/
theorem before {token : Token} (leaves : Leaves F lead input item (token :: rest)) :
    Nests lead .neither 0 input (token :: rest) ∧
      ∀ more, F (input ++ closers more) item (token :: (rest ++ closers more)) := by
  obtain ⟨count, nests, completes⟩ := leaves
  have none : count = 0 := Nat.eq_zero_of_not_pos fun isOpen => nomatch nests.atEnd isOpen
  subst none
  exact ⟨nests, completes⟩

theorem seq (one : Leaves F lead input item between) (two : Leaves G .neither between other rest)
    (combine : ∀ {input between rest}, F input item between → G between other rest →
      H input whole rest) : Leaves H lead input whole rest := by
  obtain ⟨count, nests, completes⟩ := one
  obtain ⟨others, nestsMore, completesMore⟩ := two
  refine ⟨others + count, nests.append nestsMore, fun more => combine ?_ (completesMore more)⟩
  rw [← Nat.add_assoc]
  exact completes (more + others)

/-- A form behind a token that opens nothing. -/
theorem token {token : Token}
    (took : ∀ outer, Nesting.take ⟨outer, lead⟩ token.kind = some ⟨outer, next⟩)
    (leaves : Leaves (fun input => F (token :: input)) next input item rest) :
    Leaves F lead (token :: input) item rest := by
  obtain ⟨count, nests, completes⟩ := leaves
  exact ⟨count, (Nests.token took).append nests, completes⟩

end Leaves

section Items

variable {α : Type} {Item : Tokens → α → Tokens → Prop} {input rest : Tokens} {items : List α}
  (each : ∀ {input item rest}, Item input item rest → Leaves Item .neither input item rest)

include each

theorem More.leaves (more : More Item input items rest) :
    Leaves (More Item) .neither input items rest := by
  induction more with
  | none rest => exact .closed (.none rest) fun _ => .none _
  | next separator first _ ih =>
      exact .token (fun _ => by rw [separator]; rfl) <|
        (each first).seq ih fun one others => .next separator one others

/-- A row of items is closed by its closing token. -/
theorem Listed.leaves {closing : Token.Kind} (listed : Listed Item closing input items rest) :
    ∃ token, token.kind = closing ∧ Nests .neither .neither 0 input (token :: rest) ∧
      ∀ more, Listed Item closing (input ++ closers more) items (rest ++ closers more) := by
  cases listed with
  | empty closes => exact ⟨_, closes, .none _, fun _ => .empty closes⟩
  | @items token input between rest item items first others closes =>
      have row : Leaves (fun input items rest => ∃ item others between, items = item :: others ∧
          Item input item between ∧ More Item between others rest) .neither input (item :: items)
          (token :: rest) :=
        (each first).seq (others.leaves each) fun one more => ⟨_, _, _, rfl, one, more⟩
      obtain ⟨nests, completes⟩ := row.before
      refine ⟨token, closes, nests, fun more => ?_⟩
      obtain ⟨_, _, _, same, one, more⟩ := completes more
      cases same
      exact .items one more closes

end Items

theorem Name.leaves {input rest : Tokens} {name : Identifier} (named : Name input name rest) :
    Leaves Name .neither input name rest := by
  cases named with
  | identifier rest isName =>
      exact .closed (.token fun _ => by rw [isName]; rfl) fun _ => .identifier _ isName

/-! ## Forms around expressions -/

/-- Braces that close blocks end what the end of the input ends. -/
theorem kindOf_closers (rest : Tokens) (more : Nat) :
    kindOf (rest ++ closers more) = kindOf rest ∨
      (kindOf rest = .endOfInput ∧ kindOf (rest ++ closers more) = .rightBrace) := by
  cases rest with
  | cons token rest => exact .inl rfl
  | nil =>
      cases more with
      | zero => exact .inl rfl
      | succ more => exact .inr ⟨rfl, rfl⟩

section Forms

variable {E : Tokens → Node → Tokens → Prop} {input rest : Tokens} {node : Node}
  (each : ∀ {input node rest}, E input node rest → Leaves E .neither input node rest)

theorem Ending.leaves (ending : Ending input rest) :
    Leaves (fun input (_ : Unit) rest => Ending input rest) .neither input () rest := by
  cases ending with
  | semicolon rest isSemicolon =>
      exact .closed (.token fun _ => by rw [isSemicolon]; rfl) fun _ => .semicolon _ isSemicolon
  | bare stops =>
      refine .closed (.none _) fun more => .bare ?_
      rcases kindOf_closers _ more with same | ⟨_, isBrace⟩
      · rwa [same]
      · rw [isBrace]
        decide

/-- A token alone that neither opens nor closes. -/
theorem Leaves.alone {token : Token} (plain : ∀ outer, Nesting.take ⟨outer, .neither⟩ token.kind =
    some ⟨outer, .neither⟩) (form : ∀ rest, Primary E (token :: rest) node rest) :
    Leaves (Primary E) .neither (token :: rest) node rest :=
  .closed (.token plain) fun _ => form _

/-- The parentheses behind `if` or `fn` lead to a block. -/
theorem Nests.header {keyword opening closing : Token} {body : Tokens}
    (heads : keyword.kind = .ifKeyword ∨ keyword.kind = .fnKeyword)
    (opens : opening.kind = .leftParen) (inside : Nests .neither .neither 0 input (closing :: body))
    (closes : closing.kind = .rightParen) :
    Nests .neither .block 0 (keyword :: opening :: input) body := by
  have led : Nests .neither .header 0 (keyword :: opening :: input) (opening :: input) :=
    .token fun _ => by rcases heads with isIf | isFunction <;> simp only [*] <;> rfl
  exact led.append (.enclosed (.parenthesis true) (fun _ => by rw [opens]; rfl) inside
    fun _ => by rw [closes]; rfl)

include each

theorem Statement.leaves (statement : Statement E input node rest) :
    Leaves (Statement E) .neither input node rest := by
  cases statement with
  | letStatement isLet isName isAssign bound ends =>
      exact .token (fun _ => by rw [isLet]; rfl) <| .token (fun _ => by rw [isName]; rfl) <|
        .token (fun _ => by rw [isAssign]; rfl) <|
        (each bound).seq ends.leaves fun one two => .letStatement isLet isName isAssign one two
  | returnStatement isReturn given ends =>
      exact .token (fun _ => by rw [isReturn]; rfl) <|
        (each given).seq ends.leaves fun one two => .returnStatement isReturn one two
  | expressionStatement evaluated ends =>
      have ended : Leaves (fun input value rest => ∃ after, E input value after ∧ Ending after rest)
          .neither _ _ rest :=
        (each evaluated).seq ends.leaves fun one two => ⟨_, one, two⟩
      obtain ⟨count, nests, completes⟩ := ended
      refine ⟨count, nests, fun more => ?_⟩
      obtain ⟨_, one, two⟩ := completes more
      exact .expressionStatement one two

theorem Statements.leaves {body : List Node} (statements : Statements E input body rest) :
    Leaves (Statements E) .neither input body rest := by
  induction statements with
  | none rest => exact .closed (.none rest) fun _ => .none _
  | next first _ ih => exact (first.leaves each).seq ih fun one others => .next one others

theorem Braced.leaves {block : Block Node} (braced : Braced E input block rest) :
    Leaves (Braced E) .block input block rest := by
  cases braced with
  | closed opens statements closes =>
      obtain ⟨nests, completes⟩ := (statements.leaves each).before
      exact .closed (.enclosed (.brace true) (fun _ => by rw [opens]; rfl) nests
        fun _ => by rw [closes]; rfl) fun more => .closed opens (completes more) closes
  | unclosed opens statements =>
      obtain ⟨count, nests, completes⟩ := statements.leaves each
      refine ⟨count + 1, nests.unclosed opens, fun more => ?_⟩
      have inner := completes (more + 1)
      rw [show more + 1 + count = more + (count + 1) by omega] at inner
      exact .closed opens inner rfl

theorem Entry.leaves {pair : Node × Node} (entry : Entry E input pair rest) :
    Leaves (Entry E) .neither input pair rest := by
  cases entry with
  | @pair colon _ between _ key value named isColon given =>
      obtain ⟨nests, completes⟩ := (each named).before
      obtain ⟨count, nestsMore, completesMore⟩ := each given
      have separated : Nests .neither .neither 0 (colon :: between) between :=
        .token fun _ => by rw [isColon]; rfl
      exact ⟨count, nests.append (separated.append nestsMore),
        fun more => .pair (completes _) isColon (completesMore more)⟩

/-- The entries of a hash are closed by their brace. -/
theorem Entries.leaves {pairs : List (Node × Node)} (entries : Entries E input pairs rest) :
    ∃ token, token.kind = .rightBrace ∧ Nests .neither .neither 0 input (token :: rest) ∧
      ∀ more, Entries E (input ++ closers more) pairs (rest ++ closers more) := by
  cases entries with
  | listed entries =>
      obtain ⟨token, closes, nests, completes⟩ := entries.leaves fun entry => Entry.leaves each entry
      exact ⟨token, closes, nests, fun more => .listed (completes more)⟩
  | @trailing comma closing _ between _ pair pairs first others separator closes =>
      have row : Leaves (fun input whole rest => ∃ between, Entry E input pair between ∧
          More (Entry E) between whole rest) .neither input pairs (comma :: closing :: rest) :=
        (Entry.leaves each first).seq (others.leaves fun entry => Entry.leaves each entry)
          fun one more => ⟨_, one, more⟩
      obtain ⟨nests, completes⟩ := row.before
      have separated : Nests .neither .neither 0 (comma :: closing :: rest) (closing :: rest) :=
        .token fun _ => by rw [separator]; rfl
      refine ⟨closing, closes, nests.append separated, fun more => ?_⟩
      obtain ⟨_, one, others⟩ := completes more
      exact .trailing one others separator closes

theorem Primary.leaves (primary : Primary E input node rest) :
    Leaves (Primary E) .neither input node rest := by
  cases primary with
  | identifier _ isName =>
      exact .alone (fun _ => by rw [isName]; rfl) fun _ => .identifier _ isName
  | integer _ isInteger numeral bounded =>
      exact .alone (fun _ => by rw [isInteger]; rfl) fun _ => .integer _ isInteger numeral bounded
  | string _ isString => exact .alone (fun _ => by rw [isString]; rfl) fun _ => .string _ isString
  | trueKeyword _ isTrue =>
      exact .alone (fun _ => by rw [isTrue]; rfl) fun _ => .trueKeyword _ isTrue
  | falseKeyword _ isFalse =>
      exact .alone (fun _ => by rw [isFalse]; rfl) fun _ => .falseKeyword _ isFalse
  | grouped opens grouped closes =>
      obtain ⟨nests, completes⟩ := (each grouped).before
      exact .closed (.enclosed (.parenthesis false) (fun _ => by rw [opens]; rfl) nests
        fun _ => by rw [closes]; rfl) fun more => .grouped opens (completes more) closes
  | conditional isIf opens tested closes consequent =>
      obtain ⟨nests, completes⟩ := (each tested).before
      obtain ⟨count, nestsMore, completesMore⟩ := consequent.leaves each
      exact ⟨count, (Nests.header (.inl isIf) opens nests closes).append nestsMore,
        fun more => .conditional isIf opens (completes _) closes (completesMore more)⟩
  | @alternative _ _ _ otherwise _ _ behind _ _ _ _ isIf opens tested closes consequent isElse
      alternate =>
      obtain ⟨nests, completes⟩ := (each tested).before
      obtain ⟨nestsFirst, completesFirst⟩ := (consequent.leaves each).before
      obtain ⟨count, nestsMore, completesMore⟩ := alternate.leaves each
      have led : Nests .neither .block 0 (otherwise :: behind) behind :=
        .token fun _ => by rw [isElse]; rfl
      exact ⟨count, (Nests.header (.inl isIf) opens nests closes).append <|
          nestsFirst.append (led.append nestsMore),
        fun more => .alternative isIf opens (completes _) closes (completesFirst _) isElse
          (completesMore more)⟩
  | function isFunction opens named braced =>
      obtain ⟨token, closes, nests, completes⟩ := named.leaves Name.leaves
      obtain ⟨count, nestsMore, completesMore⟩ := braced.leaves each
      exact ⟨count, (Nests.header (.inr isFunction) opens nests closes).append nestsMore,
        fun more => .function isFunction opens (completes _) (completesMore more)⟩
  | array opens listed =>
      obtain ⟨token, closes, nests, completes⟩ := listed.leaves each
      exact .closed (.enclosed .square (fun _ => by rw [opens]; rfl) nests
        fun _ => by rw [closes]; rfl) fun more => .array opens (completes more)
  | hash opens listed =>
      obtain ⟨token, closes, nests, completes⟩ := Entries.leaves each listed
      exact .closed (.enclosed (.brace false) (fun _ => by rw [opens]; rfl) nests
        fun _ => by rw [closes]; rfl) fun more => .hash opens (completes more)

end Forms

section Ranked

variable {E : Nat → Tokens → Node → Tokens → Prop} {admitted : Token → Prop} {power : Nat}
  {input rest : Tokens} {node left whole : Node}
  (each : ∀ power {input node rest}, E power input node rest →
    Leaves (E power) .neither input node rest)

include each

theorem Begins.leaves (begins : Begins admitted E input node rest) :
    Leaves (Begins admitted E) .neither input node rest := by
  cases begins with
  | unary isOperator applied =>
      obtain ⟨count, nests, completes⟩ := each _ applied
      exact ⟨count, (Nests.token fun _ => Nesting.take_operator (.inl isOperator)).append nests,
        fun more => .unary isOperator (completes more)⟩
  | primary primary admits noElse =>
      obtain ⟨count, nests, completes⟩ := primary.leaves (each _)
      refine ⟨count, nests, fun more => .primary (completes more) admits ?_⟩
      intro isIf condition consequence same
      have other := noElse isIf condition consequence same
      rcases kindOf_closers _ more with same | ⟨_, isBrace⟩
      · rwa [same]
      · rw [isBrace]
        decide

theorem Extends.leaves (extended : Extends E power left input whole rest) :
    Leaves (fun input => Extends E power left input) .neither input whole rest := by
  induction extended with
  | none stops =>
      refine .closed (.none _) fun more => .none ?_
      rcases kindOf_closers _ more with same | ⟨isEnd, isBrace⟩
      · rwa [same]
      · rw [isEnd] at stops
        rwa [isBrace]
  | call opens listed _ ih =>
      obtain ⟨token, closes, nests, completes⟩ := listed.leaves (each _)
      obtain ⟨count, nestsMore, completesMore⟩ := ih
      have called : Nests .neither .neither 0 _ _ := .enclosed (.parenthesis false)
        (fun _ => by rw [opens]; rfl) nests fun _ => by rw [closes]; rfl
      exact ⟨count, called.append nestsMore,
        fun more => .call opens (completes _) (completesMore more)⟩
  | index opens selected closes _ ih =>
      obtain ⟨nests, completes⟩ := (each _ selected).before
      obtain ⟨count, nestsMore, completesMore⟩ := ih
      have selecting : Nests .neither .neither 0 _ _ := .enclosed .square
        (fun _ => by rw [opens]; rfl) nests fun _ => by rw [closes]; rfl
      exact ⟨count, selecting.append nestsMore,
        fun more => .index opens (completes _) closes (completesMore more)⟩
  | binary isOperator binds second _ ih =>
      have applied : Leaves (fun input whole rest => ∃ right between, E _ input right between ∧
          Extends E power (.binary _ _ _ right) between whole rest) .neither _ _ _ :=
        (each _ second).seq ih fun one two => ⟨_, _, one, two⟩
      obtain ⟨count, nests, completes⟩ := applied
      refine ⟨count, (Nests.token fun _ => Nesting.take_operator (.inr isOperator)).append nests,
        fun more => ?_⟩
      obtain ⟨_, _, one, two⟩ := completes more
      exact .binary isOperator binds one two

end Ranked

theorem Ranked.leaves {admitted : Token → Prop} {depth power : Nat} {input rest : Tokens}
    {node : Node} (ranked : Ranked admitted depth power input node rest) :
    Leaves (Ranked admitted depth power) .neither input node rest := by
  induction depth generalizing power input node rest with
  | zero => exact ranked.elim
  | succ depth ih =>
      obtain ⟨first, between, begins, extended⟩ := ranked
      have inner : ∀ power {input node rest}, Ranked admitted depth power input node rest →
          Leaves (Ranked admitted depth power) .neither input node rest := fun _ => ih
      exact (begins.leaves inner).seq (extended.leaves inner) fun one more => ⟨_, _, one, more⟩

/-- Tokens that lack nothing but the braces at the end of blocks. -/
def LacksBlockEnds (tokens : Tokens) : Prop :=
  ∃ count, unclosed tokens = some (List.replicate count (.brace true)) ∧
    ∃ parsed, Parsed.ofTokens Parsed.depthLimit (tokens ++ closers count) = .ok parsed ∧
      parsed.errors = []

/-- A program without errors lacks at most the braces at the end of its blocks. -/
theorem lacksBlockEnds_of_clean {tokens ends : Tokens} {parsed : Parsed}
    (proper : ∀ token ∈ tokens, token.kind ≠ .endOfInput)
    (allEnd : ∀ token ∈ ends, token.kind = .endOfInput)
    (read : Parsed.ofTokens Parsed.depthLimit (tokens ++ ends) = .ok parsed)
    (clean : parsed.errors = []) : LacksBlockEnds tokens := by
  obtain ⟨_, body, _, derived⟩ := Parsed.ofTokens_readable proper allEnd read clean
  obtain ⟨count, nests, completes⟩ := derived.leaves Ranked.leaves
  obtain ⟨consumed, split, taken⟩ := nests.taken
  rw [List.append_nil] at split
  subst split
  have completed : Statements (Parse.Readable Parsed.depthLimit Parse.loosest)
      (tokens ++ closers count) body [] := by
    have whole := completes 0
    rwa [Nat.zero_add] at whole
  have properToo : ∀ token ∈ tokens ++ closers count, token.kind ≠ .endOfInput := by
    intro token member
    rcases List.mem_append.mp member with old | closing
    · exact proper token old
    · rw [List.eq_of_mem_replicate closing]
      decide
  refine ⟨count, ?_, ?_⟩
  · rw [unclosed, taken, Option.map_some, List.append_nil]
  · have noEnds : ∀ token ∈ ([] : Tokens), token.kind = .endOfInput := List.forall_mem_nil _
    obtain ⟨token, found⟩ :=
      (Parsed.ofTokens_given properToo noEnds completed).resolve_right fun broken =>
        Nat.lt_irrefl _ broken.1
    rw [List.append_nil] at found
    exact ⟨_, found, rfl⟩

theorem countOf_finish {kind : Token.Kind} {tokens : Tokens} {finish : Token}
    (isEnd : finish.kind = .endOfInput) (proper : kind ≠ .endOfInput) :
    countOf kind (tokens ++ [finish]) = countOf kind tokens := by
  rw [countOf, List.countP_append, List.countP_singleton, isEnd]
  simp [proper.symm, countOf]

/-- The brackets of a pair balance where only blocks are left open, but for the braces. -/
theorem LacksBlockEnds.balanced {tokens : Tokens} (lacks : LacksBlockEnds tokens)
    {pair : Token.Kind × Token.Kind} (isPair : pair ∈ bracketPairs)
    (other : pair ≠ (.leftBrace, .rightBrace)) : countOf pair.1 tokens = countOf pair.2 tokens := by
  obtain ⟨count, left, _⟩ := lacks
  obtain ⟨after, taken, opened⟩ := Option.map_eq_some_iff.mp left
  have counts := takeAll_counts taken isPair
  have none : after.opened.countP (·.pair == pair) = 0 := by
    rw [opened, List.countP_replicate, if_neg]
    simpa [Bracket.pair] using other.symm
  rw [none] at counts
  simpa using counts

end MonkeyLang.Grammar

namespace MonkeyLang

open Grammar

theorem Token.limited_of_short {tokens : Tokens}
    (short : ∀ token ∈ tokens, token.literal.toList.length ≤ Parse.digitLimit) :
    ∀ token ∈ tokens, ¬ token.Oversized :=
  fun token member oversized => Nat.not_lt.mpr (short token member) oversized.tooMany

theorem Parsed.given_room {text : String} (given : (Parsed.ofText text).toBool = true) :
    Parsed.ofText text ≠ .error .tooDeep := fun broken => by
  rw [broken] at given
  cases given

/-- A text in which brackets of some pair open and do not close is incomplete, unless it lacks
nothing but the braces at the end of its blocks. -/
theorem unclosed_brackets_incomplete (text : String) (pair : Token.Kind × Token.Kind)
    (isPair : pair ∈ bracketPairs) (limited : ∀ token ∈ Token.scan text, ¬ token.Oversized)
    (room : Parsed.ofText text ≠ .error .tooDeep)
    (unbalanced : countOf pair.2 (Token.scan text) < countOf pair.1 (Token.scan text))
    (others : pair = (.leftBrace, .rightBrace) → ¬ LacksBlockEnds (Token.scan text).dropLast) :
    Parsed.isIncomplete text = .ok true := by
  obtain ⟨tokens, finish, split, isEnd, proper⟩ := Token.scan_split text
  have first : pair.1 ≠ .endOfInput ∧ pair.2 ≠ .endOfInput := by
    simp only [bracketPairs, List.mem_cons, List.not_mem_nil, or_false] at isPair
    rcases isPair with rfl | rfl | rfl <;> decide
  rw [split, List.dropLast_concat] at others
  rw [split, countOf_finish isEnd first.1, countOf_finish isEnd first.2] at unbalanced
  cases read : Parsed.ofText text with
  | error reason =>
      rcases Parsed.ofText_error read with rfl | ⟨token, member, oversized⟩
      · exact absurd read room
      · exact absurd oversized (limited token member)
  | ok parsed =>
      have refused : parsed.errors ≠ [] := by
        intro clean
        rw [Parsed.ofText, split] at read
        have lacks := lacksBlockEnds_of_clean proper (by simpa using isEnd) read clean
        by_cases braces : pair = (.leftBrace, .rightBrace)
        · exact others braces lacks
        · have same := lacks.balanced isPair braces
          omega
      rw [Parsed.isIncomplete, read]
      simp only [List.isEmpty_eq_false_iff.mpr refused, Bool.not_false]

/-- In `{1: fn() { 2` a hash is left open besides the block. -/
theorem unclosed_hash_incomplete :
    let text := "\x7b1: fn() \x7b 2"
    (∀ token ∈ Token.scan text, ¬ token.Oversized) ∧ Parsed.ofText text ≠ .error .tooDeep ∧
      countOf .rightBrace (Token.scan text) < countOf .leftBrace (Token.scan text) ∧
      ¬ LacksBlockEnds (Token.scan text).dropLast ∧ Parsed.isIncomplete text = .ok true := by
  intro text
  have limited : ∀ token ∈ Token.scan text, ¬ token.Oversized :=
    Token.limited_of_short (by decide +kernel)
  have room : Parsed.ofText text ≠ .error .tooDeep := Parsed.given_room (by decide +kernel)
  have unbalanced : countOf .rightBrace (Token.scan text) < countOf .leftBrace (Token.scan text) := by
    decide +kernel
  have hashOpen : unclosed (Token.scan text).dropLast = some [.brace true, .brace false] := by
    decide +kernel
  have others : ¬ LacksBlockEnds (Token.scan text).dropLast := by
    intro lacks
    obtain ⟨count, left, _⟩ := lacks
    have isHash : .brace false ∈ List.replicate count (Bracket.brace true) :=
      Option.some.inj (hashOpen.symm.trans left) ▸ by simp
    cases List.eq_of_mem_replicate isHash
  exact ⟨limited, room, unbalanced, others,
    unclosed_brackets_incomplete text (.leftBrace, .rightBrace) (by decide) limited room unbalanced
      fun _ => others⟩

/-- The brace of a block may be missing at the end of a text that is complete. -/
theorem unclosed_block_complete :
    let text := "fn() \x7b 1"
    (∀ token ∈ Token.scan text, ¬ token.Oversized) ∧ Parsed.ofText text ≠ .error .tooDeep ∧
      countOf .rightBrace (Token.scan text) < countOf .leftBrace (Token.scan text) ∧
      Parsed.isIncomplete text = .ok false := by
  have complete : Parsed.isIncomplete "fn() \x7b 1" = .ok false := by rfl
  exact ⟨Token.limited_of_short (by decide +kernel), Parsed.given_room (by decide +kernel),
    by decide +kernel, complete⟩

end MonkeyLang
