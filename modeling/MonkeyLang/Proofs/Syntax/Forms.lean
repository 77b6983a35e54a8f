import MonkeyLang.Proofs.Syntax.Acceptance
import MonkeyLang.Proofs.Syntax.Soundness

namespace MonkeyLang

open Grammar (Tokens kindOf Expression)

/-! # The forms of the grammar are accepted

Whatever is known of the expressions inside a form, the parser accepts the form where it accepts
these.  Where they are settled, so is the tree of the form.
-/

namespace Grammar

/-- Kinds with which neither an expression nor a statement begins. -/
def noBeginnings : List Token.Kind :=
  [.endOfInput, .semicolon, .comma, .colon, .elseKeyword, .rightParen, .rightBrace, .rightBracket]

/-- Kinds with which no expression begins. -/
def noExpressions : List Token.Kind := noBeginnings ++ [.letKeyword, .returnKeyword]

variable {E : Tokens → Node → Tokens → Prop} {input rest : Tokens} {node : Node}

theorem Primary.begins (primary : Primary E input node rest) : kindOf input ∉ noExpressions := by
  cases primary <;> simp_all [kindOf, noExpressions, noBeginnings]

theorem Operand.begins (operand : Operand E input node rest) : kindOf input ∉ noExpressions := by
  cases operand with
  | unary isOperator applied =>
      simp only [unaryOperators, List.mem_cons, List.not_mem_nil, or_false] at isOperator
      rcases isOperator with isBang | isMinus
      · simp [kindOf, isBang, noExpressions, noBeginnings]
      · simp [kindOf, isMinus, noExpressions, noBeginnings]
  | suffixed primary suffixes => exact primary.begins

theorem Joined.begins (joined : Joined E input node rest) : kindOf input ∉ noExpressions := by
  induction joined with
  | operand operand => exact operand.begins
  | binary first isOperator second ih _ => exact ih

theorem Expression.begins (expression : Expression input node rest) :
    kindOf input ∉ noExpressions := by
  cases expression with
  | joined joined => exact joined.begins

theorem Expression.begins_not (expression : Expression input node rest) {kind : Token.Kind}
    (never : kind ∈ noExpressions) : kindOf input ≠ kind :=
  fun same => expression.begins (same ▸ never)

theorem Entry.begins {pair : Node × Node} (entry : Entry Expression input pair rest) :
    kindOf input ∉ noExpressions := by
  cases entry with
  | pair named isColon given => exact named.begins

theorem Statement.begins (statement : Statement Expression input node rest) :
    kindOf input ∉ noBeginnings := by
  cases statement with
  | letStatement isLet => simp [kindOf, isLet, noBeginnings]
  | returnStatement isReturn => simp [kindOf, isReturn, noBeginnings]
  | expressionStatement evaluated =>
      exact fun member => evaluated.begins (List.mem_append_left _ member)

/-- Statements up to a closing brace or the end of the input begin neither with a semicolon nor with
an `else`. -/
theorem Statements.follow {body : List Node} (statements : Statements Expression input body rest)
    (closed : rest = [] ∨ kindOf rest = .rightBrace) :
    kindOf input ≠ .semicolon ∧ kindOf input ≠ .elseKeyword := by
  cases statements with
  | none =>
      rcases closed with rfl | closes
      · exact ⟨nofun, nofun⟩
      · rw [closes]
        exact ⟨nofun, nofun⟩
  | next first others =>
      have begins := first.begins
      exact ⟨fun same => begins (same ▸ by decide), fun same => begins (same ▸ by decide)⟩

end Grammar

namespace Parse

/-- Behind an expression under a power there is neither a tighter operator nor an `else`. -/
structure Stops (power : Nat) (rest : Tokens) : Prop where
  binds : bindingPower (kindOf rest) ≤ power
  noElse : kindOf rest ≠ .elseKeyword

/-- Tokens that may stand behind an expression. -/
theorem Stops.closing {token : Token} {rest : Tokens}
    (closes : token.kind ∈ [.rightParen, .rightBracket, .rightBrace, .comma, .colon, .semicolon]) :
    Stops loosest (token :: rest) := by
  simp only [List.mem_cons, List.not_mem_nil, or_false] at closes
  constructor <;> rcases closes with same | same | same | same | same | same <;>
    simp [kindOf, same, bindingPower]

theorem bare_binds {rest : Tokens} (stops : kindOf rest ∉ Grammar.continuations) :
    bindingPower (kindOf rest) ≤ loosest := by
  by_cases binds : loosest < bindingPower (kindOf rest)
  · rcases continuation_cases binds with opens | opens | isBinary
    · simp [opens, Grammar.continuations] at stops
    · simp [opens, Grammar.continuations] at stops
    · exact absurd (List.mem_append_left _ isBinary.1) stops
  · exact Nat.not_lt.mp binds

theorem Stops.bare {rest : Tokens} (stops : kindOf rest ∉ Grammar.continuations)
    (noElse : kindOf rest ≠ .elseKeyword) : Stops loosest rest :=
  ⟨bare_binds stops, noElse⟩

theorem more_run {E : Tokens → Node → Tokens → Prop} {input between after rest : Tokens}
    {pair : Node × Node} {pairs : List (Node × Node)} (first : Grammar.Entry E input pair between)
    (others : Grammar.More (Grammar.Entry E) between pairs after)
    (ends : after = rest ∨ ∃ comma : Token, comma.kind = .comma ∧ after = comma :: rest) :
    Run E input (pair :: pairs) rest := by
  induction others generalizing input pair with
  | none =>
      rcases ends with rfl | ⟨comma, separator, rfl⟩
      · exact .last first
      · exact .next first separator (.none rest)
  | next separator second others ih => exact .next first separator (ih second ends)

/-- The entries of a hash as the loop over them takes them in. -/
theorem entries_run {E : Tokens → Node → Tokens → Prop} {input rest : Tokens}
    {pairs : List (Node × Node)} (entries : Grammar.Entries E input pairs rest) :
    ∃ closing, closing.kind = .rightBrace ∧ Run E input pairs (closing :: rest) := by
  cases entries with
  | listed entries =>
      cases entries with
      | empty closes => exact ⟨_, closes, .none _⟩
      | items first others closes => exact ⟨_, closes, more_run first others (.inl rfl)⟩
  | @trailing comma closing _ _ _ _ _ first others separator closes =>
      exact ⟨closing, closes, more_run first others (.inr ⟨comma, separator, rfl⟩)⟩

/-- A reading accepts a form with what stands behind it, and gives the result of the form if trees
are settled. -/
abbrev Gives {α : Type} (settled : Prop) (broken : Breakoff → Prop) (action : Parse α)
    (tokens : Tokens) (result : α) (rest : Tokens) : Prop :=
  Accepts broken action tokens fun found place => (settled → found = result) ∧ place.tail = rest

/-- How the expressions inside the forms are read.  A relation may settle which of the trees that the
grammar allows for them is given. -/
structure Handles (settled : Prop) (broken : Breakoff → Prop) (expression : Nat → Parse Node)
    (E : Tokens → Node → Tokens → Prop) : Prop where
  derived : ∀ {input node rest}, E input node rest → Expression input node rest
  gives : ∀ {input node rest}, E input node rest → Stops loosest rest →
    Gives settled broken (expression loosest) input node rest

section Forms

variable {settled : Prop} {broken : Breakoff → Prop} {expression : Nat → Parse Node}
  {E : Tokens → Node → Tokens → Prop} (reads : Handles settled broken expression E)

include reads

theorem Handles.begins_not {input rest : Tokens} {node : Node} (derived : E input node rest)
    {kind : Token.Kind} (never : kind ∈ Grammar.noExpressions) : kindOf input ≠ kind :=
  (reads.derived derived).begins_not never

omit reads in
theorem skipSemicolon_accepts {tokens rest : Tokens} (ends : Grammar.Ending tokens.tail rest)
    (other : kindOf rest ≠ .semicolon) :
    Accepts broken skipSemicolon tokens fun _ place => place.tail = rest := by
  generalize behind : tokens.tail = after at ends
  cases ends with
  | semicolon rest isSemicolon => exact .skipSemicolon behind isSemicolon
  | bare stops =>
      subst behind
      exact (Accepts.skipNothing other).weaken fun _ place same => congrArg List.tail same

omit reads in
theorem ending_stops {after rest : Tokens} (ends : Grammar.Ending after rest)
    (noElse : kindOf rest ≠ .elseKeyword) : Stops loosest after := by
  cases ends with
  | semicolon rest isSemicolon => exact .closing (by simp [isSemicolon])
  | bare stops => exact .bare stops noElse

theorem ended_gives {input after rest : Tokens} {value : Node} {make : Node → Node}
    (derived : E input value after) (ends : Grammar.Ending after rest)
    (other : kindOf rest ≠ .semicolon) (noElse : kindOf rest ≠ .elseKeyword) :
    Gives settled broken (do
        let value ← expression loosest
        skipSemicolon
        return make value) input (make value) rest := by
  refine .bind (reads.gives derived (ending_stops ends noElse)) ?_
  intro found place _ given
  obtain ⟨same, rfl⟩ := given
  refine .bind (skipSemicolon_accepts ends other) fun _ _ _ behind => .pure ⟨?_, behind⟩
  exact fun settles => congrArg make (same settles)

theorem statementForm_gives {input rest : Tokens} {node : Node}
    (derived : Grammar.Statement E input node rest) (other : kindOf rest ≠ .semicolon)
    (noElse : kindOf rest ≠ .elseKeyword) :
    Gives settled broken (statementForm expression) input node rest := by
  cases derived with
  | letStatement isLet isName isAssign bound ends =>
      refine .current ?_
      simp only [isLet]
      refine .expect rfl isName (.current (.expect rfl isAssign (.advance ?_)))
      exact ended_gives reads bound ends other noElse
  | returnStatement isReturn given ends =>
      refine .current ?_
      simp only [isReturn]
      exact .advance (ended_gives reads given ends other noElse)
  | @expressionStatement first input after rest value evaluated ends =>
      refine .current ?_
      split
      · rename_i isLet
        exact absurd isLet (reads.begins_not evaluated (by decide))
      · rename_i isReturn
        exact absurd isReturn (reads.begins_not evaluated (by decide))
      · exact ended_gives reads evaluated ends other noElse

theorem statement_gives {input rest : Tokens} {node : Node}
    (derived : Grammar.Statement E input node rest) (other : kindOf rest ≠ .semicolon)
    (noElse : kindOf rest ≠ .elseKeyword) :
    Gives settled broken (statement expression) input (some node) rest := by
  intro errors cursor views same
  have met := statementForm_gives reads derived other noElse errors cursor views same
  unfold statement
  split at met
  · rename_i ran
    obtain ⟨place, viewed, suffix, clean, given, behind⟩ := met
    rw [ran]
    exact ⟨place, viewed, suffix, clean, fun settles => congrArg some (given settles), behind⟩
  · obtain ⟨_, _, impossible⟩ := met
    exact impossible.elim
  · rename_i ran
    rw [ran]
    exact met

/-- Statements are read up to the end of the input, or to what closes them. -/
theorem statements_accepts {closes : Token.Kind → Bool} {input rest : Tokens} {body : List Node}
    (derived : Grammar.Statements E input body rest)
    (closed : rest = [] ∨ (closes (kindOf rest) = true ∧ kindOf rest = .rightBrace))
    (opened : ∀ kind, closes kind = true → kind ∈ Grammar.noBeginnings) {turns : Nat}
    {found : Array Node} (enough : input.length ≤ turns) :
    Accepts broken (statements expression closes turns found) input fun result place =>
      (settled → result.toList = found.toList ++ body) ∧ place = rest := by
  induction derived generalizing turns found with
  | none =>
      have same : settled → found.toList = found.toList ++ [] := fun _ => (List.append_nil _).symm
      cases turns with
      | zero => exact .pure ⟨same, rfl⟩
      | succ turns =>
          refine .currentKind fun token same => ?_
          dsimp only
          rw [if_pos]
          · exact .pure ⟨‹_›, rfl⟩
          · rw [same]
            rcases closed with rfl | ⟨closing, _⟩
            · simp [kindOf]
            · simp [closing]
  | @next input between rest statement body first derived ih =>
      have begins := (first.mono reads.derived).begins
      cases turns with
      | zero =>
          have empty := List.length_eq_zero_iff.mp (Nat.le_zero.mp enough)
          subst empty
          exact absurd begins (by decide)
      | succ turns =>
          refine .currentKind fun token same => ?_
          dsimp only
          rw [if_neg]
          · obtain ⟨other, noElse⟩ :=
              (derived.mono reads.derived).follow (closed.imp_right And.right)
            refine .bind (statement_gives reads first other noElse) ?_
            intro result place suffix given
            obtain ⟨same, rfl⟩ := given
            have shorter : place.tail.length ≤ turns := by
              have bound := suffix.length_le
              rw [List.length_tail]
              omega
            refine .advance ((ih closed shorter).weaken ?_)
            intro nodes last given
            obtain ⟨listed, rfl⟩ := given
            refine ⟨fun settles => ?_, rfl⟩
            rw [listed settles, same settles, Array.toList_push, List.append_assoc,
              List.singleton_append]
          · rw [same]
            intro stop
            rcases Bool.or_eq_true_iff.mp stop with closing | isEnd
            · exact begins (opened _ closing)
            · exact begins (eq_of_beq isEnd ▸ by decide)

theorem block_gives {input rest : Tokens} {body : Block Node}
    (derived : Grammar.Braced E input body rest) :
    Gives settled broken (block expression) input body rest := by
  have braces : ∀ kind : Token.Kind, (kind == .rightBrace) = true → kind ∈ Grammar.noBeginnings :=
    fun kind closes => eq_of_beq closes ▸ by decide
  have listed : ∀ {found : Array Node} {body : List Node} (opening : Token),
      found.toList = (#[] : Array Node).toList ++ body →
      (⟨opening, found.toList⟩ : Block Node) = ⟨opening, body⟩ :=
    fun opening same => congrArg (Block.mk opening) same
  cases derived with
  | @closed opening closing input rest body opens statements closes =>
      refine .current (.advance (.remaining fun turns enough => ?_))
      have isBrace : (kindOf (closing :: rest) == .rightBrace) = true := beq_iff_eq.mpr closes
      refine .bind (statements_accepts reads statements (.inr ⟨isBrace, closes⟩) braces enough) ?_
      intro nodes place _ given
      obtain ⟨same, rfl⟩ := given
      exact .pure ⟨fun settles => listed opening (same settles), rfl⟩
  | unclosed opens statements =>
      refine .current (.advance (.remaining fun turns enough => ?_))
      refine .bind (statements_accepts reads statements (.inl rfl) braces enough) ?_
      intro nodes place _ given
      obtain ⟨same, rfl⟩ := given
      exact .pure ⟨fun settles => listed _ (same settles), rfl⟩

/-! ## Items in a row -/

omit reads in
theorem more_stops {α : Type} {Item : Tokens → α → Tokens → Prop} {input rest : Tokens}
    {items : List α} (more : Grammar.More Item input items rest) (stops : Stops loosest rest) :
    Stops loosest input := by
  cases more with
  | none => exact stops
  | next separator first others => exact .closing (by simp [separator])

theorem moreExpressions_accepts {input rest : Tokens} {items : List Node}
    (derived : Grammar.More E input items rest) (stops : Stops loosest rest)
    (noComma : kindOf rest ≠ .comma) {tokens : Tokens} (behind : tokens.tail = input) {turns : Nat}
    {found : Array Node} (enough : tokens.length ≤ turns) :
    Accepts broken (moreExpressions expression turns found) tokens fun result place =>
      (settled → result.toList = found.toList ++ items) ∧ place.tail = rest := by
  induction derived generalizing tokens turns found with
  | none =>
      have all : settled → found.toList = found.toList ++ [] := fun _ => (List.append_nil _).symm
      cases turns with
      | zero => exact .pure ⟨all, behind⟩
      | succ turns =>
          refine .upcoming fun token same => ?_
          rw [if_neg (by rw [same, behind]; exact noComma)]
          exact .pure ⟨all, behind⟩
  | @next comma input between rest item items separator first others ih =>
      have whole := congrArg List.length behind
      simp only [List.length_tail, List.length_cons] at whole
      cases turns with
      | zero => omega
      | succ turns =>
          refine .upcoming fun token same => ?_
          rw [if_pos (by rw [same, behind]; exact separator)]
          refine .advance (.advance ?_)
          rw [behind, List.tail_cons]
          refine .bind (reads.gives first (more_stops others stops)) ?_
          intro found place suffix given
          obtain ⟨same, behind'⟩ := given
          have bound := suffix.length_le
          refine (ih stops noComma behind' (by omega)).weaken ?_
          intro nodes last given
          obtain ⟨listed, placed⟩ := given
          refine ⟨fun settles => ?_, placed⟩
          rw [listed settles, same settles, Array.toList_push, List.append_assoc,
            List.singleton_append]

theorem expressions_gives {closing : Token.Kind}
    (closes : closing = .rightParen ∨ closing = .rightBracket) {tokens rest : Tokens}
    {items : List Node} (derived : Grammar.Listed E closing tokens.tail items rest) :
    Gives settled broken (expressions expression closing) tokens items rest := by
  generalize behind : tokens.tail = input at derived
  cases derived with
  | empty isClosing =>
      refine .upcoming fun token same => ?_
      rw [if_pos (by rw [same, behind]; exact isClosing)]
      refine .advance (.pure ⟨fun _ => rfl, ?_⟩)
      rw [behind, List.tail_cons]
  | @items token input between rest item items first others isClosing =>
      have begins : kindOf input ≠ closing := by
        rcases closes with rfl | rfl
        · exact reads.begins_not first (by decide)
        · exact reads.begins_not first (by decide)
      have stops : Stops loosest (token :: rest) := by
        refine .closing ?_
        rcases closes with rfl | rfl <;> simp [isClosing]
      have noComma : kindOf (token :: rest) ≠ .comma := by
        change token.kind ≠ .comma
        rw [isClosing]
        rcases closes with rfl | rfl <;> exact nofun
      refine .upcoming fun upcoming same => ?_
      rw [if_neg (by rw [same, behind]; exact begins)]
      refine .advance ?_
      rw [behind]
      refine .bind (reads.gives first (more_stops others stops)) ?_
      intro found place _ given
      obtain ⟨same, placed⟩ := given
      refine .remaining fun turns enough => ?_
      refine .bind (moreExpressions_accepts reads others stops noComma placed enough) ?_
      intro nodes last _ given
      obtain ⟨listed, behind⟩ := given
      refine .expect behind isClosing (.pure ⟨fun settles => ?_, rfl⟩)
      rw [listed settles, same settles, List.singleton_append]

omit reads in
theorem pairs_stop {turns : Nat} {found : Array (Node × Node)} {tokens : Tokens}
    (closes : kindOf tokens.tail = .rightBrace) :
    Accepts broken (pairs expression turns found) tokens fun result place =>
      result = found ∧ place = tokens := by
  cases turns with
  | zero => exact .pure ⟨rfl, rfl⟩
  | succ turns =>
      refine .upcoming fun token same => ?_
      rw [if_pos (same.trans closes)]
      exact .pure ⟨rfl, rfl⟩

/-- One turn of the loop over pairs, up to the value. -/
theorem entry_accepts {input rest : Tokens} {pair : Node × Node}
    (entry : Grammar.Entry E input pair rest) (stops : Stops loosest rest)
    {tokens : Tokens} (behind : tokens.tail = input) {turns : Nat} {found : Array (Node × Node)}
    {last : Array (Node × Node) → Tokens → Prop}
    (onward : ∀ given place, (settled → given = pair) → place.length < tokens.length →
      place.tail = rest → Accepts broken (do
        if (← upcoming).kind ≠ .rightBrace then expect .comma
        pairs expression turns (found.push given)) place last) :
    Accepts broken (pairs expression (turns + 1) found) tokens last := by
  cases entry with
  | pair named isColon given =>
      refine .upcoming fun token same => ?_
      rw [if_neg (by rw [same, behind]; exact reads.begins_not named (by decide))]
      refine .advance ?_
      rw [behind]
      refine .bind (reads.gives named (.closing (by simp [isColon]))) ?_
      intro key place keySuffix keyGiven
      obtain ⟨sameKey, keyPlaced⟩ := keyGiven
      refine .expect keyPlaced isColon (.advance ?_)
      rw [List.tail_cons]
      refine .bind (reads.gives given stops) ?_
      intro value last valueSuffix valueGiven
      obtain ⟨sameValue, valuePlaced⟩ := valueGiven
      refine onward (key, value) last ?_ ?_ valuePlaced
      · exact fun settles => Prod.ext (sameKey settles) (sameValue settles)
      · have bound := valueSuffix.length_le
        have keyBound := keySuffix.length_le
        have keyWhole := congrArg List.length keyPlaced
        have whole := congrArg List.length behind
        simp only [List.length_tail, List.length_cons] at keyWhole whole
        omega

theorem entry_turns {input rest : Tokens} {pair : Node × Node} (entry : Grammar.Entry E input pair rest)
    {tokens : Tokens} (behind : tokens.tail = input) {turns : Nat}
    (enough : tokens.length ≤ turns) : ∃ fewer, turns = fewer + 1 := by
  cases turns with
  | succ fewer => exact ⟨fewer, rfl⟩
  | zero =>
      have empty := List.length_eq_zero_iff.mp (Nat.le_zero.mp enough)
      subst empty behind
      exact absurd (entry.mono reads.derived).begins (by decide)

theorem pairs_accepts {input rest : Tokens} {entries : List (Node × Node)}
    (run : Run E input entries rest) (closes : kindOf rest = .rightBrace) {tokens : Tokens}
    (behind : tokens.tail = input) {turns : Nat} {found : Array (Node × Node)}
    (enough : tokens.length ≤ turns) :
    Accepts broken (pairs expression turns found) tokens fun result place =>
      (settled → result.toList = found.toList ++ entries) ∧ place.tail = rest := by
  induction run generalizing tokens turns found with
  | none =>
      subst behind
      refine (pairs_stop closes).weaken fun result place given => ?_
      obtain ⟨rfl, rfl⟩ := given
      exact ⟨fun _ => (List.append_nil _).symm, rfl⟩
  | @last input rest pair entry =>
      obtain ⟨closing, others, rfl, isClosing⟩ := Grammar.exists_cons closes nofun
      obtain ⟨turns, rfl⟩ := entry_turns reads entry behind enough
      refine entry_accepts reads entry (.closing (by simp [isClosing])) behind ?_
      intro given place same shorter placed
      refine .upcoming fun next nextSame => ?_
      dsimp only
      rw [if_neg (by rw [nextSame, placed]; exact not_not_intro isClosing)]
      have stopped : kindOf place.tail = .rightBrace := placed ▸ isClosing
      refine (pairs_stop stopped).weaken fun result last found => ?_
      obtain ⟨rfl, rfl⟩ := found
      refine ⟨fun settles => ?_, placed⟩
      rw [same settles, Array.toList_push]
  | @next comma input between rest pair pairs entry separator others ih =>
      obtain ⟨turns, rfl⟩ := entry_turns reads entry behind enough
      refine entry_accepts reads entry (.closing (by simp [separator])) behind ?_
      intro given place same shorter placed
      refine .upcoming fun next nextSame => ?_
      dsimp only
      rw [if_pos (by rw [nextSame, placed]; change comma.kind ≠ _; rw [separator]; exact nofun)]
      have fewer : (comma :: between).length ≤ turns := by
        have whole := congrArg List.length placed
        simp only [List.length_tail, List.length_cons] at whole ⊢
        omega
      refine .expect placed separator ((ih closes rfl fewer).weaken fun result last found => ?_)
      obtain ⟨listed, behind⟩ := found
      refine ⟨fun settles => ?_, behind⟩
      rw [listed settles, same settles, Array.toList_push, List.append_assoc, List.singleton_append]

theorem hash_gives {opening : Token} {input rest : Tokens} {entries : List (Node × Node)}
    (derived : Grammar.Entries E input entries rest) :
    Gives settled broken (hash expression opening) (opening :: input) (.hash opening entries)
      rest := by
  obtain ⟨closing, closes, run⟩ := entries_run derived
  refine .remaining fun turns enough => ?_
  refine .bind (pairs_accepts reads run closes rfl enough) ?_
  intro found place _ given
  obtain ⟨listed, behind⟩ := given
  exact .expect behind closes (.pure ⟨fun settles => congrArg (Node.hash opening) (listed settles), rfl⟩)

omit reads in
theorem parameter_accepts {tokens rest : Tokens} {name : Identifier}
    (named : Grammar.Name tokens.tail name rest) :
    Accepts broken parameter tokens fun found place => found = name ∧ place.tail = rest := by
  generalize behind : tokens.tail = input at named
  cases named with
  | identifier rest isName => exact .expect behind isName (.current (.pure ⟨rfl, rfl⟩))

omit reads in
theorem moreParameters_accepts {input rest : Tokens} {names : List Identifier}
    (derived : Grammar.More Grammar.Name input names rest) (noComma : kindOf rest ≠ .comma)
    {tokens : Tokens} (behind : tokens.tail = input) {turns : Nat} {found : Array Identifier}
    (enough : tokens.length ≤ turns) :
    Accepts broken (moreParameters turns found) tokens fun result place =>
      result.toList = found.toList ++ names ∧ place.tail = rest := by
  induction derived generalizing tokens turns found with
  | none =>
      have all : found.toList = found.toList ++ [] := (List.append_nil _).symm
      cases turns with
      | zero => exact .pure ⟨all, behind⟩
      | succ turns =>
          refine .upcoming fun token same => ?_
          rw [if_neg (by rw [same, behind]; exact noComma)]
          exact .pure ⟨all, behind⟩
  | @next comma input between rest name names separator first others ih =>
      have whole := congrArg List.length behind
      simp only [List.length_tail, List.length_cons] at whole
      cases turns with
      | zero => omega
      | succ turns =>
          refine .upcoming fun token same => ?_
          rw [if_pos (by rw [same, behind]; exact separator)]
          refine .advance ?_
          rw [behind]
          refine .bind (parameter_accepts first) ?_
          intro given place suffix named
          obtain ⟨rfl, behind'⟩ := named
          have bound := suffix.length_le
          rw [List.length_cons] at bound
          refine (ih noComma behind' (by omega)).weaken fun result last found => ?_
          obtain ⟨listed, placed⟩ := found
          refine ⟨?_, placed⟩
          rw [listed, Array.toList_push, List.append_assoc, List.singleton_append]

omit reads in
theorem parameters_accepts {tokens rest : Tokens} {names : List Identifier}
    (derived : Grammar.Listed Grammar.Name .rightParen tokens.tail names rest) :
    Accepts broken parameters tokens fun found place => found = names ∧ place.tail = rest := by
  generalize behind : tokens.tail = input at derived
  cases derived with
  | empty isClosing =>
      refine .upcoming fun token same => ?_
      rw [if_pos (by rw [same, behind]; exact isClosing)]
      refine .advance (.pure ⟨rfl, ?_⟩)
      rw [behind, List.tail_cons]
  | @items token input between rest name names first others isClosing =>
      have begins : kindOf tokens.tail ≠ .rightParen := by
        rw [behind]
        cases first with
        | identifier rest isName => exact fun same => nomatch isName.symm.trans same
      have noComma : kindOf (token :: rest) ≠ .comma := fun same =>
        nomatch isClosing.symm.trans same
      refine .upcoming fun upcoming same => ?_
      rw [if_neg (by rw [same]; exact begins)]
      refine .bind (parameter_accepts (behind ▸ first)) ?_
      intro item place _ given
      obtain ⟨rfl, placed⟩ := given
      refine .remaining fun turns enough => ?_
      refine .bind (moreParameters_accepts others noComma placed enough) ?_
      intro nodes last _ given
      obtain ⟨listed, behind⟩ := given
      refine .expect behind isClosing (.pure ⟨?_, rfl⟩)
      rw [listed, List.singleton_append]

theorem braced_accepts {β : Type} {tokens input rest : Tokens} {body : Block Node}
    (behind : tokens.tail = input) (braced : Grammar.Braced E input body rest)
    {next : Block Node → Parse β} {last : β → Tokens → Prop}
    (onward : ∀ block place, (settled → block = body) → place.tail = rest →
      Accepts broken (next block) place last) :
    Accepts broken (do
        expect .leftBrace
        let block ← block expression
        next block) tokens last := by
  have opened : ∃ opening others, input = opening :: others ∧ opening.kind = .leftBrace := by
    cases braced with
    | closed opens => exact ⟨_, _, rfl, opens⟩
    | unclosed opens => exact ⟨_, _, rfl, opens⟩
  obtain ⟨opening, others, rfl, opens⟩ := opened
  refine .expect behind opens (.bind (block_gives reads braced) ?_)
  intro block place _ given
  exact onward block place given.1 given.2

omit reads in
theorem integer_gives {token : Token} {rest : Tokens} {value : Nat} (isInteger : token.kind = .integer)
    (numeral : Grammar.Numeral token.literal value) (bounded : value ≤ 0x7fffffffffffffff)
    (oversized : token.Oversized → broken (.tooManyDigits token.literal.toList.length)) :
    Gives settled broken (integer token) (token :: rest) (.integer token value) rest := by
  obtain ⟨nonempty, digits, rfl⟩ := numeral
  unfold integer
  dsimp only
  rw [if_neg]
  · split
    · rename_i tooMany
      exact .breakOff (oversized ⟨isInteger, digits, tooMany⟩)
    · rw [if_neg]
      · exact .pure ⟨fun _ => rfl, rfl⟩
      · unfold greatestInteger
        omega
  · simpa only [Bool.or_eq_true, not_or, Bool.not_eq_true, Bool.not_eq_false',
      List.isEmpty_eq_false_iff, List.all_eq_true] using ⟨nonempty, digits⟩

theorem operand_gives {token : Token} {input rest : Tokens} {node : Node}
    (derived : Grammar.Primary E (token :: input) node rest)
    (oversized : token.Oversized → broken (.tooManyDigits token.literal.toList.length))
    (noElse : token.kind = .ifKeyword → ∀ condition consequence,
      node = .conditional token condition consequence none → kindOf rest ≠ .elseKeyword) :
    Gives settled broken (operand expression) (token :: input) node rest := by
  cases derived with
  | identifier rest isName =>
      refine .current ?_
      simp only [isName]
      exact .pure ⟨fun _ => rfl, rfl⟩
  | integer rest isInteger numeral bounded =>
      refine .current ?_
      simp only [isInteger]
      exact integer_gives isInteger numeral bounded oversized
  | string rest isString =>
      refine .current ?_
      simp only [isString]
      exact .pure ⟨fun _ => rfl, rfl⟩
  | trueKeyword rest isTrue =>
      refine .current ?_
      simp only [isTrue]
      exact .pure ⟨fun _ => rfl, rfl⟩
  | falseKeyword rest isFalse =>
      refine .current ?_
      simp only [isFalse]
      exact .pure ⟨fun _ => rfl, rfl⟩
  | grouped opens grouped closes =>
      refine .current ?_
      simp only [opens]
      refine .advance (.bind (reads.gives grouped (.closing (by simp [closes]))) ?_)
      intro inner place _ given
      exact .expect given.2 closes (.pure ⟨given.1, rfl⟩)
  | conditional isIf opens tested closes consequent =>
      refine .current ?_
      simp only [isIf]
      refine .expect rfl opens (.advance ?_)
      refine .bind (reads.gives tested (.closing (by simp [closes]))) ?_
      intro condition place _ given
      refine .expect given.2 closes ?_
      refine braced_accepts reads List.tail_cons consequent ?_
      intro block last sameBlock behind
      subst behind
      refine .upcoming fun next same => ?_
      rw [if_neg (by rw [same]; exact noElse isIf _ _ rfl)]
      refine .pure ⟨fun settles => ?_, rfl⟩
      rw [given.1 settles, sameBlock settles]
  | alternative isIf opens tested closes consequent isElse alternate =>
      refine .current ?_
      simp only [isIf]
      refine .expect rfl opens (.advance ?_)
      refine .bind (reads.gives tested (.closing (by simp [closes]))) ?_
      intro condition place _ given
      refine .expect given.2 closes ?_
      refine braced_accepts reads List.tail_cons consequent ?_
      intro block last sameBlock lastBehind
      refine .upcoming fun next same => ?_
      rw [if_pos (by rw [same, lastBehind]; exact isElse)]
      refine .advance ?_
      rw [lastBehind]
      refine braced_accepts reads List.tail_cons alternate ?_
      intro other place sameOther behind
      refine .pure ⟨fun settles => ?_, behind⟩
      rw [given.1 settles, sameBlock settles, sameOther settles]
  | function isFunction opens named braced =>
      refine .current ?_
      simp only [isFunction]
      refine .expect rfl opens (.bind (parameters_accepts named) ?_)
      intro names place _ given
      obtain ⟨rfl, placed⟩ := given
      refine braced_accepts reads placed braced fun block last sameBlock behind => ?_
      refine .pure ⟨fun settles => ?_, behind⟩
      rw [sameBlock settles]
  | array opens listed =>
      refine .current ?_
      simp only [opens]
      refine .bind (expressions_gives reads (.inr rfl) listed) ?_
      exact fun items place _ given => .pure ⟨fun settles => congrArg _ (given.1 settles), given.2⟩
  | hash opens listed =>
      refine .current ?_
      simp only [opens]
      exact hash_gives reads listed

theorem call_gives {opening : Token} {input rest : Tokens} {arguments : List Node} {left : Node}
    (opens : opening.kind = .leftParen)
    (listed : Grammar.Listed E .rightParen input arguments rest) :
    Gives settled broken (extension expression left) (opening :: input)
      (.call opening left arguments) rest := by
  refine .current ?_
  simp only [opens]
  refine .bind (expressions_gives reads (.inl rfl) listed) ?_
  exact fun values place _ given => .pure ⟨fun settles => congrArg _ (given.1 settles), given.2⟩

theorem index_gives {opening closing : Token} {input rest : Tokens} {position left : Node}
    (opens : opening.kind = .leftBracket) (selected : E input position (closing :: rest))
    (closes : closing.kind = .rightBracket) :
    Gives settled broken (extension expression left) (opening :: input)
      (.index opening left position) rest := by
  refine .current ?_
  simp only [opens]
  refine .advance (.bind (reads.gives selected (.closing (by simp [closes]))) ?_)
  intro value place _ given
  exact .expect given.2 closes (.pure ⟨fun settles => congrArg _ (given.1 settles), rfl⟩)

omit reads in
theorem binary_accepts {operator : Token} {input : Tokens} {left : Node}
    {accepted last : Node → Tokens → Prop} (isOperator : operator.kind ∈ Grammar.binaryOperators)
    (read : Accepts broken (expression (bindingPower operator.kind)) input accepted)
    (onward : ∀ right place, accepted right place →
      last (.binary operator operator.literal left right) place) :
    Accepts broken (extension expression left) (operator :: input) last := by
  refine .current ?_
  split
  · rename_i opens
    exact absurd (opens ▸ isOperator) (by decide)
  · rename_i opens
    exact absurd (opens ▸ isOperator) (by decide)
  · exact .advance (.bind read fun right place _ given => .pure (onward right place given))

omit reads in
theorem unary_accepts {operator : Token} {input : Tokens} {accepted last : Node → Tokens → Prop}
    (isOperator : operator.kind ∈ Grammar.unaryOperators)
    (read : Accepts broken (expression unaryPower) input accepted)
    (onward : ∀ operand place, accepted operand place →
      last (.unary operator operator.literal operand) place) :
    Accepts broken (operand expression) (operator :: input) last := by
  have applied : Accepts broken (do
        advance
        let operand ← expression unaryPower
        return Node.unary operator operator.literal operand) (operator :: input) last :=
    .advance (.bind read fun operand place _ given => .pure (onward operand place given))
  refine .current ?_
  simp only [Grammar.unaryOperators, List.mem_cons, List.not_mem_nil, or_false] at isOperator
  rcases isOperator with isBang | isMinus
  · simp only [isBang]
    exact applied
  · simp only [isMinus]
    exact applied

omit reads in
/-- One turn of the loop over operators. -/
theorem extensions_turn {power turns : Nat} {place input : Tokens} {left : Node} {opening : Token}
    {accepted last : Node → Tokens → Prop} (behind : place.tail = opening :: input)
    (binds : power < bindingPower opening.kind)
    (read : Accepts broken (extension expression left) (opening :: input) accepted)
    (enough : place.length ≤ turns + 1)
    (onward : ∀ longer next, next.length ≤ turns → accepted longer next →
      Accepts broken (extensions expression power turns longer) next last) :
    Accepts broken (extensions expression power (turns + 1) left) place last := by
  refine .upcoming fun token same => ?_
  rw [if_pos (by rw [same, behind]; exact binds)]
  refine .advance ?_
  rw [behind]
  refine .bind read fun longer next suffix given => onward longer next ?_ given
  have whole := congrArg List.length behind
  have bound := suffix.length_le
  rw [List.length_tail, List.length_cons] at whole
  rw [List.length_cons] at bound
  omega

omit reads in
theorem extensions_stop {power turns : Nat} {place : Tokens} {left : Node}
    (stops : bindingPower (kindOf place.tail) ≤ power) :
    Accepts broken (extensions expression power turns left) place fun found last =>
      found = left ∧ last = place := by
  cases turns with
  | zero => exact .pure ⟨rfl, rfl⟩
  | succ turns =>
      refine .upcoming fun token same => ?_
      rw [if_neg (by rw [same]; exact Nat.not_lt.mpr stops)]
      exact .pure ⟨rfl, rfl⟩

omit reads in
theorem suffix_binds {power : Nat} (most : power ≤ unaryPower) {opening : Token}
    (opens : opening.kind = .leftParen ∨ opening.kind = .leftBracket) :
    power < bindingPower opening.kind := by
  refine Nat.lt_of_le_of_lt most ?_
  rcases opens with same | same
  · rw [same]
    decide
  · rw [same]
    decide

end Forms

theorem programForm_accepts {settled : Prop} {broken : Breakoff → Prop} {depth : Nat}
    {E : Tokens → Node → Tokens → Prop} (reads : Handles settled broken (expression depth) E)
    {tokens : Tokens} {body : List Node} (derived : Grammar.Statements E tokens body []) :
    Accepts broken (programForm depth) tokens fun found _ =>
      ∃ token, settled → found = .program ⟨token, body⟩ := by
  refine .currentKind fun token _ => .remaining fun turns enough => ?_
  have opened : ∀ kind : Token.Kind, false = true → kind ∈ Grammar.noBeginnings :=
    fun _ impossible => nomatch impossible
  refine .bind (statements_accepts reads derived (.inl rfl) opened enough) ?_
  intro nodes place _ given
  refine .pure ⟨token, fun settles => ?_⟩
  rw [given.1 settles]
  rfl

end Parse

end MonkeyLang
