import MonkeyLang.Proofs.Syntax.Derivation
import MonkeyLang.Proofs.Syntax.Ranking

namespace MonkeyLang

open Grammar (Tokens kindOf)

/-- An integer that is written with too many digits. -/
structure Token.Oversized (token : Token) : Prop where
  isInteger : token.kind = .integer
  digits : ∀ digit ∈ token.literal.toList, Token.isDigit digit = true
  tooMany : Parse.digitLimit < token.literal.toList.length

namespace Parse

/-! # What the parser reads is derived by the grammar -/

theorem bindingPower_continuation {kind : Token.Kind} (binds : bindingPower kind ≤ loosest) :
    kind ∉ Grammar.continuations := by
  intro member
  simp only [Grammar.continuations, Grammar.binaryOperators, List.cons_append, List.nil_append,
    List.mem_cons, List.not_mem_nil, or_false] at member
  rcases member with rfl | rfl | rfl | rfl | rfl | rfl | rfl | rfl | rfl | rfl <;>
    simp [bindingPower, loosest] at binds

/-- What an expression that was read up to `place` under a power is. -/
structure Reading (E : Nat → Tokens → Node → Tokens → Prop) (power : Nat) (tokens : Tokens)
    (node : Node) (place : Tokens) : Prop where
  expression : E power tokens node place.tail
  stops : bindingPower (kindOf place.tail) ≤ power

/-- Entries as the loop over them finds them: behind an entry there is a comma, or the loop ends. -/
inductive Run (E : Tokens → Node → Tokens → Prop) : Tokens → List (Node × Node) → Tokens → Prop
  | none (rest : Tokens) : Run E rest [] rest
  | last {input rest : Tokens} {pair : Node × Node} (entry : Grammar.Entry E input pair rest) :
      Run E input [pair] rest
  | next {comma : Token} {input between rest : Tokens} {pair : Node × Node}
      {pairs : List (Node × Node)} (entry : Grammar.Entry E input pair (comma :: between))
      (separator : comma.kind = .comma) (others : Run E between pairs rest) :
      Run E input (pair :: pairs) rest

/-- A comma before the end of a run can be taken as trailing. -/
theorem Run.entries {E : Tokens → Node → Tokens → Prop} {input rest : Tokens}
    {pairs : List (Node × Node)} {closing : Token} (run : Run E input pairs (closing :: rest))
    (closes : closing.kind = .rightBrace) : Grammar.Entries E input pairs rest := by
  generalize behind : closing :: rest = ends at run
  induction run with
  | none =>
      subst behind
      exact .listed (.empty closes)
  | last entry =>
      subst behind
      exact .listed (.items entry (.none _) closes)
  | next entry separator others ih =>
      cases others with
      | none =>
          subst behind
          exact .trailing entry (.none _) separator closes
      | last | next =>
          cases ih behind with
          | listed entries =>
              cases entries with
              | items first others closes =>
                  exact .listed (.items entry (.next separator first others) closes)
          | trailing first others comma closes =>
              exact .trailing entry (.next separator first others) comma closes

/-- The kinds with a binding power above the loosest are the operators. -/
theorem continuation_cases {kind : Token.Kind} (binds : loosest < bindingPower kind) :
    kind = .leftParen ∨ kind = .leftBracket ∨
      (kind ∈ Grammar.binaryOperators ∧ loosest ≤ bindingPower kind ∧
        bindingPower kind < unaryPower) := by
  cases kind <;> first
    | exact .inl rfl
    | exact .inr (.inl rfl)
    | exact .inr (.inr (by decide))
    | exact absurd binds (Nat.lt_irrefl loosest)

section Forms

variable {expression : Nat → Parse Node} {broken : Breakoff → Prop} {inside : Tokens}
  {E : Nat → Tokens → Node → Tokens → Prop}
  (reads : ∀ power tokens, loosest ≤ power → power ≤ unaryPower → tokens <:+ inside →
    Derives broken (expression power) tokens (Reading E power tokens))

include reads

theorem reads_loosest {tokens : Tokens} (within : tokens <:+ inside) :
    Derives broken (expression loosest) tokens (Reading E loosest tokens) :=
  reads loosest tokens (Nat.le_refl _) (by decide) within

omit reads in
theorem skipSemicolon_ends {tokens : Tokens} :
    Derives broken skipSemicolon tokens fun _ place =>
      bindingPower (kindOf tokens.tail) ≤ loosest → Grammar.Ending tokens.tail place.tail := by
  refine Derives.skipSemicolon.weaken (fun _ => id) ?_
  intro _ place given stops
  rcases given with ⟨token, rest, behind, isSemicolon, rfl⟩ | rfl
  · rw [behind]
    exact .semicolon rest isSemicolon
  · exact .bare (bindingPower_continuation stops)

theorem letStatement_derives {token : Token} {input : Tokens} (isLet : token.kind = .letKeyword)
    (within : input <:+ inside) :
    Derives broken (letStatement expression token) (token :: input)
      fun node place => Grammar.Statement (E loosest) (token :: input) node place.tail := by
  refine .expect nofun fun name behindName nameNext isName => ?_
  refine .current (.expect nofun fun assign behindAssign assignNext isAssign => ?_)
  rw [List.tail_cons] at nameNext assignNext
  subst nameNext assignNext
  have inner : behindAssign <:+ inside :=
    ((List.suffix_cons assign _).trans (List.suffix_cons name _)).trans within
  refine .advance (.bind (reads_loosest reads inner) fun value place _ => ?_)
  refine .bind skipSemicolon_ends fun _ place _ => .pure ?_
  intro ends reading
  exact .letStatement isLet isName isAssign reading.expression (ends reading.stops)

theorem returnStatement_derives {token : Token} {input : Tokens}
    (isReturn : token.kind = .returnKeyword) (within : input <:+ inside) :
    Derives broken (returnStatement expression token) (token :: input)
      fun node place => Grammar.Statement (E loosest) (token :: input) node place.tail := by
  refine .advance (.bind (reads_loosest reads within) fun value place _ => ?_)
  refine .bind skipSemicolon_ends fun _ place _ => .pure ?_
  intro ends reading
  exact .returnStatement isReturn reading.expression (ends reading.stops)

theorem expressionStatement_derives {token : Token} {input : Tokens}
    (within : token :: input <:+ inside) :
    Derives broken (expressionStatement expression token) (token :: input)
      fun node place => Grammar.Statement (E loosest) (token :: input) node place.tail := by
  refine .bind (reads_loosest reads within) fun value place _ => ?_
  refine .bind skipSemicolon_ends fun _ place _ => .pure ?_
  intro ends reading
  exact .expressionStatement reading.expression (ends reading.stops)

theorem statementForm_derives {token : Token} {input : Tokens}
    (within : token :: input <:+ inside) :
    Derives broken (statementForm expression) (token :: input)
      fun node place => Grammar.Statement (E loosest) (token :: input) node place.tail := by
  have inner : input <:+ inside := (List.suffix_cons token input).trans within
  refine .current ?_
  split
  · rename_i isLet
    exact letStatement_derives reads isLet inner
  · rename_i isReturn
    exact returnStatement_derives reads isReturn inner
  · exact expressionStatement_derives reads within

/-- A refused statement leaves an error behind, so there is nothing to derive for it. -/
theorem statement_derives {token : Token} {input : Tokens} (within : token :: input <:+ inside) :
    Derives broken (statement expression) (token :: input) fun result place =>
      ∃ node, result = some node ∧
        Grammar.Statement (E loosest) (token :: input) node place.tail := by
  intro errors cursor views same
  have met := statementForm_derives reads within errors cursor views same
  unfold statement
  split at met
  · rename_i node after ran
    obtain ⟨place, viewed, suffix, clean⟩ := met
    rw [ran]
    refine ⟨place, viewed, suffix, fun afterClean => ?_⟩
    obtain ⟨startClean, derived⟩ := clean afterClean
    exact ⟨startClean, node, rfl, derived⟩
  · rename_i error after ran
    obtain ⟨place, viewed, suffix⟩ := met
    rw [ran]
    refine ⟨place, viewed.report error, suffix, fun afterClean => ?_⟩
    simp [Cursor.report] at afterClean
  · rename_i reason after ran
    rw [ran]
    exact met

theorem statements_derives {closes : Token.Kind → Bool} {turns : Nat} {found : Array Node}
    {tokens : Tokens} (enough : tokens.length ≤ turns) (within : tokens <:+ inside) :
    Derives broken (statements expression closes turns found) tokens fun nodes place =>
      ∃ body, nodes.toList = found.toList ++ body ∧
        Grammar.Statements (E loosest) tokens body place ∧
        (closes (kindOf place) = true ∨ place = []) := by
  induction turns generalizing tokens found with
  | zero =>
      have empty : tokens = [] := List.length_eq_zero_iff.mp (Nat.le_zero.mp enough)
      exact .pure ⟨[], (List.append_nil _).symm, .none tokens, .inr empty⟩
  | succ turns ih =>
      refine .currentKind fun token same ending => ?_
      dsimp only
      split
      · rename_i stop
        rw [same] at stop
        refine .pure ⟨[], (List.append_nil _).symm, .none tokens, ?_⟩
        rcases Bool.or_eq_true_iff.mp stop with closing | isEnd
        · exact .inl closing
        · exact .inr (ending (eq_of_beq isEnd))
      · rename_i goesOn
        rw [same] at goesOn
        have present : kindOf tokens ≠ .endOfInput := by
          intro isEnd
          simp [isEnd] at goesOn
        obtain ⟨first, input, rfl, _⟩ := Grammar.exists_cons rfl present
        refine .bind (statement_derives reads within) fun result place suffix => .advance ?_
        have shorter : place.tail.length ≤ turns := by
          have bound := suffix.length_le
          simp only [List.length_tail, List.length_cons] at bound enough ⊢
          omega
        have inner := ((List.tail_suffix place).trans suffix).trans within
        refine (ih shorter inner).weaken (fun _ => id) ?_
        intro nodes behind given taken
        obtain ⟨body, listed, derived, stopped⟩ := given
        obtain ⟨node, rfl, isStatement⟩ := taken
        refine ⟨node :: body, ?_, .next isStatement derived, stopped⟩
        rw [listed, Array.toList_push, List.append_assoc, List.singleton_append]

theorem block_derives {opening : Token} {input : Tokens} (opens : opening.kind = .leftBrace)
    (within : input <:+ inside) :
    Derives broken (block expression) (opening :: input)
      fun result place => Grammar.Braced (E loosest) (opening :: input) result place.tail := by
  refine .current (.advance (.remaining fun turns enough => ?_))
  refine .bind (statements_derives reads enough within) fun nodes place _ => .pure ?_
  intro given
  obtain ⟨body, listed, derived, closed | ended⟩ := given
  · obtain ⟨closing, rest, rfl, closes⟩ := Grammar.exists_cons (eq_of_beq closed) nofun
    simp only [listed, List.nil_append, List.tail_cons]
    exact .closed opens derived closes
  · subst ended
    simp only [listed, List.nil_append, List.tail_nil]
    exact .unclosed opens derived

/-! ## Items in a row -/

theorem moreExpressions_derives {turns : Nat} {found : Array Node} {tokens : Tokens}
    (enough : tokens.length ≤ turns) (within : tokens.tail <:+ inside) :
    Derives broken (moreExpressions expression turns found) tokens fun nodes place =>
      ∃ items, nodes.toList = found.toList ++ items ∧
        Grammar.More (E loosest) tokens.tail items place.tail := by
  induction turns generalizing tokens found with
  | zero => exact .pure ⟨[], (List.append_nil _).symm, .none _⟩
  | succ turns ih =>
      refine .upcoming fun token same => ?_
      split
      · rename_i isComma
        obtain ⟨comma, input, behind, isComma⟩ :=
          Grammar.exists_cons (same.symm.trans isComma) nofun
        rw [behind] at within
        refine .advance (.advance ?_)
        rw [behind, List.tail_cons]
        have inner := (List.suffix_cons comma input).trans within
        refine .bind (reads_loosest reads inner) fun item place suffix => ?_
        have shorter : place.length ≤ turns := by
          have bound := suffix.length_le
          have whole := congrArg List.length behind
          simp only [List.length_tail, List.length_cons] at whole
          omega
        have within' := ((List.tail_suffix place).trans suffix).trans inner
        refine (ih shorter within').weaken (fun _ => id) ?_
        intro nodes last given reading
        obtain ⟨items, listed, derived⟩ := given
        refine ⟨item :: items, ?_, .next isComma reading.expression derived⟩
        rw [listed, Array.toList_push, List.append_assoc, List.singleton_append]
      · exact .pure ⟨[], (List.append_nil _).symm, .none _⟩

theorem expressions_derives {closing : Token.Kind} (proper : closing ≠ .endOfInput)
    {tokens : Tokens} (within : tokens.tail <:+ inside) :
    Derives broken (expressions expression closing) tokens fun items place =>
      Grammar.Listed (E loosest) closing tokens.tail items place.tail := by
  refine .upcoming fun token same => ?_
  split
  · rename_i closes
    obtain ⟨token, rest, behind, closes⟩ := Grammar.exists_cons (same.symm.trans closes) proper
    refine .advance (.pure ?_)
    rw [behind]
    exact .empty closes
  · refine .advance (.bind (reads_loosest reads within) fun first place suffix => ?_)
    refine .remaining fun turns enough => ?_
    have inner := ((List.tail_suffix place).trans suffix).trans within
    refine .bind (moreExpressions_derives reads enough inner) fun nodes behind _ => ?_
    refine .expect proper fun token rest next closes => .pure ?_
    intro given reading
    obtain ⟨items, listed, derived⟩ := given
    simp only [listed, List.tail_cons, List.singleton_append]
    exact .items reading.expression (next ▸ derived) closes

/-- A pair is read with the comma behind it unless the closing brace comes next, and then no other
pair is read. -/
theorem pairs_derives {turns : Nat} {found : Array (Node × Node)} {tokens : Tokens}
    (enough : tokens.length ≤ turns) (within : tokens.tail <:+ inside) :
    Derives broken (pairs expression turns found) tokens fun result place =>
      ∃ entries, result.toList = found.toList ++ entries ∧
        (kindOf tokens.tail = .rightBrace → entries = [] ∧ place = tokens) ∧
        Run (E loosest) tokens.tail entries place.tail := by
  induction turns generalizing tokens found with
  | zero => exact .pure ⟨[], (List.append_nil _).symm, fun _ => ⟨rfl, rfl⟩, .none _⟩
  | succ turns ih =>
      refine .upcoming fun token same => ?_
      split
      · exact .pure ⟨[], (List.append_nil _).symm, fun _ => ⟨rfl, rfl⟩, .none _⟩
      · rename_i goesOn
        rw [same] at goesOn
        refine .advance (.bind (reads_loosest reads within) fun key place keySuffix => ?_)
        refine .expect nofun fun colon input colonNext isColon => .advance ?_
        rw [List.tail_cons]
        have inputSuffix : input <:+ tokens.tail := by
          refine List.IsSuffix.trans ?_ keySuffix
          exact (List.suffix_cons colon input).trans (colonNext ▸ List.tail_suffix place)
        refine .bind (reads_loosest reads (inputSuffix.trans within)) fun value last suffix => ?_
        have lastSuffix := suffix.trans inputSuffix
        have bound : last.length ≤ turns := by
          have := lastSuffix.length_le
          have := congrArg List.length colonNext
          have := keySuffix.length_le
          simp only [List.length_tail, List.length_cons] at *
          omega
        have inner := ((List.tail_suffix last).trans lastSuffix).trans within
        refine .upcoming fun next nextSame => ?_
        dsimp only
        split
        · refine .expect nofun fun comma behind commaNext isComma => ?_
          have shorter : (comma :: behind).length ≤ turns := by
            have := congrArg List.length commaNext
            simp only [List.length_tail] at this
            omega
          have inner' : behind <:+ inside :=
            (List.suffix_cons comma behind).trans (commaNext ▸ inner)
          refine (ih shorter inner').weaken (fun _ => id) ?_
          intro result place' given valueReading keyReading
          obtain ⟨entries, listed, _, run⟩ := given
          refine ⟨(key, value) :: entries, ?_, fun closes => absurd closes goesOn, ?_⟩
          · rw [listed, Array.toList_push, List.append_assoc, List.singleton_append]
          · have named := colonNext ▸ keyReading.expression
            have given := commaNext ▸ valueReading.expression
            exact .next (.pair named isColon given) isComma run
        · rename_i closes
          have closes := nextSame.symm.trans (Decidable.not_not.mp closes)
          refine (ih bound inner).weaken (fun _ => id) ?_
          intro result place' given valueReading keyReading
          obtain ⟨entries, listed, stopped, _⟩ := given
          obtain ⟨rfl, rfl⟩ := stopped closes
          refine ⟨[(key, value)], ?_, fun closes => absurd closes goesOn, ?_⟩
          · rw [listed, Array.toList_push, List.append_nil]
          · exact .last (.pair (colonNext ▸ keyReading.expression) isColon valueReading.expression)

theorem hash_derives {opening : Token} {input : Tokens} (opens : opening.kind = .leftBrace)
    (within : input <:+ inside) :
    Derives broken (hash expression opening) (opening :: input)
      fun node place => Grammar.Primary (E loosest) (opening :: input) node place.tail := by
  refine .remaining fun turns enough => ?_
  refine .bind (pairs_derives reads enough within) fun found place _ => ?_
  refine .expect nofun fun closing rest next closes => .pure ?_
  intro given
  obtain ⟨entries, listed, _, run⟩ := given
  simp only [listed, List.nil_append, List.tail_cons]
  exact .hash opens ((next ▸ run).entries closes)

theorem grouped_derives {opening : Token} {input : Tokens} (opens : opening.kind = .leftParen)
    (within : input <:+ inside) :
    Derives broken (grouped expression) (opening :: input)
      fun node place => Grammar.Primary (E loosest) (opening :: input) node place.tail := by
  refine .advance (.bind (reads_loosest reads within) fun inner place _ => ?_)
  refine .expect nofun fun closing rest next closes => .pure fun reading => ?_
  exact .grouped opens (next ▸ reading.expression) closes

theorem conditional_derives {keyword : Token} {input : Tokens} (isIf : keyword.kind = .ifKeyword)
    (within : input <:+ inside) :
    Derives broken (conditional expression keyword) (keyword :: input) fun node place =>
      Grammar.Primary (E loosest) (keyword :: input) node place.tail ∧
        ∀ condition consequence, node = .conditional keyword condition consequence none →
          kindOf place.tail ≠ .elseKeyword := by
  refine .expect nofun fun opening test openingNext opens => .advance ?_
  rw [List.tail_cons] at openingNext ⊢
  subst openingNext
  have testWithin := (List.suffix_cons opening test).trans within
  refine .bind (reads_loosest reads testWithin) fun condition place placeSuffix => ?_
  refine .expect nofun fun closing behind closingNext closes => ?_
  refine .expect nofun fun brace body braceNext opensBody => ?_
  rw [List.tail_cons] at braceNext
  subst braceNext
  have braceWithin : brace :: body <:+ inside := by
    refine List.IsSuffix.trans ?_ (placeSuffix.trans testWithin)
    exact (List.suffix_cons closing _).trans (closingNext ▸ List.tail_suffix place)
  have bodyWithin := (List.suffix_cons brace body).trans braceWithin
  refine .bind (block_derives reads opensBody bodyWithin) fun consequence last lastSuffix => ?_
  refine .upcoming fun next nextSame => ?_
  split
  · rename_i isElse
    obtain ⟨otherwise, rest, elseNext, isElse⟩ :=
      Grammar.exists_cons (nextSame.symm.trans isElse) nofun
    refine .advance ?_
    rw [elseNext]
    refine .expect nofun fun brace' body' braceNext' opensBody' => ?_
    rw [List.tail_cons] at braceNext'
    subst braceNext'
    have otherWithin : body' <:+ inside := by
      refine List.IsSuffix.trans ?_ (lastSuffix.trans braceWithin)
      refine List.IsSuffix.trans ?_ (elseNext ▸ List.tail_suffix last)
      exact (List.suffix_cons brace' body').trans (List.suffix_cons otherwise _)
    refine .bind (block_derives reads opensBody' otherWithin) fun alternative end' _ => .pure ?_
    intro alternate consequent reading
    refine ⟨?_, fun _ _ same => nomatch same⟩
    exact .alternative isIf opens (closingNext ▸ reading.expression) closes
      (elseNext ▸ consequent) isElse alternate
  · rename_i noElse
    rw [nextSame] at noElse
    refine .pure fun consequent reading => ⟨?_, fun _ _ _ => noElse⟩
    exact .conditional isIf opens (closingNext ▸ reading.expression) closes consequent

omit reads in
theorem parameter_derives {tokens : Tokens} :
    Derives broken parameter tokens
      fun name place => Grammar.Name tokens.tail name place.tail := by
  refine .expect nofun fun token rest next isName => .current (.pure ?_)
  rw [next]
  exact .identifier rest isName

omit reads in
theorem moreParameters_derives {turns : Nat} {found : Array Identifier} {tokens : Tokens}
    (enough : tokens.length ≤ turns) :
    Derives broken (moreParameters turns found) tokens fun result place =>
      ∃ names, result.toList = found.toList ++ names ∧
        Grammar.More Grammar.Name tokens.tail names place.tail := by
  induction turns generalizing tokens found with
  | zero => exact .pure ⟨[], (List.append_nil _).symm, .none _⟩
  | succ turns ih =>
      refine .upcoming fun token same => ?_
      split
      · rename_i isComma
        obtain ⟨comma, input, behind, isComma⟩ :=
          Grammar.exists_cons (same.symm.trans isComma) nofun
        refine .advance (.bind parameter_derives fun name place suffix => ?_)
        have shorter : place.length ≤ turns := by
          have bound := suffix.length_le
          have whole := congrArg List.length behind
          simp only [List.length_tail, List.length_cons] at whole bound
          omega
        refine (ih shorter).weaken (fun _ => id) ?_
        intro result last given named
        obtain ⟨names, listed, derived⟩ := given
        rw [behind] at named ⊢
        refine ⟨name :: names, ?_, .next isComma named derived⟩
        rw [listed, Array.toList_push, List.append_assoc, List.singleton_append]
      · exact .pure ⟨[], (List.append_nil _).symm, .none _⟩

omit reads in
theorem parameters_derives {tokens : Tokens} :
    Derives broken parameters tokens fun names place =>
      Grammar.Listed Grammar.Name .rightParen tokens.tail names place.tail := by
  refine .upcoming fun token same => ?_
  split
  · rename_i closes
    obtain ⟨token, rest, behind, closes⟩ := Grammar.exists_cons (same.symm.trans closes) nofun
    refine .advance (.pure ?_)
    rw [behind]
    exact .empty closes
  · refine .bind parameter_derives fun first place _ => ?_
    refine .remaining fun turns enough => ?_
    refine .bind (moreParameters_derives enough) fun result behind _ => ?_
    refine .expect nofun fun token rest next closes => .pure ?_
    intro given named
    obtain ⟨names, listed, derived⟩ := given
    simp only [listed, List.tail_cons, List.singleton_append]
    exact .items named (next ▸ derived) closes

theorem function_derives {keyword : Token} {input : Tokens} (isFunction : keyword.kind = .fnKeyword)
    (within : input <:+ inside) :
    Derives broken (function expression keyword) (keyword :: input)
      fun node place => Grammar.Primary (E loosest) (keyword :: input) node place.tail := by
  refine .expect nofun fun opening names openingNext opens => ?_
  rw [List.tail_cons] at openingNext
  subst openingNext
  refine .bind parameters_derives fun parameters place placeSuffix => ?_
  refine .expect nofun fun brace body braceNext opensBody => ?_
  have bodyWithin : body <:+ inside := by
    refine List.IsSuffix.trans ?_ (placeSuffix.trans within)
    exact (List.suffix_cons brace body).trans (braceNext ▸ List.tail_suffix place)
  refine .bind (block_derives reads opensBody bodyWithin) fun block last _ => .pure ?_
  intro braced named
  exact .function isFunction opens (braceNext ▸ named) braced

omit reads in
theorem integer_derives {token : Token} {input : Tokens} (isInteger : token.kind = .integer)
    (oversized : token.Oversized → broken (.tooManyDigits token.literal.toList.length)) :
    Derives broken (integer token) (token :: input) fun node place =>
      Grammar.Primary (E loosest) (token :: input) node place.tail ∧ ¬ token.Oversized := by
  unfold integer
  dsimp only
  split
  · exact .refuse
  · rename_i numeral
    simp only [Bool.or_eq_true, not_or, Bool.not_eq_true, Bool.not_eq_false', List.isEmpty_eq_false_iff,
      List.all_eq_true] at numeral
    obtain ⟨nonempty, digits⟩ := numeral
    split
    · rename_i tooMany
      exact .breakOff (oversized ⟨isInteger, digits, tooMany⟩)
    · rename_i fewEnough
      split
      · exact .refuse
      · rename_i bounded
        refine .pure ⟨.integer input isInteger ⟨nonempty, digits, rfl⟩ ?_,
          fun oversized => fewEnough oversized.tooMany⟩
        have within := Int.not_lt.mp bounded
        unfold greatestInteger at within
        omega

/-- What is read up to the first operator, where no integer has too many digits. -/
abbrev Beginning (E : Nat → Tokens → Node → Tokens → Prop) (tokens : Tokens) (node : Node)
    (place : Tokens) : Prop :=
  Grammar.Begins (¬ ·.Oversized) E tokens node place.tail

theorem unary_derives {operator : Token} {input : Tokens}
    (isOperator : operator.kind ∈ Grammar.unaryOperators) (within : input <:+ inside) :
    Derives broken (do
        advance
        let operand ← expression unaryPower
        return .unary operator operator.literal operand)
      (operator :: input) (Beginning E (operator :: input)) := by
  refine .advance (.bind (reads unaryPower input (by decide) (Nat.le_refl _) within) ?_)
  exact fun operand place _ => .pure fun reading => .unary isOperator reading.expression

omit reads in
theorem operand_nil {errors : Errors} :
    Meets (operand expression) [] errors (fun _ _ _ => False) (· <:+ []) broken := by
  refine .currentKind fun token same _ => ?_
  rw [show token.kind = .endOfInput from same]
  exact .refuse (List.suffix_refl [])

omit reads in
/-- Of the primaries only integers and conditionals meet a further condition. -/
theorem primary_begins {token : Token} {input : Tokens} {action : Parse Node}
    (other : token.kind ≠ .integer ∧ token.kind ≠ .ifKeyword)
    (derives : Derives broken action (token :: input) fun node place =>
      Grammar.Primary (E loosest) (token :: input) node place.tail) :
    Derives broken action (token :: input) (Beginning E (token :: input)) := by
  refine derives.weaken (fun _ => id) fun node place primary => ?_
  exact .primary primary (fun oversized => other.1 oversized.isInteger)
    fun isIf => absurd isIf other.2

theorem operand_derives {tokens : Tokens} (within : tokens.tail <:+ inside)
    (oversized : ∀ token ∈ tokens, token.Oversized →
      broken (.tooManyDigits token.literal.toList.length)) :
    Derives broken (operand expression) tokens (Beginning E tokens) := by
  cases tokens with
  | nil => exact fun _ => operand_nil.weaken (fun _ _ _ => False.elim) (fun _ => id) fun _ => id
  | cons token input =>
      refine .current ?_
      split
      · rename_i isName
        exact primary_begins (by simp [isName]) (.pure (.identifier input isName))
      · rename_i isInteger
        have reading : Derives broken (integer token) (token :: input) fun node place =>
            Grammar.Primary (E loosest) (token :: input) node place.tail ∧ ¬ token.Oversized :=
          integer_derives isInteger (oversized token List.mem_cons_self)
        refine reading.weaken (fun _ => id) ?_
        intro node place read
        obtain ⟨primary, limited⟩ := read
        exact .primary primary limited fun isIf => nomatch isInteger.symm.trans isIf
      · rename_i isString
        exact primary_begins (by simp [isString]) (.pure (.string input isString))
      · rename_i isTrue
        exact primary_begins (by simp [isTrue]) (.pure (.trueKeyword input isTrue))
      · rename_i isFalse
        exact primary_begins (by simp [isFalse]) (.pure (.falseKeyword input isFalse))
      · rename_i isBang
        exact unary_derives reads (by simp [Grammar.unaryOperators, isBang]) within
      · rename_i isMinus
        exact unary_derives reads (by simp [Grammar.unaryOperators, isMinus]) within
      · rename_i opens
        exact primary_begins (by simp [opens]) (grouped_derives reads opens within)
      · rename_i isIf
        refine (conditional_derives reads isIf within).weaken (fun _ => id) ?_
        intro node place read
        obtain ⟨primary, noElse⟩ := read
        exact .primary primary (fun oversized => nomatch isIf.symm.trans oversized.isInteger)
          fun _ => noElse
      · rename_i isFunction
        exact primary_begins (by simp [isFunction]) (function_derives reads isFunction within)
      · rename_i opens
        have items := expressions_derives reads (by decide : Token.Kind.rightBracket ≠ _) within
        refine primary_begins (by simp [opens]) (.bind items fun nodes place _ => .pure ?_)
        exact fun listed => .array opens listed
      · rename_i opens
        exact primary_begins (by simp [opens]) (hash_derives reads opens within)
      · exact .refuse

/-! ## Operators behind an operand -/

/-- An operator with what it takes in, before the operators behind that. -/
theorem extension_derives {power : Nat} {left : Node} {operator : Token} {input : Tokens}
    (binds : power < bindingPower operator.kind) (tight : loosest ≤ power)
    (within : input <:+ inside) :
    Derives broken (extension expression left) (operator :: input) fun node last =>
      ∀ whole rest, Grammar.Extends E power node last.tail whole rest →
        Grammar.Extends E power left (operator :: input) whole rest := by
  have within' : (operator :: input).tail <:+ inside := within
  unfold extension
  refine .current ?_
  rcases continuation_cases (Nat.lt_of_le_of_lt tight binds) with opens | opens | isBinary
  · simp only [opens]
    refine .bind (expressions_derives reads (by decide) within') fun arguments last _ => .pure ?_
    exact fun listed whole rest others => .call opens listed others
  · simp only [opens]
    refine .advance (.bind (reads_loosest reads within') fun position last _ => ?_)
    refine .expect nofun fun closing rest next closes => .pure ?_
    exact fun reading whole rest others =>
      .index opens (next ▸ reading.expression) closes others
  · obtain ⟨member, least, loose⟩ := isBinary
    have binary : Derives broken (do
          advance
          let right ← expression (bindingPower operator.kind)
          return .binary operator operator.literal left right) (operator :: input)
        fun node last => ∀ whole rest, Grammar.Extends E power node last.tail whole rest →
          Grammar.Extends E power left (operator :: input) whole rest := by
      refine .advance (.bind (reads _ _ least (Nat.le_of_lt loose) within') fun right last _ => .pure ?_)
      exact fun reading whole rest others => .binary member binds reading.expression others
    split
    · rename_i opens
      rw [opens] at member
      exact absurd member (by decide)
    · rename_i opens
      rw [opens] at member
      exact absurd member (by decide)
    · exact binary

theorem extensions_derives {power turns : Nat} {place : Tokens} {left : Node}
    (enough : place.length ≤ turns) (tight : loosest ≤ power) (within : place.tail <:+ inside) :
    Derives broken (extensions expression power turns left) place fun node last =>
      Grammar.Extends E power left place.tail node last.tail := by
  induction turns generalizing place left with
  | zero =>
      have empty : place = [] := List.length_eq_zero_iff.mp (Nat.le_zero.mp enough)
      subst empty
      exact .pure (.none tight)
  | succ turns ih =>
      refine .upcoming fun token same => ?_
      split
      · rename_i binds
        rw [same] at binds
        have present : kindOf place.tail ≠ .endOfInput := by
          intro isEnd
          rw [isEnd] at binds
          exact absurd binds (Nat.not_lt.mpr tight)
        obtain ⟨operator, input, behind, _⟩ := Grammar.exists_cons rfl present
        refine .advance ?_
        rw [behind] at binds within ⊢
        have inner := (List.suffix_cons operator input).trans within
        refine .bind (extension_derives reads binds tight inner) fun longer last suffix => ?_
        have shorter : last.length ≤ turns := by
          have bound := suffix.length_le
          have whole := congrArg List.length behind
          simp only [List.length_tail, List.length_cons] at whole bound
          omega
        have lastWithin := ((List.tail_suffix last).trans suffix).trans within
        refine (ih shorter lastWithin).weaken (fun _ => id) ?_
        exact fun node end' others extended => extended _ _ others
      · rename_i stops
        exact .pure (.none (same ▸ Nat.not_lt.mp stops))

end Forms

/-- Why a reading of tokens at a depth may be broken off. -/
def Breaks (depth : Nat) (tokens : Tokens) : Breakoff → Prop
  | .tooDeep => depth ≤ tokens.length
  | .tooManyDigits count => ∃ token ∈ tokens, token.Oversized ∧ token.literal.toList.length = count

/-- With enough room and no oversized integers there is no reason. -/
theorem not_breaks {depth : Nat} {tokens : Tokens} (limited : ∀ token ∈ tokens, ¬ token.Oversized)
    (room : tokens.length < depth) (reason : Breakoff) : ¬ Breaks depth tokens reason := by
  cases reason with
  | tooDeep => exact Nat.not_le.mpr room
  | tooManyDigits count =>
      rintro ⟨token, member, oversized, _⟩
      exact limited token member oversized

theorem Breaks.wider {depth : Nat} {tokens inner : Tokens} {reason : Breakoff}
    (breaks : Breaks depth inner reason) (within : inner <:+ tokens) :
    Breaks depth tokens reason := by
  cases reason with
  | tooDeep => exact Nat.le_trans breaks within.length_le
  | tooManyDigits count =>
      obtain ⟨token, member, oversized⟩ := breaks
      exact ⟨token, within.subset member, oversized⟩

theorem Breaks.inside {depth : Nat} {token : Token} {input inner : Tokens} {reason : Breakoff}
    (breaks : Breaks depth inner reason) (within : inner <:+ input) :
    Breaks (depth + 1) (token :: input) reason := by
  cases reason with
  | tooDeep => exact Nat.succ_le_succ (Nat.le_trans breaks within.length_le)
  | tooManyDigits count =>
      obtain ⟨token, member, oversized⟩ := breaks
      exact ⟨token, List.mem_cons_of_mem _ (within.subset member), oversized⟩

/-- The expressions that are read at a depth. -/
abbrev Readable (depth : Nat) : Nat → Tokens → Node → Tokens → Prop :=
  Grammar.Ranked (¬ ·.Oversized) depth

theorem expression_derives (depth power : Nat) (tokens : Tokens) (least : loosest ≤ power)
    (most : power ≤ unaryPower) :
    Derives (Breaks depth tokens) (expression depth power) tokens
      (Reading (Readable depth) power tokens) := by
  induction depth generalizing power tokens with
  | zero => exact .breakOff (Nat.zero_le _)
  | succ depth ih =>
      cases tokens with
      | nil => exact fun errors => operand_nil.bind fun _ _ _ impossible => impossible.elim
      | cons token input =>
          have reads : ∀ power inner, loosest ≤ power → power ≤ unaryPower → inner <:+ input →
              Derives (Breaks (depth + 1) (token :: input)) (expression depth power) inner
                (Reading (Readable depth) power inner) := by
            intro power inner least most within
            exact (ih power inner least most).weaken (fun _ breaks => breaks.inside within)
              fun _ _ => id
          have oversized : ∀ member ∈ token :: input, member.Oversized →
              Breaks (depth + 1) (token :: input) (.tooManyDigits member.literal.toList.length) :=
            fun member isMember oversized => ⟨member, isMember, oversized, rfl⟩
          refine .bind (operand_derives reads (List.suffix_refl input) oversized)
            fun first place suffix => ?_
          refine .remaining fun turns enough => ?_
          have placeWithin : place.tail <:+ input := by
            rcases List.suffix_cons_iff.mp suffix with rfl | shorter
            · exact List.suffix_refl input
            · exact (List.tail_suffix place).trans shorter
          refine (extensions_derives reads enough least placeWithin).weaken (fun _ => id) ?_
          intro node last extended begins
          have ranked : Readable (depth + 1) power (token :: input) node last.tail :=
            ⟨first, place.tail, begins, extended⟩
          exact ⟨ranked, ranked.stops⟩

theorem programForm_derives (depth : Nat) (tokens : Tokens) :
    Derives (Breaks depth tokens) (programForm depth) tokens fun node _ => ∃ token body,
      node = .program ⟨token, body⟩ ∧ Grammar.Statements (Readable depth loosest) tokens body [] := by
  have reads : ∀ power inner, loosest ≤ power → power ≤ unaryPower → inner <:+ tokens →
      Derives (Breaks depth tokens) (expression depth power) inner
        (Reading (Readable depth) power inner) := by
    intro power inner least most within
    exact (expression_derives depth power inner least most).weaken
      (fun _ breaks => breaks.wider within) fun _ _ => id
  refine .currentKind fun token _ _ => .remaining fun turns enough => ?_
  refine .bind (statements_derives reads enough (List.suffix_refl tokens)) fun nodes place _ => ?_
  refine .pure ?_
  intro given
  obtain ⟨body, listed, derived, impossible | rfl⟩ := given
  · cases impossible
  · exact ⟨token, body, by rw [listed]; rfl, derived⟩

end Parse

end MonkeyLang
