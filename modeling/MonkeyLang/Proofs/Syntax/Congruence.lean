import MonkeyLang.Proofs.Syntax.Agreement

namespace MonkeyLang.Parse

/-! # Readings of similar tokens agree

No form of the grammar looks at the place of a token.
-/

variable {border : Border} {reach : Nat}

/-- Similar trees, as a loop has found them. -/
abbrev Border.Found (border : Border) (found others : Array Node) : Prop :=
  List.Forall₂ (Node.Similar border.similar) found.toList others.toList

theorem push_similar {α : Type} {similar : α → α → Prop} {found others : Array α} {item other : α}
    (similars : List.Forall₂ similar found.toList others.toList) (items : similar item other) :
    List.Forall₂ similar (found.push item).toList (others.push other).toList := by
  rw [Array.toList_push, Array.toList_push]
  exact List.rel_append similars (.cons items .nil)

namespace Agree

theorem nodes_refl (node : Node) : node.Similar border.similar node := .refl border.reflexive node

theorem allNodes_refl (nodes : List Node) : List.Forall₂ (Node.Similar border.similar) nodes nodes :=
  Node.Similar.reflAll border.reflexive nodes

theorem names_refl (names : List Identifier) :
    List.Forall₂ (Identifier.Similar border.similar) names names :=
  List.forall₂_same.mpr fun name _ => .refl border.reflexive name

theorem blocks_refl (block : Block Node) :
    block.Similar border.similar (Node.Similar border.similar) block :=
  .block (border.reflexive block.token) (allNodes_refl block.statements)

theorem integer {token other : Token} (tokens : border.similar token other) :
    Agree border reach (Node.Similar border.similar) (Parse.integer token) (Parse.integer other) := by
  unfold Parse.integer
  rw [(border.spelled tokens).literal]
  dsimp only
  split
  · exact refuse _
  · split
    · exact throws _
    · split
      · exact refuse _
      · exact pure (.integer tokens _)

section Forms

variable {expression : Nat → Parse Node}
  (expressions : ∀ reach power, Agree border reach (Node.Similar border.similar) (expression power)
    (expression power))

include expressions

theorem letStatement {token other : Token} (tokens : border.similar token other) :
    Agree border reach (Node.Similar border.similar) (Parse.letStatement expression token)
      (Parse.letStatement expression other) := by
  refine (expect _).andThen (onCurrent fun name otherName names => ?_)
  refine (expect _).andThen (advanced.andThen ?_)
  refine (expressions _ _).bind nodes_refl fun value otherValue values => ?_
  exact skipSemicolon.andThen
    (pure (.letStatement tokens ⟨names, (border.spelled names).literal⟩ values))

theorem returnStatement {token other : Token} (tokens : border.similar token other) :
    Agree border reach (Node.Similar border.similar) (Parse.returnStatement expression token)
      (Parse.returnStatement expression other) := by
  refine advanced.andThen ((expressions _ _).bind nodes_refl fun value otherValue values => ?_)
  exact skipSemicolon.andThen (pure (.returnStatement tokens values))

theorem expressionStatement {token other : Token} (tokens : border.similar token other) :
    Agree border reach (Node.Similar border.similar) (Parse.expressionStatement expression token)
      (Parse.expressionStatement expression other) := by
  refine (expressions _ _).bind nodes_refl fun value otherValue values => ?_
  exact skipSemicolon.andThen (pure (.expressionStatement tokens values))

theorem statementForm :
    Agree border reach (Node.Similar border.similar) (Parse.statementForm expression)
      (Parse.statementForm expression) := by
  refine onCurrent fun token other tokens => ?_
  rw [(border.spelled tokens).kind]
  split
  · exact letStatement expressions tokens
  · exact returnStatement expressions tokens
  · exact expressionStatement expressions tokens

/-- A refusal leaves its error behind, with which the first reading is astray. -/
theorem statement :
    Agree border reach (Option.Rel (Node.Similar border.similar)) (Parse.statement expression)
      (Parse.statement expression) where
  wanes cursor := by
    have form : Agree border 0 _ _ _ := statementForm expressions
    have behind := form.wanes cursor
    unfold Parse.statement
    split <;> rename_i ran <;> rw [ran] at behind
    · exact behind
    · exact ⟨behind.tokens, behind.ending, fun clean => absurd clean (by simp [cursorOf, Cursor.report])⟩
    · exact behind
  ends first second cursors := by
    have ended := (statementForm expressions).ends first second cursors
    unfold Parse.statement
    generalize Parse.statementForm expression first = ending,
      Parse.statementForm expression second = otherEnding at ended
    cases ended with
    | done results cursors => exact .done (.some results) cursors
    | stopped stop cursors =>
        cases stop with
        | refused error => exact .done .none (cursors.report error)
        | broken reason => exact .stopped _ cursors
    | astray result _ stray => exact .astray _ _ stray
    | lost stop left _ isOpen =>
        cases stop with
        | refused error => exact .astray _ _ ⟨isOpen, .inl (by simp [Cursor.report])⟩
        | broken reason => exact .lost _ _ _ isOpen

theorem statements (closes : Token.Kind → Bool) {turns otherTurns : Nat}
    (allowed : Turns border reach turns otherTurns) {found others : Array Node}
    (similar : border.Found found others) :
    Agree border reach border.Found (Parse.statements expression closes turns found)
      (Parse.statements expression closes otherTurns others) := by
  refine loop (fun _ => rfl) (fun reach turns otherTurns ih found others similar => ?_) allowed similar
  refine onCurrent fun token other tokens => ?_
  dsimp only
  rw [(border.spelled tokens).kind]
  split
  · exact pure similar
  · refine (statement expressions).bind (fun _ => ?_) fun next otherNext nexts => ?_
    · cases ‹Option Node› with
      | none => exact .none
      | some node => exact .some (nodes_refl node)
    · refine advance (ih _ _ ?_)
      cases nexts with
      | none => exact similar
      | some nodes => exact push_similar similar nodes

theorem block :
    Agree border reach (Block.Similar border.similar (Node.Similar border.similar))
      (Parse.block expression) (Parse.block expression) := by
  refine onCurrent fun token other tokens => advanced.andThen ?_
  refine remaining fun reach turns otherTurns allowed => ?_
  refine (statements expressions _ allowed .nil).bind (fun _ => allNodes_refl _) fun _ _ bodies => ?_
  exact pure (.block tokens bodies)

theorem moreExpressions {turns otherTurns : Nat} (allowed : Turns border reach turns otherTurns)
    {found others : Array Node} (similar : border.Found found others) :
    Agree border reach border.Found (Parse.moreExpressions expression turns found)
      (Parse.moreExpressions expression otherTurns others) := by
  refine loop (fun _ => rfl) (fun reach turns otherTurns ih found others similar => ?_) allowed similar
  refine onUpcoming fun token other tokens => ?_
  rw [(border.spelled tokens).kind]
  split
  · refine advance (advanced.andThen ?_)
    refine (expressions _ _).bind nodes_refl fun item otherItem items => ?_
    exact ih _ _ (push_similar similar items)
  · exact pure similar

theorem listed (closing : Token.Kind) :
    Agree border reach (List.Forall₂ (Node.Similar border.similar))
      (Parse.expressions expression closing) (Parse.expressions expression closing) := by
  refine onUpcoming fun token other tokens => ?_
  rw [(border.spelled tokens).kind]
  split
  · exact advanced.andThen (pure .nil)
  · refine advanced.andThen ((expressions _ _).bind nodes_refl fun first otherFirst firsts => ?_)
    refine remaining fun reach turns otherTurns allowed => ?_
    refine (moreExpressions expressions allowed (.cons firsts .nil)).bind
      (fun _ => allNodes_refl _) fun _ _ items => ?_
    exact (expect _).andThen (pure items)

theorem pairs {turns otherTurns : Nat} (allowed : Turns border reach turns otherTurns)
    {found others : Array (Node × Node)}
    (similar : List.Forall₂
      (Prod.RProd (Node.Similar border.similar) (Node.Similar border.similar)) found.toList
      others.toList) :
    Agree border reach
      (fun (found others : Array (Node × Node)) => List.Forall₂
        (Prod.RProd (Node.Similar border.similar) (Node.Similar border.similar)) found.toList
        others.toList)
      (Parse.pairs expression turns found) (Parse.pairs expression otherTurns others) := by
  refine loop (fun _ => rfl) (fun reach turns otherTurns ih found others similar => ?_) allowed similar
  refine onUpcoming fun token other tokens => ?_
  rw [(border.spelled tokens).kind]
  split
  · exact pure similar
  · refine advance ((expressions _ _).bind nodes_refl fun key otherKey keys => ?_)
    refine (expect _).andThen (advanced.andThen ?_)
    refine (expressions _ _).bind nodes_refl fun value otherValue values => ?_
    have rest := ih _ _ (push_similar similar (.intro keys values))
    refine onUpcoming fun token other tokens => ?_
    rw [(border.spelled tokens).kind]
    split
    · exact (expect _).andThen rest
    · exact rest

theorem hash {token other : Token} (tokens : border.similar token other) :
    Agree border reach (Node.Similar border.similar) (Parse.hash expression token)
      (Parse.hash expression other) := by
  refine remaining fun reach turns otherTurns allowed => ?_
  refine (pairs expressions allowed .nil).bind (fun _ => Node.Similar.reflPairs border.reflexive _)
    fun _ _ found => ?_
  exact (expect _).andThen (pure (.hash tokens found))

theorem grouped :
    Agree border reach (Node.Similar border.similar) (Parse.grouped expression)
      (Parse.grouped expression) := by
  refine advanced.andThen ((expressions _ _).bind nodes_refl fun inner otherInner inners => ?_)
  exact (expect _).andThen (pure inners)

theorem conditional {token other : Token} (tokens : border.similar token other) :
    Agree border reach (Node.Similar border.similar) (Parse.conditional expression token)
      (Parse.conditional expression other) := by
  refine (expect _).andThen (advanced.andThen ?_)
  refine (expressions _ _).bind nodes_refl fun condition otherCondition conditions => ?_
  refine (expect _).andThen ((expect _).andThen ?_)
  refine (block expressions).bind blocks_refl fun consequence otherConsequence consequences => ?_
  refine onUpcoming fun next otherNext nexts => ?_
  rw [(border.spelled nexts).kind]
  split
  · refine advanced.andThen ((expect _).andThen ?_)
    refine (block expressions).bind blocks_refl fun alternative otherAlternative alternatives => ?_
    exact pure (.conditional tokens conditions consequences (.some alternatives))
  · exact pure (.conditional tokens conditions consequences .none)

omit expressions in
theorem parameter :
    Agree border reach (Identifier.Similar border.similar) Parse.parameter Parse.parameter :=
  (expect _).andThen (onCurrent fun _ _ tokens => pure ⟨tokens, (border.spelled tokens).literal⟩)

omit expressions in
theorem moreParameters {turns otherTurns : Nat} (allowed : Turns border reach turns otherTurns)
    {found others : Array Identifier}
    (similar : List.Forall₂ (Identifier.Similar border.similar) found.toList others.toList) :
    Agree border reach
      (fun (found others : Array Identifier) =>
        List.Forall₂ (Identifier.Similar border.similar) found.toList others.toList)
      (Parse.moreParameters turns found) (Parse.moreParameters otherTurns others) := by
  refine loop (fun _ => rfl) (fun reach turns otherTurns ih found others similar => ?_) allowed similar
  refine onUpcoming fun token other tokens => ?_
  rw [(border.spelled tokens).kind]
  split
  · refine advance (parameter.bind (.refl border.reflexive) fun name otherName names => ?_)
    exact ih _ _ (push_similar similar names)
  · exact pure similar

omit expressions in
theorem parameters :
    Agree border reach (List.Forall₂ (Identifier.Similar border.similar)) Parse.parameters
      Parse.parameters := by
  refine onUpcoming fun token other tokens => ?_
  rw [(border.spelled tokens).kind]
  split
  · exact advanced.andThen (pure .nil)
  · refine parameter.bind (.refl border.reflexive) fun first otherFirst firsts => ?_
    refine remaining fun reach turns otherTurns allowed => ?_
    refine (moreParameters allowed (.cons firsts .nil)).bind (fun _ => names_refl _)
      fun _ _ names => ?_
    exact (expect _).andThen (pure names)

theorem function {token other : Token} (tokens : border.similar token other) :
    Agree border reach (Node.Similar border.similar) (Parse.function expression token)
      (Parse.function expression other) := by
  refine (expect _).andThen (parameters.bind names_refl fun names otherNames similar => ?_)
  refine (expect _).andThen ((block expressions).bind blocks_refl fun body otherBody bodies => ?_)
  exact pure (.function tokens similar bodies)

theorem operand :
    Agree border reach (Node.Similar border.similar) (Parse.operand expression)
      (Parse.operand expression) := by
  refine onCurrent fun token other tokens => ?_
  obtain ⟨kind, literal⟩ := border.spelled tokens
  have applied : Agree border reach (Node.Similar border.similar)
      (do
        Parse.advance
        let operand ← expression unaryPower
        return .unary token token.literal operand)
      (do
        Parse.advance
        let operand ← expression unaryPower
        return .unary other other.literal operand) := by
    refine advanced.andThen ((expressions _ _).bind nodes_refl fun operand otherOperand operands => ?_)
    rw [literal]
    exact pure (.unary tokens _ operands)
  rw [kind]
  split
  · exact pure (.identifier ⟨tokens, literal⟩)
  · exact integer tokens
  · rw [literal]
    exact pure (.string tokens _)
  · exact pure (.boolean tokens true)
  · exact pure (.boolean tokens false)
  · exact applied
  · exact applied
  · exact grouped expressions
  · exact conditional expressions tokens
  · exact function expressions tokens
  · exact (listed expressions _).bind allNodes_refl fun _ _ items => pure (.array tokens items)
  · exact hash expressions tokens
  · exact refuse _

theorem extension {left otherLeft : Node} (lefts : left.Similar border.similar otherLeft) :
    Agree border reach (Node.Similar border.similar) (Parse.extension expression left)
      (Parse.extension expression otherLeft) := by
  refine onCurrent fun token other tokens => ?_
  obtain ⟨kind, literal⟩ := border.spelled tokens
  rw [kind]
  split
  · exact (listed expressions _).bind allNodes_refl fun _ _ supplied =>
      pure (.call tokens lefts supplied)
  · refine advanced.andThen ((expressions _ _).bind nodes_refl fun position other positions => ?_)
    exact (expect _).andThen (pure (.index tokens lefts positions))
  · refine advanced.andThen ((expressions _ _).bind nodes_refl fun right otherRight rights => ?_)
    rw [literal]
    exact pure (.binary tokens _ lefts rights)

theorem extensions (power : Nat) {turns otherTurns : Nat}
    (allowed : Turns border reach turns otherTurns) {left otherLeft : Node}
    (lefts : left.Similar border.similar otherLeft) :
    Agree border reach (Node.Similar border.similar) (Parse.extensions expression power turns left)
      (Parse.extensions expression power otherTurns otherLeft) := by
  refine loop (fun _ => rfl) (fun reach turns otherTurns ih left otherLeft lefts => ?_) allowed lefts
  refine onUpcoming fun token other tokens => ?_
  rw [(border.spelled tokens).kind]
  split
  · refine advance ((extension expressions lefts).bind nodes_refl fun _ _ longer => ?_)
    exact ih _ _ longer
  · exact pure lefts

end Forms

theorem expression (depth : Nat) (reach power : Nat) :
    Agree border reach (Node.Similar border.similar) (Parse.expression depth power)
      (Parse.expression depth power) := by
  induction depth generalizing reach power with
  | zero => exact throws _
  | succ depth ih =>
      refine (operand ih).bind nodes_refl fun first otherFirst firsts => ?_
      exact remaining fun reach turns otherTurns allowed => extensions ih power allowed firsts

theorem programForm (depth : Nat) :
    Agree border reach (Node.Similar border.similar) (Parse.programForm depth)
      (Parse.programForm depth) := by
  refine onCurrent fun token other tokens => ?_
  refine remaining fun reach turns otherTurns allowed => ?_
  refine (statements (expression depth) _ allowed .nil).bind (fun _ => allNodes_refl _)
    fun _ _ bodies => ?_
  exact pure (.program (.block tokens bodies))

end Agree

end MonkeyLang.Parse

namespace MonkeyLang.Parsed

variable {similar : Token → Token → Prop}

/-- Similar tokens are read alike from the first to the last, errors and all. -/
theorem Similar.ofTokens (reflexive : Token.Reflexive similar) (spelled : Token.Spelled similar)
    (depth : Nat) {tokens others : List Token} (tokensSimilar : List.Forall₂ similar tokens others)
    (endings : similar (Parse.endingOf tokens) (Parse.endingOf others)) :
    Similar similar (Parsed.ofTokens depth tokens) (Parsed.ofTokens depth others) := by
  let border : Parse.Border :=
    ⟨similar, reflexive, spelled, [], [], True, fun _ => ⟨rfl, rfl⟩, Nat.le_refl _⟩
  have start : border.At tokens others
      ⟨tokens, tokens.length, Parse.endingOf tokens, #[], rfl⟩
      ⟨others, others.length, Parse.endingOf others, #[], rfl⟩ :=
    ⟨(List.append_nil tokens).symm, (List.append_nil others).symm, tokensSimilar, endings, rfl⟩
  have ended := (Parse.Agree.programForm depth).ends _ _ start.cursors
  unfold Parsed.ofTokens
  generalize Parse.programForm depth ⟨tokens, _, _, _, _⟩ = ending,
    Parse.programForm depth ⟨others, _, _, _, _⟩ = otherEnding at ended
  cases ended with
  | done programs cursors => exact .read programs (congrArg Array.toList cursors.errors)
  | stopped stop cursors =>
      cases stop with
      | refused error =>
          have current := cursors.current.resolve_right fun stray => stray.1 trivial
          exact .read (.program (.block current .nil)) rfl
      | broken reason => exact .broken reason
  | astray _ _ stray => exact absurd trivial stray.1
  | lost _ _ _ isOpen => exact absurd trivial isOpen

end MonkeyLang.Parsed
