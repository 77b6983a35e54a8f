import MonkeyLang.Proofs.Evaluation.Likeness

namespace MonkeyLang

/-! # Evaluations in concord

A concord is a property of two evaluations that carries over from their parts to the whole.  The
recursion of the evaluator is gone through once, here: like trees are then evaluated in concord, and
like values applied so, in every world.
-/

/-- A property of two evaluations from a world on, together with what they end with. -/
structure Concord (setting other : Setting) extends Likeness where
  Holds : {α β : Type} → World → (World → α → β → Prop) → Eval α → Eval β → Prop
  /-- How deep the two may evaluate. -/
  Depths : Nat → Nat → Prop
  pure : ∀ {α β : Type} {world} {post : World → α → β → Prop} {result : α} {otherResult : β},
    post world result otherResult → Holds world post (Pure.pure result) (Pure.pure otherResult)
  bind : ∀ {α β γ δ : Type} {world} {middle : World → α → β → Prop} {post : World → γ → δ → Prop}
    {first : Eval α} {second : Eval β} {next : α → Eval γ} {otherNext : β → Eval δ},
    Holds world middle first second →
    (∀ grown result otherResult, Later world grown → middle grown result otherResult →
      Holds grown post (next result) (otherNext otherResult)) →
    Holds world post (first >>= next) (second >>= otherNext)
  raise : ∀ {α β : Type} {world} {post : World → α → β → Prop} (message : String)
    (origin : Option String) {site otherSite : Option Location}, Option.Rel Places site otherSite →
    Holds world post (Eval.raise (.runtime ⟨message, origin, site, none, []⟩))
      (Eval.raise (.runtime ⟨message, origin, otherSite, none, []⟩))
  deep : ∀ {α β : Type} {world} {post : World → α → β → Prop},
    Holds world post (Eval.raise .depth : Eval α) (Eval.raise .depth : Eval β)
  deeper : ∀ {depth otherDepth}, Depths (depth + 1) (otherDepth + 1) → Depths depth otherDepth
  leftDeep : ∀ {depth}, Depths 0 (depth + 1) → ∀ {α β : Type} {world} {post : World → α → β → Prop}
    (right : Eval β), Holds world post (Eval.raise .depth) right
  rightDeep : ∀ {depth}, Depths (depth + 1) 0 → ∀ {α β : Type} {world}
    {post : World → α → β → Prop} (left : Eval α), Holds world post left (Eval.raise .depth)
  create : ∀ {world make otherMake}, toLikeness.Makes world make otherMake →
    Holds world Values (Eval.create make) (Eval.create otherMake)
  fail : ∀ world message origin,
    Holds world Values (Eval.fail message origin) (Eval.fail message origin)
  lookUp : ∀ world {scope name}, reaches scope → named name →
    Holds world Values (Eval.lookUp setting scope name) (Eval.lookUp other scope name)
  define : ∀ {world scope name value otherValue}, reaches scope → named name →
    Values world value otherValue →
    Holds world Values (Eval.bind scope name value) (Eval.bind scope name otherValue)
  newScope : ∀ world {closure}, reaches closure →
    Holds world (fun _ left right => left = right ∧ reaches left) (Eval.newScope (some closure))
      (Eval.newScope (some closure))
  print : ∀ world line, Holds world (fun _ _ _ => True) (Eval.print line true) (Eval.print line true)
  locate : ∀ world {tree otherTree}, Trees tree otherTree →
    Holds world (fun _ => Places) (Eval.locate setting tree) (Eval.locate other otherTree)
  inStatement : ∀ {world statement otherStatement} scope {body otherBody},
    Trees statement otherStatement → Holds world toLikeness.Results body otherBody →
    Holds world toLikeness.Results (Eval.inStatement setting statement scope body)
      (Eval.inStatement other otherStatement scope otherBody)
  inFunction : ∀ {world} name scope {arguments otherArguments site otherSite body otherBody},
    toLikeness.Rows world arguments otherArguments → toLikeness.Sites site otherSite →
    Holds world toLikeness.Results body otherBody →
    Holds world toLikeness.Results
      (Eval.inCall setting name arguments (some scope) site do
        return some (Eval.callResult (← Eval.inFrame name scope site body)))
      (Eval.inCall other name otherArguments (some scope) otherSite do
        return some (Eval.callResult (← Eval.inFrame name scope otherSite otherBody)))
  inBuiltin : ∀ {world} name {arguments otherArguments site otherSite body otherBody},
    toLikeness.Rows world arguments otherArguments → toLikeness.Sites site otherSite →
    Holds world toLikeness.Results body otherBody →
    Holds world toLikeness.Results (Eval.inCall setting name arguments none site body)
      (Eval.inCall other name otherArguments none otherSite otherBody)

namespace Concord

variable {setting other : Setting} (concord : Concord setting other) {world : concord.World}

section Operators

variable {left right leftOperand rightOperand : Value}

theorem unary (operator : String) (values : concord.Values world left right) :
    concord.Holds world concord.Values (Eval.unary operator left) (Eval.unary operator right) := by
  have typeName := Likeness.typeName values
  have forms := concord.values values
  unfold Eval.unary
  split
  · cases forms <;> exact concord.pure (concord.boolean _ _)
  · cases forms with
    | integer => exact concord.create (.integer _)
    | _ =>
        dsimp only
        rw [typeName]
        exact concord.fail _ _ _
  · rw [typeName]
    exact concord.fail _ _ _

theorem integers (operator : String) (left right : Int) :
    concord.Holds world concord.Values (Eval.integers operator left right)
      (Eval.integers operator left right) := by
  unfold Eval.integers
  split
  all_goals try exact concord.create (.integer _)
  all_goals try exact concord.pure (concord.boolean _ _)
  · split
    · exact concord.fail _ _ _
    · exact concord.create (.integer _)
  · exact concord.fail _ _ _

theorem objects (operator : String) (lefts : concord.Values world left leftOperand)
    (rights : concord.Values world right rightOperand) :
    concord.Holds world concord.Values (Eval.objects operator left right)
      (Eval.objects operator leftOperand rightOperand) := by
  unfold Eval.objects
  rw [concord.same lefts rights, Likeness.typeName lefts, Likeness.typeName rights]
  split
  · exact concord.pure (concord.boolean _ _)
  · exact concord.pure (concord.boolean _ _)
  · exact concord.fail _ _ _

theorem binary (operator : String) (lefts : concord.Values world left leftOperand)
    (rights : concord.Values world right rightOperand) :
    concord.Holds world concord.Values (Eval.binary operator left right)
      (Eval.binary operator leftOperand rightOperand) := by
  have compared := concord.objects operator lefts rights
  have leftForms := concord.values lefts
  have rightForms := concord.values rights
  cases leftForms with
  | integer id otherId value =>
      cases rightForms with
      | integer => exact concord.integers operator _ _
      | _ => exact compared
  | string id otherId text =>
      cases rightForms with
      | string =>
          unfold Eval.binary
          dsimp only
          split
          · exact concord.create (.string _)
          · exact compared
      | _ => exact compared
  | _ => exact compared

theorem element (objects : concord.Values world left leftOperand)
    (positions : concord.Values world right rightOperand) :
    concord.Holds world concord.Values (Eval.element left right)
      (Eval.element leftOperand rightOperand) := by
  have typeName := Likeness.typeName objects
  have failing : concord.Holds world concord.Values
      (Eval.fail ("index operator not supported: " ++ left.typeName) (some "Index"))
      (Eval.fail ("index operator not supported: " ++ leftOperand.typeName) (some "Index")) := by
    rw [typeName]
    exact concord.fail _ _ _
  have objectForms := concord.values objects
  have positionForms := concord.values positions
  cases objectForms with
  | array id otherId items =>
      cases positionForms with
      | integer _ _ index =>
          unfold Eval.element
          dsimp only
          split
          · exact concord.pure (concord.null _)
          · exact concord.pure (Likeness.getD (Likeness.getElem? items _))
      | _ => exact failing
  | _ => exact failing

end Operators

theorem given {value otherValue : Eval Value}
    (values : concord.Holds world concord.Values value otherValue) :
    concord.Holds world concord.Results (do return some (← value))
      (do return some (← otherValue)) :=
  concord.bind values fun _ _ _ _ found => concord.pure (.some found)

theorem unlessSignal {result otherResult : Option Value}
    (results : concord.Results world result otherResult)
    {go otherGo : Option Value → Eval (Option Value)}
    (goes : concord.Holds world concord.Results (go result) (otherGo otherResult)) :
    concord.Holds world concord.Results (Eval.unlessSignal result go)
      (Eval.unlessSignal otherResult otherGo) := by
  cases results with
  | none => exact goes
  | @some value other values =>
      unfold Eval.unlessSignal
      dsimp only
      rw [Likeness.isSignal values]
      split
      · exact concord.pure (.some values)
      · exact goes

theorem require {tree otherTree : Node} (trees : concord.Trees tree otherTree)
    {result otherResult : Option Value} (results : concord.Results world result otherResult) :
    concord.Holds world concord.Values (Eval.require setting tree result)
      (Eval.require other otherTree otherResult) := by
  cases results with
  | some values => exact concord.pure values
  | none =>
      refine concord.bind (concord.locate world trees) fun _ _ _ _ locations => ?_
      rw [Node.OneForm.formName _ _ _ (concord.trees trees)]
      exact concord.raise _ _ (.some locations)

/-- Two evaluators treat like trees in concord. -/
abbrev Evaluators (evaluate otherEvaluate : Evaluator) : Prop :=
  ∀ (world : concord.World) {scope : ScopeId} {tree otherTree : Node}, concord.reaches scope →
    concord.Trees tree otherTree →
    concord.Holds world concord.Results (evaluate tree scope) (otherEvaluate otherTree scope)

/-- Two ways to apply values treat like values in concord. -/
abbrev Appliers (apply otherApply : Applier) : Prop :=
  ∀ {world : concord.World} {callee otherCallee : Value} {arguments otherArguments : List Value}
    {site otherSite : Option Location} (name : String), concord.Values world callee otherCallee →
    concord.Rows world arguments otherArguments → concord.Sites site otherSite →
    concord.Holds world concord.Results (apply callee arguments name site)
      (otherApply otherCallee otherArguments name otherSite)

section Nodes

variable {evaluate otherEvaluate : Evaluator} {apply otherApply : Applier}
  (evaluators : concord.Evaluators evaluate otherEvaluate) (appliers : concord.Appliers apply otherApply)
  {scope : ScopeId} (inside : concord.reaches scope)

include evaluators inside

omit evaluators inside in
theorem content_alike {statement otherStatement : Node}
    (statements : concord.Trees statement otherStatement) :
    concord.Trees (Eval.content statement) (Eval.content otherStatement) := by
  have forms := concord.trees statements
  cases forms with
  | expressionStatement _ _ expressions => exact expressions
  | _ => exact statements

theorem statements {body otherBody : List Node}
    (bodies : List.Forall₂ concord.Trees body otherBody) {previous otherPrevious : Option Value}
    (results : concord.Results world previous otherPrevious) :
    concord.Holds world concord.Results (Eval.statements setting evaluate scope body previous)
      (Eval.statements other otherEvaluate scope otherBody otherPrevious) := by
  induction bodies generalizing world previous otherPrevious with
  | nil => exact concord.pure results
  | cons first _ ih =>
      have ran := concord.inStatement scope first (evaluators world inside (concord.content_alike first))
      refine concord.bind ran fun grown _ _ later given => ?_
      cases given with
      | none => exact ih (Likeness.results_later later results)
      | @some value other values =>
          dsimp only
          rw [Likeness.isSignal values]
          split
          · exact concord.pure (.some values)
          · exact ih (.some values)

theorem expressions {nodes otherNodes : List Node}
    (alike : List.Forall₂ concord.Trees nodes otherNodes) {found otherFound : List Value}
    (values : concord.Rows world found otherFound) :
    concord.Holds world concord.Evaluated (Eval.expressions setting evaluate scope nodes found)
      (Eval.expressions other otherEvaluate scope otherNodes otherFound) := by
  induction alike generalizing world found otherFound with
  | nil => exact concord.pure (.values (List.rel_reverse values))
  | cons first _ ih =>
      refine concord.bind (evaluators world inside first) fun grown _ _ later given => ?_
      cases given with
      | none =>
          exact concord.bind (concord.require first .none) fun _ _ _ still required =>
            ih (.cons required (Likeness.rows_later (concord.later_trans later still) values))
      | @some value other given =>
          dsimp only
          rw [Likeness.isSignal given]
          split
          · exact concord.pure (.signal given)
          · exact ih (.cons given (Likeness.rows_later later values))

theorem entries {pairs otherPairs : List (Node × Node)}
    (alike : List.Forall₂ (Prod.RProd concord.Trees concord.Trees) pairs otherPairs)
    {found otherFound : List (Key × Value)} (values : concord.Entries world found otherFound) :
    concord.Holds world concord.Results (Eval.entries setting evaluate scope pairs found)
      (Eval.entries other otherEvaluate scope otherPairs otherFound) := by
  induction alike generalizing world found otherFound with
  | nil => exact concord.given (concord.create (.hash values))
  | cons first _ ih =>
      cases first with | intro keyTrees valueTrees
      refine concord.bind (evaluators world inside keyTrees) fun atKey _ _ keyLater given => ?_
      refine concord.unlessSignal given ?_
      refine concord.bind (concord.require keyTrees given) fun asked keyValue other askedLater keys => ?_
      have hashable := Likeness.toKey? keys
      generalize keyValue.toKey? = key, other.toKey? = otherKey at hashable
      cases hashable with
      | none =>
          rw [Likeness.typeName keys]
          exact concord.given (concord.fail _ _ _)
      | some keys =>
          refine concord.bind (evaluators asked inside valueTrees) fun atValue _ _ valueLater given => ?_
          refine concord.unlessSignal given ?_
          refine concord.bind (concord.require valueTrees given) fun _ _ _ still required => ?_
          have keysLater := concord.later_trans valueLater still
          have foundLater := concord.later_trans (concord.later_trans keyLater askedLater) keysLater
          exact ih (Likeness.putEntry (concord.later keysLater keys) required
            (Likeness.entries_later foundLater values))

theorem branch {block otherBlock : Block Node}
    (blocks : concord.Blocks block otherBlock) :
    concord.Holds world concord.Results
      (do
        let result ← Eval.statements setting evaluate scope block.statements none
        return some (result.getD .null))
      (do
        let result ← Eval.statements other otherEvaluate scope otherBlock.statements none
        return some (result.getD .null)) :=
  concord.bind (concord.statements evaluators inside (concord.blocks blocks) .none)
    fun _ _ _ _ given => concord.pure (.some (Likeness.getD given))

omit evaluators inside in
theorem calleeName_alike {callee otherCallee : Node} (callees : concord.Trees callee otherCallee) :
    Eval.calleeName callee = Eval.calleeName otherCallee := by
  have forms := concord.trees callees
  cases forms with
  | identifier mentioned => exact (concord.names mentioned).1
  | _ => rfl

include appliers

theorem node {tree otherTree : Node} (trees : concord.Trees tree otherTree) :
    concord.Holds world concord.Results (Eval.node setting evaluate apply tree scope)
      (Eval.node other otherEvaluate otherApply otherTree scope) := by
  have required : ∀ {world : concord.World} {result otherResult : Option Value},
      concord.Results world result otherResult →
      concord.Holds world concord.Values (Eval.require setting tree result)
        (Eval.require other otherTree otherResult) := concord.require trees
  have located := fun world => concord.locate world trees
  have forms := concord.trees trees
  cases forms with
  | program bodies | block bodies =>
      exact concord.statements evaluators inside (concord.blocks bodies) .none
  | expressionStatement _ _ expressions => exact evaluators world inside expressions
  | letStatement _ _ targets values =>
      obtain ⟨same, named⟩ := concord.names targets
      refine concord.bind (evaluators world inside values) fun _ _ _ _ result => ?_
      refine concord.unlessSignal result ?_
      refine concord.bind (required result) fun _ _ _ _ value => ?_
      rw [← same]
      exact concord.bind (concord.define inside named value) fun _ _ _ _ _ => concord.pure .none
  | returnStatement _ _ values =>
      refine concord.bind (evaluators world inside values) fun _ _ _ _ result => ?_
      refine concord.unlessSignal result ?_
      exact concord.bind (required result) fun _ _ _ _ value =>
        concord.pure (.some (concord.returned value))
  | integer _ _ value => exact concord.given (concord.create (.integer value))
  | boolean _ _ value => exact concord.pure (.some (concord.boolean _ value))
  | string _ _ value => exact concord.given (concord.create (.string value))
  | identifier mentioned =>
      obtain ⟨same, named⟩ := concord.names mentioned
      refine concord.given ?_
      rw [← same]
      exact concord.lookUp world inside named
  | unary _ _ operator operands =>
      refine concord.bind (evaluators world inside operands) fun _ _ _ _ result => ?_
      refine concord.unlessSignal result ?_
      exact concord.bind (required result) fun _ _ _ _ value =>
        concord.given (concord.unary operator value)
  | binary _ _ operator firsts seconds =>
      refine concord.bind (evaluators world inside firsts) fun _ _ _ _ left => ?_
      refine concord.unlessSignal left ?_
      refine concord.bind (evaluators _ inside seconds) fun _ _ _ afterLeft right => ?_
      refine concord.unlessSignal right ?_
      refine concord.bind (required (Likeness.results_later afterLeft left)) fun _ _ _ between leftValue => ?_
      refine concord.bind (required (Likeness.results_later between right)) fun _ _ _ afterRight rightValue => ?_
      exact concord.given (concord.binary operator (concord.later afterRight leftValue) rightValue)
  | conditional _ _ conditions consequences alternatives =>
      refine concord.bind (evaluators world inside conditions) fun _ _ _ _ result => ?_
      refine concord.unlessSignal result ?_
      refine concord.bind (required result) fun _ _ _ _ value => ?_
      rw [Likeness.isTruthy value]
      split
      · exact concord.branch evaluators inside consequences
      · cases alternatives with
        | some blocks => exact concord.branch evaluators inside blocks
        | none => exact concord.pure (.some (concord.null _))
  | function _ _ parameterNames bodies =>
      exact concord.given (concord.create (.function parameterNames bodies inside))
  | call _ _ callees supplied =>
      refine concord.bind (evaluators world inside callees) fun _ _ _ _ result => ?_
      refine concord.unlessSignal result ?_
      refine concord.bind (concord.expressions evaluators inside supplied .nil)
        fun _ _ _ afterCallee evaluated => ?_
      cases evaluated with
      | signal value => exact concord.pure (.some value)
      | values items =>
          refine concord.bind (required (Likeness.results_later afterCallee result)) fun _ _ _ between callee => ?_
          refine concord.bind (located _) fun _ _ _ afterAll location => ?_
          rw [concord.calleeName_alike callees]
          exact appliers _ (concord.later afterAll callee)
            (Likeness.rows_later (concord.later_trans between afterAll) items) (.some location)
  | array _ _ items =>
      refine concord.bind (concord.expressions evaluators inside items .nil) fun _ _ _ _ evaluated => ?_
      cases evaluated with
      | signal value => exact concord.pure (.some value)
      | values items => exact concord.given (concord.create (.array items))
  | hash _ _ pairs => exact concord.entries evaluators inside pairs .nil
  | index _ _ objects positions =>
      refine concord.bind (evaluators world inside objects) fun _ _ _ _ left => ?_
      refine concord.unlessSignal left ?_
      refine concord.bind (evaluators _ inside positions) fun _ _ _ afterLeft right => ?_
      refine concord.unlessSignal right ?_
      refine concord.bind (required (Likeness.results_later afterLeft left)) fun _ _ _ between leftValue => ?_
      refine concord.bind (required (Likeness.results_later between right)) fun _ _ _ afterRight rightValue => ?_
      exact concord.given (concord.element (concord.later afterRight leftValue) rightValue)
  | bare _ _ kind =>
      cases kind <;> exact concord.raise _ _ .none

end Nodes

/-! ## Applications -/

section Calls

variable {evaluate otherEvaluate : Evaluator} {apply otherApply : Applier}

theorem bindParameters {scope : ScopeId} (inside : concord.reaches scope)
    {parameters otherParameters : List Identifier}
    (names : List.Forall₂ concord.Names parameters otherParameters)
    {arguments otherArguments : List Value} (values : concord.Rows world arguments otherArguments) :
    concord.Holds world (fun _ _ _ => True) (Eval.bindParameters scope parameters arguments)
      (Eval.bindParameters scope otherParameters otherArguments) := by
  induction names generalizing world arguments otherArguments with
  | nil => exact concord.pure trivial
  | cons name _ ih =>
      cases values with
      | nil => exact concord.pure trivial
      | cons value rest =>
          obtain ⟨same, named⟩ := concord.names name
          unfold Eval.bindParameters
          rw [← same]
          exact concord.bind (concord.define inside named value) fun _ _ _ grown _ =>
            ih (Likeness.rows_later grown rest)

theorem script {grown : concord.World} {script otherScript : Script}
    (scripts : concord.Scripts world script otherScript) (later : concord.Later world grown) :
    concord.Holds grown concord.Results (Eval.script setting evaluate apply script)
      (Eval.script other otherEvaluate otherApply otherScript) := by
  induction scripts generalizing grown with
  | give results => exact concord.pure (Likeness.results_later later results)
  | fail world message origin => exact concord.given (concord.fail grown message origin)
  | create makes _ ih =>
      refine concord.bind (concord.create (makes.later later)) fun made value other still alike => ?_
      exact ih made value other (concord.later_trans later still) alike (concord.later_refl made)
  | print line _ ih =>
      exact concord.bind (concord.print grown line) fun _ _ _ still _ =>
        ih (concord.later_trans later still)

variable (admits : ∀ {world : concord.World} {id otherId : ObjectId} {name : String} {arity : Arity}
  {arguments otherArguments : List Value},
  concord.Values world (.builtin id name arity) (.builtin otherId name arity) →
  concord.Rows world arguments otherArguments → arity.accepts arguments.length = true →
  concord.Scripts world (setting.script name arguments) (other.script name otherArguments))

include admits

theorem invoke {id otherId : ObjectId} {name : String} {arity : Arity}
    {arguments otherArguments : List Value}
    (builtins : concord.Values world (.builtin id name arity) (.builtin otherId name arity))
    (values : concord.Rows world arguments otherArguments) :
    concord.Holds world concord.Results (Eval.invoke setting evaluate apply name arity arguments)
      (Eval.invoke other otherEvaluate otherApply name arity otherArguments) := by
  unfold Eval.invoke
  rw [← values.length_eq]
  split
  · rename_i accepted
    exact concord.script (admits builtins values accepted) (concord.later_refl world)
  · exact concord.given (concord.fail _ _ _)

variable (evaluators : concord.Evaluators evaluate otherEvaluate)

include evaluators

theorem application {callee otherCallee : Value} {arguments otherArguments : List Value}
    {site otherSite : Option Location} (name : String)
    (callees : concord.Values world callee otherCallee)
    (values : concord.Rows world arguments otherArguments) (sites : concord.Sites site otherSite) :
    concord.Holds world concord.Results
      (Eval.application setting evaluate apply callee arguments name site)
      (Eval.application other otherEvaluate otherApply otherCallee otherArguments name otherSite) := by
  have typeName := Likeness.typeName callees
  have forms := concord.values callees
  cases forms with
  | function id otherId names bodies around =>
      refine concord.bind (concord.newScope world around) fun _ scope _ opened given => ?_
      obtain ⟨rfl, inside⟩ := given
      have rows := Likeness.rows_later opened values
      refine concord.bind (concord.bindParameters inside names rows) fun _ _ _ bound _ => ?_
      exact concord.inFunction name scope (Likeness.rows_later bound rows) sites
        (concord.statements evaluators inside (concord.blocks bodies) .none)
  | builtin id otherId builtinName arity =>
      exact concord.inBuiltin builtinName values sites (concord.invoke admits callees values)
  | _ =>
      unfold Eval.application
      dsimp only
      rw [typeName]
      exact concord.given (concord.fail _ _ _)

omit evaluators in
/-- Like trees are evaluated in concord, and like values applied so. -/
theorem evaluatesAndApplies {depth otherDepth : Nat} (depths : concord.Depths depth otherDepth) :
    concord.Evaluators (MonkeyLang.evaluate setting depth) (MonkeyLang.evaluate other otherDepth) ∧
      concord.Appliers (MonkeyLang.apply setting depth) (MonkeyLang.apply other otherDepth) := by
  -- Both depths go down together until one of them is used up.
  induction depth generalizing otherDepth with
  | zero =>
      cases otherDepth with
      | zero => exact ⟨fun _ _ _ _ _ _ => concord.deep, fun _ _ _ _ => concord.deep⟩
      | succ otherDepth =>
          exact ⟨fun _ _ _ _ _ _ => concord.leftDeep depths _, fun _ _ _ _ => concord.leftDeep depths _⟩
  | succ depth ih =>
      cases otherDepth with
      | zero =>
          exact ⟨fun _ _ _ _ _ _ => concord.rightDeep depths _, fun _ _ _ _ => concord.rightDeep depths _⟩
      | succ otherDepth =>
          obtain ⟨evaluators, appliers⟩ := ih (concord.deeper depths)
          exact ⟨fun _ _ _ _ inside => concord.node evaluators appliers inside,
            concord.application admits evaluators⟩

end Calls

end Concord

end MonkeyLang
