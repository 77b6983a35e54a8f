import MonkeyLang.Evaluation.Evaluate
import MonkeyLang.Proofs.Evaluation.Agreement
import MonkeyLang.Proofs.Evaluation.Concord
import MonkeyLang.Proofs.Uniform

namespace MonkeyLang

/-! # Evaluating similar trees

Two settings that have their file and their builtins in common, and whose hooks only record, evaluate
similar trees in agreement, at whatever depths.
-/

variable {leeway : Leeway} {setting other : Setting}

namespace Leeway.Agree

theorem leftDeep {α β : Type} {post : α → β → Prop} (right : Eval β) :
    leeway.Agree True post (Eval.raise .depth) right :=
  fun _ _ _ => .left trivial

theorem rightDeep {α β : Type} {post : α → β → Prop} (left : Eval α) :
    leeway.Agree True post left (Eval.raise .depth) :=
  fun _ _ _ => .right trivial

theorem sourceLine {first second : Machine} (machines : leeway.Machines first second)
    {token otherToken : Token} (tokens : leeway.Tokens token otherToken) :
    leeway.places ∨ (if token.line = 0 then none else first.lines[token.line - 1]?) =
      if otherToken.line = 0 then none else second.lines[otherToken.line - 1]? := by
  rcases tokens.place with allowed | same
  · exact .inl allowed
  · exact machines.lines.imp_right fun lines => by rw [same, lines]

theorem shownTexts {tree otherTree : Node} (trees : tree.Similar leeway.Tokens otherTree)
    {text otherText : String} (shown : tree.render? = some text)
    (otherShown : otherTree.render? = some otherText) : text = otherText := by
  simp only [Node.render?, Option.ite_none_right_eq_some, Option.some.injEq] at shown otherShown
  rw [← shown.2, ← otherShown.2, Node.Similar.render leeway.tokens_spelled tree trees]

section Layer

variable (settings : leeway.Settings setting other)

include settings

theorem located {token otherToken : Token} (tokens : leeway.Tokens token otherToken)
    {text otherText : String} (texts : leeway.places ∨ text = otherText) :
    leeway.Locations ⟨setting.file, token.line, token.column, text⟩
      ⟨other.file, otherToken.line, otherToken.column, otherText⟩ := by
  refine ⟨settings.file, ?_⟩
  rcases tokens.place with allowed | same
  · exact .inl allowed
  · exact texts.imp_right fun texts => by rw [settings.file, same, texts]

theorem locate {tree otherTree : Node} (trees : tree.Similar leeway.Tokens otherTree) :
    leeway.Agree True leeway.Locations (Eval.locate setting tree) (Eval.locate other otherTree) := by
  have tokens := trees.token leeway.tokens_reflexive
  refine bind get fun first second machines => ?_
  have lines := sourceLine machines tokens
  dsimp only
  generalize (if tree.token.line = 0 then none else first.lines[tree.token.line - 1]?) = line,
    (if otherTree.token.line = 0 then none else second.lines[otherTree.token.line - 1]?) = otherLine
    at lines
  -- A text that only one of the two lacks is too deep to be shown, which is excused.
  cases line with
  | some text =>
      cases otherLine with
      | some otherText => exact pure (located settings tokens (lines.imp_right Option.some.inj))
      | none =>
          have allowed := lines.resolve_right nofun
          cases otherTree.render? with
          | some otherText => exact pure (located settings tokens (.inl allowed))
          | none => exact rightDeep _
  | none =>
      cases otherLine with
      | some otherText =>
          have allowed := lines.resolve_right nofun
          cases tree.render? with
          | some text => exact pure (located settings tokens (.inl allowed))
          | none => exact leftDeep _
      | none =>
          cases shown : tree.render? with
          | none => exact leftDeep _
          | some text =>
              cases otherShown : otherTree.render? with
              | none => exact rightDeep _
              | some otherText =>
                  have texts := shownTexts trees shown otherShown
                  exact pure (located settings tokens (.inr texts))

theorem bracket {opening otherOpening : Notice} {closing otherClosing : Option Value → Notice}
    {log otherLog : Eval Unit} {body otherBody : Eval (Option Value)}
    (logs : leeway.Agree True (fun _ _ => True) log otherLog)
    (bodies : leeway.Agree True leeway.Results body otherBody) :
    leeway.Agree True leeway.Results (Eval.bracket setting opening log body closing)
      (Eval.bracket other otherOpening otherLog otherBody otherClosing) := by
  have announced := fun notice otherNotice =>
    announce settings notice otherNotice fun _ => trivial
  refine bind (announced _ _) fun _ _ _ => bind logs fun _ _ _ => ?_
  exact bind bodies fun result otherResult results => bind (announced _ _) fun _ _ _ => pure results

theorem inStatement {statement otherStatement : Node} {scope : ScopeId}
    {body otherBody : Eval (Option Value)}
    (statements : statement.Similar leeway.Tokens otherStatement)
    (bodies : leeway.Agree True leeway.Results body otherBody) :
    leeway.Agree True leeway.Results (Eval.inStatement setting statement scope body)
      (Eval.inStatement other otherStatement scope otherBody) := by
  have logged : leeway.Agree True (fun _ _ => True) (Eval.logStatement setting statement)
      (Eval.logStatement other otherStatement) := by
    refine bind (locate settings statements) fun location otherLocation locations => ?_
    rw [statements.formName]
    exact logStep settings _ (.some locations) none
  exact bracket settings logged bodies

theorem inCall {arguments otherArguments : List Value} {site otherSite : Option Location}
    {body otherBody : Eval (Option Value)} (name : String) (scope : Option ScopeId)
    (sites : leeway.Places site otherSite) (bodies : leeway.Agree True leeway.Results body otherBody) :
    leeway.Agree True leeway.Results (Eval.inCall setting name arguments scope site body)
      (Eval.inCall other name otherArguments scope otherSite otherBody) :=
  bracket settings (logStep settings "Call" sites (some name)) bodies

theorem lookUp (scope : ScopeId) (name : String) :
    leeway.Agree True leeway.Values (Eval.lookUp setting scope name)
      (Eval.lookUp other scope name) := by
  have offered : setting.builtinValue? name = other.builtinValue? name := by
    simp only [Setting.builtinValue?, settings.builtins]
  refine bind get fun first second machines => ?_
  have found := machines.scopes.find? scope name
  generalize first.scopes.find? scope name = value, second.scopes.find? scope name = otherValue
    at found
  cases found with
  | some values => exact pure values
  | none =>
      dsimp only
      rw [offered]
      split
      · exact pure (leeway.values_refl _)
      · exact fail _ _

end Layer

/-- A frame is closed again, however what happens in it ends. -/
theorem enclosed_at {excused : Prop} {post : Option Value → Option Value → Prop}
    (closing : Machine.Closing) (name : String) (scope : ScopeId) {site otherSite : Option Location}
    {body otherBody : Eval (Option Value)} {first second : Machine}
    (machines : leeway.Machines first second)
    (ended : leeway.Endings excused post (body (first.pushFrame name scope site)).ending
      (otherBody (second.pushFrame name scope otherSite)).ending) :
    leeway.Endings excused post (Eval.enclosed closing name scope site body first).ending
      (Eval.enclosed closing name scope otherSite otherBody second).ending := by
  have closes : leeway.Agree excused (fun _ _ => True)
      (modify fun machine => machine.close first.nextSerial closing : Eval PUnit)
      (modify fun machine => machine.close second.nextSerial closing) := by
    rw [machines.nextSerial]
    exact modifies fun _ _ machines => machines.close second.nextSerial closing
  have opened : ∀ (machine : Machine) (place : Option Location),
      ((modifyGet fun machine => (machine.nextSerial, machine.pushFrame name scope place) :
        Eval Nat) machine).ending =
        .ok machine.nextSerial (machine.pushFrame name scope place) := fun _ _ => rfl
  unfold Eval.enclosed
  rw [Eval.bind_ok (opened first site), Eval.bind_ok (opened second otherSite)]
  refine Endings.bind (ended.recover ?_ ?_) fun _ _ results => bind closes fun _ _ _ => pure results
  · exact fun _ _ faults => bind closes fun _ _ _ => reraise faults
  · exact fun _ _ => ⟨⟨_, rfl⟩, _, rfl⟩

theorem enclosed {excused : Prop} {post : Option Value → Option Value → Prop}
    (closing : Machine.Closing) (name : String) (scope : ScopeId) {site otherSite : Option Location}
    (sites : leeway.Places site otherSite) {body otherBody : Eval (Option Value)}
    (bodies : leeway.Agree excused post body otherBody) :
    leeway.Agree excused post (Eval.enclosed closing name scope site body)
      (Eval.enclosed closing name scope otherSite otherBody) :=
  fun _ _ machines => enclosed_at closing name scope machines
    (bodies _ _ (machines.pushFrame name scope sites))

theorem isEmpty_eq {calls others : List OpenCall} (similar : List.Forall₂ leeway.OpenCalls calls others) :
    calls.isEmpty = others.isEmpty := by
  cases similar <;> rfl

theorem captured {first second : Machine} (machines : leeway.Machines first second)
    {fault other : Fault} (faults : leeway.Faults fault other) :
    leeway.Faults (Eval.capture first fault) (Eval.capture second other) := by
  have completed : ∀ {left right : Failure}, leeway.Failures left right →
      leeway.Faults (Eval.capture first (.runtime left)) (Eval.capture second (.runtime right)) := by
    intro left right failures
    simp only [Eval.capture, isEmpty_eq failures.calls]
    split
    · exact .runtime { failures with calls := machines.steps.openCalls machines.stack }
    · exact .runtime failures
  cases faults with
  | runtime failures => exact completed failures
  | same fault =>
      cases fault with
      | runtime failure => exact completed (leeway.failures_refl failure)
      | _ => exact .same _

theorem inFrame (name : String) (scope : ScopeId) {site otherSite : Option Location}
    (sites : leeway.Places site otherSite) {body otherBody : Eval (Option Value)}
    (bodies : leeway.Agree True leeway.Results body otherBody) :
    leeway.Agree True leeway.Results (Eval.inFrame name scope site body)
      (Eval.inFrame name scope otherSite otherBody) := by
  refine enclosed .innermost name scope sites (recover bodies (fun fault other faults => ?_) ?_)
  · exact bind get fun _ _ machines => reraise (captured machines faults)
  · exact fun _ _ => ⟨⟨_, rfl⟩, _, rfl⟩

end Leeway.Agree

/-- Values are alike if they are similar, at whatever time they were made. -/
def Leeway.likeness (leeway : Leeway) : Likeness where
  World := Unit
  Later _ _ := True
  Trees := Node.Similar leeway.Tokens
  Names := Identifier.Similar leeway.Tokens
  Blocks := Block.Similar leeway.Tokens (Node.Similar leeway.Tokens)
  Places := leeway.Locations
  Values _ := leeway.Values
  named _ := True
  reaches _ := True
  later_refl _ := trivial
  later_trans _ _ := trivial
  trees similar := by cases similar <;> constructor <;> assumption
  names names := ⟨names.name, trivial⟩
  blocks blocks := blocks.statements
  values values := by
    cases values with
    | function id names bodies scope => exact .function id id names bodies trivial
    | _ => constructor <;> assumption
  later _ := id
  null _ := .null
  boolean _ := .boolean
  returned := .returned
  inspect := Values.inspect _
  same := Values.same

theorem Leeway.Values.key {key other : Key} (keys : leeway.Values key.toValue other.toValue) :
    key = other := by
  cases key <;> cases other <;> cases keys <;> rfl

theorem Leeway.makes {make otherMake : ObjectId → Value}
    (makes : leeway.likeness.Makes () make otherMake) (id : ObjectId) :
    leeway.Values (make id) (otherMake id) := by
  cases makes with
  | integer value => exact .integer id value
  | string text => exact .string id text
  | array items => exact .array id items
  | hash entries => exact .hash id (entries.imp fun _ _ entry => ⟨Values.key entry.keys, entry.values⟩)
  | @function _ _ _ _ names bodies scope _ => exact .function id names bodies scope

theorem Leeway.callResult (leeway : Leeway) {result otherResult : Option Value}
    (results : leeway.Results result otherResult) :
    leeway.Values (Eval.callResult result) (Eval.callResult otherResult) := by
  have alike : leeway.likeness.Results () result otherResult := results
  exact Likeness.callResult alike

/-- Agreement with depth excused, as a concord. -/
def Leeway.Settings.concord (settings : leeway.Settings setting other) : Concord setting other where
  toLikeness := leeway.likeness
  Holds _ post := leeway.Agree True (post ())
  Depths _ _ := True
  pure := .pure
  bind agree onward := agree.bind fun result otherResult given =>
    onward () result otherResult trivial given
  raise {_ _ _ _} _ _ {_ _} sites := .raise (.runtime ⟨rfl, rfl, sites, rfl, .nil⟩)
  deep := .leftDeep _
  deeper _ := trivial
  leftDeep {_} _ {_ _ _ _} right := .leftDeep right
  rightDeep {_} _ {_ _ _ _} left := .rightDeep left
  create makes := .create (Leeway.makes makes)
  fail _ := .fail
  lookUp _ {scope name} _ _ := .lookUp settings scope name
  define {_ scope name _ _} _ _ values := .define scope name values
  newScope _ {closure} _ := .change fun _ _ machines => ⟨⟨machines.scopes.size, trivial⟩,
    { machines with scopes := machines.scopes.add (some closure) }⟩
  print _ line := .print line true
  locate _ {_ _} similar := .locate settings similar
  inStatement {_ _ _} _ {_ _} similar bodies := .inStatement settings similar bodies
  inFunction {_} name scope {_ _ _ _ _ _} _ sites bodies :=
    .inCall settings name (some scope) sites (.bind (.inFrame name scope sites bodies)
      fun _ _ results => .pure (.some (leeway.callResult results)))
  inBuiltin {_} name {_ _ _ _ _ _} _ sites bodies := .inCall settings name none sites bodies

namespace Leeway.Agree

/-- Two evaluators agree on similar trees. -/
abbrev Evaluators (leeway : Leeway) (evaluate otherEvaluate : Evaluator) : Prop :=
  ∀ (scope : ScopeId) {tree otherTree : Node}, tree.Similar leeway.Tokens otherTree →
    leeway.Agree True leeway.Results (evaluate tree scope) (otherEvaluate otherTree scope)

variable (settings : leeway.Settings setting other)

include settings

theorem statements {evaluate otherEvaluate : Evaluator}
    (evaluators : Evaluators leeway evaluate otherEvaluate) (scope : ScopeId)
    {body otherBody : List Node} (bodies : List.Forall₂ (Node.Similar leeway.Tokens) body otherBody)
    {previous otherPrevious : Option Value} (results : leeway.Results previous otherPrevious) :
    leeway.Agree True leeway.Results (Eval.statements setting evaluate scope body previous)
      (Eval.statements other otherEvaluate scope otherBody otherPrevious) := by
  have alike : settings.concord.Results () previous otherPrevious := results
  exact settings.concord.statements (fun _ {scope _ _} _ => evaluators scope) trivial bodies alike

theorem evaluates (uniform : ∀ builtin ∈ setting.builtins, builtin.Uniform)
    (depth otherDepth : Nat) :
    Evaluators leeway (MonkeyLang.evaluate setting depth) (MonkeyLang.evaluate other otherDepth) := by
  have admits : ∀ {name : String} {arguments otherArguments : List Value},
      leeway.likeness.Rows () arguments otherArguments →
      leeway.likeness.Scripts () (setting.script name arguments) (other.script name otherArguments) := by
    intro name arguments otherArguments alike
    unfold Setting.script
    rw [← settings.builtins]
    split
    · rename_i builtin found
      exact uniform builtin (List.mem_of_find?_eq_some found) leeway.likeness () alike
    · exact .none
  have depths : settings.concord.Depths depth otherDepth := trivial
  exact fun scope {_ _} =>
    (settings.concord.evaluatesAndApplies (fun _ alike _ => admits alike) depths).1 () trivial

end Leeway.Agree

end MonkeyLang
