import MonkeyLang.Evaluation.Evaluate
import MonkeyLang.Proofs.Evaluation.Agreement
import MonkeyLang.Proofs.Evaluation.Contract
import MonkeyLang.Proofs.Scopes

namespace MonkeyLang

/-! # Where values go

What operands give is handed on as it is: to names and parameters, to calls, into arrays and out of
them.
-/

namespace Eval

variable {setting : Setting} {evaluate : Evaluator} {scope : ScopeId} {before between after : Machine}
  {tree : Node} {value : Value}

theorem unlessSignal_some (usable : value.isSignal = false) (go : Option Value → Eval (Option Value)) :
    unlessSignal (some value) go = go (some value) := by
  simp only [unlessSignal, usable, Bool.false_eq_true, if_false]

/-- An operand that gives a value, and what is done with it. -/
theorem operand (gives : (evaluate tree scope before).ending = .ok (some value) between)
    (usable : value.isSignal = false) (go : Option Value → Eval (Option Value)) :
    ((do unlessSignal (← evaluate tree scope) go) before).ending = (go (some value) between).ending := by
  rw [bind_ok gives, unlessSignal_some usable]

/-- What expressions give, each of which is evaluated where the one before it has ended. -/
inductive Gathers (evaluate : Evaluator) (scope : ScopeId) :
    Machine → List Node → List Value → Machine → Prop
  | none (before : Machine) : Gathers evaluate scope before [] [] before
  | next {before between after : Machine} {expression : Node} {others : List Node} {value : Value}
      {values : List Value} (gives : (evaluate expression scope before).ending = .ok (some value) between)
      (usable : value.isSignal = false) (rest : Gathers evaluate scope between others values after) :
      Gathers evaluate scope before (expression :: others) (value :: values) after

theorem Gathers.expressions {nodes : List Node} {values : List Value}
    (gathers : Gathers evaluate scope before nodes values after) (found : List Value) :
    (Eval.expressions setting evaluate scope nodes found before).ending =
      .ok (.ok (found.reverse ++ values)) after := by
  induction gathers generalizing found with
  | none before =>
      rw [List.append_nil]
      rfl
  | next gives usable _ ih =>
      unfold Eval.expressions
      rw [bind_ok gives]
      simp only [usable, Bool.false_eq_true, if_false]
      rw [ih, List.reverse_cons, List.append_assoc, List.singleton_append]

/-- A signal ends statements. -/
theorem statements_signal {statement : Node} {others : List Node} {previous : Option Value}
    (gives : (inStatement setting statement scope (evaluate (content statement) scope) before).ending =
      .ok (some value) after) (isSignal : value.isSignal = true) :
    (Eval.statements setting evaluate scope (statement :: others) previous before).ending =
      .ok (some value) after := by
  unfold Eval.statements
  rw [bind_ok gives]
  simp only [isSignal, if_true]
  rfl

end Eval

section Nodes

variable {setting : Setting} {depth : Nat} {scope : ScopeId} {before between after : Machine}
  {tree other : Node} {value otherValue : Value}

theorem evaluate_identifier {name : Identifier} (found : before.scopes.find? scope name.name = some value) :
    (evaluate setting (depth + 1) (.identifier name) scope before).ending = .ok (some value) before := by
  have seen : ((MonadState.get : Eval Machine) before).ending = .ok before before := rfl
  have looked : (Eval.lookUp setting scope name.name before).ending = .ok value before := by
    unfold Eval.lookUp
    rw [Eval.bind_ok seen, found]
    rfl
  exact Eval.bind_ok looked

/-- To look a name up changes nothing, and its token does not matter. -/
theorem evaluate_identifier_again {left right : Identifier} {result : Option Value}
    (same : left.name = right.name)
    (gives : (evaluate setting (depth + 1) (.identifier left) scope before).ending = .ok result after) :
    after = before ∧
      (evaluate setting (depth + 1) (.identifier right) scope before).ending = .ok result before := by
  have looked : (Eval.lookUp setting scope left.name before).Meets (fun _ => True)
      (fun _ after => after = before) fun _ _ => True := by
    unfold Eval.lookUp
    refine .look trivial ?_
    cases before.scopes.find? scope left.name with
    | some value => exact .pure trivial rfl
    | none =>
        cases setting.builtinValue? left.name with
        | some value => exact .pure trivial rfl
        | none => exact .look trivial (.pure trivial rfl)
  have looks : (evaluate setting (depth + 1) (.identifier left) scope before).Meets (fun _ => True)
      (fun _ after => after = before) fun _ _ => True :=
    looked.bind fun _ _ same => .pure trivial same
  have unchanged := looks.done _ _ gives
  subst unchanged
  refine ⟨rfl, ?_⟩
  change ((do return some (← Eval.lookUp setting scope right.name) : Eval (Option Value)) _).ending = _
  rw [← same]
  exact gives

theorem evaluate_let (token : Token) (name : Identifier)
    (gives : (evaluate setting depth tree scope before).ending = .ok (some value) between)
    (usable : value.isSignal = false) :
    (evaluate setting (depth + 1) (.letStatement token name tree) scope before).ending =
      .ok none { between with scopes := between.scopes.bind scope name.name value } := by
  refine (Eval.operand gives usable _).trans ?_
  have bound : (Eval.bind scope name.name value between).ending =
      .ok value { between with scopes := between.scopes.bind scope name.name value } := by
    unfold Eval.bind
    rw [usable]
    rfl
  exact Eval.bind_ok bound

theorem evaluate_return (token : Token)
    (gives : (evaluate setting depth tree scope before).ending = .ok (some value) after)
    (usable : value.isSignal = false) :
    (evaluate setting (depth + 1) (.returnStatement token tree) scope before).ending =
      .ok (some (.returned value)) after :=
  Eval.operand gives usable _

theorem evaluate_binary (token : Token) (operator : String)
    (gives : (evaluate setting depth tree scope before).ending = .ok (some value) between)
    (usable : value.isSignal = false)
    (otherGives : (evaluate setting depth other scope between).ending = .ok (some otherValue) after)
    (otherUsable : otherValue.isSignal = false) :
    (evaluate setting (depth + 1) (.binary token operator tree other) scope before).ending =
      ((do return some (← Eval.binary operator value otherValue)) after).ending :=
  (Eval.operand gives usable _).trans (Eval.operand otherGives otherUsable _)

theorem evaluate_array (token : Token) {items : List Node} {values : List Value}
    (gathers : Eval.Gathers (evaluate setting depth) scope before items values between) :
    (evaluate setting (depth + 1) (.array token items) scope before).ending =
      .ok (some (.array between.nextObject values))
        { between with nextObject := between.nextObject + 1 } := by
  refine (Eval.bind_ok (gathers.expressions [])).trans ?_
  rfl

theorem evaluate_index (token : Token) {id position : ObjectId} {items : List Value} {index : Nat}
    (gives : (evaluate setting depth tree scope before).ending = .ok (some (.array id items)) between)
    (otherGives : (evaluate setting depth other scope between).ending =
      .ok (some (.integer position index)) after)
    (stored : items[index]? = some value) :
    (evaluate setting (depth + 1) (.index token tree other) scope before).ending =
      .ok (some value) after := by
  refine (Eval.operand gives rfl _).trans ((Eval.operand otherGives rfl _).trans ?_)
  have taken : Eval.element (.array id items) (.integer position index) = pure value := by
    have natural : ¬ ((index : Int) < 0) := by omega
    simp only [Eval.element, natural, if_false, Int.toNat_natCast, stored, Option.getD_some]
  change ((do return some (← Eval.element (.array id items) (.integer position index))) after).ending = _
  rw [taken]
  rfl

theorem evaluate_call (token : Token) {arguments : List Node} {values : List Value}
    (gives : (evaluate setting depth tree scope before).ending = .ok (some value) between)
    (usable : value.isSignal = false)
    (gathers : Eval.Gathers (evaluate setting depth) scope between arguments values after) :
    (evaluate setting (depth + 1) (.call token tree arguments) scope before).ending =
      ((do
        let location ← Eval.locate setting (.call token tree arguments)
        apply setting depth value values (Eval.calleeName tree) (some location)) after).ending :=
  (Eval.operand gives usable _).trans (Eval.bind_ok (gathers.expressions []))

/-- The arguments under the names of their parameters, the last ones first. -/
def passed (parameters : List Identifier) (arguments : List Value) : List (String × Value) :=
  ((parameters.map (·.name)).zip arguments).reverse

theorem passed_cons (parameter : Identifier) (parameters : List Identifier) (argument : Value)
    (arguments : List Value) (name : String) :
    (passed (parameter :: parameters) (argument :: arguments)).lookup name =
      ((passed parameters arguments).lookup name).or
        (if name == parameter.name then some argument else none) := by
  simp only [passed, List.map_cons, List.zip_cons_cons, List.reverse_cons, List.lookup_append,
    List.lookup_cons, List.lookup_nil]
  congr 1
  split <;> simp_all

/-- A parameter is found as the last argument that was passed for it. -/
theorem bindParameters_found {parameters : List Identifier} {arguments : List Value}
    (present : scope < before.scopes.size) :
    (Eval.bindParameters scope parameters arguments before).Meets (fun _ => True)
      (fun _ after => ∀ name, after.scopes.find? scope name =
        ((passed parameters arguments).lookup name).or (before.scopes.find? scope name))
      fun _ _ => True := by
  induction parameters generalizing before arguments with
  | nil => exact .pure trivial fun _ => rfl
  | cons parameter parameters ih =>
      cases arguments with
      | nil => exact .pure trivial fun _ => rfl
      | cons argument arguments =>
          have bound : (Eval.bind scope parameter.name argument before).Meets (fun _ => True)
              (fun _ between => between.scopes = before.scopes.bind scope parameter.name argument)
              fun _ _ => True := by
            unfold Eval.bind
            split
            · exact .raise trivial trivial
            · exact .modifying trivial trivial (.pure trivial rfl)
          refine bound.bind fun _ between scopes => ?_
          have size : between.scopes.size = before.scopes.size := by
            rw [scopes]
            exact Array.size_modify
          refine (ih (size ▸ present)).leads (fun _ after found name => ?_) fun _ _ => id
          rw [found, passed_cons, Option.or_assoc, scopes]
          congr 1
          by_cases same : name = parameter.name
          · subst same
            rw [Scopes.find?_bind argument present, beq_self_eq_true]
            rfl
          · rw [Scopes.find?_bind_other argument same, beq_false_of_ne same]
            rfl

section Frames

variable {α : Type} {done : α → Prop} {body : Eval α} {name : String} {site : Option Location}

/-- What a body gives in a new frame. -/
theorem enclosed_gives (closing : Machine.Closing)
    (gives : (body (before.pushFrame name scope site)).Meets (fun _ => True) (fun result _ => done result)
      fun _ _ => True) :
    (Eval.enclosed closing name scope site body before).Meets (fun _ => True)
      (fun result _ => done result) fun _ _ => True := by
  refine .changing trivial trivial (.bind (.recover gives fun _ _ _ => ?_) fun _ _ given => ?_)
  · exact .modifying trivial trivial (.reraise trivial trivial)
  · exact .modifying trivial trivial (.pure trivial given)

theorem inFrame_gives
    (gives : (body (before.pushFrame name scope site)).Meets (fun _ => True) (fun result _ => done result)
      fun _ _ => True) :
    (Eval.inFrame name scope site body before).Meets (fun _ => True) (fun result _ => done result)
      fun _ _ => True :=
  enclosed_gives .innermost
    (.recover gives fun _ _ _ => .look trivial (.reraise trivial trivial))

/-- What a body gives between two events, which leave the scopes alone. -/
theorem inCall_gives {done : Option Value → Prop} {body : Eval (Option Value)} (arguments : List Value)
    (gives : ∀ start : Machine, start.scopes = before.scopes →
      (body start).Meets (fun _ => True) (fun result _ => done result) fun _ _ => True)
    (calleeScope : Option ScopeId) :
    (Eval.inCall setting name arguments calleeScope site body before).Meets (fun _ => True)
      (fun result _ => done result) fun _ _ => True := by
  have announced : ∀ notice (machine : Machine), machine.scopes = before.scopes →
      (Eval.announce setting.hooks notice machine).Meets (fun _ => True)
        (fun _ after => after.scopes = before.scopes) fun _ _ => True := by
    intro notice machine same
    refine (Eval.announce_keeps (fun noted kept => ?_) setting.hooks notice same).weaken
      (fun _ _ => trivial) (fun _ _ => id) fun _ _ _ => trivial
    cases noted <;> exact kept
  refine (announced _ before rfl).bind fun _ opened same => ?_
  refine .modifying trivial trivial (.bind (gives _ same) fun result _ given => ?_)
  have closed : ∀ notice (machine : Machine),
      (Eval.announce setting.hooks notice machine).Meets (fun _ => True) (fun _ _ => True)
        fun _ _ => True := fun notice machine =>
    Eval.announce_keeps (fun _ _ => trivial) setting.hooks notice trivial
  exact (closed _ _).bind fun _ _ _ => .pure trivial given

end Frames

/-- A call gives what the body of the function gives or returns, evaluated where the parameters are
found as the arguments. -/
theorem apply_function {id : ObjectId} {parameters : List Identifier} {body : Block Node}
    {closure : ScopeId} {arguments : List Value} {name : String} {site : Option Location}
    {result : Option Value}
    (ended : (apply setting (depth + 1) (.function id parameters body closure) arguments name site
      before).ending = .ok result after) :
    ∃ start outcome finish,
      (Eval.statements setting (evaluate setting depth) before.scopes.size body.statements none
        start).ending = .ok outcome finish ∧
      result = some (Eval.callResult outcome) ∧
      ∀ parameter value, (passed parameters arguments).lookup parameter = some value →
        start.scopes.find? before.scopes.size parameter = some value := by
  let ran : Option Value → Prop := fun outcome => ∃ start finish,
    (Eval.statements setting (evaluate setting depth) before.scopes.size body.statements none
      start).ending = .ok outcome finish ∧
    ∀ parameter value, (passed parameters arguments).lookup parameter = some value →
      start.scopes.find? before.scopes.size parameter = some value
  have gives : (apply setting (depth + 1) (.function id parameters body closure) arguments name site
      before).Meets (fun _ => True)
      (fun result _ => ∃ outcome, result = some (Eval.callResult outcome) ∧ ran outcome)
      fun _ _ => True := by
    have present : before.scopes.size < (before.scopes.add (some closure)).size := by
      simp [Scopes.add, Scopes.size]
    refine .changing trivial trivial ((bindParameters_found present).bind fun _ bound found => ?_)
    refine inCall_gives arguments (fun start scopes => ?_) _
    have started : (Eval.statements setting (evaluate setting depth) before.scopes.size
        body.statements none (start.pushFrame name before.scopes.size site)).Meets (fun _ => True)
        (fun outcome _ => ran outcome) fun _ _ => True := by
      refine Course.Meets.self.weaken (fun _ _ => trivial) (fun outcome finish ended => ?_)
        fun _ _ _ => trivial
      refine ⟨_, finish, ended, fun parameter value isPassed => ?_⟩
      change start.scopes.find? _ _ = _
      rw [scopes, found, isPassed]
      rfl
    exact (inFrame_gives started).bind fun outcome _ given => .pure trivial ⟨outcome, rfl, given⟩
  obtain ⟨outcome, same, start, finish, ended, found⟩ := gives.done result after ended
  exact ⟨start, outcome, finish, ended, same, found⟩

end Nodes

end MonkeyLang
