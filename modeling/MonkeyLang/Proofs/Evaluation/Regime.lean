import MonkeyLang.Evaluation.Evaluate
import MonkeyLang.Proofs.Syntax.Shape

namespace MonkeyLang

/-! # Regimes of evaluation

A regime is a property of evaluations that carries over from the parts of an evaluation to the whole.
The recursion of the evaluator is gone through once, here: whatever the property is, nodes,
applications and scripts then have it.

A regime has a domain: the values that it calls good, the trees that it allows in a scope, the names
that may be bound there, and the places that may be recorded.  What is bound, stored in an array or a
hash, or passed to a function has to be good.  In a total domain every expression has a value, and
nothing but depth breaks an evaluation off.
-/

/-- A value with which an evaluation may end: a good one, a good one that is returned, or a
failure. -/
def Value.Admissible (good : Value → Prop) : Value → Prop
  | .returned value => good value
  | .failed _ => True
  | value => good value

/-- No value, or an admissible one. -/
def Result (good : Value → Prop) (result : Option Value) : Prop :=
  ∀ value, result = some value → value.Admissible good

/-- No value, or a good one. -/
def Usable (good : Value → Prop) (result : Option Value) : Prop :=
  ∀ value, result = some value → good value

/-- A good value or a failure, and so not a returned value. -/
def Settled (good : Value → Prop) (result : Option Value) : Prop :=
  ∃ value, result = some value ∧ (good value ∨ ∃ failure, value = .failed failure)

theorem Value.Admissible.good {good : Value → Prop} {value : Value}
    (admissible : value.Admissible good) (usable : value.isSignal = false) : good value := by
  cases value <;> first | exact admissible | cases usable

theorem Result.none {good : Value → Prop} : Result good none :=
  fun _ absent => nomatch absent

theorem Result.some {good : Value → Prop} {value : Value} (admissible : value.Admissible good) :
    Result good (some value) := by
  intro found same
  cases same
  exact admissible

theorem Usable.none {good : Value → Prop} : Usable good none :=
  fun _ absent => nomatch absent

theorem Usable.some {good : Value → Prop} {value : Value} (isGood : good value) :
    Usable good (some value) := by
  intro found same
  cases same
  exact isGood

/-- The place that a fault comes with. -/
def Fault.place? : Fault → Option Location
  | .runtime failure => failure.location
  | _ => none

/-- Calls captured on the way out change nothing about the place. -/
theorem Eval.capture_place (machine : Machine) (fault : Fault) :
    (Eval.capture machine fault).place? = fault.place? := by
  cases fault with
  | runtime failure =>
      simp only [Eval.capture, Fault.place?]
      split <;> rfl
  | _ => rfl

theorem Value.toKey?_toValue {value : Value} {key : Key} (hashable : value.toKey? = some key) :
    key.toValue = value := by
  cases value <;> cases hashable <;> rfl

/-- What holds of all entries of a hash still does when a pair was put into it: keys and values come
from the pair or from the hash. -/
theorem putEntry_forall {goodKey : Key → Prop} {good : Value → Prop} {key : Key} {value : Value}
    {entries : List (Key × Value)}
    (allGood : ∀ entry ∈ entries, goodKey entry.1 ∧ good entry.2) (keyGood : goodKey key)
    (isGood : good value) :
    ∀ entry ∈ putEntry key value entries, goodKey entry.1 ∧ good entry.2 := by
  induction entries with
  | nil => simpa [putEntry] using ⟨keyGood, isGood⟩
  | cons first others ih =>
      obtain ⟨present, old⟩ := first
      obtain ⟨oldGood, othersGood⟩ := List.forall_mem_cons.mp allGood
      simp only [putEntry]
      split
      · exact List.forall_mem_cons.mpr ⟨⟨oldGood.1, isGood⟩, othersGood⟩
      · exact List.forall_mem_cons.mpr ⟨oldGood, ih othersGood⟩

theorem Setting.builtinValue?_shape (setting : Setting) {name : String} {value : Value}
    (found : setting.builtinValue? name = some value) :
    ∃ id name arity, value = .builtin id name arity := by
  unfold Setting.builtinValue? at found
  split at found
  · obtain ⟨builtin, _, rfl⟩ := Option.map_eq_some_iff.mp found
    exact ⟨_, _, _, rfl⟩
  · contradiction

/-- The values and the trees that evaluations deal with. -/
structure Domain (setting : Setting) where
  good : Value → Prop
  /-- The trees that are evaluated in a scope. -/
  allows : Node → ScopeId → Prop
  /-- The names that are bound in a scope. -/
  binds : ScopeId → String → Prop
  /-- Scopes that were opened for a call. -/
  fresh : ScopeId → Prop
  /-- The places that are recorded. -/
  placed : Location → Prop
  total : Prop
  /-- Whether builtins may run texts. -/
  executes : Prop
  /-- Whether builtins may catch faults. -/
  catches : Prop
  admissible : ∀ {value}, good value → value.Admissible good
  usable : total → ∀ {value}, good value → value.isSignal = false
  null : good .null
  boolean : ∀ value, good (.boolean value)
  computed : ∀ id value, good (.integer id (wrap value))
  string : ∀ id text, good (.string id text)
  builtin : ∀ {name value}, setting.builtinValue? name = some value → good value
  array : ∀ {id items}, (∀ item ∈ items, good item) → good (.array id items)
  items : ∀ {id items}, good (.array id items) → ∀ item ∈ items, good item
  hash : ∀ {id entries}, (∀ entry ∈ entries, good entry.1.toValue ∧ good entry.2) →
    good (.hash id entries)
  integer : ∀ {token value scope}, allows (.integer token value) scope →
    ∀ id, good (.integer id value)
  function : ∀ {token parameters body scope}, allows (.function token parameters body) scope →
    ∀ id, good (.function id parameters body scope)
  operands : ∀ {tree scope operand}, allows tree scope → operand ∈ tree.operands →
    allows operand scope ∧ (total → operand.isValued = true)
  body : ∀ {tree scope statement}, allows tree scope → statement ∈ tree.body →
    allows statement scope
  target : ∀ {token name value scope}, allows (.letStatement token name value) scope →
    binds scope name.name
  opened : ∀ {id parameters body closure scope}, good (.function id parameters body closure) →
    fresh scope → (∀ name, binds scope name) ∧ ∀ statement ∈ body.statements, allows statement scope
  supported : total → ∀ {token kind scope}, ¬ allows (.bare token kind) scope

namespace Domain

variable {setting : Setting} (domain : Domain setting)

/-- An admissible result, and a value for sure in a total domain. -/
def Yields (result : Option Value) : Prop :=
  Result domain.good result ∧ (domain.total → result ≠ none)

/-- No place, or one that may be recorded. -/
def Sited (site : Option Location) : Prop :=
  ∀ location, site = some location → domain.placed location

/-- What a tree results in.  Statements need not have a value. -/
def Answers (tree : Node) (result : Option Value) : Prop :=
  Result domain.good result ∧ (domain.total → tree.isValued = true → result ≠ none)

/-- What is there of an operand when it was no signal. -/
def Provides (result : Option Value) : Prop :=
  Usable domain.good result ∧ (domain.total → result ≠ none)

variable {domain}

theorem Sited.none : domain.Sited none :=
  fun _ absent => nomatch absent

theorem Sited.some {location : Location} (placed : domain.placed location) :
    domain.Sited (some location) := by
  intro found same
  cases same
  exact placed

theorem Yields.value {value : Value} (admissible : value.Admissible domain.good) :
    domain.Yields (some value) :=
  ⟨.some admissible, fun _ => nofun⟩

theorem Yields.good {value : Value} (isGood : domain.good value) : domain.Yields (some value) :=
  .value (domain.admissible isGood)

theorem Yields.answers {result : Option Value} (yields : domain.Yields result) (tree : Node) :
    domain.Answers tree result :=
  ⟨yields.1, fun isTotal _ => yields.2 isTotal⟩

theorem Yields.settled {result : Option Value} (settled : Settled domain.good result) :
    domain.Yields result := by
  obtain ⟨value, rfl, isGood | ⟨failure, rfl⟩⟩ := settled
  · exact .good isGood
  · exact .value trivial

theorem Answers.statement {tree : Node} {result : Option Value}
    (isNone : tree.isValued = false) (admissible : Result domain.good result) :
    domain.Answers tree result :=
  ⟨admissible, fun _ isValued => nomatch isNone.symm.trans isValued⟩

/-- What is known of a fault that breaks an evaluation off. -/
def Breaks (fault : Fault) : Prop :=
  (domain.total → fault = .depth) ∧ domain.Sited fault.place?

/-- A result of an evaluation, or a fault of it that was caught. -/
def Answered {α : Type} (caught : Fault → Bool) (post : α → Prop) : Except Fault α → Prop
  | .ok result => post result
  | .error fault => caught fault = true ∧ domain.Breaks fault

/-- What a script may do: end with an admissible result, and hand on good values only. -/
def Admits (domain : Domain setting) (known : Machine → Prop) : Script → Prop
  | .give result => domain.Yields result
  | .raise fault => domain.Breaks fault
  | .fail _ _ => True
  | .create make next => ∀ id, domain.Admits known (next (make id))
  | .print _ next => domain.Admits known next
  | .apply callee arguments _ site catches next =>
      domain.good callee ∧ (∀ argument ∈ arguments, domain.good argument) ∧ domain.Sited site ∧
        (∀ fault, catches fault = true → domain.catches) ∧
        ∀ answer, domain.Answered catches domain.Yields answer → domain.Admits known (next answer)
  | .execute _ _ catches next =>
      domain.executes ∧ (∀ fault, catches fault = true → domain.catches) ∧
        ∀ answer, domain.Answered catches (Result domain.good) answer →
          domain.Admits known (next answer)
  | .define scope name value next =>
      domain.binds scope name ∧ (value.isSignal = false → domain.good value) ∧
        (domain.total → value.isSignal = false) ∧ domain.Admits known (next value)
  | .inspect next => ∀ machine, known machine → domain.Admits known (next machine)

end Domain

/-- A property of evaluations under a setting, together with what it knows of the states in which
they start. -/
structure Regime (setting : Setting) extends Domain setting where
  known : Machine → Prop
  Holds : {α : Type} → (α → Prop) → Eval α → Prop
  found : ∀ {machine scope name value}, known machine →
    machine.scopes.find? scope name = some value → good value
  pure : ∀ {α : Type} {post : α → Prop} {result : α}, post result → Holds post (Pure.pure result)
  bind : ∀ {α β : Type} {middle : α → Prop} {post : β → Prop} {first : Eval α} {next : α → Eval β},
    Holds middle first → (∀ result, middle result → Holds post (next result)) →
    Holds post (first >>= next)
  weaken : ∀ {α : Type} {strong weak : α → Prop} {action : Eval α},
    Holds strong action → (∀ result, strong result → weak result) → Holds weak action
  raise : ∀ {α : Type} {post : α → Prop} (cause : Cause) {fault : Fault},
    (total → fault = .depth) → toDomain.Sited fault.place? → Holds post (Eval.raiseFor cause fault)
  attempt : ∀ {α : Type} {post : α → Prop} {action : Eval α} (caught : Fault → Bool),
    (∀ fault, caught fault = true → catches) → Holds post action →
    Holds (toDomain.Answered caught post) (Eval.attempt caught action)
  get : Holds known MonadState.get
  create : ∀ make, Holds (fun value => ∃ id, value = make id) (Eval.create make)
  newScope : ∀ parent, Holds fresh (Eval.newScope parent)
  define : ∀ {scope name value}, binds scope name → (value.isSignal = false → good value) →
    (total → value.isSignal = false) →
    Holds (fun bound => bound = value ∧ value.isSignal = false) (Eval.bind scope name value)
  print : ∀ line, Holds (fun _ => True) (Eval.print line true)
  locate : ∀ {tree scope}, allows tree scope → Holds placed (Eval.locate setting tree)
  inStatement : ∀ {post body statement scope}, allows statement scope → Holds post body →
    Holds post (Eval.inStatement setting statement scope body)
  inFunction : ∀ {post body} name arguments scope {site}, toDomain.Sited site → Holds post body →
    Holds (fun result => ∃ outcome, result = some (Eval.callResult outcome) ∧ post outcome)
      (Eval.inCall setting name arguments (some scope) site do
        return some (Eval.callResult (← Eval.inFrame name scope site body)))
  inBuiltin : ∀ {post body} name arguments {site}, toDomain.Sited site → Holds post body →
    Holds post (Eval.inCall setting name arguments none site body)
  execute : ∀ {evaluate : Evaluator} text scope, executes →
    (∀ tree scope, allows tree scope → Holds (toDomain.Answers tree) (evaluate tree scope)) →
    Holds (Result good) (Eval.execute setting evaluate text scope)

namespace Regime

variable {setting : Setting} (regime : Regime setting)

abbrev Admits (script : Script) : Prop := regime.toDomain.Admits regime.known script

theorem created {make : ObjectId → Value} (isGood : ∀ id, regime.good (make id)) :
    regime.Holds regime.good (Eval.create make) := by
  refine regime.weaken (regime.create make) fun value made => ?_
  obtain ⟨id, rfl⟩ := made
  exact isGood id

theorem asResult {action : Eval Value} (holds : regime.Holds regime.good action) :
    regime.Holds regime.Yields (do return some (← action)) :=
  regime.bind holds fun _ isGood => regime.pure (.good isGood)

theorem asAdmissible {action : Eval Value}
    (holds : regime.Holds (Value.Admissible regime.good) action) :
    regime.Holds regime.Yields (do return some (← action)) :=
  regime.bind holds fun _ admissible => regime.pure (.value admissible)

theorem computes (value : Int) :
    regime.Holds (Value.Admissible regime.good) (Eval.create (.integer · (wrap value))) :=
  regime.weaken (regime.created fun id => regime.computed id value) fun _ => regime.admissible

theorem compares (value : Bool) :
    regime.Holds (Value.Admissible regime.good) (return .boolean value) :=
  regime.pure (regime.admissible (regime.boolean value))

theorem fail (message : String) (origin : Option String) :
    regime.Holds (Value.Admissible regime.good) (Eval.fail message origin) :=
  regime.bind regime.get fun _ _ => regime.pure trivial

theorem asFailure (message : String) (origin : Option String) :
    regime.Holds regime.Yields (do return some (← Eval.fail message origin)) :=
  regime.asAdmissible (regime.fail message origin)

theorem require {tree : Node} {scope : ScopeId} (allowed : regime.allows tree scope)
    {result : Option Value} (provides : regime.Provides result) :
    regime.Holds regime.good (Eval.require setting tree result) := by
  obtain ⟨usable, present⟩ := provides
  cases result with
  | some value => exact regime.pure (usable value rfl)
  | none =>
      exact regime.bind (regime.locate allowed) fun _ placed =>
        regime.raise _ (fun isTotal => absurd rfl (present isTotal)) (.some placed)

theorem unlessSignal {post : Option Value → Prop} {result : Option Value}
    {go : Option Value → Eval (Option Value)} (yields : regime.Yields result)
    (signals : ∀ value, value.isSignal = true → value.Admissible regime.good → post (some value))
    (goes : ∀ result, regime.Provides result → regime.Holds post (go result)) :
    regime.Holds post (Eval.unlessSignal result go) := by
  obtain ⟨admissible, present⟩ := yields
  cases result with
  | none => exact goes none ⟨.none, present⟩
  | some value =>
      cases signal : value.isSignal with
      | true =>
          simp only [Eval.unlessSignal, signal, if_true]
          exact regime.pure (signals value signal (admissible value rfl))
      | false =>
          simp only [Eval.unlessSignal, signal, Bool.false_eq_true, if_false]
          exact goes (some value) ⟨.some ((admissible value rfl).good signal), present⟩

theorem unary (operator : String) (operand : Value) :
    regime.Holds (Value.Admissible regime.good) (Eval.unary operator operand) := by
  unfold Eval.unary
  split
  · split <;> exact regime.compares _
  · split
    · exact regime.computes _
    · exact regime.fail _ _
  · exact regime.fail _ _

theorem integers (operator : String) (left right : Int) :
    regime.Holds (Value.Admissible regime.good) (Eval.integers operator left right) := by
  unfold Eval.integers
  split
  case h_4 =>
    split
    · exact regime.fail _ _
    · exact regime.computes _
  all_goals first | exact regime.computes _ | exact regime.compares _ | exact regime.fail _ _

theorem objects (operator : String) (left right : Value) :
    regime.Holds (Value.Admissible regime.good) (Eval.objects operator left right) := by
  unfold Eval.objects
  split
  · exact regime.compares _
  · exact regime.compares _
  · exact regime.fail _ _

theorem binary (operator : String) (left right : Value) :
    regime.Holds (Value.Admissible regime.good) (Eval.binary operator left right) := by
  unfold Eval.binary
  split
  · exact regime.integers _ _ _
  · split
    · exact regime.weaken (regime.created fun id => regime.string id _) fun _ => regime.admissible
    · exact regime.objects _ _ _
  · exact regime.objects _ _ _

theorem element {left : Value} (position : Value) (isGood : regime.good left) :
    regime.Holds (Value.Admissible regime.good) (Eval.element left position) := by
  unfold Eval.element
  split
  · rename_i items _ index
    split
    · exact regime.pure (regime.admissible regime.null)
    · refine regime.pure (regime.admissible ?_)
      cases found : items[index.toNat]? with
      | none => exact regime.null
      | some item => exact regime.items isGood item (List.mem_of_getElem? found)
  · exact regime.fail _ _

/-! ## One layer -/

section Layer

variable {evaluate : Evaluator} {apply : Applier}
  (evaluates : ∀ tree scope, regime.allows tree scope →
    regime.Holds (regime.Answers tree) (evaluate tree scope))
  (applies : ∀ callee arguments name site, regime.good callee →
    (∀ argument ∈ arguments, regime.good argument) → regime.Sited site →
    regime.Holds regime.Yields (apply callee arguments name site))

include evaluates

theorem operand {tree operand : Node} {scope : ScopeId} (allowed : regime.allows tree scope)
    (member : operand ∈ tree.operands) :
    regime.Holds regime.Yields (evaluate operand scope) := by
  obtain ⟨inner, isValued⟩ := regime.operands allowed member
  exact regime.weaken (evaluates operand scope inner) fun _ answers =>
    ⟨answers.1, fun isTotal => answers.2 isTotal (isValued isTotal)⟩

theorem content {statement : Node} {scope : ScopeId} (allowed : regime.allows statement scope) :
    regime.Holds (regime.Answers statement) (evaluate (Eval.content statement) scope) := by
  unfold Eval.content
  split
  · exact regime.weaken (regime.operand evaluates allowed List.mem_cons_self)
      fun _ yields => yields.answers _
  · exact evaluates statement scope allowed

theorem statements (scope : ScopeId) (body : List Node)
    (allowed : ∀ statement ∈ body, regime.allows statement scope) {result : Option Value}
    (admissible : Result regime.good result) :
    regime.Holds (Result regime.good) (Eval.statements setting evaluate scope body result) := by
  induction body generalizing result with
  | nil => exact regime.pure admissible
  | cons statement others ih =>
      obtain ⟨first, rest⟩ := List.forall_mem_cons.mp allowed
      unfold Eval.statements
      refine regime.bind (regime.inStatement first (regime.content evaluates first))
        fun value answers => ?_
      have valueAdmissible := answers.1
      cases value with
      | none => exact ih rest admissible
      | some value =>
          dsimp only
          split
          · exact regime.pure valueAdmissible
          · exact ih rest valueAdmissible

/-- The values of expressions are good, and what is given instead of them is admissible. -/
theorem expressions {tree : Node} (scope : ScopeId) (allowed : regime.allows tree scope)
    (expressions : List Node) (inside : ∀ expression ∈ expressions, expression ∈ tree.operands)
    {values : List Value} (found : ∀ value ∈ values, regime.good value) :
    regime.Holds
      (fun outcome => match outcome with
        | .ok values => ∀ value ∈ values, regime.good value
        | .error signal => signal.Admissible regime.good)
      (Eval.expressions setting evaluate scope expressions values) := by
  induction expressions generalizing values with
  | nil => exact regime.pure fun value member => found value (List.mem_reverse.mp member)
  | cons expression others ih =>
      obtain ⟨first, rest⟩ := List.forall_mem_cons.mp inside
      unfold Eval.expressions
      refine regime.bind (regime.operand evaluates allowed first) fun result yields => ?_
      obtain ⟨admissible, present⟩ := yields
      cases result with
      | some value =>
          dsimp only
          cases signal : value.isSignal with
          | true => exact regime.pure (admissible value rfl)
          | false =>
              exact ih rest (List.forall_mem_cons.mpr ⟨(admissible value rfl).good signal, found⟩)
      | none =>
          have inner := (regime.operands allowed first).1
          refine regime.bind (regime.require inner ⟨.none, present⟩) fun value isGood => ?_
          exact ih rest (List.forall_mem_cons.mpr ⟨isGood, found⟩)

theorem entries {tree : Node} (scope : ScopeId) (allowed : regime.allows tree scope)
    (pairs : List (Node × Node))
    (inside : ∀ pair ∈ pairs, pair.1 ∈ tree.operands ∧ pair.2 ∈ tree.operands)
    {found : List (Key × Value)}
    (foundGood : ∀ entry ∈ found, regime.good entry.1.toValue ∧ regime.good entry.2) :
    regime.Holds regime.Yields (Eval.entries setting evaluate scope pairs found) := by
  induction pairs generalizing found with
  | nil => exact regime.asResult (regime.created fun _ => regime.hash foundGood)
  | cons pair others ih =>
      obtain ⟨keyNode, valueNode⟩ := pair
      obtain ⟨⟨keyInside, valueInside⟩, rest⟩ := List.forall_mem_cons.mp inside
      unfold Eval.entries
      refine regime.bind (regime.operand evaluates allowed keyInside) fun _ keyYields => ?_
      refine regime.unlessSignal keyYields (fun _ _ => .value) fun keyResult keyProvides => ?_
      have keyAllowed := (regime.operands allowed keyInside).1
      have valueAllowed := (regime.operands allowed valueInside).1
      refine regime.bind (regime.require keyAllowed keyProvides) fun keyValue keyGood => ?_
      split
      · exact regime.asFailure _ _
      · rename_i key hashable
        refine regime.bind (regime.operand evaluates allowed valueInside) fun _ valueYields => ?_
        refine regime.unlessSignal valueYields (fun _ _ => .value) fun valueResult valueProvides => ?_
        refine regime.bind (regime.require valueAllowed valueProvides) fun value isGood => ?_
        rw [← Value.toKey?_toValue hashable] at keyGood
        exact ih rest (@putEntry_forall (fun key => regime.good key.toValue) _ _ _ _ foundGood keyGood
          isGood)

omit evaluates in
theorem lookUp (scope : ScopeId) (name : String) :
    regime.Holds (Value.Admissible regime.good) (Eval.lookUp setting scope name) := by
  refine regime.bind regime.get fun machine known => ?_
  cases found : machine.scopes.find? scope name with
  | some value => exact regime.pure (regime.admissible (regime.found known found))
  | none =>
      cases builtin : setting.builtinValue? name with
      | none => exact regime.fail _ _
      | some value => exact regime.pure (regime.admissible (regime.builtin builtin))

theorem branch (scope : ScopeId) (body : List Node)
    (allowed : ∀ statement ∈ body, regime.allows statement scope) :
    regime.Holds regime.Yields
      (do return some ((← Eval.statements setting evaluate scope body none).getD .null)) := by
  refine regime.bind (regime.statements evaluates scope body allowed .none)
    fun result admissible => regime.pure ?_
  cases result with
  | none => exact .good regime.null
  | some value => exact .value (admissible value rfl)

/-- What a let statement gives is a signal. -/
theorem letStatement {token : Token} {name : Identifier} {value : Node} {scope : ScopeId}
    (allowed : regime.allows (.letStatement token name value) scope) :
    regime.Holds
      (fun result => Result regime.good result ∧ ∀ value, result = some value → value.isSignal = true)
      (Eval.node setting evaluate apply (.letStatement token name value) scope) := by
  refine regime.bind (regime.operand evaluates allowed List.mem_cons_self) fun result yields => ?_
  refine regime.unlessSignal yields (fun value signal admissible => ?_) fun result provides => ?_
  · refine ⟨.some admissible, ?_⟩
    rintro _ ⟨⟩
    exact signal
  · refine regime.bind (regime.require allowed provides) fun value isGood => ?_
    have bound := regime.define (regime.target allowed) (fun _ => isGood)
      fun isTotal => regime.usable isTotal isGood
    exact regime.bind bound fun _ _ => regime.pure ⟨.none, nofun⟩

include applies in
theorem node (tree : Node) (scope : ScopeId) (allowed : regime.allows tree scope) :
    regime.Holds (regime.Answers tree) (Eval.node setting evaluate apply tree scope) := by
  have answers : ∀ {action : Eval (Option Value)}, regime.Holds regime.Yields action →
      regime.Holds (regime.Answers tree) action :=
    fun holds => regime.weaken holds fun _ yields => yields.answers tree
  have operands : ∀ {operand : Node}, operand ∈ tree.operands →
      regime.Holds regime.Yields (evaluate operand scope) :=
    fun member => regime.operand evaluates allowed member
  have signals : ∀ value : Value, value.isSignal = true → value.Admissible regime.good →
      regime.Yields (some value) := fun _ _ => .value
  cases tree with
  | program body | block body =>
      exact regime.weaken
        (regime.statements evaluates scope _ (fun _ member => regime.body allowed member) .none)
        fun _ => .statement rfl
  | expressionStatement token expression => exact answers (operands (by simp [Node.operands]))
  | letStatement token name value =>
      exact regime.weaken (regime.letStatement evaluates allowed) fun _ given =>
        .statement rfl given.1
  | returnStatement token value =>
      refine answers (regime.bind (operands (by simp [Node.operands])) fun result yields => ?_)
      refine regime.unlessSignal yields signals fun result provides => ?_
      refine regime.bind (regime.require allowed provides) fun value isGood => ?_
      exact regime.pure (.value isGood)
  | integer token value =>
      exact answers (regime.asResult (regime.created (regime.integer allowed)))
  | boolean token value => exact answers (regime.pure (.good (regime.boolean value)))
  | string token value =>
      exact answers (regime.asResult (regime.created fun id => regime.string id value))
  | identifier name => exact answers (regime.asAdmissible (regime.lookUp scope name.name))
  | unary token operator operand =>
      refine answers (regime.bind (operands (by simp [Node.operands])) fun result yields => ?_)
      refine regime.unlessSignal yields signals fun result provides => ?_
      refine regime.bind (regime.require allowed provides) fun value _ => ?_
      exact regime.asAdmissible (regime.unary operator value)
  | binary token operator left right =>
      refine answers (regime.bind (operands (by simp [Node.operands])) fun result leftYields => ?_)
      refine regime.unlessSignal leftYields signals fun leftResult leftProvides => ?_
      refine regime.bind (operands (by simp [Node.operands])) fun result rightYields => ?_
      refine regime.unlessSignal rightYields signals fun rightResult rightProvides => ?_
      refine regime.bind (regime.require allowed leftProvides) fun leftValue _ => ?_
      refine regime.bind (regime.require allowed rightProvides) fun rightValue _ => ?_
      exact regime.asAdmissible (regime.binary operator leftValue rightValue)
  | conditional token condition consequence alternative =>
      refine answers (regime.bind (operands (by simp [Node.operands])) fun result yields => ?_)
      refine regime.unlessSignal yields signals fun result provides => ?_
      refine regime.bind (regime.require allowed provides) fun value _ => ?_
      split
      · refine regime.branch evaluates scope _ fun statement member => regime.body allowed ?_
        cases alternative with
        | none => exact member
        | some alternative => exact List.mem_append_left _ member
      · split
        · refine regime.branch evaluates scope _ fun statement member => regime.body allowed ?_
          exact List.mem_append_right _ member
        · exact regime.pure (.good regime.null)
  | function token parameters body =>
      exact answers (regime.asResult (regime.created (regime.function allowed)))
  | call token callee arguments =>
      refine answers (regime.bind (operands (by simp [Node.operands])) fun result yields => ?_)
      refine regime.unlessSignal yields signals fun result provides => ?_
      refine regime.bind (regime.expressions evaluates scope allowed arguments
        (fun _ member => List.mem_cons_of_mem _ member) (List.forall_mem_nil _))
        fun outcome given => ?_
      cases outcome with
      | error signal => exact regime.pure (.value given)
      | ok values =>
          refine regime.bind (regime.require allowed provides) fun function isGood => ?_
          refine regime.bind (regime.locate allowed) fun location placed => ?_
          exact applies function values _ _ isGood given (.some placed)
  | array token items =>
      refine answers (regime.bind (regime.expressions evaluates scope allowed items
        (fun _ => id) (List.forall_mem_nil _)) fun outcome given => ?_)
      cases outcome with
      | error signal => exact regime.pure (.value given)
      | ok values => exact regime.asResult (regime.created fun _ => regime.array given)
  | hash token pairs =>
      exact answers (regime.entries evaluates scope allowed pairs (fun _ => Node.operands_hash)
        (List.forall_mem_nil _))
  | index token left position =>
      refine answers (regime.bind (operands (by simp [Node.operands])) fun result leftYields => ?_)
      refine regime.unlessSignal leftYields signals fun leftResult leftProvides => ?_
      refine regime.bind (operands (by simp [Node.operands])) fun result indexYields => ?_
      refine regime.unlessSignal indexYields signals fun indexResult indexProvides => ?_
      refine regime.bind (regime.require allowed leftProvides) fun leftValue isGood => ?_
      refine regime.bind (regime.require allowed indexProvides) fun indexValue _ => ?_
      exact regime.asAdmissible (regime.element indexValue isGood)
  | bare token kind =>
      exact regime.raise _ (fun isTotal => absurd allowed (regime.supported isTotal)) .none

omit evaluates in
theorem bindParameters (scope : ScopeId) (binds : ∀ name, regime.binds scope name)
    (parameters : List Identifier) {arguments : List Value}
    (argumentsGood : ∀ argument ∈ arguments, regime.good argument) :
    regime.Holds (fun _ => True) (Eval.bindParameters scope parameters arguments) := by
  induction parameters generalizing arguments with
  | nil => exact regime.pure trivial
  | cons parameter parameters ih =>
      cases arguments with
      | nil => exact regime.pure trivial
      | cons argument arguments =>
          obtain ⟨argumentGood, othersGood⟩ := List.forall_mem_cons.mp argumentsGood
          have bound := regime.define (binds parameter.name) (fun _ => argumentGood)
            fun isTotal => regime.usable isTotal argumentGood
          exact regime.bind bound fun _ _ => ih othersGood

include applies

theorem script {script : Script} (admits : regime.Admits script) :
    regime.Holds regime.Yields (Eval.script setting evaluate apply script) := by
  induction script with
  | give result => exact regime.pure admits
  | raise fault => exact regime.raise .builtin admits.1 admits.2
  | fail message origin => exact regime.asFailure message origin
  | create make next ih =>
      refine regime.bind (regime.create make) fun value made => ?_
      obtain ⟨id, rfl⟩ := made
      exact ih (make id) (admits id)
  | print line next ih => exact regime.bind (regime.print line) fun _ _ => ih admits
  | apply callee arguments name site catches next ih =>
      obtain ⟨calleeGood, argumentsGood, sited, allowed, onward⟩ := admits
      have applied := applies callee arguments name site calleeGood argumentsGood sited
      exact regime.bind (regime.attempt catches allowed applied)
        fun answer answered => ih answer (onward answer answered)
  | execute text scope catches next ih =>
      obtain ⟨executes, allowed, onward⟩ := admits
      have executed := regime.execute text scope executes evaluates
      exact regime.bind (regime.attempt catches allowed executed)
        fun answer answered => ih answer (onward answer answered)
  | define scope name value next ih =>
      obtain ⟨binds, isGood, usable, onward⟩ := admits
      refine regime.bind (regime.define binds isGood usable) fun bound given => ?_
      obtain ⟨rfl, _⟩ := given
      exact ih bound onward
  | inspect next ih =>
      exact regime.bind regime.get fun machine known => ih machine (admits machine known)

theorem invoke (name : String) (arity : Arity) {arguments : List Value}
    (admits : arity.accepts arguments.length = true → regime.Admits (setting.script name arguments)) :
    regime.Holds regime.Yields (Eval.invoke setting evaluate apply name arity arguments) := by
  unfold Eval.invoke
  split
  · rename_i accepted
    exact regime.script evaluates applies (admits accepted)
  · exact regime.asFailure _ _

omit applies in
/-- A called function ends with a good value or a failure, and never with a returned value. -/
theorem functionApplication {id : ObjectId} {parameters : List Identifier} {body : Block Node}
    {closure : ScopeId} {arguments : List Value} (name : String) {site : Option Location}
    (functionGood : regime.good (.function id parameters body closure))
    (argumentsGood : ∀ argument ∈ arguments, regime.good argument) (sited : regime.Sited site) :
    regime.Holds (Settled regime.good)
      (Eval.application setting evaluate apply (.function id parameters body closure) arguments name
        site) := by
  refine regime.bind (regime.newScope _) fun scope isFresh => ?_
  obtain ⟨binds, allowed⟩ := regime.opened functionGood isFresh
  refine regime.bind (regime.bindParameters scope binds parameters argumentsGood) fun _ _ => ?_
  refine regime.weaken (regime.inFunction name arguments scope sited
    (regime.statements evaluates scope body.statements allowed .none)) fun result given => ?_
  obtain ⟨outcome, rfl, admissible⟩ := given
  refine ⟨_, rfl, ?_⟩
  cases outcome with
  | none => exact .inl regime.null
  | some value =>
      have ending := admissible value rfl
      cases value with
      | failed failure => exact .inr ⟨failure, rfl⟩
      | _ => exact .inl ending

theorem application {callee : Value} {arguments : List Value} (name : String)
    {site : Option Location} (calleeGood : regime.good callee)
    (argumentsGood : ∀ argument ∈ arguments, regime.good argument) (sited : regime.Sited site)
    (admits : ∀ {id name arity}, callee = .builtin id name arity →
      arity.accepts arguments.length = true → regime.Admits (setting.script name arguments)) :
    regime.Holds regime.Yields
      (Eval.application setting evaluate apply callee arguments name site) := by
  cases callee with
  | function id parameters body closure =>
      exact regime.weaken (regime.functionApplication evaluates name calleeGood argumentsGood sited)
        fun _ => .settled
  | builtin id builtinName arity =>
      exact regime.inBuiltin _ _ sited
        (regime.invoke evaluates applies builtinName arity (admits rfl))
  | _ => exact regime.asFailure _ _

end Layer

/-! ## All layers -/

section Depth

variable (admits : ∀ {id name arity arguments}, regime.good (.builtin id name arity) →
    (∀ argument ∈ arguments, regime.good argument) → arity.accepts arguments.length = true →
    regime.Admits (setting.script name arguments))

include admits

theorem evaluatesAndApplies (depth : Nat) :
    (∀ tree scope, regime.allows tree scope →
      regime.Holds (regime.Answers tree) (evaluate setting depth tree scope)) ∧
    ∀ callee arguments name site, regime.good callee →
      (∀ argument ∈ arguments, regime.good argument) → regime.Sited site →
      regime.Holds regime.Yields (apply setting depth callee arguments name site) := by
  induction depth with
  | zero => exact ⟨fun _ _ _ => regime.raise _ (fun _ => rfl) .none,
      fun _ _ _ _ _ _ _ => regime.raise _ (fun _ => rfl) .none⟩
  | succ depth ih =>
      obtain ⟨evaluates, applies⟩ := ih
      refine ⟨regime.node evaluates applies, ?_⟩
      intro callee arguments name site calleeGood argumentsGood sited
      refine regime.application evaluates applies name calleeGood argumentsGood sited ?_
      rintro id name arity rfl
      exact admits calleeGood argumentsGood

theorem evaluates (depth : Nat) (tree : Node) (scope : ScopeId)
    (allowed : regime.allows tree scope) :
    regime.Holds (regime.Answers tree) (evaluate setting depth tree scope) :=
  (regime.evaluatesAndApplies admits depth).1 tree scope allowed

/-- A let statement gives at most a signal. -/
theorem evaluatesLet (depth : Nat) {token : Token} {name : Identifier} {value : Node}
    {scope : ScopeId} (allowed : regime.allows (.letStatement token name value) scope) :
    regime.Holds (fun result => ∀ value, result = some value → value.isSignal = true)
      (evaluate setting depth (.letStatement token name value) scope) := by
  cases depth with
  | zero => exact regime.raise _ (fun _ => rfl) .none
  | succ depth =>
      exact regime.weaken (regime.letStatement (regime.evaluates admits depth) allowed)
        fun _ => And.right

theorem applies (depth : Nat) {callee : Value} {arguments : List Value} (name : String)
    {site : Option Location} (calleeGood : regime.good callee)
    (argumentsGood : ∀ argument ∈ arguments, regime.good argument) (sited : regime.Sited site) :
    regime.Holds regime.Yields (apply setting depth callee arguments name site) :=
  (regime.evaluatesAndApplies admits depth).2 callee arguments name site calleeGood argumentsGood
    sited

theorem appliesFunction (depth : Nat) {id : ObjectId} {parameters : List Identifier}
    {body : Block Node} {closure : ScopeId} {arguments : List Value} (name : String)
    {site : Option Location} (functionGood : regime.good (.function id parameters body closure))
    (argumentsGood : ∀ argument ∈ arguments, regime.good argument) (sited : regime.Sited site) :
    regime.Holds (Settled regime.good)
      (apply setting depth (.function id parameters body closure) arguments name site) := by
  cases depth with
  | zero => exact regime.raise _ (fun _ => rfl) .none
  | succ depth =>
      exact regime.functionApplication (regime.evaluates admits depth) name functionGood
        argumentsGood sited

end Depth

end Regime

end MonkeyLang
