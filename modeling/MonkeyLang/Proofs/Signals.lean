import MonkeyLang.Extension.Behaviour
import MonkeyLang.Proofs.Builtins
import MonkeyLang.Proofs.Evaluation.Hosts
import MonkeyLang.Proofs.Scopes

namespace MonkeyLang

/-! # Signals are never stored

A returned value and a failure are on their way out of what is evaluated.  They never get into a
scope, an array or a hash, and none is wrapped in a returned value.
-/

/-- A value without signals at any depth. -/
inductive Value.Storable : Value → Prop
  | integer (id : ObjectId) (value : Int) : Storable (.integer id value)
  | boolean (value : Bool) : Storable (.boolean value)
  | null : Storable .null
  | string (id : ObjectId) (text : String) : Storable (.string id text)
  | array (id : ObjectId) {items : List Value} (elements : ∀ item ∈ items, Storable item) :
      Storable (.array id items)
  | hash (id : ObjectId) {entries : List (Key × Value)}
      (keys : ∀ entry ∈ entries, Storable entry.1.toValue)
      (values : ∀ entry ∈ entries, Storable entry.2) : Storable (.hash id entries)
  | function (id : ObjectId) (parameters : List Identifier) (body : Block Node) (scope : ScopeId) :
      Storable (.function id parameters body scope)
  | builtin (id : ObjectId) (name : String) (arity : Arity) : Storable (.builtin id name arity)

namespace Value

theorem Storable.elements {id : ObjectId} {items : List Value}
    (storable : (Value.array id items).Storable) : ∀ item ∈ items, item.Storable := by
  cases storable with
  | array _ elements => exact elements

theorem storable_key (key : Key) : key.toValue.Storable := by
  cases key with
  | integer id value => exact .integer id value
  | boolean value => exact .boolean value
  | string id text => exact .string id text

end Value

def Goodness.storable : Goodness where
  good := Value.Storable
  admissible storable := by cases storable <;> constructor <;> assumption
  null := .null
  boolean := .boolean
  integer := .integer
  string := .string
  function := .function
  builtin := .builtin
  array := .array _
  items := Value.Storable.elements
  hash := .hash _ fun entry _ => Value.storable_key entry.1

/-- A value that a builtin need not make: `null` or one of its arguments. -/
def Value.Among (arguments : List Value) (value : Value) : Prop :=
  value = .null ∨ value ∈ arguments

/-- What a small builtin of an extension does with its arguments: it ends with one of them, bare or
as a returned value, with `null`, no value, a failure, what applying them gives, or a fault.  Before
that it may look at the run and bind arguments.  It may also try to bind signals, which the scope
refuses, and catch the fault of an application. -/
inductive Script.Forwards (arguments : List Value) : Script → Prop
  | argument {value : Value} (among : value.Among arguments) :
      Forwards arguments (.give (some value))
  | nothing : Forwards arguments (.give none)
  | failed (failure : Failure) : Forwards arguments (.give (some (.failed failure)))
  | fail (message : String) (origin : Option String) : Forwards arguments (.fail message origin)
  | returned {value : Value} (among : value.Among arguments) :
      Forwards arguments (.give (some (.returned value)))
  | raise (fault : Fault) : Forwards arguments (.raise fault)
  | apply {callee : Value} {passed : List Value} (name : String) (site : Option Location)
      (catches : Fault → Bool) {next : Except Fault (Option Value) → Script}
      (among : callee.Among arguments) (passedAmong : ∀ value ∈ passed, value.Among arguments)
      (gives : ∀ result, next (.ok result) = .give result)
      (goesOn : ∀ fault, Forwards arguments (next (.error fault))) :
      Forwards arguments (.apply callee passed name site catches next)
  | define (scope : ScopeId) (name : String) {value : Value} {next : Value → Script}
      (among : value.isSignal = false → value.Among arguments)
      (goesOn : Forwards arguments (next value)) :
      Forwards arguments (.define scope name value next)
  | inspect {next : Machine → Script} (goesOn : ∀ machine, Forwards arguments (next machine)) :
      Forwards arguments (.inspect next)

namespace Script

variable {known : Machine → Prop} {arguments : List Value}

/-- A script that a builtin with storable arguments may have. -/
abbrev Stores (known : Machine → Prop) (script : Script) : Prop :=
  script.Obeys Value.Storable known True

theorem Stores.value {value : Value} (storable : value.Storable) :
    (Script.give (some value)).Stores known :=
  .some (Goodness.storable.admissible storable)

theorem Forwards.stores {script : Script} (forwards : script.Forwards arguments)
    (storable : ∀ argument ∈ arguments, argument.Storable) : script.Stores known := by
  have amongStorable : ∀ {value : Value}, value.Among arguments → value.Storable := by
    intro value given
    rcases given with rfl | isArgument
    · exact .null
    · exact storable value isArgument
  induction forwards with
  | argument among => exact .value (amongStorable among)
  | nothing => exact Result.none
  | failed failure => exact Result.some trivial
  | fail | raise => exact trivial
  | returned among => exact Result.some (amongStorable among)
  | apply name site catches among passedAmong gives goesOn ih =>
      refine ⟨amongStorable among, fun value passed => amongStorable (passedAmong value passed),
        fun result admissible => ?_, fun fault _ => ih fault⟩
      rw [gives]
      exact admissible
  | define scope name among goesOn ih => exact ⟨fun usable => amongStorable (among usable), ih⟩
  | inspect goesOn ih => exact fun machine _ => ih machine

end Script

theorem Behaviour.subject_among (arguments : List Value) :
    (Behaviour.subject arguments).Among arguments := by
  cases arguments with
  | nil => exact .inl rfl
  | cons argument arguments => exact .inr List.mem_cons_self

/-- Described builtins forward their arguments, but for the one that runs texts and the one that
lists frames. -/
theorem Behaviour.forwards (behaviour : Behaviour) (builtin : String) (arguments : List Value)
    (runsNoText : behaviour ≠ .execute) (listsNoFrames : behaviour ≠ .frames) :
    (behaviour.script builtin arguments).Forwards arguments := by
  have bound : ∀ name value, (value.isSignal = false → value.Among arguments) →
      (Script.give (some value)).Forwards arguments →
      (Behaviour.bindInInnermost name value).Forwards arguments := by
    intro name value among gives
    refine .inspect fun machine => ?_
    split
    · exact .define _ name among gives
    · exact .raise _
  have subject := Behaviour.subject_among arguments
  cases behaviour with
  | echo => exact .argument subject
  | nothing => exact .nothing
  | raise | fault => exact .raise _
  | giveBack => exact .returned subject
  | fail message => exact .fail message _
  | failNowhere message => exact .failed _
  | apply =>
      exact .apply _ _ _ subject (fun value member => .inr (List.mem_of_mem_tail member))
        (fun _ => rfl) fun fault => .raise fault
  | define name => exact bound name _ (fun _ => subject) (.argument subject)
  | defineReturned name => exact bound name _ nofun (.returned subject)
  | execute => contradiction
  | frames => contradiction

def Invariant.storable : Invariant where
  toGoodness := Goodness.storable
  Index := Unit
  through _ machine := machine.scopes.Bind Value.Storable
  ends _ machine := machine.scopes.Bind Value.Storable
  passable _ _ := id
  found bound found := bound.found found
  adjust bound adjustment := by
    cases adjustment with
    | scope parent => exact bound.add parent
    | binding scope name isGood => exact bound.bind scope name isGood
    | _ => exact bound
  frame name scope site bound :=
    ⟨(), bound, fun _ => id, fun machine closing ended => by cases closing <;> exact ended⟩

section Hosts

variable {setting : Setting}
  (builtins : ∀ builtin ∈ setting.builtins, builtin ∈ Builtin.core ∨ builtin ∈ Builtin.strings ∨
    ∀ arguments, (builtin.run arguments).Forwards arguments)

include builtins

theorem builtins_store : ∀ builtin ∈ setting.builtins, ∀ arguments,
    (∀ argument ∈ arguments, argument.Storable) →
    (builtin.run arguments).Stores Invariant.storable.known := by
  intro builtin member arguments storable
  rcases builtins builtin member with isCore | isString | forwards
  · exact (Builtin.core_plain Goodness.storable.composes storable isCore).obeys
      Goodness.storable.admissible
  · exact (Builtin.strings_plain Goodness.storable.composes isString).obeys
      Goodness.storable.admissible
  · exact (forwards arguments).stores storable

theorem Machine.Reaches.bind {machine : Machine}
    (reached : Machine.Reaches setting (HostCall.Hands Value.Storable) (.initial setting) machine) :
    machine.scopes.Bind Value.Storable := by
  have started : (Machine.initial setting).scopes.Bind Value.Storable := by
    simp [Scopes.Bind, Machine.initial, Scopes.empty]
  refine @Machine.Reaches.scopes _ _ _ _ (·.Bind Value.Storable) reached started
    fun call before hands leaves bound => ?_
  have holds := Invariant.storable.performs (builtins_store builtins) call hands leaves
  exact (holds () before bound).leads (fun _ _ => And.left) fun _ _ => id

/-- In every state that a host reaches by handing storable values over, be it in the middle of a
run, no scope binds a signal at any depth; whatever is called from there ends without a signal inside
a value or a returned value; and a function that is applied never gives a returned value. -/
theorem signals_unstored (machine : Machine)
    (reached : Machine.Reaches setting (HostCall.Hands Value.Storable) (.initial setting) machine) :
    machine.scopes.Bind Value.Storable ∧
      (∀ (call : HostCall) result after, call.Hands Value.Storable →
        (call.perform setting machine).ending = .ok result after →
          Result Value.Storable result) ∧
      ∀ depth id parameters body closure arguments name site result after,
        (∀ argument ∈ arguments, argument.Storable) →
        (apply setting depth (.function id parameters body closure) arguments name
          site machine).ending = .ok result after → Settled Value.Storable result := by
  have bound := reached.bind builtins
  refine ⟨bound, ?_, ?_⟩
  · intro call result after hands ended
    cases changing : call.changesStack with
    | false =>
        have holds := Invariant.storable.performs (builtins_store builtins) call hands changing
        exact ((holds () machine bound).done _ _ ended).2
    | true =>
        cases call with
        | pushFrame name scope site => cases ended; exact .none
        | unwind serial => cases ended; exact .none
        | _ => cases changing
  · intro depth id parameters body closure arguments name site result after storable ended
    have settles := Invariant.storable.appliesFunction
      (builtins_store builtins) depth id parameters body closure name site storable
    exact ((settles () machine bound).done _ _ ended).2

omit builtins in
/-- A builtin gives its argument as a returned value, and another one applies its argument. -/
theorem signals_unstored_returning_builtin :
    let extensions : List Builtin :=
      [Behaviour.giveBack.builtin "ret" ⟨1, some 1⟩, Behaviour.apply.builtin "app" ⟨1, none⟩]
    let setting : Setting := ⟨"<string>", false, Builtin.core ++ Builtin.strings ++ extensions, .none⟩
    let opened := ((HostCall.newScope none).perform setting (.initial setting)).machine
    let call := HostCall.execute 100 "let kept = [app(ret, 1)]; fn(x) { [ret(x)] }(2)" 0
    (call.perform setting opened).machine.scopes.Bind Value.Storable := by
  intro extensions setting opened call
  refine (signals_unstored ?_ _ (.ending call (.ending (.newScope none) .start trivial) trivial)).1
  intro builtin member
  rcases List.mem_append.mp member with known | extension
  · rcases List.mem_append.mp known with isCore | isString
    · exact .inl isCore
    · exact .inr (.inl isString)
  · refine .inr (.inr fun arguments => ?_)
    simp only [extensions, List.mem_cons, List.not_mem_nil, or_false] at extension
    rcases extension with rfl | rfl
    · exact Behaviour.giveBack.forwards "ret" arguments nofun nofun
    · exact Behaviour.apply.forwards "app" arguments nofun nofun

end Hosts

end MonkeyLang
