import MonkeyLang.Machine
import MonkeyLang.Proofs.Scopes
import MonkeyLang.Proofs.Syntax.Similar

namespace MonkeyLang

/-! # Similar states

Two states are similar if they differ at most in what a leeway allows: in the places of the texts that
their runs come from, and in whether their steps show bindings.  What hooks have recorded, and how
often they were called, does not matter at all.
-/

/-- In what two runs may differ: in the places of tokens, and in the bindings that steps show, which
the second run may lack. -/
structure Leeway where
  places : Prop
  snapshots : Prop

/-- Only the places may differ. -/
def Leeway.placesOnly : Leeway := ⟨True, False⟩

/-- Only the bindings that steps show may differ. -/
def Leeway.snapshotsOnly : Leeway := ⟨False, True⟩

variable {leeway : Leeway}

namespace Leeway

variable (leeway : Leeway)

structure Tokens (left right : Token) : Prop where
  spelling : left.SameSpelling right
  place : leeway.places ∨ left = right

theorem tokens_spelled : Token.Spelled leeway.Tokens := Tokens.spelling

theorem tokens_reflexive : Token.Reflexive leeway.Tokens := fun _ => ⟨.rfl, .inr rfl⟩

structure Locations (left right : Location) : Prop where
  file : left.file = right.file
  place : leeway.places ∨ left = right

abbrev Places : Option Location → Option Location → Prop := Option.Rel leeway.Locations

structure Steps (left right : Step) : Prop where
  index : left.index = right.index
  form : left.form = right.form
  location : leeway.Places left.location right.location
  callee : left.callee = right.callee
  bindings : left.bindings = right.bindings ∨ leeway.snapshots ∧ right.bindings = none

structure OpenCalls (left right : OpenCall) : Prop where
  name : left.name = right.name
  location : leeway.Places left.location right.location
  step : Option.Rel leeway.Steps left.step right.step

structure Failures (left right : Failure) : Prop where
  message : left.message = right.message
  origin : left.origin = right.origin
  location : leeway.Places left.location right.location
  step : left.step = right.step
  calls : List.Forall₂ leeway.OpenCalls left.calls right.calls

inductive Values : Value → Value → Prop
  | integer (id : ObjectId) (value : Int) : Values (.integer id value) (.integer id value)
  | boolean (value : Bool) : Values (.boolean value) (.boolean value)
  | null : Values .null .null
  | string (id : ObjectId) (text : String) : Values (.string id text) (.string id text)
  | array (id : ObjectId) {left right : List Value} (items : List.Forall₂ Values left right) :
      Values (.array id left) (.array id right)
  | hash (id : ObjectId) {left right : List (Key × Value)}
      (entries : List.Forall₂ (Prod.RProd Eq Values) left right) :
      Values (.hash id left) (.hash id right)
  | function (id : ObjectId) {parameters others : List Identifier} {left right : Block Node}
      (names : List.Forall₂ (Identifier.Similar leeway.Tokens) parameters others)
      (bodies : left.Similar leeway.Tokens (Node.Similar leeway.Tokens) right) (scope : ScopeId) :
      Values (.function id parameters left scope) (.function id others right scope)
  | builtin (id : ObjectId) (name : String) (arity : Arity) :
      Values (.builtin id name arity) (.builtin id name arity)
  | returned {left right : Value} (values : Values left right) :
      Values (.returned left) (.returned right)
  | failed {left right : Failure} (failures : leeway.Failures left right) :
      Values (.failed left) (.failed right)

abbrev Results : Option Value → Option Value → Prop := Option.Rel leeway.Values

abbrev Bindings : List (String × Value) → List (String × Value) → Prop :=
  List.Forall₂ (Prod.RProd Eq leeway.Values)

structure Scope (left right : MonkeyLang.Scope) : Prop where
  parent : left.parent = right.parent
  bindings : leeway.Bindings left.bindings right.bindings

structure Scopes (left right : MonkeyLang.Scopes) : Prop where
  size : left.size = right.size
  each : ∀ id : ScopeId, Option.Rel leeway.Scope left.table[id]? right.table[id]?

structure Frames (left right : Frame) : Prop where
  name : left.name = right.name
  scope : left.scope = right.scope
  serial : left.serial = right.serial
  site : leeway.Places left.site right.site

structure Logs (left right : StepLog) : Prop where
  count : left.count = right.count
  last : Option.Rel leeway.Steps left.last right.last
  latest : List.Forall₂ (Prod.RProd Eq leeway.Steps) left.latest right.latest

structure Machines (left right : Machine) : Prop where
  scopes : leeway.Scopes left.scopes right.scopes
  nextObject : left.nextObject = right.nextObject
  lines : leeway.places ∨ left.lines = right.lines
  steps : leeway.Logs left.steps right.steps
  stack : List.Forall₂ leeway.Frames left.stack right.stack
  nextSerial : left.nextSerial = right.nextSerial
  printed : left.printed = right.printed
  exhausted : left.exhausted = right.exhausted

/-- Where only snapshots may differ, places do not. -/
theorem places_eq {left right : Option Location} (places : snapshotsOnly.Places left right) :
    left = right := by
  cases places with
  | none => rfl
  | some locations => exact congrArg some (locations.place.resolve_left id)

end Leeway

namespace Leeway.Values

variable {left right : Value}

theorem typeName (values : leeway.Values left right) : left.typeName = right.typeName := by
  cases values <;> rfl

theorem isSignal (values : leeway.Values left right) : left.isSignal = right.isSignal := by
  cases values <;> rfl

theorem identity? (values : leeway.Values left right) : left.identity? = right.identity? := by
  cases values <;> rfl

theorem same {otherLeft otherRight : Value} (values : leeway.Values left right)
    (others : leeway.Values otherLeft otherRight) : left.same otherLeft = right.same otherRight := by
  simp only [Value.same, values.identity?, others.identity?]

mutual

theorem inspect : ∀ (left : Value) {right : Value}, leeway.Values left right →
    left.inspect = right.inspect
  | .integer .., _, values => by cases values; rfl
  | .boolean .., _, values => by cases values; rfl
  | .null, _, values => by cases values; rfl
  | .string .., _, values => by cases values; rfl
  | .builtin .., _, values => by cases values; rfl
  | .array _ items, _, values => by
      cases values with | array _ others
      simp only [Value.inspect, inspectAll items others]
  | .hash _ entries, _, values => by
      cases values with | hash _ others
      simp only [Value.inspect, inspectEntries entries others]
  | .function .., _, values => by
      cases values with | function _ names bodies _
      simp only [Value.inspect, Node.Similar.renderNames names,
        Node.Similar.renderAll leeway.tokens_spelled _ bodies.statements]
  | .returned value, _, values => by
      cases values with | returned others
      simp only [Value.inspect, inspect value others]
  | .failed _, _, values => by
      cases values with | failed failures
      simp only [Value.inspect, failures.message]

theorem inspectAll : ∀ (left : List Value) {right : List Value},
    List.Forall₂ leeway.Values left right → Value.inspectAll left = Value.inspectAll right
  | [], _, .nil => rfl
  | [item], _, .cons first .nil => inspect item first
  | item :: next :: items, _, .cons first (.cons second others) => by
      simp only [Value.inspectAll, inspect item first, inspectAll (next :: items) (.cons second others)]

theorem inspectEntries : ∀ (left : List (Key × Value)) {right : List (Key × Value)},
    List.Forall₂ (Prod.RProd Eq leeway.Values) left right →
    Value.inspectEntries left = Value.inspectEntries right
  | [], _, .nil => rfl
  | [(key, value)], _, .cons (.intro keys values) .nil => by
      simp only [Value.inspectEntries, keys, inspect value values]
  | (key, value) :: next :: entries, _, .cons (.intro keys values) (.cons second others) => by
      simp only [Value.inspectEntries, keys, inspect value values,
        inspectEntries (next :: entries) (.cons second others)]

end

theorem snapshot (values : leeway.Values left right) : left.snapshot = right.snapshot := by
  have typeName := values.typeName
  cases values with
  | function id names bodies scope =>
      simp only [Value.snapshot, Node.Similar.renderNames names, typeName]
  | array id items =>
      simp only [Value.snapshot, inspect _ (.array id items), typeName]
  | hash id entries =>
      simp only [Value.snapshot, inspect _ (.hash id entries), typeName]
  | returned values =>
      simp only [Value.snapshot, inspect _ (.returned values), typeName]
  | failed failures =>
      simp only [Value.snapshot, inspect _ (.failed failures), typeName]
  | _ => rfl

end Leeway.Values

namespace Leeway

variable {left right : Value}

theorem Bindings.snapshot {bindings others : List (String × Value)}
    (similar : leeway.Bindings bindings others) :
    (bindings.map fun (name, value) => (name, value.snapshot)) =
      others.map fun (name, value) => (name, value.snapshot) := by
  induction similar with
  | nil => rfl
  | cons first rest ih =>
      cases first with | intro names values
      simp only [List.map_cons, names, values.snapshot, ih]

namespace Scopes

variable {first second : MonkeyLang.Scopes}

theorem add (similar : leeway.Scopes first second) (parent : Option ScopeId) :
    leeway.Scopes (first.add parent) (second.add parent) where
  size := by
    have size : first.table.size = second.table.size := similar.size
    simp [MonkeyLang.Scopes.add, MonkeyLang.Scopes.size, size]
  each id := by
    have size : first.table.size = second.table.size := similar.size
    simp only [MonkeyLang.Scopes.add, Array.getElem?_push, size]
    split
    · exact .some ⟨rfl, .nil⟩
    · exact similar.each id

theorem bind (similar : leeway.Scopes first second) (id : ScopeId) (name : String)
    (values : leeway.Values left right) :
    leeway.Scopes (first.bind id name left) (second.bind id name right) where
  size := by
    have size : first.table.size = second.table.size := similar.size
    simp [MonkeyLang.Scopes.bind, MonkeyLang.Scopes.size, size]
  each other := by
    have here := similar.each other
    simp only [MonkeyLang.Scopes.bind, Array.getElem?_modify]
    generalize first.table[other]? = scope, second.table[other]? = otherScope at here
    split
    · cases here with
      | some scopes => exact .some ⟨scopes.parent, Scope.bind_related name values scopes.bindings⟩
      | none => exact .none
    · exact here

theorem find? (similar : leeway.Scopes first second) (id : ScopeId) (name : String) :
    leeway.Results (first.find? id name) (second.find? id name) := by
  have each : ∀ id : ScopeId, True →
      Option.Rel (MonkeyLang.Scope.Alike leeway.Values (fun _ => True) name) first.table[id]?
        second.table[id]? := by
    intro id _
    have here := similar.each id
    generalize first.table[id]? = scope, second.table[id]? = other at here
    cases here with
    | none => exact .none
    | some scopes =>
        exact .some ⟨scopes.parent, fun _ _ => trivial, Scope.lookup_related name scopes.bindings⟩
  exact MonkeyLang.Scopes.find?_alike each id trivial

theorem snapshot (similar : leeway.Scopes first second) (id : ScopeId) :
    first.snapshot id = second.snapshot id := by
  have here := similar.each id
  simp only [MonkeyLang.Scopes.snapshot]
  generalize first.table[id]? = scope, second.table[id]? = otherScope at here
  cases here with
  | some scopes => exact scopes.bindings.snapshot
  | none => rfl

end Scopes

namespace Logs

variable {first second : StepLog}

theorem lookup {latest others : List (Nat × Step)}
    (similar : List.Forall₂ (Prod.RProd Eq leeway.Steps) latest others) (serial : Nat) :
    Option.Rel leeway.Steps (latest.lookup serial) (others.lookup serial) := by
  induction similar with
  | nil => exact .none
  | cons first rest ih =>
      cases first with | intro serials steps
      subst serials
      simp only [List.lookup_cons]
      split
      · exact .some steps
      · exact ih

theorem forFrame (logs : leeway.Logs first second) (serial : Nat) :
    Option.Rel leeway.Steps (first.forFrame serial) (second.forFrame serial) :=
  lookup logs.latest serial

theorem forget (logs : leeway.Logs first second) (serial : Nat) :
    leeway.Logs (first.forget serial) (second.forget serial) where
  count := logs.count
  last := logs.last
  latest := by
    refine List.rel_filter ?_ logs.latest
    intro entry other similar
    cases similar with | intro serials steps
    simp [serials]

theorem record (logs : leeway.Logs first second) (frame : Option Nat) {step other : Step}
    (steps : leeway.Steps step other) :
    leeway.Logs (first.record frame step) (second.record frame other) where
  count := congrArg (· + 1) logs.count
  last := .some steps
  latest := by
    cases frame with
    | none => exact logs.latest
    | some serial => exact .cons (.intro rfl steps) (logs.forget serial).latest

theorem openCalls (logs : leeway.Logs first second) {stack others : List Frame}
    (frames : List.Forall₂ leeway.Frames stack others) :
    List.Forall₂ leeway.OpenCalls (MonkeyLang.openCalls first stack)
      (MonkeyLang.openCalls second others) := by
  refine List.rel_map ?_ (List.rel_reverse frames)
  intro frame other similar
  have found := logs.forFrame frame.serial
  rw [similar.serial] at found
  dsimp only
  rw [similar.serial]
  generalize first.forFrame other.serial = step, second.forFrame other.serial = otherStep at found
  cases found with
  | some steps => exact ⟨similar.name, steps.location, .some steps⟩
  | none => exact ⟨similar.name, similar.site, .none⟩

end Logs

/-! ## Machines -/

namespace Machines

variable {first second : Machine}

theorem failure (machines : leeway.Machines first second) (message : String)
    (origin : Option String) :
    leeway.Failures (first.failure message origin) (second.failure message origin) := by
  have last := machines.steps.last
  have calls := machines.steps.openCalls machines.stack
  refine ⟨rfl, rfl, ?_, ?_, calls⟩
  all_goals
    simp only [Machine.failure]
    generalize first.steps.last = step, second.steps.last = other at last
    cases last with
    | none => constructor
    | some steps => first | exact steps.location | exact congrArg some steps.index

theorem pushFrame (machines : leeway.Machines first second) (name : String) (scope : ScopeId)
    {site other : Option Location} (sites : leeway.Places site other) :
    leeway.Machines (first.pushFrame name scope site) (second.pushFrame name scope other) :=
  { machines with
    stack := .cons ⟨rfl, rfl, machines.nextSerial, sites⟩ machines.stack
    nextSerial := congrArg (· + 1) machines.nextSerial }

theorem closeFrame (machines : leeway.Machines first second) (serial : Nat) :
    leeway.Machines (first.closeFrame serial) (second.closeFrame serial) :=
  { machines with
    stack := by
      have stack := machines.stack
      simp only [Machine.closeFrame]
      generalize first.stack = frames, second.stack = others at stack
      cases stack with
      | nil => exact .nil
      | cons _ rest => exact rest
    steps := machines.steps.forget serial }

theorem unwindStack (serial : Nat) {stack others : List Frame}
    (frames : List.Forall₂ leeway.Frames stack others) {log otherLog : StepLog}
    (logs : leeway.Logs log otherLog) :
    List.Forall₂ leeway.Frames (Machine.unwindStack serial stack log).1
        (Machine.unwindStack serial others otherLog).1 ∧
      leeway.Logs (Machine.unwindStack serial stack log).2
        (Machine.unwindStack serial others otherLog).2 := by
  induction frames generalizing log otherLog with
  | nil => exact ⟨.nil, logs⟩
  | cons first rest ih =>
      simp only [Machine.unwindStack, first.serial]
      split
      · exact ⟨rest, logs.forget _⟩
      · exact ih (logs.forget _)

theorem close (machines : leeway.Machines first second) (serial : Nat) (closing : Machine.Closing) :
    leeway.Machines (first.close serial closing) (second.close serial closing) := by
  cases closing with
  | innermost => exact machines.closeFrame serial
  | unwinding =>
      have unwound := unwindStack serial machines.stack machines.steps
      exact { machines with stack := unwound.1, steps := unwound.2 }

/-- A step that is logged in both states shows the same bindings in both, or none in the second. -/
theorem logStep (machines : leeway.Machines first second) {verbose other : Bool}
    (verbosity : verbose = other ∨ leeway.snapshots ∧ other = false) (form : String)
    {location otherLocation : Option Location} (places : leeway.Places location otherLocation)
    (callee : Option String) :
    leeway.Machines (first.logStep verbose form location callee)
      (second.logStep other form otherLocation callee) := by
  refine { machines with steps := ?_ }
  have stack := machines.stack
  have snapshot := fun id => machines.scopes.snapshot id
  simp only [Machine.logStep]
  generalize first.stack = frames, second.stack = others at stack ⊢
  cases stack with
  | nil =>
      refine machines.steps.record none ⟨machines.steps.count, rfl, places, rfl, .inl ?_⟩
      cases verbose <;> cases other <;> rfl
  | cons innermost _ =>
      simp only [List.head?_cons, Option.map_some, innermost.serial, snapshot]
      refine machines.steps.record _ ⟨machines.steps.count, rfl, places, rfl, ?_⟩
      rcases verbosity with rfl | ⟨allowed, rfl⟩
      · left
        cases verbose with
        | false => rfl
        | true => simp only [innermost.scope]
      · exact .inr ⟨allowed, rfl⟩

end Machines

section Reflexive

variable (leeway : Leeway)

theorem option_refl {α : Type} {related : α → α → Prop} (each : ∀ item, related item item) :
    ∀ item : Option α, Option.Rel related item item
  | some item => .some (each item)
  | none => .none

theorem locations_refl (location : Location) : leeway.Locations location location :=
  ⟨rfl, .inr rfl⟩

theorem places_refl (place : Option Location) : leeway.Places place place :=
  option_refl leeway.locations_refl place

theorem steps_refl (step : Step) : leeway.Steps step step :=
  ⟨rfl, rfl, leeway.places_refl step.location, rfl, .inl rfl⟩

theorem openCalls_refl (call : OpenCall) : leeway.OpenCalls call call :=
  ⟨rfl, leeway.places_refl call.location, option_refl leeway.steps_refl call.step⟩

theorem failures_refl (failure : Failure) : leeway.Failures failure failure :=
  ⟨rfl, rfl, leeway.places_refl failure.location, rfl,
    List.forall₂_same.mpr fun call _ => leeway.openCalls_refl call⟩

mutual

theorem values_refl (leeway : Leeway) : ∀ value : Value, leeway.Values value value
  | .integer id value => .integer id value
  | .boolean value => .boolean value
  | .null => .null
  | .string id text => .string id text
  | .array id items => .array id (allValues_refl leeway items)
  | .hash id entries => .hash id (entries_refl leeway entries)
  | .function id _ ⟨opening, body⟩ scope =>
      .function id (List.forall₂_same.mpr fun name _ => .refl leeway.tokens_reflexive name)
        (.block (leeway.tokens_reflexive opening)
          (Node.Similar.reflAll leeway.tokens_reflexive body)) scope
  | .builtin id name arity => .builtin id name arity
  | .returned value => .returned (values_refl leeway value)
  | .failed failure => .failed (leeway.failures_refl failure)

theorem allValues_refl (leeway : Leeway) :
    ∀ values : List Value, List.Forall₂ leeway.Values values values
  | [] => .nil
  | value :: values => .cons (values_refl leeway value) (allValues_refl leeway values)

theorem entries_refl (leeway : Leeway) :
    ∀ entries : List (Key × Value), List.Forall₂ (Prod.RProd Eq leeway.Values) entries entries
  | [] => .nil
  | (_, value) :: entries => .cons (.intro rfl (values_refl leeway value)) (entries_refl leeway entries)

end

theorem bindings_refl (bindings : List (String × Value)) : leeway.Bindings bindings bindings :=
  List.forall₂_same.mpr fun (_, value) _ => .intro rfl (leeway.values_refl value)

theorem machines_refl (machine : Machine) : leeway.Machines machine machine where
  scopes := ⟨rfl, fun _ => option_refl (fun scope => ⟨rfl, leeway.bindings_refl scope.bindings⟩) _⟩
  nextObject := rfl
  lines := .inr rfl
  steps := ⟨rfl, option_refl leeway.steps_refl _,
    List.forall₂_same.mpr fun (_, step) _ => .intro rfl (leeway.steps_refl step)⟩
  stack := List.forall₂_same.mpr fun frame _ => ⟨rfl, rfl, rfl, leeway.places_refl frame.site⟩
  nextSerial := rfl
  printed := rfl
  exhausted := rfl

end Reflexive

end Leeway

end MonkeyLang
