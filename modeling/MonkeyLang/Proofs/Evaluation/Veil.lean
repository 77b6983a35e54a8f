import MonkeyLang.Proofs.Evaluation.Texts
import MonkeyLang.Proofs.Scopes
import MonkeyLang.Proofs.Syntax.Parts

namespace MonkeyLang

/-! # Runs from which a name is hidden

Two runs may differ in what one name means: whatever it is bound to, or whether there is a builtin of
that name.  As long as nothing mentions the name, values correspond to one another by an embedding of
the identities of the first run into those of the second one, and so do the bindings of all other
names in the scopes that can be reached.  Identities differ because the second run may have had more
objects from the start.
-/

/-- A node mentions a name if it looks the name up or may bind it. -/
def Node.Mentions (name : String) : Node → Prop
  | .identifier mentioned => mentioned.name = name
  | .letStatement _ target _ => target.name = name
  | .function _ parameters _ => ∃ parameter ∈ parameters, parameter.name = name
  | _ => False

/-- No part of a tree mentions a name. -/
abbrev Node.Avoids (name : String) : Node → Prop :=
  Node.Throughout fun node => ¬ node.Mentions name

/-- A program avoids a name that no identifier of its text spells. -/
theorem Parsed.avoids {text name : String} {program : Node}
    (read : Parsed.ofText text = .ok ⟨program, []⟩)
    (spelled : ∀ token ∈ Token.scan text, token.kind = .identifier → token.literal ≠ name) :
    program.Avoids name := by
  have other : ∀ {mentioned : Identifier}, mentioned.Formed (· ∈ Token.scan text) →
      mentioned.name ≠ name := by
    intro mentioned formed
    rw [formed.name]
    exact spelled _ formed.token.known formed.token.kind
  refine (Parsed.formed read).imp fun node formed mentions => ?_
  cases node with
  | identifier => exact other formed mentions
  | letStatement => exact other formed.2 mentions
  | function =>
      obtain ⟨parameter, member, same⟩ := mentions
      exact other (formed.2.1 parameter member) same
  | _ => exact mentions

/-- In what two runs may differ: in the meaning of a name, in the scopes before some scope, and in
the identities of objects. -/
structure Veil where
  name : String
  /-- The first scope that can be reached. -/
  base : ScopeId
  /-- The identity that an object of the first run has in the second one. -/
  object : ObjectId → ObjectId
  injective : Function.Injective object

namespace Veil

variable (veil : Veil)

structure Trees (left right : Node) : Prop where
  same : left = right
  avoids : left.Avoids veil.name

structure Names (left right : Identifier) : Prop where
  same : left = right
  other : left.name ≠ veil.name

structure Blocks (left right : Block Node) : Prop where
  same : left = right
  avoids : ∀ statement ∈ left.statements, statement.Avoids veil.name

inductive Keys : Key → Key → Prop
  | integer (id : ObjectId) (value : Int) : Keys (.integer id value) (.integer (veil.object id) value)
  | boolean (value : Bool) : Keys (.boolean value) (.boolean value)
  | string (id : ObjectId) (text : String) : Keys (.string id text) (.string (veil.object id) text)

/-- Values that correspond to one another. -/
inductive Values : Value → Value → Prop
  | integer (id : ObjectId) (value : Int) :
      Values (.integer id value) (.integer (veil.object id) value)
  | boolean (value : Bool) : Values (.boolean value) (.boolean value)
  | null : Values .null .null
  | string (id : ObjectId) (text : String) : Values (.string id text) (.string (veil.object id) text)
  | array (id : ObjectId) {left right : List Value} (items : List.Forall₂ Values left right) :
      Values (.array id left) (.array (veil.object id) right)
  | hash (id : ObjectId) {left right : List (Key × Value)}
      (entries : List.Forall₂ (Prod.RProd veil.Keys Values) left right) :
      Values (.hash id left) (.hash (veil.object id) right)
  | function (id : ObjectId) {parameters others : List Identifier} {left right : Block Node}
      {scope : ScopeId} (names : List.Forall₂ veil.Names parameters others)
      (bodies : veil.Blocks left right) (inside : veil.base ≤ scope) :
      Values (.function id parameters left scope) (.function (veil.object id) others right scope)
  | builtin (id : ObjectId) {name : String} (arity : Arity) (other : name ≠ veil.name) :
      Values (.builtin id name arity) (.builtin (veil.object id) name arity)
  | returned {left right : Value} (values : Values left right) :
      Values (.returned left) (.returned right)
  | failed {left right : Failure} (failures : Leeway.snapshotsOnly.Failures left right) :
      Values (.failed left) (.failed right)

abbrev Results : Option Value → Option Value → Prop := Option.Rel veil.Values

/-- The bindings of other names than the hidden one. -/
def shown (bindings : List (String × Value)) : List (String × Value) :=
  bindings.filter (·.1 != veil.name)

structure Scope (left right : MonkeyLang.Scope) : Prop where
  parent : left.parent = right.parent
  around : ∀ parent, left.parent = some parent → veil.base ≤ parent
  bindings : List.Forall₂ (Prod.RProd Eq veil.Values) (veil.shown left.bindings)
    (veil.shown right.bindings)

structure Scopes (left right : MonkeyLang.Scopes) : Prop where
  size : left.size = right.size
  opened : veil.base ≤ left.size
  each : ∀ id : ScopeId, veil.base ≤ id → Option.Rel veil.Scope left.table[id]? right.table[id]?

end Veil

/-- A state without its scopes and objects. -/
def Machine.bare (machine : Machine) : Machine :=
  { machine with scopes := .empty, nextObject := 0 }

namespace Veil

variable (veil : Veil)

/-- States that correspond to one another.  The second one may lack the bindings that steps show. -/
structure Machines (left right : Machine) : Prop where
  scopes : veil.Scopes left.scopes right.scopes
  objects : ∀ more, veil.object (left.nextObject + more) = right.nextObject + more
  rest : Leeway.snapshotsOnly.Machines left.bare right.bare

variable {veil} {left right : Value}

theorem Keys.inspect {key other : Key} (keys : veil.Keys key other) : key.inspect = other.inspect := by
  cases keys <;> rfl

theorem Values.key {key other : Key} (values : veil.Values key.toValue other.toValue) :
    veil.Keys key other := by
  cases key <;> cases other <;> cases values <;> constructor

theorem Values.typeName (values : veil.Values left right) : left.typeName = right.typeName := by
  cases values <;> rfl

theorem Values.isSignal (values : veil.Values left right) : left.isSignal = right.isSignal := by
  cases values <;> rfl

theorem Values.identity? (values : veil.Values left right) :
    right.identity? = left.identity?.map fun
      | .object id => .object (veil.object id)
      | other => other := by
  cases values <;> rfl

theorem Values.same {otherLeft otherRight : Value} (values : veil.Values left right)
    (others : veil.Values otherLeft otherRight) : left.same otherLeft = right.same otherRight := by
  have kept : ∀ first second : ObjectId, veil.object first = veil.object second ↔ first = second :=
    fun _ _ => veil.injective.eq_iff
  unfold Value.same
  rw [values.identity?, others.identity?]
  cases left.identity? with
  | none => rfl
  | some identity =>
      cases otherLeft.identity? with
      | none => rfl
      | some other => cases identity <;> cases other <;> simp [kept]

theorem names_eq {parameters others : List Identifier}
    (names : List.Forall₂ veil.Names parameters others) : parameters = others :=
  List.forall₂_eq_eq_eq ▸ names.imp fun _ _ => Names.same

namespace Values

mutual

theorem inspect : ∀ (left : Value) {right : Value}, veil.Values left right →
    left.inspect = right.inspect
  | .integer .., _, values => by cases values; rfl
  | .boolean .., _, values => by cases values; rfl
  | .null, _, values => by cases values; rfl
  | .string .., _, values => by cases values; rfl
  | .builtin .., _, values => by cases values; rfl
  | .array _ items, _, values => by
      cases values with | array _ others
      simp only [Value.inspect, inspectAll items others]
  | .hash _ entries, _, values => by
      cases values with | hash _ others
      simp only [Value.inspect, inspectEntries entries others]
  | .function .., _, values => by
      cases values with | function _ names bodies _
      simp only [Value.inspect, names_eq names, bodies.same]
  | .returned value, _, values => by
      cases values with | returned others
      simp only [Value.inspect, inspect value others]
  | .failed _, _, values => by
      cases values with | failed failures
      simp only [Value.inspect, failures.message]

theorem inspectAll : ∀ (left : List Value) {right : List Value},
    List.Forall₂ veil.Values left right → Value.inspectAll left = Value.inspectAll right
  | [], _, .nil => rfl
  | [item], _, .cons first .nil => inspect item first
  | item :: next :: items, _, .cons first (.cons second others) => by
      simp only [Value.inspectAll, inspect item first, inspectAll (next :: items) (.cons second others)]

theorem inspectEntries : ∀ (left : List (Key × Value)) {right : List (Key × Value)},
    List.Forall₂ (Prod.RProd veil.Keys veil.Values) left right →
    Value.inspectEntries left = Value.inspectEntries right
  | [], _, .nil => rfl
  | [(key, value)], _, .cons (.intro keys values) .nil => by
      simp only [Value.inspectEntries, keys.inspect, inspect value values]
  | (key, value) :: next :: entries, _, .cons (.intro keys values) (.cons second others) => by
      simp only [Value.inspectEntries, keys.inspect, inspect value values,
        inspectEntries (next :: entries) (.cons second others)]

end

end Values

theorem Trees.form {tree : Node} (avoids : tree.Avoids veil.name) :
    Node.OneForm veil.Trees veil.Names veil.Blocks tree tree := by
  have operand : ∀ node ∈ tree.operands, veil.Trees node node :=
    fun node member => ⟨rfl, avoids.operand node member⟩
  have inside := avoids.statement
  have here := avoids.here
  cases tree with
  | program => exact .program ⟨rfl, inside⟩
  | block => exact .block ⟨rfl, inside⟩
  | letStatement => exact .letStatement _ _ ⟨rfl, here⟩ (operand _ List.mem_cons_self)
  | returnStatement => exact .returnStatement _ _ (operand _ List.mem_cons_self)
  | expressionStatement => exact .expressionStatement _ _ (operand _ List.mem_cons_self)
  | identifier => exact .identifier ⟨rfl, here⟩
  | integer => exact .integer _ _ _
  | boolean => exact .boolean _ _ _
  | string => exact .string _ _ _
  | array => exact .array _ _ (List.forall₂_same.mpr operand)
  | hash _ pairs =>
      refine .hash _ _ (List.forall₂_same.mpr fun pair member => ?_)
      obtain ⟨key, value⟩ := Node.operands_hash member
      exact .intro (operand _ key) (operand _ value)
  | unary => exact .unary _ _ _ (operand _ List.mem_cons_self)
  | binary =>
      exact .binary _ _ _ (operand _ List.mem_cons_self)
        (operand _ (List.mem_cons_of_mem _ List.mem_cons_self))
  | conditional _ _ _ alternative =>
      refine .conditional _ _ (operand _ List.mem_cons_self) ⟨rfl, fun statement member => ?_⟩ ?_
      · cases alternative with
        | none => exact inside statement member
        | some => exact inside statement (List.mem_append_left _ member)
      · cases alternative with
        | none => exact .none
        | some => exact .some ⟨rfl, fun statement member =>
            inside statement (List.mem_append_right _ member)⟩
  | function =>
      refine .function _ _ (List.forall₂_same.mpr fun parameter member => ⟨rfl, fun same => ?_⟩)
        ⟨rfl, inside⟩
      exact here ⟨parameter, member, same⟩
  | call =>
      exact .call _ _ (operand _ List.mem_cons_self) (List.forall₂_same.mpr fun argument member =>
        operand argument (List.mem_cons_of_mem _ member))
  | index =>
      exact .index _ _ (operand _ List.mem_cons_self)
        (operand _ (List.mem_cons_of_mem _ List.mem_cons_self))
  | bare => exact .bare _ _ _

theorem Values.form (values : veil.Values left right) :
    Value.OneForm veil.Names veil.Blocks (veil.base ≤ ·) veil.Values left right := by
  cases values with
  | builtin => exact .builtin _ _ _ _
  | _ => constructor <;> assumption

/-- Correspondence under a veil, at whatever time the values were made. -/
def likeness (veil : Veil) : Likeness where
  World := Unit
  Later _ _ := True
  Trees := veil.Trees
  Names := veil.Names
  Blocks := veil.Blocks
  Places := Leeway.snapshotsOnly.Locations
  Values _ := veil.Values
  named name := name ≠ veil.name
  reaches scope := veil.base ≤ scope
  later_refl _ := trivial
  later_trans _ _ := trivial
  trees := by
    rintro tree _ ⟨rfl, avoids⟩
    exact Trees.form avoids
  names := by
    rintro name _ ⟨rfl, other⟩
    exact ⟨rfl, other⟩
  blocks := by
    rintro block _ ⟨rfl, avoids⟩
    exact List.forall₂_same.mpr fun statement member => ⟨rfl, avoids statement member⟩
  values := Values.form
  later _ := id
  null _ := .null
  boolean _ := .boolean
  returned := .returned
  inspect := Values.inspect _
  same := Values.same

theorem makes {make otherMake : ObjectId → Value} (makes : veil.likeness.Makes () make otherMake)
    (id : ObjectId) : veil.Values (make id) (otherMake (veil.object id)) := by
  cases makes with
  | integer value => exact .integer id value
  | string text => exact .string id text
  | array items => exact .array id items
  | hash entries =>
      exact .hash id (entries.imp fun _ _ entry => .intro (Values.key entry.keys) entry.values)
  | function names bodies inside => exact .function id names bodies inside

section Scopes

variable {name : String} {bindings others : List (String × Value)} {first second : MonkeyLang.Scopes}
  {scope : ScopeId}

theorem shown_bind (value : Value) (other : name ≠ veil.name) :
    veil.shown (Scope.bind name value bindings) = Scope.bind name value (veil.shown bindings) := by
  unfold shown
  induction bindings with
  | nil => simp [Scope.bind, other]
  | cons entry rest ih =>
      obtain ⟨present, old⟩ := entry
      by_cases same : present = name
      · subst same
        simp [Scope.bind, other]
      · by_cases hidden : present = veil.name
        · simp [Scope.bind, hidden, other.symm, ih]
        · simp [Scope.bind, same, hidden, ih]

theorem lookup_shown (bindings : List (String × Value)) (other : name ≠ veil.name) :
    (veil.shown bindings).lookup name = bindings.lookup name := by
  unfold shown
  induction bindings with
  | nil => rfl
  | cons entry rest ih =>
      obtain ⟨present, value⟩ := entry
      by_cases hidden : present = veil.name
      · have apart : (name == present) = false := beq_false_of_ne (hidden ▸ other)
        simp [hidden, List.lookup_cons, ih, beq_false_of_ne other]
      · simp [hidden, List.lookup_cons, ih]

theorem Scope.bind {scope other : MonkeyLang.Scope} (scopes : veil.Scope scope other)
    (named : name ≠ veil.name) (values : veil.Values left right) :
    veil.Scope { scope with bindings := MonkeyLang.Scope.bind name left scope.bindings }
      { other with bindings := MonkeyLang.Scope.bind name right other.bindings } where
  parent := scopes.parent
  around := scopes.around
  bindings := by
    rw [shown_bind left named, shown_bind right named]
    exact MonkeyLang.Scope.bind_related name values scopes.bindings

theorem Scope.lookup {scope other : MonkeyLang.Scope} (scopes : veil.Scope scope other)
    (named : name ≠ veil.name) :
    veil.Results (scope.bindings.lookup name) (other.bindings.lookup name) := by
  rw [← lookup_shown scope.bindings named, ← lookup_shown other.bindings named]
  exact MonkeyLang.Scope.lookup_related name scopes.bindings

namespace Scopes

theorem unreached (scopes : MonkeyLang.Scopes) (same : veil.base = scopes.size) :
    veil.Scopes scopes scopes where
  size := rfl
  opened := Nat.le_of_eq same
  each id reached := by
    have beyond : scopes.table.size ≤ id := Nat.le_trans (Nat.le_of_eq same.symm) reached
    rw [Array.getElem?_eq_none beyond]
    exact .none

/-- New scopes may bind the hidden name from the start. -/
theorem push (scopes : veil.Scopes first second) {parent : Option ScopeId}
    (around : ∀ id, parent = some id → veil.base ≤ id) (empty : veil.shown bindings = [])
    (otherEmpty : veil.shown others = []) :
    veil.Scopes ⟨first.table.push ⟨parent, bindings⟩⟩ ⟨second.table.push ⟨parent, others⟩⟩ where
  size := by
    have size : first.table.size = second.table.size := scopes.size
    simp [MonkeyLang.Scopes.size, size]
  opened := by
    have opened : veil.base ≤ first.table.size := scopes.opened
    simp only [MonkeyLang.Scopes.size, Array.size_push]
    exact Nat.le_succ_of_le opened
  each id reached := by
    have size : first.table.size = second.table.size := scopes.size
    simp only [Array.getElem?_push, size]
    split
    · refine .some ⟨rfl, around, ?_⟩
      rw [empty, otherEmpty]
      exact .nil
    · exact scopes.each id reached

theorem add (scopes : veil.Scopes first second) {parent : Option ScopeId}
    (around : ∀ id, parent = some id → veil.base ≤ id) :
    veil.Scopes (first.add parent) (second.add parent) :=
  scopes.push around rfl rfl

theorem bind (scopes : veil.Scopes first second) (named : name ≠ veil.name)
    (values : veil.Values left right) :
    veil.Scopes (first.bind scope name left) (second.bind scope name right) where
  size := by
    have size : first.table.size = second.table.size := scopes.size
    simp [MonkeyLang.Scopes.bind, MonkeyLang.Scopes.size, size]
  opened := by
    have opened : veil.base ≤ first.table.size := scopes.opened
    simpa [MonkeyLang.Scopes.bind, MonkeyLang.Scopes.size] using opened
  each id reached := by
    have here := scopes.each id reached
    simp only [MonkeyLang.Scopes.bind, Array.getElem?_modify]
    generalize first.table[id]? = found, second.table[id]? = otherFound at here
    split
    · cases here with
      | some scopes => exact .some (scopes.bind named values)
      | none => exact .none
    · exact here

theorem find? (scopes : veil.Scopes first second) (named : name ≠ veil.name)
    (inside : veil.base ≤ scope) :
    veil.Results (first.find? scope name) (second.find? scope name) := by
  have each : ∀ id : ScopeId, veil.base ≤ id →
      Option.Rel (MonkeyLang.Scope.Alike veil.Values (veil.base ≤ ·) name) first.table[id]?
        second.table[id]? := by
    intro id reached
    have here := scopes.each id reached
    generalize first.table[id]? = found, second.table[id]? = otherFound at here
    cases here with
    | none => exact .none
    | some scopes =>
        exact .some ⟨scopes.parent, scopes.parent ▸ scopes.around, scopes.lookup named⟩
  exact MonkeyLang.Scopes.find?_alike each scope inside

end Scopes

end Scopes

namespace Machines

variable {first second : Machine}

theorem create (machines : veil.Machines first second) :
    veil.Machines { first with nextObject := first.nextObject + 1 }
      { second with nextObject := second.nextObject + 1 } where
  scopes := machines.scopes
  objects more := by
    rw [Nat.add_assoc, machines.objects, Nat.add_assoc]
  rest := machines.rest

theorem logStep (machines : veil.Machines first second) (verbose : Bool) (form : String)
    {location otherLocation : Option Location}
    (places : Leeway.snapshotsOnly.Places location otherLocation) (callee : Option String) :
    veil.Machines (first.logStep verbose form location callee)
      (second.logStep false form otherLocation callee) where
  scopes := machines.scopes
  objects := machines.objects
  rest := by
    have stack : List.Forall₂ Leeway.snapshotsOnly.Frames first.stack second.stack := machines.rest.stack
    have steps : Leeway.snapshotsOnly.Logs first.steps second.steps := machines.rest.steps
    refine { machines.rest with steps := ?_ }
    have serials : first.stack.head?.map (·.serial) = second.stack.head?.map (·.serial) := by
      generalize first.stack = frames, second.stack = others at stack
      cases stack with
      | nil => rfl
      | cons frame _ => exact congrArg some frame.serial
    change Leeway.snapshotsOnly.Logs (first.steps.record (first.stack.head?.map (·.serial)) _)
      (second.steps.record (second.stack.head?.map (·.serial)) _)
    rw [serials]
    exact steps.record _ ⟨steps.count, rfl, places, rfl, .inr ⟨trivial, rfl⟩⟩

end Machines

end Veil

end MonkeyLang
