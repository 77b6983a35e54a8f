import Mathlib.Data.List.Forall2
import Mathlib.Data.Option.Basic
import MonkeyLang.Proofs.Evaluation.Regime

namespace MonkeyLang

/-! # Likeness of values

Two evaluations of like trees deal with like values.  What likeness is may depend on a world, which
grows as new objects are made: values that are alike stay so in every later world.  Like values are of
one form, and what stands inside them is alike again.
-/

section Forms

variable (trees : Node → Node → Prop) (names : Identifier → Identifier → Prop)
  (blocks : Block Node → Block Node → Prop) (reaches : ScopeId → Prop)

/-- Nodes of one form, with relations on what stands directly inside them. -/
inductive Node.OneForm : Node → Node → Prop
  | program {left right : Block Node} (bodies : blocks left right) :
      OneForm (.program left) (.program right)
  | block {left right : Block Node} (bodies : blocks left right) :
      OneForm (.block left) (.block right)
  | letStatement (token other : Token) {name otherName : Identifier} {left right : Node}
      (targets : names name otherName) (values : trees left right) :
      OneForm (.letStatement token name left) (.letStatement other otherName right)
  | returnStatement (token other : Token) {left right : Node} (values : trees left right) :
      OneForm (.returnStatement token left) (.returnStatement other right)
  | expressionStatement (token other : Token) {left right : Node} (expressions : trees left right) :
      OneForm (.expressionStatement token left) (.expressionStatement other right)
  | identifier {left right : Identifier} (mentioned : names left right) :
      OneForm (.identifier left) (.identifier right)
  | integer (token other : Token) (value : Int) : OneForm (.integer token value) (.integer other value)
  | boolean (token other : Token) (value : Bool) : OneForm (.boolean token value) (.boolean other value)
  | string (token other : Token) (value : String) : OneForm (.string token value) (.string other value)
  | array (token other : Token) {left right : List Node} (items : List.Forall₂ trees left right) :
      OneForm (.array token left) (.array other right)
  | hash (token other : Token) {left right : List (Node × Node)}
      (pairs : List.Forall₂ (Prod.RProd trees trees) left right) :
      OneForm (.hash token left) (.hash other right)
  | unary (token other : Token) (operator : String) {left right : Node} (operands : trees left right) :
      OneForm (.unary token operator left) (.unary other operator right)
  | binary (token other : Token) (operator : String) {left right second otherSecond : Node}
      (firsts : trees left right) (seconds : trees second otherSecond) :
      OneForm (.binary token operator left second) (.binary other operator right otherSecond)
  | conditional (token other : Token) {left right : Node} {consequence otherConsequence : Block Node}
      {alternative otherAlternative : Option (Block Node)} (conditions : trees left right)
      (consequences : blocks consequence otherConsequence)
      (alternatives : Option.Rel blocks alternative otherAlternative) :
      OneForm (.conditional token left consequence alternative)
        (.conditional other right otherConsequence otherAlternative)
  | function (token other : Token) {parameters otherParameters : List Identifier}
      {left right : Block Node} (parameterNames : List.Forall₂ names parameters otherParameters)
      (bodies : blocks left right) :
      OneForm (.function token parameters left) (.function other otherParameters right)
  | call (token other : Token) {left right : Node} {arguments otherArguments : List Node}
      (callees : trees left right) (supplied : List.Forall₂ trees arguments otherArguments) :
      OneForm (.call token left arguments) (.call other right otherArguments)
  | index (token other : Token) {left right position otherPosition : Node}
      (objects : trees left right) (positions : trees position otherPosition) :
      OneForm (.index token left position) (.index other right otherPosition)
  | bare (token other : Token) (kind : BareKind) : OneForm (.bare token kind) (.bare other kind)

theorem Node.OneForm.formName {left right : Node} (alike : Node.OneForm trees names blocks left right) :
    left.formName = right.formName := by
  cases alike with
  | bare _ _ kind => cases kind <;> rfl
  | _ => rfl

/-- Values of one form, with relations on what an evaluation may take out of them. -/
inductive Value.OneForm (values : Value → Value → Prop) : Value → Value → Prop
  | integer (id other : ObjectId) (value : Int) : OneForm values (.integer id value) (.integer other value)
  | boolean (value : Bool) : OneForm values (.boolean value) (.boolean value)
  | null : OneForm values .null .null
  | string (id other : ObjectId) (text : String) : OneForm values (.string id text) (.string other text)
  | array (id other : ObjectId) {left right : List Value} (items : List.Forall₂ values left right) :
      OneForm values (.array id left) (.array other right)
  | hash (id other : ObjectId) (left right : List (Key × Value)) :
      OneForm values (.hash id left) (.hash other right)
  | function (id other : ObjectId) {parameters otherParameters : List Identifier}
      {left right : Block Node} (parameterNames : List.Forall₂ names parameters otherParameters)
      (bodies : blocks left right) {scope : ScopeId} (inside : reaches scope) :
      OneForm values (.function id parameters left scope) (.function other otherParameters right scope)
  | builtin (id other : ObjectId) (name : String) (arity : Arity) :
      OneForm values (.builtin id name arity) (.builtin other name arity)
  | returned {left right : Value} (inner : values left right) :
      OneForm values (.returned left) (.returned right)
  | failed (left right : Failure) : OneForm values (.failed left) (.failed right)

end Forms

/-- What the trees and the values of two evaluations have to do with each other. -/
structure Likeness where
  World : Type
  Later : World → World → Prop
  Trees : Node → Node → Prop
  Names : Identifier → Identifier → Prop
  Blocks : Block Node → Block Node → Prop
  Places : Location → Location → Prop
  Values : World → Value → Value → Prop
  /-- The names that may be looked up and bound. -/
  named : String → Prop
  /-- The scopes in which that may be done. -/
  reaches : ScopeId → Prop
  later_refl : ∀ world, Later world world
  later_trans : ∀ {first second third}, Later first second → Later second third → Later first third
  trees : ∀ {left right}, Trees left right → Node.OneForm Trees Names Blocks left right
  names : ∀ {left right}, Names left right → left.name = right.name ∧ named left.name
  blocks : ∀ {left right}, Blocks left right → List.Forall₂ Trees left.statements right.statements
  values : ∀ {world left right}, Values world left right →
    Value.OneForm Names Blocks reaches (Values world) left right
  later : ∀ {world next left right}, Later world next → Values world left right →
    Values next left right
  null : ∀ world, Values world .null .null
  boolean : ∀ world value, Values world (.boolean value) (.boolean value)
  returned : ∀ {world left right}, Values world left right →
    Values world (.returned left) (.returned right)
  inspect : ∀ {world left right}, Values world left right → left.inspect = right.inspect
  same : ∀ {world left right other otherRight}, Values world left right →
    Values world other otherRight → left.same other = right.same otherRight

namespace Likeness

variable (likeness : Likeness) {world next : likeness.World} {left right : Value}

abbrev Results (world : likeness.World) : Option Value → Option Value → Prop :=
  Option.Rel (likeness.Values world)

abbrev Rows (world : likeness.World) : List Value → List Value → Prop :=
  List.Forall₂ (likeness.Values world)

abbrev Sites : Option Location → Option Location → Prop := Option.Rel likeness.Places

/-- Keys that are alike, with values that are. -/
structure Entry (world : likeness.World) (left right : Key × Value) : Prop where
  keys : likeness.Values world left.1.toValue right.1.toValue
  values : likeness.Values world left.2 right.2

abbrev Entries (world : likeness.World) : List (Key × Value) → List (Key × Value) → Prop :=
  List.Forall₂ (likeness.Entry world)

/-- Objects that are made of what is alike. -/
inductive Makes (world : likeness.World) : (ObjectId → Value) → (ObjectId → Value) → Prop
  | integer (value : Int) : Makes world (.integer · value) (.integer · value)
  | string (text : String) : Makes world (.string · text) (.string · text)
  | array {left right : List Value} (items : likeness.Rows world left right) :
      Makes world (.array · left) (.array · right)
  | hash {left right : List (Key × Value)} (entries : likeness.Entries world left right) :
      Makes world (.hash · left) (.hash · right)
  | function {parameters otherParameters : List Identifier} {left right : Block Node}
      (names : List.Forall₂ likeness.Names parameters otherParameters)
      (bodies : likeness.Blocks left right) {scope : ScopeId} (inside : likeness.reaches scope) :
      Makes world (.function · parameters left scope) (.function · otherParameters right scope)

/-- What expressions give: the first signal, or all their values. -/
inductive Evaluated (world : likeness.World) :
    Except Value (List Value) → Except Value (List Value) → Prop
  | signal {left right : Value} (values : likeness.Values world left right) :
      Evaluated world (.error left) (.error right)
  | values {left right : List Value} (items : likeness.Rows world left right) :
      Evaluated world (.ok left) (.ok right)

/-- Scripts that ask for the same and go on alike.  They neither apply values nor run texts. -/
inductive Scripts : likeness.World → Script → Script → Prop
  | give {world : likeness.World} {left right : Option Value}
      (results : likeness.Results world left right) : Scripts world (.give left) (.give right)
  | fail (world : likeness.World) (message : String) (origin : Option String) :
      Scripts world (.fail message origin) (.fail message origin)
  | create {world : likeness.World} {make otherMake : ObjectId → Value}
      {onward otherOnward : Value → Script} (makes : likeness.Makes world make otherMake)
      (goes : ∀ next value other, likeness.Later world next → likeness.Values next value other →
        Scripts next (onward value) (otherOnward other)) :
      Scripts world (.create make onward) (.create otherMake otherOnward)
  | print {world : likeness.World} (line : String) {onward otherOnward : Script}
      (goes : Scripts world onward otherOnward) :
      Scripts world (.print line onward) (.print line otherOnward)

variable {likeness}

theorem typeName (values : likeness.Values world left right) : left.typeName = right.typeName := by
  cases likeness.values values <;> rfl

theorem isSignal (values : likeness.Values world left right) : left.isSignal = right.isSignal := by
  cases likeness.values values <;> rfl

theorem isTruthy (values : likeness.Values world left right) : left.isTruthy = right.isTruthy := by
  cases likeness.values values <;> rfl

/-- Like values are keys both, or neither is. -/
theorem toKey? (values : likeness.Values world left right) :
    Option.Rel (fun key other => likeness.Values world key.toValue other.toValue) left.toKey?
      right.toKey? := by
  cases likeness.values values with
  | integer | boolean | string => exact .some values
  | _ => exact .none

/-- Whether keys match is a matter of what they hold. -/
theorem matching {key other present otherPresent : Key}
    (keys : likeness.Values world key.toValue other.toValue)
    (presents : likeness.Values world present.toValue otherPresent.toValue) :
    present.matching key = otherPresent.matching other := by
  have keyForms := likeness.values keys
  have presentForms := likeness.values presents
  cases key <;> cases other <;> cases keyForms <;> cases present <;> cases otherPresent <;>
    cases presentForms <;> rfl

theorem putEntry {key other : Key} {entries otherEntries : List (Key × Value)}
    (keys : likeness.Values world key.toValue other.toValue)
    (values : likeness.Values world left right)
    (alike : likeness.Entries world entries otherEntries) :
    likeness.Entries world (MonkeyLang.putEntry key left entries)
      (MonkeyLang.putEntry other right otherEntries) := by
  induction alike with
  | nil => exact .cons ⟨keys, values⟩ .nil
  | cons first rest ih =>
      simp only [MonkeyLang.putEntry, matching keys first.keys]
      split
      · exact .cons ⟨first.keys, values⟩ rest
      · exact .cons first ih

theorem getElem? {items others : List Value} (alike : likeness.Rows world items others)
    (index : Nat) : likeness.Results world items[index]? others[index]? := by
  induction alike generalizing index with
  | nil => exact .none
  | cons first _ ih =>
      cases index with
      | zero => exact .some first
      | succ index => exact ih index

theorem getD {result other : Option Value} (results : likeness.Results world result other) :
    likeness.Values world (result.getD .null) (other.getD .null) := by
  cases results with
  | some values => exact values
  | none => exact likeness.null world

theorem callResult {result other : Option Value} (results : likeness.Results world result other) :
    likeness.Values world (Eval.callResult result) (Eval.callResult other) := by
  cases results with
  | none => exact likeness.null world
  | some values =>
      have forms := likeness.values values
      cases forms with
      | returned inner => exact inner
      | _ => exact values

theorem textResult {result other : Option Value} (results : likeness.Results world result other) :
    likeness.Results world (Eval.textResult result) (Eval.textResult other) := by
  cases results with
  | none => exact .none
  | some values =>
      have forms := likeness.values values
      cases forms with
      | returned inner => exact .some inner
      | _ => exact .some values

theorem results_later {result other : Option Value} (grown : likeness.Later world next)
    (results : likeness.Results world result other) : likeness.Results next result other := by
  cases results with
  | some values => exact .some (likeness.later grown values)
  | none => exact .none

theorem rows_later {items others : List Value} (grown : likeness.Later world next)
    (alike : likeness.Rows world items others) : likeness.Rows next items others :=
  alike.imp fun _ _ => likeness.later grown

theorem entries_later {entries others : List (Key × Value)} (grown : likeness.Later world next)
    (alike : likeness.Entries world entries others) : likeness.Entries next entries others :=
  alike.imp fun _ _ entry => ⟨likeness.later grown entry.keys, likeness.later grown entry.values⟩

theorem Makes.later {make otherMake : ObjectId → Value} (grown : likeness.Later world next)
    (makes : likeness.Makes world make otherMake) : likeness.Makes next make otherMake := by
  cases makes with
  | integer value => exact .integer value
  | string text => exact .string text
  | array items => exact .array (rows_later grown items)
  | hash entries => exact .hash (entries_later grown entries)
  | function names bodies inside => exact .function names bodies inside

theorem Scripts.giveNew {make otherMake : ObjectId → Value}
    (makes : likeness.Makes world make otherMake) :
    likeness.Scripts world (.giveNew make) (.giveNew otherMake) :=
  .create makes fun _ _ _ _ values => .give (.some values)

end Likeness

end MonkeyLang
