import MonkeyLang.Proofs.Builtins
import MonkeyLang.Proofs.Evaluation.Hosts
import MonkeyLang.Proofs.Scopes
import MonkeyLang.Proofs.Syntax.Parts

namespace MonkeyLang

/-! # Integers of 64 bits

Literals are checked when they are read, and all that is computed is wrapped.  So nothing that is
bound, stored or given is ever an integer outside 64 bits.
-/

/-- A literal, if it is one of an integer, that the parser accepts. -/
def Node.LiteralInRange : Node → Prop
  | integer _ value => 0 ≤ value ∧ value < 0x8000000000000000
  | _ => True

theorem Node.FormedHere.literalInRange {known : Token → Prop} {tree : Node}
    (formed : tree.FormedHere known) : tree.LiteralInRange := by
  cases tree with
  | integer token value =>
      obtain ⟨_, number, rfl, counts⟩ := formed
      have bounded := counts.bounded
      unfold LiteralInRange
      omega
  | _ => exact trivial

theorem Parsed.literalsInRange {text : String} {parsed : Parsed}
    (read : Parsed.ofText text = .ok parsed) (clean : parsed.errors = []) :
    parsed.program.Throughout Node.LiteralInRange := by
  obtain ⟨program, errors⟩ := parsed
  cases clean
  exact (Parsed.formed read).imp fun _ => Node.FormedHere.literalInRange

/-- A value with integers of 64 bits only, at any depth, and no signal. -/
inductive Value.Bounded : Value → Prop
  | integer (id : ObjectId) {value : Int} (within : InRange value) : Bounded (.integer id value)
  | boolean (value : Bool) : Bounded (.boolean value)
  | null : Bounded .null
  | string (id : ObjectId) (text : String) : Bounded (.string id text)
  | array (id : ObjectId) {items : List Value} (elements : ∀ item ∈ items, Bounded item) :
      Bounded (.array id items)
  | hash (id : ObjectId) {entries : List (Key × Value)}
      (keys : ∀ entry ∈ entries, Bounded entry.1.toValue)
      (values : ∀ entry ∈ entries, Bounded entry.2) : Bounded (.hash id entries)
  | function (id : ObjectId) (parameters : List Identifier) {body : Block Node} (scope : ScopeId)
      (literals : ∀ statement ∈ body.statements, statement.Throughout Node.LiteralInRange) :
      Bounded (.function id parameters body scope)
  | builtin (id : ObjectId) (name : String) (arity : Arity) : Bounded (.builtin id name arity)

namespace Value.Bounded

theorem elements {id : ObjectId} {items : List Value} (bounded : (Value.array id items).Bounded) :
    ∀ item ∈ items, item.Bounded := by
  cases bounded with
  | array _ elements => exact elements

theorem literals {id : ObjectId} {parameters : List Identifier} {body : Block Node}
    {scope : ScopeId} (bounded : (Value.function id parameters body scope).Bounded) :
    ∀ statement ∈ body.statements, statement.Throughout Node.LiteralInRange := by
  cases bounded with
  | function _ _ _ literals => exact literals

theorem literal (id : ObjectId) {token : Token} {value : Int}
    (literals : (Node.integer token value).Throughout Node.LiteralInRange) :
    (Value.integer id value).Bounded := by
  have within : 0 ≤ value ∧ value < 0x8000000000000000 := literals.here
  refine .integer id ⟨?_, within.2⟩
  omega

theorem composes : Value.Composes Value.Bounded where
  null := .null
  computed id value := .integer id (wrap_inRange value)
  string := .string
  array := .array _
  items := elements

end Value.Bounded

variable {setting : Setting}

def Standing.bounded (setting : Setting) : Standing setting where
  good := Value.Bounded
  allows tree _ := tree.Throughout Node.LiteralInRange
  binds _ _ := True
  fresh _ := True
  placed _ := True
  total := False
  executes := True
  catches := True
  admissible bounded := by cases bounded <;> constructor <;> assumption
  usable isTotal := isTotal.elim
  null := .null
  boolean := .boolean
  computed id value := .integer id (wrap_inRange value)
  string := .string
  builtin found := by
    obtain ⟨id, name, arity, rfl⟩ := setting.builtinValue?_shape found
    exact .builtin id name arity
  array := .array _
  items := Value.Bounded.elements
  hash bounded :=
    .hash _ (fun entry member => (bounded entry member).1) fun entry member => (bounded entry member).2
  integer literals id := .literal id literals
  function literals id := .function id _ _ literals.statement
  operands literals member := ⟨literals.operand _ member, False.elim⟩
  body literals member := literals.statement _ (Node.body_statements member)
  target _ := trivial
  opened bounded _ := ⟨fun _ => trivial, bounded.literals⟩
  supported isTotal := isTotal.elim
  Index := Unit
  through _ machine := machine.scopes.Bind Value.Bounded
  ends _ machine := machine.scopes.Bind Value.Bounded
  ready _ _ _ := True
  passable _ _ := id
  found bound found := bound.found found
  unused _ := trivial
  minor bound minor := by
    cases minor with
    | scope parent => exact bound.add parent
    | binding scope name impossible => exact impossible.elim
    | _ => exact bound
  anywhere _ := trivial
  bound bound _ isBounded := bound.bind _ _ isBounded
  called _ _ _ _ := trivial
  frame _ _ _ bound _ :=
    ⟨(), bound, fun _ => id, fun machine closing ended => by cases closing <;> exact ended⟩
  quiet isTotal := isTotal.elim
  breakable _ := id
  texts _ {_ _} read clean _ := Parsed.literalsInRange read clean

/-- A call hands integers of 64 bits to the run, and trees whose literals the parser accepts. -/
def HostCall.Bounded : HostCall → Prop
  | evaluate _ tree _ => tree.Throughout Node.LiteralInRange
  | call => call.Hands Value.Bounded

section Builtins

variable (builtins : ∀ builtin ∈ setting.builtins,
  builtin ∈ Builtin.core ∨ builtin ∈ Builtin.strings)

include builtins

theorem bounded_admits {name : String} {arguments : List Value}
    (bounded : ∀ argument ∈ arguments, argument.Bounded) :
    (Standing.bounded setting).regime.Admits (setting.script name arguments) := by
  unfold Setting.script
  split
  · rename_i builtin found
    rcases builtins builtin (List.mem_of_find?_eq_some found) with isCore | isString
    · exact (Builtin.core_plain Value.Bounded.composes bounded isCore).admits False.elim
    · exact (Builtin.strings_plain Value.Bounded.composes isString).admits False.elim
  · exact ⟨.none, False.elim⟩

theorem HostCall.Bounded.performs {call : HostCall} (bounded : call.Bounded)
    (leaves : call.changesStack = false) :
    (Standing.bounded setting).Holds (Result Value.Bounded) (call.perform setting) := by
  have fits : call.Fits (Standing.bounded setting) := by
    cases call with
    | evaluate | apply | create => exact bounded
    | execute | newScope => exact trivial
    | run => exact ⟨trivial, fun _ => trivial⟩
    | invoke _ builtin arity _ => exact ⟨⟨0, .builtin 0 builtin arity⟩, bounded⟩
    | bind => exact ⟨trivial, bounded, False.elim⟩
    | pushFrame | unwind => cases leaves
  exact (Standing.bounded setting).performs (fun _ bounded _ => bounded_admits builtins bounded)
    call fits

theorem Machine.Reaches.bounded {machine : Machine}
    (reached : Machine.Reaches setting HostCall.Bounded (.initial setting) machine) :
    machine.scopes.Bind Value.Bounded := by
  have started : (Machine.initial setting).scopes.Bind Value.Bounded := by
    simp [Scopes.Bind, Machine.initial, Scopes.empty]
  refine @Machine.Reaches.scopes _ _ _ _ (·.Bind Value.Bounded) reached started
    fun call before bounded leaves bound => ?_
  exact (bounded.performs builtins leaves () before bound).leads (fun _ _ => And.left)
    fun _ _ => And.left

/-- In every state that a host reaches with any texts and with integers of 64 bits, be it in the
middle of a run, all scopes bind integers of 64 bits only, at any depth of arrays and hashes; whatever
is called from there gives no other integer either; and all literals of a text without errors are
natural numbers below `2 ^ 63`. -/
theorem integers_in_range (machine : Machine)
    (reached : Machine.Reaches setting HostCall.Bounded (.initial setting) machine) :
    machine.scopes.Bind Value.Bounded ∧
      (∀ (call : HostCall) result after, call.Bounded →
        (call.perform setting machine).ending = .ok result after → Result Value.Bounded result) ∧
      ∀ text parsed, Parsed.ofText text = .ok parsed → parsed.errors = [] →
        parsed.program.Throughout Node.LiteralInRange := by
  have bound := reached.bounded builtins
  refine ⟨bound, ?_, fun _ _ => Parsed.literalsInRange⟩
  intro call result after bounded ended
  cases changing : call.changesStack with
  | false => exact ((bounded.performs builtins changing () machine bound).done _ _ ended).2
  | true =>
      cases call with
      | pushFrame | unwind =>
          cases ended
          exact .none
      | _ => cases changing

omit builtins in
/-- The greatest number and one more, in a hash that a function makes of what it has captured. -/
theorem integers_in_range_overflow :
    let setting : Setting := ⟨"<string>", false, Builtin.core ++ Builtin.strings, .none⟩
    let opened := ((HostCall.newScope none).perform setting (.initial setting)).machine
    let text := "let a = 9223372036854775807 + 1; let f = fn() \x7b \x7b a: len(\"x\") \x7d \x7d;"
    let defined := ((HostCall.execute 20 text 0).perform setting opened).machine
    let call := HostCall.execute 20 "f()" 0
    ∃ result after, (call.perform setting defined).ending = .ok (some result) after ∧
      result.inspect = "\x7b-9223372036854775808:1\x7d" ∧ result.Admissible Value.Bounded := by
  intro setting opened text defined call
  have builtins : ∀ builtin ∈ setting.builtins,
      builtin ∈ Builtin.core ∨ builtin ∈ Builtin.strings := fun _ => List.mem_append.mp
  have reached : Machine.Reaches setting HostCall.Bounded (.initial setting) defined :=
    .ending (.execute 20 text 0) (.ending (.newScope none) .start trivial) trivial
  have given := (integers_in_range builtins defined reached).2.1 call
  have shown : (call.perform setting defined).outcome.toOption.join.map Value.inspect =
      some "\x7b-9223372036854775808:1\x7d" := by decide +kernel
  unfold Course.outcome at shown
  cases ended : (call.perform setting defined).ending with
  | error fault after =>
      rw [ended] at shown
      cases shown
  | ok result after =>
      rw [ended] at shown
      obtain ⟨value, rfl, inspected⟩ := Option.map_eq_some_iff.mp shown
      exact ⟨value, after, rfl, inspected, given _ _ trivial ended value rfl⟩

end Builtins

end MonkeyLang
