import MonkeyLang.Proofs.Builtins
import MonkeyLang.Proofs.Evaluation.Hosts
import MonkeyLang.Proofs.Scopes
import MonkeyLang.Proofs.Syntax.Proper

namespace MonkeyLang

/-! # Sound values

What comes of proper trees, of plain builtins and of sound values is sound again.  A host that hands
nothing else over finds nothing else in the scopes.
-/

/-- A builtin of this name and arity is what the name stands for. -/
def Setting.Offers (setting : Setting) (name : String) (arity : Arity) : Prop :=
  ∃ builtin, setting.builtins.find? (·.name == name) = some builtin ∧ builtin.arity = arity

theorem Setting.builtinValue?_offers {setting : Setting} {name : String} {value : Value}
    (found : setting.builtinValue? name = some value) :
    ∃ id name arity, value = .builtin id name arity ∧ setting.Offers name arity := by
  unfold builtinValue? at found
  split at found
  · rename_i id first
    obtain ⟨builtin, present, rfl⟩ := Option.map_eq_some_iff.mp found
    obtain ⟨within, named, before⟩ := List.findIdx?_eq_some_iff_getElem.mp first
    obtain ⟨_, same⟩ := List.getElem?_eq_some_iff.mp present
    rw [same] at named
    rw [← eq_of_beq named] at before
    refine ⟨id, builtin.name, builtin.arity, rfl, builtin, ?_, rfl⟩
    refine List.find?_eq_some_iff_getElem.mpr ⟨beq_self_eq_true _, id, within, same, ?_⟩
    intro earlier isBefore
    simpa using before earlier isBefore
  · contradiction

/-- A value without signals at any depth, with proper functions and with builtins that are there. -/
inductive Value.Sound (setting : Setting) : Value → Prop
  | integer (id : ObjectId) (value : Int) : Sound setting (.integer id value)
  | boolean (value : Bool) : Sound setting (.boolean value)
  | null : Sound setting .null
  | string (id : ObjectId) (text : String) : Sound setting (.string id text)
  | array (id : ObjectId) {items : List Value} (elements : ∀ item ∈ items, Sound setting item) :
      Sound setting (.array id items)
  | hash (id : ObjectId) {entries : List (Key × Value)}
      (values : ∀ entry ∈ entries, Sound setting entry.2) : Sound setting (.hash id entries)
  | function (id : ObjectId) (parameters : List Identifier) {body : Block Node} (scope : ScopeId)
      (proper : ∀ statement ∈ body.statements, statement.Proper) :
      Sound setting (.function id parameters body scope)
  | builtin (id : ObjectId) {name : String} {arity : Arity} (offered : setting.Offers name arity) :
      Sound setting (.builtin id name arity)

variable {setting : Setting}

namespace Value.Sound

theorem notSignal {value : Value} (sound : value.Sound setting) : value.isSignal = false := by
  cases sound <;> rfl

theorem elements {id : ObjectId} {items : List Value} (sound : (Value.array id items).Sound setting) :
    ∀ item ∈ items, item.Sound setting := by
  cases sound with
  | array _ elements => exact elements

theorem statements {id : ObjectId} {parameters : List Identifier} {body : Block Node}
    {scope : ScopeId} (sound : (Value.function id parameters body scope).Sound setting) :
    ∀ statement ∈ body.statements, statement.Proper := by
  cases sound with
  | function _ _ _ proper => exact proper

theorem composes (setting : Setting) : Value.Composes (Value.Sound setting) where
  null := .null
  computed id value := .integer id (wrap value)
  string := .string
  array := .array _
  items := elements

end Value.Sound

/-- Sound values and proper trees.  Whether every operand has a value is a choice: it takes a setting
without hooks, and no text is then run from within. -/
def Standing.sound (setting : Setting) (total : Prop)
    (quiet : total → ∀ event, setting.hooks.of event = []) : Standing setting where
  good := Value.Sound setting
  allows tree _ := tree.Proper
  binds _ _ := True
  fresh _ := True
  placed _ := True
  total := total
  executes := ¬ total
  catches := True
  admissible sound := by cases sound <;> constructor <;> assumption
  usable _ _ sound := sound.notSignal
  null := .null
  boolean := .boolean
  computed id value := .integer id (wrap value)
  string := .string
  builtin found := by
    obtain ⟨id, name, arity, rfl, offered⟩ := Setting.builtinValue?_offers found
    exact .builtin id offered
  array := .array _
  items := Value.Sound.elements
  hash allSound := .hash _ fun entry member => (allSound entry member).2
  integer _ id := .integer id _
  function proper id :=
    .function id _ _ fun statement member => (proper.statement statement member).proper
  operands proper member :=
    ⟨(proper.operand _ member).proper, fun _ => (proper.operand _ member).isValued⟩
  body proper member := (proper.statement _ (Node.body_statements member)).proper
  target _ := trivial
  opened sound _ := ⟨fun _ => trivial, sound.statements⟩
  supported _ {_ _ _} proper := nomatch proper.supported
  Index := Unit
  through _ machine := machine.scopes.Bind (Value.Sound setting)
  ends _ machine := machine.scopes.Bind (Value.Sound setting)
  ready _ _ _ := True
  passable _ _ := id
  found bound found := bound.found found
  unused _ := trivial
  minor bound minor := by
    cases minor with
    | scope parent => exact bound.add parent
    | binding scope name impossible => exact impossible.elim
    | _ => exact bound
  anywhere _ := trivial
  bound bound _ isSound := bound.bind _ _ isSound
  called _ _ _ _ := trivial
  frame _ _ _ bound _ :=
    ⟨(), bound, fun _ => id, fun machine closing ended => by cases closing <;> exact ended⟩
  quiet := quiet
  breakable := id
  texts _ {_ _} read clean _ := by
    obtain ⟨_, _, _, proper⟩ := Parsed.proper read clean
    exact proper

/-- A call hands sound values and proper trees to the run. -/
def HostCall.Sound (setting : Setting) : HostCall → Prop
  | evaluate _ tree _ => tree.Proper
  | apply _ callee arguments _ _ =>
      callee.Sound setting ∧ ∀ argument ∈ arguments, argument.Sound setting
  | invoke _ builtin arity arguments =>
      setting.Offers builtin arity ∧ ∀ argument ∈ arguments, argument.Sound setting
  | create make => ∀ id, (make id).Sound setting
  | bind _ _ value => value.isSignal = false → value.Sound setting
  | _ => True

section Builtins

variable (builtins : ∀ builtin ∈ setting.builtins,
  builtin ∈ Builtin.core ∨ builtin ∈ Builtin.strings)

include builtins

theorem sound_admits {total : Prop} {quiet : total → ∀ event, setting.hooks.of event = []}
    {id : ObjectId} {name : String} {arity : Arity} {arguments : List Value}
    (sound : (Value.builtin id name arity).Sound setting)
    (argumentsSound : ∀ argument ∈ arguments, argument.Sound setting)
    (accepted : arity.accepts arguments.length = true) :
    (Standing.sound setting total quiet).regime.Admits (setting.script name arguments) := by
  have composes := Value.Sound.composes setting
  cases sound with
  | builtin _ offered =>
      obtain ⟨builtin, found, rfl⟩ := offered
      have speaks : ¬ builtin.arity.accepts arguments.length = false :=
        fun refused => nomatch accepted.symm.trans refused
      unfold Setting.script
      rw [found]
      rcases builtins builtin (List.mem_of_find?_eq_some found) with isCore | isString
      · exact (Builtin.core_plain composes argumentsSound isCore).admits fun _ => speaks
      · exact (Builtin.strings_plain composes isString).admits fun _ => speaks

theorem Machine.Reaches.sound {machine : Machine}
    (reached : Machine.Reaches setting (HostCall.Sound setting) (.initial setting) machine) :
    machine.scopes.Bind (Value.Sound setting) := by
  have started : (Machine.initial setting).scopes.Bind (Value.Sound setting) := by
    simp [Scopes.Bind, Machine.initial, Scopes.empty]
  refine @Machine.Reaches.scopes _ _ _ _ (·.Bind (Value.Sound setting)) reached started
    fun call before sound leaves bound => ?_
  have fits : call.Fits (Standing.sound setting False False.elim) := by
    cases call with
    | evaluate | apply | create => exact sound
    | execute => exact id
    | run => exact ⟨id, fun _ => trivial⟩
    | invoke => exact ⟨⟨0, .builtin 0 sound.1⟩, sound.2⟩
    | newScope => exact trivial
    | bind => exact ⟨trivial, sound, False.elim⟩
    | pushFrame | unwind => cases leaves
  have holds := (Standing.sound setting False False.elim).performs (sound_admits builtins) call fits
  exact (holds () before bound).leads (fun _ _ => And.left) fun _ _ => And.left

end Builtins

end MonkeyLang
