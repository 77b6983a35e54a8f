import MonkeyLang.Proofs.Evaluation.Regime

namespace MonkeyLang

/-! # Notions of good values

A regime that evaluates whatever tree it is given, in any scope, only chooses which values it calls
good.
-/

/-- What a script may do: end with an admissible result, and hand on good values only.  Whether it
may run texts is a choice. -/
def Script.Obeys (good : Value → Prop) (known : Machine → Prop) (executes : Prop) : Script → Prop
  | .give result => Result good result
  | .raise _ | .fail _ _ => True
  | .create make next => ∀ id, (next (make id)).Obeys good known executes
  | .print _ next => next.Obeys good known executes
  | .apply callee arguments _ _ catches next =>
      good callee ∧ (∀ argument ∈ arguments, good argument) ∧
        (∀ result, Result good result → (next (.ok result)).Obeys good known executes) ∧
        ∀ fault, catches fault = true → (next (.error fault)).Obeys good known executes
  | .execute _ _ catches next =>
      executes ∧
        (∀ result, Result good result → (next (.ok result)).Obeys good known executes) ∧
        ∀ fault, catches fault = true → (next (.error fault)).Obeys good known executes
  | .define _ _ value next =>
      (value.isSignal = false → good value) ∧ (next value).Obeys good known executes
  | .inspect next => ∀ machine, known machine → (next machine).Obeys good known executes

/-- A notion of good values. -/
structure Goodness where
  good : Value → Prop
  admissible : ∀ {value}, good value → value.Admissible good
  null : good .null
  boolean : ∀ value, good (.boolean value)
  integer : ∀ id value, good (.integer id value)
  string : ∀ id text, good (.string id text)
  function : ∀ id parameters body scope, good (.function id parameters body scope)
  builtin : ∀ id name arity, good (.builtin id name arity)
  array : ∀ {id items}, (∀ item ∈ items, good item) → good (.array id items)
  items : ∀ {id items}, good (.array id items) → ∀ item ∈ items, good item
  hash : ∀ {id entries}, (∀ entry ∈ entries, good entry.2) → good (.hash id entries)

def Goodness.all : Goodness where
  good _ := True
  admissible {value} _ := by cases value <;> trivial
  null := trivial
  boolean _ := trivial
  integer _ _ := trivial
  string _ _ := trivial
  function _ _ _ _ := trivial
  builtin _ _ _ := trivial
  array _ := trivial
  items _ _ _ := trivial
  hash _ := trivial

namespace Goodness

variable (goodness : Goodness)

/-- Good values, and any tree in any scope. -/
def domain (setting : Setting) (executes : Prop) : Domain setting where
  good := goodness.good
  allows _ _ := True
  binds _ _ := True
  fresh _ := True
  placed _ := True
  total := False
  executes := executes
  catches := True
  admissible := goodness.admissible
  usable isTotal := isTotal.elim
  null := goodness.null
  boolean := goodness.boolean
  computed id value := goodness.integer id (wrap value)
  string := goodness.string
  builtin found := by
    obtain ⟨id, name, arity, rfl⟩ := setting.builtinValue?_shape found
    exact goodness.builtin id name arity
  array := goodness.array
  items := goodness.items
  hash allGood := goodness.hash fun entry member => (allGood entry member).2
  integer _ id := goodness.integer id _
  function _ id := goodness.function id _ _ _
  operands _ _ := ⟨trivial, False.elim⟩
  body _ _ := trivial
  target _ := trivial
  opened _ _ := ⟨fun _ => trivial, fun _ _ => trivial⟩
  supported isTotal := isTotal.elim

theorem domain_breakable (setting : Setting) (executes : Prop)
    (_ : (goodness.domain setting executes).executes) :
    ¬ (goodness.domain setting executes).total :=
  id

theorem admits {setting : Setting} {known : Machine → Prop} {executes : Prop} {script : Script}
    (obeys : script.Obeys goodness.good known executes) :
    (goodness.domain setting executes).Admits known script := by
  induction script with
  | give result => exact ⟨obeys, False.elim⟩
  | raise fault => exact ⟨False.elim, fun _ _ => trivial⟩
  | fail message origin => exact trivial
  | create make next ih => exact fun id => ih _ (obeys id)
  | print line next ih => exact ih obeys
  | apply callee _ name site catches next ih =>
      obtain ⟨calleeGood, argumentsGood, onResult, onFault⟩ := obeys
      refine ⟨calleeGood, argumentsGood, fun _ _ => trivial, fun _ _ => trivial,
        fun answer answered => ih answer ?_⟩
      cases answer with
      | ok result => exact onResult result answered.1
      | error fault => exact onFault fault answered.1
  | execute text scope catches next ih =>
      obtain ⟨executed, onResult, onFault⟩ := obeys
      refine ⟨executed, fun _ _ => trivial, fun answer answered => ih answer ?_⟩
      cases answer with
      | ok result => exact onResult result answered
      | error fault => exact onFault fault answered.1
  | define scope name value next ih => exact ⟨trivial, obeys.1, False.elim, ih _ obeys.2⟩
  | inspect next ih => exact fun machine known => ih machine (obeys machine known)

/-- All scripts of a setting's builtins are admitted if those obey. -/
theorem scriptAdmitted {setting : Setting} {known : Machine → Prop} {executes : Prop}
    (obeying : ∀ builtin ∈ setting.builtins, ∀ arguments,
      (∀ argument ∈ arguments, goodness.good argument) →
      (builtin.run arguments).Obeys goodness.good known executes)
    (name : String) {arguments : List Value}
    (argumentsGood : ∀ argument ∈ arguments, goodness.good argument) :
    (goodness.domain setting executes).Admits known (setting.script name arguments) := by
  refine goodness.admits ?_
  unfold Setting.script
  split
  · rename_i builtin found
    exact obeying builtin (List.mem_of_find?_eq_some found) arguments argumentsGood
  · exact Result.none

end Goodness

end MonkeyLang
