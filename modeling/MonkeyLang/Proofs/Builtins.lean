import MonkeyLang.Builtin.Core
import MonkeyLang.Builtin.Text
import MonkeyLang.Proofs.Evaluation.Goodness

namespace MonkeyLang

/-! # What builtins do

The builtins of every run and those on strings are plain: they print, make new objects and end.
Which values they end with depends on their arguments only, and nothing that they were not given gets
into an array.
-/

/-- A script that prints lines and makes objects, and then ends with a good value or a failure.  If it
is silent it may end without a value. -/
def Script.Plain (good : Value → Prop) (silent : Prop) : Script → Prop
  | .give (some value) => good value
  | .give none => silent
  | .fail _ _ => True
  | .create make next => ∀ id, (next (make id)).Plain good silent
  | .print _ next => next.Plain good silent
  | _ => False

/-- Values that builtins make are good if those are that they make them of. -/
structure Value.Composes (good : Value → Prop) : Prop where
  null : good .null
  computed : ∀ id value, good (.integer id (wrap value))
  string : ∀ id text, good (.string id text)
  array : ∀ {id items}, (∀ item ∈ items, good item) → good (.array id items)
  items : ∀ {id items}, good (.array id items) → ∀ item ∈ items, good item

theorem Value.Composes.counts {good : Value → Prop} (composes : Value.Composes good) (id : ObjectId)
    (size : Nat) : good (.integer id (counted size)) :=
  wrap_of_inRange (counted_inRange size) ▸ composes.computed id (counted size)

theorem Goodness.composes (goodness : Goodness) : Value.Composes goodness.good where
  null := goodness.null
  computed id value := goodness.integer id (wrap value)
  string := goodness.string
  array := goodness.array
  items := goodness.items

namespace Script

variable {setting : Setting} {good : Value → Prop} {silent executes : Prop}
  {known : Machine → Prop} {script : Script}

theorem Plain.admits {domain : Domain setting} (plain : script.Plain domain.good silent)
    (speaks : domain.total → ¬ silent) : domain.Admits known script := by
  induction script with
  | give result =>
      cases result with
      | some value => exact .good plain
      | none => exact ⟨.none, fun isTotal => absurd plain (speaks isTotal)⟩
  | fail message origin => exact trivial
  | create make next ih => exact fun id => ih (make id) (plain id)
  | print line next ih => exact ih plain
  | raise | apply | execute | define | inspect => exact plain.elim

theorem Plain.obeys (plain : script.Plain good silent)
    (admissible : ∀ {value}, good value → value.Admissible good) :
    script.Obeys good known executes := by
  induction script with
  | give result =>
      cases result with
      | some value => exact .some (admissible plain)
      | none => exact .none
  | fail message origin => exact trivial
  | create make next ih => exact fun id => ih (make id) (plain id)
  | print line next ih => exact ih plain
  | raise | apply | execute | define | inspect => exact plain.elim

theorem plain_giveStrings (composes : Value.Composes good) (texts : List String)
    {made : List Value} (madeGood : ∀ value ∈ made, good value) :
    (Script.giveStrings texts made).Plain good silent := by
  induction texts generalizing made with
  | nil => exact fun id => composes.array fun item member => madeGood item (List.mem_reverse.mp member)
  | cons text texts ih =>
      exact fun id => ih (List.forall_mem_cons.mpr ⟨composes.string id text, madeGood⟩)

end Script

namespace Builtin

variable {good : Value → Prop} {silent : Prop} (composes : Value.Composes good)
  {arguments : List Value}

include composes

theorem printAll_plain (values : List Value) : (printAll values).Plain good silent := by
  induction values with
  | nil => exact composes.null
  | cons value values ih => exact ih

/-- Only without arguments, and so never when its arity is respected, does a builtin of every run end
without a value. -/
theorem core_plain (argumentsGood : ∀ argument ∈ arguments, good argument) {builtin : Builtin}
    (isCore : builtin ∈ core) :
    (builtin.run arguments).Plain good (builtin.arity.accepts arguments.length = false) := by
  have elements : ∀ {id items others}, arguments = .array id items :: others →
      ∀ item ∈ items, good item := by
    intro id items others same
    exact composes.items (argumentsGood _ (same ▸ List.mem_cons_self))
  simp only [core, List.mem_cons, List.not_mem_nil, or_false] at isCore
  rcases isCore with rfl | rfl | rfl | rfl | rfl | rfl
  case inl =>
    dsimp only [len]
    split
    · exact fun id => composes.counts id _
    · exact fun id => composes.counts id _
    · exact trivial
    · rfl
  case inr.inl =>
    dsimp only [first]
    split
    · rename_i items _
      cases items with
      | nil => exact composes.null
      | cons item items => exact elements rfl item List.mem_cons_self
    · exact trivial
    · rfl
  case inr.inr.inl =>
    dsimp only [last]
    split
    · rename_i items _
      change good (items.getLastD .null)
      rw [List.getLastD_eq_getLast?]
      cases found : items.getLast? with
      | none => exact composes.null
      | some item => exact elements rfl item (List.mem_of_getLast? found)
    · exact trivial
    · rfl
  case inr.inr.inr.inl =>
    dsimp only [rest]
    split
    · exact composes.null
    · exact fun id => composes.array fun item member => elements rfl item (List.mem_cons_of_mem _ member)
    · exact trivial
    · rfl
  case inr.inr.inr.inr.inl =>
    dsimp only [push]
    split
    · rename_i item _
      refine fun id => composes.array fun element member => ?_
      rcases List.mem_append.mp member with old | new
      · exact elements rfl element old
      · rw [List.mem_singleton.mp new]
        exact argumentsGood item (by simp)
    · exact trivial
    · rfl
  case inr.inr.inr.inr.inr => exact printAll_plain composes arguments

theorem joined_plain (separator : List Char) (items : List Value) :
    (joined separator items).Plain good silent := by
  unfold joined
  split
  · exact fun id => composes.string id _
  · exact trivial

/-- The builtins on strings look at texts only, and so nothing that is given to them gets into what
they end with. -/
theorem strings_plain {builtin : Builtin} (isString : builtin ∈ strings) :
    (builtin.run arguments).Plain good (builtin.arity.accepts arguments.length = false) := by
  have texts : ∀ {silent : Prop} (texts : List (List Char)), (giveTexts texts).Plain good silent :=
    fun texts => Script.plain_giveStrings composes _ (List.forall_mem_nil _)
  simp only [strings, List.mem_cons, List.not_mem_nil, or_false] at isString
  rcases isString with rfl | rfl | rfl | rfl
  case inl =>
    dsimp only [upper]
    split
    · exact fun id => composes.string id _
    · exact trivial
    · rfl
  case inr.inl =>
    dsimp only [lower]
    split
    · exact fun id => composes.string id _
    · exact trivial
    · rfl
  case inr.inr.inl =>
    dsimp only [split]
    split
    · exact texts _
    · split
      · exact trivial
      · exact texts _
    · exact trivial
    · exact trivial
    · rfl
  case inr.inr.inr =>
    dsimp only [join]
    split
    · exact joined_plain composes _ _
    · exact joined_plain composes _ _
    · exact trivial
    · exact trivial
    · rfl

end Builtin

end MonkeyLang
