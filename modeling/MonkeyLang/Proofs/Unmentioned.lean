import MonkeyLang.Proofs.Evaluation.Veiled

namespace MonkeyLang

/-! # Names that a text does not mention

What a name means does not matter to a text that does not mention it, be it bound around the text or
the name of a builtin.  What is told of a run leaves out the identities of objects and that name.
-/

structure Failure.Account where
  message : String
  origin : Option String
  location : Option Location
  step : Option Nat
deriving DecidableEq

def Failure.account (failure : Failure) : Failure.Account :=
  ⟨failure.message, failure.origin, failure.location, failure.step⟩

/-- What is told of a value: its type and text, what it tells as a failure, and the scope that it
closes over as a function. -/
structure Value.Account where
  type : String
  text : String
  failure : Option Failure.Account
  closure : Option ScopeId
deriving DecidableEq

def Value.account (value : Value) : Value.Account where
  type := value.typeName
  text := value.inspect
  failure :=
    match value with
    | .failed failure => some failure.account
    | _ => none
  closure :=
    match value with
    | .function _ _ _ scope => some scope
    | _ => none

def Fault.account : Fault → Failure.Account
  | .runtime failure => failure.account
  | other => ⟨other.message, none, none, none⟩

/-- What is told of a scope apart from a name. -/
structure Scope.Account where
  parent : Option ScopeId
  bindings : List (String × Value.Account)
deriving DecidableEq

def Scope.account (name : String) (scope : Scope) : Scope.Account where
  parent := scope.parent
  bindings := (scope.bindings.filter (·.1 != name)).map fun (bound, value) => (bound, value.account)

structure Account where
  outcome : Except Failure.Account (Option Value.Account)
  printed : Array Printed
  steps : Nat
  scopes : List Scope.Account
deriving DecidableEq

/-- What is told of a run in a scope apart from a name: how it ends, what was printed, how many steps
were logged, and what is bound in that scope and in those opened since. -/
def Course.account (course : Course (Option Value)) (name : String) (scope : ScopeId) : Account where
  outcome :=
    match course.outcome with
    | .ok result => .ok (result.map (·.account))
    | .error fault => .error fault.account
  printed := course.machine.printed
  steps := course.machine.steps.count
  scopes := (course.machine.scopes.table.toList.drop scope).map (·.account name)

theorem Leeway.Failures.account {left right : Failure}
    (failures : Leeway.snapshotsOnly.Failures left right) : left.account = right.account := by
  unfold Failure.account
  rw [failures.message, failures.origin, Leeway.places_eq failures.location, failures.step]

theorem Leeway.Faults.account {fault other : Fault}
    (faults : Leeway.snapshotsOnly.Faults fault other) : fault.account = other.account := by
  cases faults with
  | runtime failures => exact failures.account
  | same => rfl

namespace Veil

variable {veil : Veil}

theorem Values.account {left right : Value} (values : veil.Values left right) :
    left.account = right.account := by
  have typeName := values.typeName
  have text := values.inspect
  unfold Value.account
  rw [typeName, text]
  cases values with
  | failed failures => simp only [failures.account]
  | _ => rfl

theorem Scope.account {left right : MonkeyLang.Scope} (scopes : veil.Scope left right) :
    left.account veil.name = right.account veil.name := by
  have bindings : ∀ {entries others : List (String × Value)},
      List.Forall₂ (Prod.RProd Eq veil.Values) entries others →
      (entries.map fun (bound, value) => (bound, value.account)) =
        others.map fun (bound, value) => (bound, value.account) := by
    intro entries others alike
    induction alike with
    | nil => rfl
    | cons first _ ih =>
        cases first with | intro names values
        simp only [List.map_cons, names, values.account, ih]
  unfold MonkeyLang.Scope.account
  rw [scopes.parent]
  exact congrArg _ (bindings scopes.bindings)

theorem Scopes.account {first second : MonkeyLang.Scopes} (scopes : veil.Scopes first second) :
    (first.table.toList.drop veil.base).map (·.account veil.name) =
      (second.table.toList.drop veil.base).map (·.account veil.name) := by
  refine List.ext_getElem? fun index => ?_
  have here := scopes.each (veil.base + index) (Nat.le_add_right _ _)
  simp only [List.getElem?_map, List.getElem?_drop, Array.getElem?_toList]
  generalize first.table[veil.base + index]? = scope, second.table[veil.base + index]? = other at here
  cases here with
  | none => rfl
  | some scopes => exact congrArg some scopes.account

theorem Endings.account {left right : Course (Option Value)}
    (ended : veil.Endings veil.Results left.ending right.ending) :
    left.account veil.name veil.base = right.account veil.name veil.base := by
  unfold Course.account Course.outcome Course.machine
  generalize left.ending = ending, right.ending = otherEnding at ended
  have state : ∀ {first second : Machine}, veil.Machines first second →
      first.printed = second.printed ∧ first.steps.count = second.steps.count := fun machines =>
    ⟨machines.rest.printed, machines.rest.steps.count⟩
  cases ended with
  | done results machines =>
      obtain ⟨printed, count⟩ := state machines
      dsimp only
      rw [printed, count, machines.scopes.account]
      cases results with
      | none => rfl
      | some values => rw [Option.map_some, Option.map_some, values.account]
  | broken faults machines =>
      obtain ⟨printed, count⟩ := state machines
      dsimp only
      rw [printed, count, machines.scopes.account, faults.account]

/-- Room for more builtins and objects: identities from `front` on give way to as many builtins as
are added, and those from `next` on begin at `later`. -/
def displaced (front added next later : Nat) (id : ObjectId) : ObjectId :=
  if id < front then id else if id < next then id + added else id + (later - next)

theorem displaced_injective {front added next later : Nat} (room : next + added ≤ later) :
    Function.Injective (displaced front added next later) := by
  intro left right same
  unfold displaced at same
  split at same <;> split at same <;> grind

end Veil

section Builtins

variable {setting other : Setting} {front added back : List Builtin} {name : String}
  (builtins : setting.builtins = front ++ back) (others : other.builtins = front ++ added ++ back)
  (hidden : ∀ builtin ∈ added, builtin.name ≠ name)

include builtins others hidden

theorem script_added : setting.script name = other.script name := by
  have none : added.find? (·.name == name) = none :=
    List.find?_eq_none.mpr fun builtin member same => hidden builtin member (eq_of_beq same)
  funext arguments
  unfold Setting.script
  rw [builtins, others, List.append_assoc, List.find?_append, List.find?_append, List.find?_append,
    none, Option.none_or]

theorem builtinValue_added {veil : Veil} {next later : Nat}
    (object : veil.object = Veil.displaced front.length added.length next later)
    (enough : setting.builtins.length ≤ next) (named : name ≠ veil.name) :
    veil.Results (setting.builtinValue? name) (other.builtinValue? name) := by
  have none : added.findIdx? (·.name == name) = none :=
    List.findIdx?_eq_none_iff.mpr fun builtin member =>
      Bool.eq_false_iff.mpr fun same => hidden builtin member (eq_of_beq same)
  have moved : ∀ {id place : ObjectId} {builtin : Builtin}, (builtin.name == name) = true →
      veil.object id = place →
      veil.Results (some (.builtin id builtin.name builtin.arity))
        (some (.builtin place builtin.name builtin.arity)) := by
    rintro id _ builtin same rfl
    have matching : builtin.name = name := eq_of_beq same
    exact .some (.builtin id builtin.arity (matching ▸ named))
  unfold Setting.builtinValue?
  rw [builtins, List.length_append] at enough
  rw [builtins, others, List.append_assoc, List.findIdx?_append, List.findIdx?_append,
    List.findIdx?_append, none]
  cases found : front.findIdx? (·.name == name) with
  | some index =>
      obtain ⟨within, same, _⟩ := List.findIdx?_eq_some_iff_getElem.mp found
      simp only [Option.some_or, List.getElem?_append_left within, List.getElem?_eq_getElem within,
        Option.map_some]
      refine moved same ?_
      rw [object, Veil.displaced, if_pos within]
  | none =>
      cases foundBack : back.findIdx? (·.name == name) with
      | none => exact .none
      | some index =>
          obtain ⟨within, same, _⟩ := List.findIdx?_eq_some_iff_getElem.mp foundBack
          have left : (front ++ back)[index + front.length]? = some back[index] := by
            rw [List.getElem?_append_right (Nat.le_add_left _ _), Nat.add_sub_cancel,
              List.getElem?_eq_getElem within]
          have right : (front ++ (added ++ back))[index + added.length + front.length]? =
              some back[index] := by
            rw [List.getElem?_append_right (Nat.le_add_left _ _), Nat.add_sub_cancel,
              List.getElem?_append_right (Nat.le_add_left _ _), Nat.add_sub_cancel,
              List.getElem?_eq_getElem within]
          simp only [Option.none_or, Option.map_some, left, right]
          refine moved same ?_
          have behind : ¬ index + front.length < front.length := Nat.not_lt.mpr (Nat.le_add_left _ _)
          have before : index + front.length < next := by omega
          rw [object, Veil.displaced, if_neg behind, if_pos before]
          exact Nat.add_right_comm _ _ _

end Builtins

/-- A state with a new outermost scope that binds names from the start. -/
def Machine.prepared (machine : Machine) (bindings : List (String × Value)) (next : ObjectId) :
    Machine :=
  { machine with scopes := ⟨machine.scopes.table.push ⟨none, bindings⟩⟩, nextObject := next }

theorem Machine.prepared_bind (machine : Machine) (name : String) (value : Value) (next : ObjectId) :
    { machine with
      scopes := (machine.scopes.add none).bind machine.scopes.size name value
      nextObject := next } = machine.prepared [(name, value)] next := by
  have bound : (machine.scopes.add none).bind machine.scopes.size name value =
      ⟨machine.scopes.table.push ⟨none, [(name, value)]⟩⟩ := by
    simp only [Scopes.bind, Scopes.add, Scopes.size]
    refine congrArg Scopes.mk (Array.ext_getElem? fun id => ?_)
    simp only [Array.getElem?_modify, Array.getElem?_push]
    split <;> split <;> simp_all [Scope.bind]
  rw [bound]
  rfl

section Unmentioned

variable {text name : String} {program : Node} (read : Parsed.ofText text = .ok ⟨program, []⟩)
  (avoids : program.Avoids name) (depth : Nat)

include read avoids

/-- Whatever a name is bound to, and whatever builtins of that name are added, the same is told of a
run that is not verbose. -/
theorem account_terse {setting : Setting} (quiet : ∀ event, setting.hooks.of event = [])
    (uniform : ∀ builtin ∈ setting.builtins, builtin.name ≠ name → builtin.Uniform)
    {front added back : List Builtin} (builtins : setting.builtins = front ++ back)
    (hidden : ∀ builtin ∈ added, builtin.name = name) (machine : Machine)
    {bindings others : List (String × Value)} (bound : ∀ binding ∈ bindings, binding.1 = name)
    (otherBound : ∀ binding ∈ others, binding.1 = name) {next later : ObjectId}
    (enough : setting.builtins.length ≤ next) (room : next + added.length ≤ later) :
    let other := { setting with verbose := false, builtins := front ++ added ++ back }
    let scope := machine.scopes.size
    (Eval.execute setting (evaluate setting depth) text scope
        (machine.prepared bindings next)).account name scope =
      (Eval.execute other (evaluate other depth) text scope
        (machine.prepared others later)).account name scope := by
  intro other scope
  let veil : Veil := ⟨name, scope, Veil.displaced front.length added.length next later,
    Veil.displaced_injective room⟩
  have apart : ∀ mentioned ≠ veil.name, ∀ builtin ∈ added, builtin.name ≠ mentioned :=
    fun _ named builtin member same => named (same ▸ hidden builtin member)
  have settings : veil.Settings setting other :=
    { file := rfl
      terse := rfl
      quiet := quiet
      otherQuiet := quiet
      offered := fun mentioned named =>
        builtinValue_added builtins rfl (apart mentioned named) rfl enough named
      scripts := fun mentioned named => script_added builtins rfl (apart mentioned named)
      uniform := uniform }
  have unseen : ∀ {bindings : List (String × Value)}, (∀ binding ∈ bindings, binding.1 = name) →
      veil.shown bindings = [] := fun bound =>
    List.filter_eq_nil_iff.mpr fun binding member => by simp [bound binding member, veil]
  have machines : veil.Machines (machine.prepared bindings next) (machine.prepared others later) :=
    { scopes := (Veil.Scopes.unreached machine.scopes rfl).push nofun (unseen bound) (unseen otherBound)
      objects := fun more => by
        rw [builtins, List.length_append] at enough
        simp only [veil, Veil.displaced, Machine.prepared]
        grind
      rest := Leeway.machines_refl _ _ }
  have inside : veil.base ≤ scope := Nat.le_refl _
  exact ((Veil.Agree.execute settings read avoids inside depth) _ _ machines).account

variable {setting : Setting} (quiet : ∀ event, setting.hooks.of event = [])
  (plain : ∀ builtin ∈ setting.builtins, builtin ∈ Builtin.core ∨ builtin ∈ Builtin.strings)
  {machine : Machine} (made : setting.builtins.length ≤ machine.nextObject)

include quiet plain made

/-- Both runs are told like the second one where it is not verbose. -/
theorem account_prepared {front added back : List Builtin} (builtins : setting.builtins = front ++ back)
    (hidden : ∀ builtin ∈ added, builtin.name = name) {bindings : List (String × Value)}
    (bound : ∀ binding ∈ bindings, binding.1 = name) {later : ObjectId}
    (room : machine.nextObject + added.length ≤ later) :
    let other := { setting with builtins := front ++ added ++ back }
    let scope := machine.scopes.size
    (Eval.execute other (evaluate other depth) text scope
        (machine.prepared bindings later)).account name scope =
      (Eval.execute setting (evaluate setting depth) text scope
        (machine.prepared [] machine.nextObject)).account name scope := by
  intro other scope
  have uniform := Builtin.plain_uniform plain
  have otherUniform : ∀ builtin ∈ other.builtins, builtin.name ≠ name → builtin.Uniform := by
    intro builtin member named
    rcases List.mem_append.mp member with member | member
    · rcases List.mem_append.mp member with member | member
      · exact uniform builtin (builtins ▸ List.mem_append_left _ member)
      · exact absurd (hidden builtin member) named
    · exact uniform builtin (builtins ▸ List.mem_append_right _ member)
  have otherMade : other.builtins.length ≤ later := by
    have length := congrArg List.length builtins
    have grown : setting.builtins.length + added.length ≤ later :=
      Nat.le_trans (Nat.add_le_add_right made _) room
    simp only [List.length_append, other] at length ⊢
    omega
  have terse := account_terse read avoids depth quiet (fun builtin member _ => uniform builtin member)
    builtins hidden machine (List.forall_mem_nil _) bound made room
  have otherQuiet : ∀ event, other.hooks.of event = [] := quiet
  have otherTerse := account_terse read avoids depth otherQuiet otherUniform
    (List.append_nil _).symm (List.forall_mem_nil _) machine bound bound otherMade (Nat.le_refl later)
  simp only [List.append_nil] at otherTerse
  exact otherTerse.trans terse.symm

end Unmentioned

/-- A name that a text does not mention has no influence on it.  The text is run in a new outermost
scope, and the same is told of the run, at whatever depth it may be broken off: if the name was bound
there beforehand, to any value, and if there is one more builtin of that name.  In both cases other
objects may have been made before. -/
theorem unmentioned_name_changes_nothing {setting : Setting}
    (quiet : ∀ event, setting.hooks.of event = [])
    (plain : ∀ builtin ∈ setting.builtins, builtin ∈ Builtin.core ∨ builtin ∈ Builtin.strings)
    {text name : String} {program : Node} (read : Parsed.ofText text = .ok ⟨program, []⟩)
    (avoids : program.Avoids name) {machine : Machine}
    (made : setting.builtins.length ≤ machine.nextObject) (depth : Nat) :
    let scope := machine.scopes.size
    let opened := { machine with scopes := machine.scopes.add none }
    let account := fun (setting : Setting) (machine : Machine) =>
      (Eval.execute setting (evaluate setting depth) text scope machine).account name scope
    (∀ value later, machine.nextObject ≤ later →
      account setting
          { opened with scopes := opened.scopes.bind scope name value, nextObject := later } =
        account setting opened) ∧
    (∀ front extra back later, setting.builtins = front ++ back → extra.name = name →
      machine.nextObject < later →
      account { setting with builtins := front ++ extra :: back }
          { opened with nextObject := later } =
        account setting opened) := by
  intro scope opened account
  constructor
  · intro value later grown
    have bound : ∀ binding ∈ [(name, value)], binding.1 = name := List.forall_mem_singleton.mpr rfl
    have same := account_prepared read avoids depth quiet plain made (List.append_nil _).symm
      (List.forall_mem_nil _) bound grown
    simp only [List.append_nil] at same
    rw [← Machine.prepared_bind] at same
    exact same
  · intro front extra back later builtins named grown
    have same := account_prepared read avoids depth quiet plain made builtins
      (List.forall_mem_singleton.mpr named) (List.forall_mem_nil _) grown
    rw [List.append_assoc] at same
    exact same

/-- A function that lacks an argument takes it from the scope around it, in which one more name is
bound, or not; the name may also be that of a builtin. -/
theorem unmentioned_name_changes_nothing_in_function :
    let setting : Setting := ⟨"<string>", true, Builtin.core, .none⟩
    let renamed : Builtin := { Builtin.len with name := "n" }
    let machine := Machine.initial setting
    let opened := { machine with scopes := machine.scopes.add none }
    let text := "let y = 2;\nlet f = fn(x, y) \x7b puts(x); x + y \x7d;\nf(1)"
    let account := fun (setting : Setting) (machine : Machine) =>
      (Eval.execute setting (evaluate setting 20) text 0 machine).account "n" 0
    let told := account setting opened
    account setting
        { opened with scopes := opened.scopes.bind 0 "n" (.string 6 "hidden"), nextObject := 7 } =
        told ∧
      account { setting with builtins := Builtin.core ++ [renamed] } { opened with nextObject := 7 } =
        told ∧
      told.outcome = .ok (some ⟨"INTEGER", "3", none, none⟩) ∧ told.steps = 7 := by
  intro setting renamed machine opened text account told
  have reads : (match Parsed.ofText text with
      | .ok parsed => parsed.errors.isEmpty
      | .error _ => false) = true := by decide +kernel
  have spelled : ∀ token ∈ Token.scan text, token.kind = .identifier → token.literal ≠ "n" := by
    decide +kernel
  cases read : Parsed.ofText text with
  | error reason => rw [read] at reads; cases reads
  | ok parsed =>
      obtain ⟨program, errors⟩ := parsed
      rw [read] at reads
      obtain rfl : errors = [] := List.isEmpty_iff.mp reads
      have made : setting.builtins.length ≤ machine.nextObject := by decide
      obtain ⟨bound, registered⟩ := unmentioned_name_changes_nothing (fun _ => rfl) (fun _ => .inl)
        read (Parsed.avoids read spelled) made 20
      exact ⟨bound _ 7 (by decide), registered Builtin.core renamed [] 7 rfl rfl (by decide),
        by decide +kernel⟩

end MonkeyLang
