import MonkeyLang.Proofs.Builtins
import MonkeyLang.Proofs.Evaluation.Standing
import MonkeyLang.Proofs.Scopes

namespace MonkeyLang

/-! # What evaluations write

A node binds names in the scope in which it is evaluated, and none but those of its let statements
outside of function literals.  A call binds in a scope that is opened for it, so that it leaves alone
all that there were before.
-/

variable {setting : Setting}

/-- Seen from the scopes at its start, an evaluation may bind some names in one of them, and what it
likes in those that are opened later. -/
def Standing.writing (setting : Setting) (before : Scopes) (target : ScopeId)
    (may : String → Prop) : Standing setting where
  toDomain := { Goodness.all.domain setting False with
    allows := fun tree scope =>
      before.size ≤ scope ∨ (scope = target ∧ ∀ name ∈ tree.targets, may name)
    binds := fun scope name => before.size ≤ scope ∨ (scope = target ∧ may name)
    fresh := fun scope => before.size ≤ scope
    integer := fun _ _ => trivial
    function := fun _ _ => trivial
    operands := fun allowed member => ⟨allowed.imp_right fun inside =>
      ⟨inside.1, fun name bound => inside.2 name (Node.targets_operands member bound)⟩, False.elim⟩
    body := fun allowed member => allowed.imp_right fun inside =>
      ⟨inside.1, fun name bound => inside.2 name (Node.targets_body member bound)⟩
    target := fun allowed => allowed.imp_right fun inside =>
      ⟨inside.1, inside.2 _ (List.mem_append_right _ List.mem_cons_self)⟩
    opened := fun _ isFresh => ⟨fun _ => .inl isFresh, fun _ _ => .inl isFresh⟩
    supported := False.elim }
  Index := Unit
  through _ machine := before.Writes target may machine.scopes
  ends _ machine := before.Writes target may machine.scopes
  ready _ _ _ := True
  passable _ _ := id
  found _ _ := trivial
  unused writes := writes.size
  minor writes minor := by
    cases minor with
    | scope parent => exact writes.add parent
    | binding scope name impossible => exact impossible.elim
    | _ => exact writes
  anywhere _ := trivial
  bound writes allowed _ := writes.bind _ allowed
  called _ _ _ _ := trivial
  frame _ _ _ writes _ :=
    ⟨(), writes, fun _ => id, fun machine closing ended => by cases closing <;> exact ended⟩
  quiet := setting.quiet_of_false
  breakable := False.elim
  texts := False.elim

/-- Let statements of the text bind the name, functions apart. -/
def Rebinds (text name : String) : Prop :=
  ∃ parsed, Parsed.ofText text = .ok parsed ∧ parsed.errors = [] ∧ name ∈ parsed.program.targets

section Evaluation

variable (builtins : ∀ builtin ∈ setting.builtins,
  builtin ∈ Builtin.core ∨ builtin ∈ Builtin.strings)

include builtins

/-- Plain builtins neither bind names nor run texts. -/
theorem writing_admits {before : Scopes} {target : ScopeId} {may : String → Prop} (name : String)
    (arguments : List Value) :
    (Standing.writing setting before target may).regime.Admits (setting.script name arguments) := by
  have composes : Value.Composes (fun _ => True) := Goodness.all.composes
  unfold Setting.script
  split
  · rename_i builtin found
    rcases builtins builtin (List.mem_of_find?_eq_some found) with isCore | isString
    · exact (Builtin.core_plain composes (fun _ _ => trivial) isCore).admits False.elim
    · exact (Builtin.strings_plain composes isString).admits False.elim
  · exact ⟨.none, False.elim⟩

theorem evaluate_writes (depth : Nat) (tree : Node) (scope : ScopeId) (before : Machine) :
    (evaluate setting depth tree scope before).Keeps fun machine =>
      before.scopes.Writes scope (· ∈ tree.targets) machine.scopes := by
  have holds := (Standing.writing setting before.scopes scope (· ∈ tree.targets)).regime.evaluates
    (fun _ _ _ => writing_admits builtins _ _) depth tree scope (.inr ⟨rfl, fun _ => id⟩)
  exact (holds () before .rfl).leads (fun _ _ => And.left) fun _ _ => And.left

/-- There is no scope yet with the number that the next one gets. -/
theorem apply_writes (depth : Nat) (callee : Value) (arguments : List Value) (name : String)
    (site : Option Location) (before : Machine) :
    (apply setting depth callee arguments name site before).Keeps fun machine =>
      before.scopes.Writes before.scopes.size (fun _ => False) machine.scopes := by
  let standing := Standing.writing setting before.scopes before.scopes.size fun _ => False
  have holds : standing.Holds standing.Yields (apply setting depth callee arguments name site) :=
    standing.regime.applies (fun _ _ _ => writing_admits builtins _ _) depth name trivial
      (fun _ _ => trivial) fun _ _ => trivial
  exact (holds () before .rfl).leads (fun _ _ => And.left) fun _ _ => And.left

/-- A text that is run binds in its scope, and nowhere else, what its let statements bind. -/
theorem execute_writes (depth : Nat) (text : String) (scope : ScopeId) (before : Machine) :
    (Eval.execute setting (evaluate setting depth) text scope before).Keeps fun machine =>
      before.scopes.Writes scope (Rebinds text) machine.scopes := by
  let standing := Standing.writing setting before.scopes scope (Rebinds text)
  have evaluates := standing.regime.evaluates (fun _ _ _ => writing_admits builtins _ _) depth
  have holds : standing.Holds (Result standing.good)
      (Eval.execute setting (evaluate setting depth) text scope) :=
    .executeAllowed text scope id
      (fun read clean => .inr ⟨rfl, fun name member => ⟨_, read, clean, member⟩⟩) evaluates
  exact (holds () before .rfl).leads (fun _ _ => And.left) fun _ _ => And.left

/-- From any state on, be its scopes linked in a circle, and however it ends: the evaluation of a node
changes none of the scopes there are but its own, where it binds no names but those of the node's let
statements outside of function literals; and a call changes none of them at all.  The same is true at
every point on the way. -/
theorem evaluation_writes_own_scope (depth : Nat) (before : Machine) :
    (∀ tree scope,
      let course := evaluate setting depth tree scope before
      before.scopes.Writes scope (· ∈ tree.targets) course.machine.scopes ∧
        ∀ machine, course.passes machine →
          before.scopes.Writes scope (· ∈ tree.targets) machine.scopes) ∧
      ∀ callee arguments name site,
        let course := apply setting depth callee arguments name site before
        ∀ id < before.scopes.size, course.machine.scopes.table[id]? = before.scopes.table[id]? ∧
          ∀ machine, course.passes machine →
            machine.scopes.table[id]? = before.scopes.table[id]? := by
  constructor
  · intro tree scope
    have meets := evaluate_writes builtins depth tree scope before
    exact ⟨meets.last, meets.passing⟩
  · intro callee arguments name site course id within
    have meets := apply_writes builtins depth callee arguments name site before
    exact ⟨meets.last.unchanged within, fun machine passed =>
      (meets.passing machine passed).unchanged within⟩

omit builtins in
/-- `fn(x) { let y = x; y }` binds its own `x` and `y`, and not those of the scopes around it, the
outer one of which lies in the inner one. -/
theorem evaluation_writes_own_scope_circle :
    let name := fun text => (⟨⟨.identifier, text, 1, 1⟩, text⟩ : Identifier)
    let token : Token := ⟨.fnKeyword, "fn", 1, 1⟩
    let body := [Node.letStatement token (name "y") (.identifier (name "x")), .identifier (name "y")]
    let function := Value.function 1 [name "x"] ⟨token, body⟩ 1
    let bindings := [("x", Value.null), ("y", function)]
    let before : Machine := { Machine.initial ⟨"<string>", false, Builtin.core, .none⟩ with
      scopes := ⟨#[⟨some 1, bindings⟩, ⟨some 0, bindings⟩]⟩ }
    let after := (apply ⟨"<string>", false, Builtin.core, .none⟩ 3 function [.boolean true] "y" none
      before).machine
    after.scopes.size = 3 ∧ after.scopes.table[1]? = before.scopes.table[1]? := by
  intro name token body function bindings before after
  refine ⟨by rfl, ?_⟩
  exact ((evaluation_writes_own_scope (fun _ => .inl) 3 before).2 function [.boolean true] "y" none 1
    (by decide)).1

end Evaluation

end MonkeyLang
