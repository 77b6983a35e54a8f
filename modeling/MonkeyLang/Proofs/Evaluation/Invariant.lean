import MonkeyLang.Proofs.Evaluation.Goodness
import MonkeyLang.Proofs.Evaluation.Standing

namespace MonkeyLang

/-! # Invariants of evaluation

An invariant is a standing that allows every tree in any scope, and that lets frames be opened
anywhere.
-/

/-- Started where `ends` holds, an evaluation passes states where `through` holds and ends where
`ends` holds again. -/
def Eval.Maintains {α : Type} (through ends : Machine → Prop) (post : α → Prop)
    (action : Eval α) : Prop :=
  ∀ before, ends before →
    (action before).Meets through (fun result after => ends after ∧ post result) fun _ => ends

/-- A family of invariants, one for each state of affairs outside the evaluation. -/
structure Invariant extends Goodness where
  Index : Type
  through : Index → Machine → Prop
  ends : Index → Machine → Prop
  passable : ∀ index machine, ends index machine → through index machine
  found : ∀ {index machine scope name value}, ends index machine →
    machine.scopes.find? scope name = some value → good value
  adjust : ∀ {index before after}, ends index before → before.Adjustment good after →
    ends index after
  frame : ∀ {index before} name scope site, ends index before →
    before.Opens through ends index name scope site

theorem Machine.Minor.adjustment {good : Value → Prop} {before after : Machine}
    (minor : before.Minor after) : before.Adjustment good after := by
  cases minor with
  | binding _ _ impossible => exact impossible.elim
  | _ => constructor

namespace Invariant

variable (invariant : Invariant) (setting : Setting)

def standing : Standing setting where
  toDomain := invariant.toGoodness.domain setting True
  Index := invariant.Index
  through := invariant.through
  ends := invariant.ends
  ready _ _ _ := True
  passable := invariant.passable
  found := invariant.found
  unused _ := trivial
  minor started minor := invariant.adjust started minor.adjustment
  anywhere _ := trivial
  bound started _ isGood := invariant.adjust started (.binding _ _ isGood)
  called _ _ _ _ := trivial
  frame name scope site started _ := invariant.frame name scope site started
  quiet isTotal := isTotal.elim
  breakable _ := id
  texts _ _ _ _ _ _ := trivial

def Holds {α : Type} (post : α → Prop) (action : Eval α) : Prop :=
  ∀ index, action.Maintains (invariant.through index) (invariant.ends index) post

variable {invariant setting} {α : Type} {post : α → Prop} {action : Eval α}

/-- Nothing is total here, so a standing tells no more of faults than an invariant does. -/
theorem holds_iff (setting : Setting) :
    invariant.Holds post action ↔ (invariant.standing setting).Holds post action := by
  constructor
  · exact fun holds index before started => (holds index before started).fails
      fun _ _ ended => ⟨ended, False.elim⟩
  · exact fun holds index before started => (holds index before started).fails fun _ _ => And.left

/-- What an invariant knows at a point is that some instance of it holds there. -/
def known (invariant : Invariant) (machine : Machine) : Prop := ∃ index, invariant.ends index machine

section Builtins

variable (obeying : ∀ builtin ∈ setting.builtins, ∀ arguments,
  (∀ argument ∈ arguments, invariant.good argument) →
  (builtin.run arguments).Obeys invariant.good invariant.known True)

include obeying

theorem appliesFunction (depth : Nat) (id : ObjectId) (parameters : List Identifier)
    (body : Block Node) (closure : ScopeId) {arguments : List Value} (name : String)
    (site : Option Location) (argumentsGood : ∀ argument ∈ arguments, invariant.good argument) :
    invariant.Holds (Settled invariant.good)
      (apply setting depth (.function id parameters body closure) arguments name site) :=
  (holds_iff setting).mpr ((invariant.standing setting).regime.appliesFunction
    (fun {_ name _ _} _ argumentsGood _ =>
      invariant.toGoodness.scriptAdmitted obeying name argumentsGood)
    depth name (invariant.function id parameters body closure) argumentsGood fun _ _ => trivial)

end Builtins

end Invariant

end MonkeyLang
