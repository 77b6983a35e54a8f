import MonkeyLang.Proofs.Evaluation.Congruence
import MonkeyLang.Proofs.Safety

namespace MonkeyLang

/-! # Running texts that are understood alike

A text announces how it ends only by notices that any hook can record.  So two texts that are read
alike are run in agreement, unless the body of one of them is broken off for its depth.
-/

variable {leeway : Leeway} {setting other : Setting} {first second : Machine}

/-- The state in which the body of a text is run. -/
abbrev Machine.reading (machine : Machine) (text : String) : Machine :=
  { machine with lines := Machine.trimmedLines text }

theorem reading_ending (machine : Machine) (text : String) :
    ((modify fun machine => { machine with lines := Machine.trimmedLines text } : Eval PUnit)
      machine).ending = .ok () (machine.reading text) :=
  rfl

namespace Leeway

theorem Places.or {left right otherLeft otherRight : Option Location}
    (places : leeway.Places left right) (others : leeway.Places otherLeft otherRight) :
    leeway.Places (left.or otherLeft) (right.or otherRight) := by
  cases places with
  | some locations => exact .some locations
  | none => exact others

theorem Machines.stamp (machines : leeway.Machines first second) {left right : Failure}
    (failures : leeway.Failures left right) :
    leeway.Failures (Eval.stamp first left) (Eval.stamp second right) := by
  have moment := machines.failure left.message left.origin
  refine ⟨failures.message, failures.origin, failures.location.or moment.location, ?_, ?_⟩
  · have step : first.steps.last.map (·.index) = second.steps.last.map (·.index) := moment.step
    simp only [Eval.stamp, failures.step, step]
  · simp only [Eval.stamp, Agree.isEmpty_eq failures.calls]
    split
    · exact moment.calls
    · exact failures.calls

namespace Agree

variable {excused : Prop}

theorem onError_shown (kind : FailureClass) (failure : Failure) :
    ¬ (Notice.onError kind failure).Hides :=
  nofun

theorem programEnd_shown (result : Option Value) : ¬ (Notice.programEnd result).Hides :=
  nofun

theorem textResult {result otherResult : Option Value} (results : leeway.Results result otherResult) :
    leeway.Results (Eval.textResult result) (Eval.textResult otherResult) := by
  have alike : leeway.likeness.Results () result otherResult := results
  exact Likeness.textResult alike

section Texts

variable (settings : leeway.Settings setting other)

include settings

theorem abandon {post : Option Value → Option Value → Prop} {left right : Failure}
    (failures : leeway.Failures left right) :
    leeway.Agree excused post (Eval.abandon setting left) (Eval.abandon other right) := by
  refine bind get fun _ _ machines => ?_
  refine bind (announce settings _ _ fun hidden => ?_) fun _ _ _ => ?_
  · exact absurd hidden (not_or_intro (onError_shown _ _) (onError_shown _ _))
  · exact reraise (.runtime (machines.stamp failures))

theorem settle_at {post : Option Value → Option Value → Prop}
    {body otherBody : Eval (Option Value)}
    (ended : leeway.Endings False post (body first).ending (otherBody second).ending) :
    leeway.Endings False post (Eval.settle setting body first).ending
      (Eval.settle other otherBody second).ending := by
  refine ended.recover (fun fault otherFault faults => ?_) False.elim
  cases faults with
  | runtime failures => exact abandon settings failures
  | same fault =>
      have abandoned : ∀ failure, leeway.Agree False post (Eval.abandon setting failure)
          (Eval.abandon other failure) :=
        fun failure => abandon settings (leeway.failures_refl failure)
      cases fault with
      | unparsable file errors => exact reraise (.same _)
      | runtime failure => exact abandoned _
      | depth =>
          exact bind (modifies fun _ _ machines => { machines with exhausted := rfl })
            fun _ _ _ => abandoned _
      | _ => exact abandoned _

theorem execute_at {evaluate otherEvaluate : Evaluator} {text otherText : String} {scope : ScopeId}
    (ended : leeway.Endings False leeway.Results
      (Eval.body setting evaluate text scope (first.reading text)).ending
      (Eval.body other otherEvaluate otherText scope (second.reading otherText)).ending) :
    leeway.Endings False leeway.Results (Eval.execute setting evaluate text scope first).ending
      (Eval.execute other otherEvaluate otherText scope second).ending := by
  unfold Eval.execute
  rw [Eval.bind_ok (reading_ending first text), Eval.bind_ok (reading_ending second otherText)]
  refine (settle_at settings ended).bind fun result otherResult results => ?_
  have shown := textResult results
  have concluded : leeway.Agree False leeway.Results
      (do
        Eval.announce setting.hooks (.programEnd (Eval.textResult result))
        return Eval.textResult result)
      (do
        Eval.announce other.hooks (.programEnd (Eval.textResult otherResult))
        return Eval.textResult otherResult) := by
    refine bind (announce settings _ _ fun hidden => ?_) fun _ _ _ => pure shown
    exact absurd hidden (not_or_intro (programEnd_shown _) (programEnd_shown _))
  dsimp only
  generalize Eval.textResult result = final, Eval.textResult otherResult = otherFinal
    at shown concluded
  cases shown with
  | none => exact concluded
  | some values =>
      cases values with
      | failed failures =>
          refine bind (announce settings _ _ fun hidden => ?_) fun _ _ _ => concluded
          exact absurd hidden (not_or_intro (onError_shown _ _) (onError_shown _ _))
      | _ => exact concluded

theorem parse {text otherText : String}
    (readings : Parsed.Similar leeway.Tokens (Parsed.ofText text) (Parsed.ofText otherText)) :
    leeway.Agree excused (Node.Similar leeway.Tokens) (Eval.parse setting text)
      (Eval.parse other otherText) := by
  unfold Eval.parse
  rw [settings.file]
  generalize Parsed.ofText text = reading, Parsed.ofText otherText = otherReading at readings
  cases readings with
  | @read parsed otherParsed programs errors =>
      obtain ⟨program, found⟩ := parsed
      obtain ⟨otherProgram, otherFound⟩ := otherParsed
      dsimp only at programs errors
      subst errors
      cases found with
      | nil => exact pure programs
      | cons error errors => exact raise (.same _)
  | broken reason => exact raise (.same _)

theorem body (uniform : ∀ builtin ∈ setting.builtins, builtin.Uniform) {text otherText : String}
    (readings : Parsed.Similar leeway.Tokens (Parsed.ofText text) (Parsed.ofText otherText))
    (scope : ScopeId) (depth otherDepth : Nat) :
    leeway.Agree True leeway.Results
      (Eval.body setting (MonkeyLang.evaluate setting depth) text scope)
      (Eval.body other (MonkeyLang.evaluate other otherDepth) otherText scope) := by
  have evaluators := evaluates settings uniform depth otherDepth
  refine bind (parse settings readings) fun program otherProgram programs => ?_
  refine bind (announce settings _ _ fun _ => trivial) fun _ _ _ => ?_
  exact evaluators scope programs

omit settings in
/-- A run is in agreement with another one if what it executes in its frame is. -/
theorem run_at (machines : leeway.Machines first second) {text otherText : String}
    (ended : leeway.Endings False leeway.Results
      (setting.execute text first.scopes.size first.opened).ending
      (other.execute otherText second.scopes.size second.opened).ending) :
    leeway.Endings False leeway.Results (setting.run text first).ending
      (other.run otherText second).ending := by
  have created : ∀ machine : Machine, (Eval.newScope none machine).ending =
      .ok machine.scopes.size { machine with scopes := machine.scopes.add none } := fun _ => rfl
  unfold Setting.run
  rw [Eval.bind_ok (created first), Eval.bind_ok (created second)]
  have size : first.scopes.size = second.scopes.size := machines.scopes.size
  unfold Machine.opened at ended
  rw [size] at ended ⊢
  exact enclosed_at .unwinding topLevel _ { machines with scopes := machines.scopes.add none } ended

end Texts

end Agree

end Leeway

/-- The body of a text is not broken off for its depth. -/
def Setting.HasRoom (setting : Setting) (depth : Nat) (text : String) (scope : ScopeId)
    (machine : Machine) : Prop :=
  (Eval.body setting (evaluate setting depth) text scope
    { machine with lines := Machine.trimmedLines text }).outcome ≠ .error .depth

def Course.isDeep {α : Type} (course : Course α) : Bool :=
  match course.outcome with
  | .error .depth => true
  | _ => false

instance (setting : Setting) (depth : Nat) (text : String) (scope : ScopeId) (machine : Machine) :
    Decidable (setting.HasRoom depth text scope machine) :=
  decidable_of_iff ((Eval.body setting (evaluate setting depth) text scope
    { machine with lines := Machine.trimmedLines text }).isDeep = false) <| by
      unfold Setting.HasRoom Course.isDeep
      split
      · rename_i deep
        simp [deep]
      · rename_i other
        simpa using other

/-- Type and text of what an evaluation results in, or the message of the fault that ends it. -/
def Course.shown (course : Course (Option Value)) : Except String (Option (String × String)) :=
  match course.outcome with
  | .ok result => .ok (result.map fun value => (value.typeName, value.inspect))
  | .error fault => .error fault.message

/-- Evaluations that differ at most as a leeway allows, in how they end and in the state that they
leave, and that show the same. -/
structure Leeway.Courses (leeway : Leeway) (left right : Course (Option Value)) : Prop where
  endings : leeway.Endings False leeway.Results left.ending right.ending
  machines : leeway.Machines left.machine right.machine
  shown : left.shown = right.shown

namespace Leeway

theorem Faults.message {fault otherFault : Fault} (faults : leeway.Faults fault otherFault) :
    fault.message = otherFault.message := by
  cases faults with
  | runtime failures => exact failures.message
  | same => rfl

theorem Endings.courses {left right : Course (Option Value)}
    (ended : leeway.Endings False leeway.Results left.ending right.ending) :
    leeway.Courses left right := by
  refine ⟨ended, ?_, ?_⟩
  · unfold Course.machine
    generalize left.ending = ending, right.ending = otherEnding at ended
    cases ended with
    | done _ machines | broken _ machines => exact machines
    | left isExcused | right isExcused => exact isExcused.elim
  · unfold Course.shown Course.outcome
    generalize left.ending = ending, right.ending = otherEnding at ended
    cases ended with
    | broken faults _ => exact congrArg Except.error faults.message
    | done results _ =>
        cases results with
        | none => rfl
        | some values =>
            simp only [Option.map_some, values.typeName, Values.inspect _ values]
    | left isExcused | right isExcused => exact isExcused.elim

/-- Texts that are understood alike are executed alike where both have room. -/
theorem Settings.executes (settings : leeway.Settings setting other)
    (uniform : ∀ builtin ∈ setting.builtins, builtin.Uniform) {text otherText : String}
    (readings : Parsed.Similar leeway.Tokens (Parsed.ofText text) (Parsed.ofText otherText))
    (lines : leeway.places ∨ text = otherText) (machines : leeway.Machines first second)
    {scope : ScopeId} {depth otherDepth : Nat} (room : setting.HasRoom depth text scope first)
    (otherRoom : other.HasRoom otherDepth otherText scope second) :
    leeway.Endings False leeway.Results
      (Eval.execute setting (evaluate setting depth) text scope first).ending
      (Eval.execute other (evaluate other otherDepth) otherText scope second).ending := by
  have started : leeway.Machines (first.reading text) (second.reading otherText) :=
    { machines with lines := lines.imp_right (congrArg Machine.trimmedLines) }
  have bodies := Agree.body settings uniform readings scope depth otherDepth
  exact Agree.execute_at settings ((bodies _ _ started).strict room otherRoom)

theorem Machines.opened (machines : leeway.Machines first second) :
    leeway.Machines first.opened second.opened := by
  have added : leeway.Machines { first with scopes := first.scopes.add none }
      { second with scopes := second.scopes.add none } :=
    { machines with scopes := machines.scopes.add none }
  unfold Machine.opened
  rw [machines.scopes.size]
  exact added.pushFrame topLevel _ .none

/-- Texts that are understood alike are run alike where both have room. -/
theorem Settings.runs (settings : leeway.Settings setting other)
    (uniform : ∀ builtin ∈ setting.builtins, builtin.Uniform) {text otherText : String}
    (readings : Parsed.Similar leeway.Tokens (Parsed.ofText text) (Parsed.ofText otherText))
    (lines : leeway.places ∨ text = otherText) (machines : leeway.Machines first second)
    (room : setting.HasRoom depthLimit text first.scopes.size first.opened)
    (otherRoom : other.HasRoom depthLimit otherText second.scopes.size second.opened) :
    leeway.Endings False leeway.Results (setting.run text first).ending
      (other.run otherText second).ending := by
  refine Agree.run_at machines ?_
  rw [machines.scopes.size] at room ⊢
  exact settings.executes uniform readings lines machines.opened room otherRoom

end Leeway

end MonkeyLang
