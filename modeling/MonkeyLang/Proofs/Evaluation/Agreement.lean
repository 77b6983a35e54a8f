import MonkeyLang.Proofs.Evaluation.Contract
import MonkeyLang.Proofs.Evaluation.Similar

namespace MonkeyLang

/-! # Evaluations in agreement

Two evaluations agree if from similar states they end alike and in similar states.  Where depth is
excused, nothing is asked of two evaluations one of which is broken off for its depth.
-/

variable {leeway : Leeway} {α β γ δ : Type}

namespace Leeway

/-- Faults are similar if they are equal but for the places that a failure tells of. -/
inductive Faults (leeway : Leeway) : Fault → Fault → Prop
  | runtime {left right : Failure} (failures : leeway.Failures left right) :
      Faults leeway (.runtime left) (.runtime right)
  | same (fault : Fault) : Faults leeway fault fault

inductive Endings (leeway : Leeway) (excused : Prop) (post : α → β → Prop) :
    EStateM.Result Fault Machine α → EStateM.Result Fault Machine β → Prop
  | done {left : α} {right : β} {first second : Machine} (results : post left right)
      (machines : leeway.Machines first second) :
      Endings leeway excused post (.ok left first) (.ok right second)
  | broken {left right : Fault} {first second : Machine} (faults : leeway.Faults left right)
      (machines : leeway.Machines first second) :
      Endings leeway excused post (.error left first) (.error right second)
  | left {first : Machine} {ending : EStateM.Result Fault Machine β} (isExcused : excused) :
      Endings leeway excused post (.error .depth first) ending
  | right {ending : EStateM.Result Fault Machine α} {second : Machine} (isExcused : excused) :
      Endings leeway excused post ending (.error .depth second)

def Agree (leeway : Leeway) (excused : Prop) (post : α → β → Prop) (left : Eval α)
    (right : Eval β) : Prop :=
  ∀ first second, leeway.Machines first second →
    leeway.Endings excused post (left first).ending (right second).ending

section Endings

variable {excused : Prop} {post : α → β → Prop} {last : γ → δ → Prop} {left : Eval α}
  {right : Eval β} {first second : Machine}

theorem Endings.bind {next : α → Eval γ} {otherNext : β → Eval δ}
    (ended : leeway.Endings excused post (left first).ending (right second).ending)
    (onward : ∀ result other, post result other →
      leeway.Agree excused last (next result) (otherNext other)) :
    leeway.Endings excused last ((left >>= next) first).ending
      ((right >>= otherNext) second).ending := by
  generalize ran : (left first).ending = ending, otherRan : (right second).ending = otherEnding
    at ended
  cases ended with
  | done results machines =>
      rw [Eval.bind_ok ran, Eval.bind_ok otherRan]
      exact onward _ _ results _ _ machines
  | broken faults machines =>
      rw [Eval.bind_error ran, Eval.bind_error otherRan]
      exact .broken faults machines
  | left isExcused =>
      rw [Eval.bind_error ran]
      exact .left isExcused
  | right isExcused =>
      rw [Eval.bind_error otherRan]
      exact .right isExcused

/-- An excused fault has to be passed on as it is. -/
theorem Endings.recover {post : α → β → Prop} {resume : Fault → Eval α} {otherResume : Fault → Eval β}
    (ended : leeway.Endings excused post (left first).ending (right second).ending)
    (resumes : ∀ fault other, leeway.Faults fault other →
      leeway.Agree excused post (resume fault) (otherResume other))
    (passes : excused → ∀ machine,
      (∃ after, (resume .depth machine).ending = .error .depth after) ∧
        ∃ after, (otherResume .depth machine).ending = .error .depth after) :
    leeway.Endings excused post (Eval.recover left resume first).ending
      (Eval.recover right otherResume second).ending := by
  generalize ran : (left first).ending = ending, otherRan : (right second).ending = otherEnding
    at ended
  cases ended with
  | done results machines =>
      rw [Eval.recover_ok ran, Eval.recover_ok otherRan]
      exact .done results machines
  | broken faults machines =>
      rw [Eval.recover_error ran, Eval.recover_error otherRan]
      exact resumes _ _ faults _ _ machines
  | left isExcused =>
      obtain ⟨after, passed⟩ := (passes isExcused _).1
      rw [Eval.recover_error ran, passed]
      exact .left isExcused
  | right isExcused =>
      obtain ⟨after, passed⟩ := (passes isExcused _).2
      rw [Eval.recover_error otherRan, passed]
      exact .right isExcused

/-- Where neither is broken off for its depth, nothing is left to be excused. -/
theorem Endings.strict {ending : Course α} {otherEnding : Course β}
    (ended : leeway.Endings excused post ending.ending otherEnding.ending)
    (room : ending.outcome ≠ .error .depth) (otherRoom : otherEnding.outcome ≠ .error .depth) :
    leeway.Endings False post ending.ending otherEnding.ending := by
  unfold Course.outcome at room otherRoom
  generalize ending.ending = course, otherEnding.ending = otherCourse at *
  cases ended with
  | done results machines => exact .done results machines
  | broken faults machines => exact .broken faults machines
  | left => exact absurd rfl room
  | right => exact absurd rfl otherRoom

end Endings

namespace Agree

variable {excused : Prop} {post : α → β → Prop} {last : γ → δ → Prop}
  {left : Eval α} {right : Eval β}

theorem pure {result : α} {other : β} (results : post result other) :
    leeway.Agree excused post (Pure.pure result) (Pure.pure other) :=
  fun _ _ machines => .done results machines

theorem bind {next : α → Eval γ} {otherNext : β → Eval δ}
    (agree : leeway.Agree excused post left right)
    (onward : ∀ result other, post result other →
      leeway.Agree excused last (next result) (otherNext other)) :
    leeway.Agree excused last (left >>= next) (right >>= otherNext) :=
  fun first second machines => (agree first second machines).bind onward

theorem recover {resume : Fault → Eval α} {otherResume : Fault → Eval β}
    (agree : leeway.Agree excused post left right)
    (resumes : ∀ fault other, leeway.Faults fault other →
      leeway.Agree excused post (resume fault) (otherResume other))
    (passes : excused → ∀ machine,
      (∃ after, (resume .depth machine).ending = .error .depth after) ∧
        ∃ after, (otherResume .depth machine).ending = .error .depth after) :
    leeway.Agree excused post (Eval.recover left resume) (Eval.recover right otherResume) :=
  fun first second machines => (agree first second machines).recover resumes passes

theorem raise {cause : Cause} {fault other : Fault} (faults : leeway.Faults fault other) :
    leeway.Agree excused post (Eval.raiseFor cause fault) (Eval.raiseFor cause other) :=
  fun _ _ machines => .broken faults machines

theorem reraise {fault other : Fault} (faults : leeway.Faults fault other) :
    leeway.Agree excused post (Eval.reraise fault) (Eval.reraise other) :=
  fun _ _ machines => .broken faults machines

theorem get : leeway.Agree excused leeway.Machines MonadState.get MonadState.get :=
  fun _ _ machines => .done machines machines

theorem change {step : Machine → α × Machine} {otherStep : Machine → β × Machine}
    (steps : ∀ first second, leeway.Machines first second →
      post (step first).1 (otherStep second).1 ∧
        leeway.Machines (step first).2 (otherStep second).2) :
    leeway.Agree excused post (Eval.change step) (Eval.change otherStep) := by
  intro first second machines
  obtain ⟨results, after⟩ := steps first second machines
  exact .done results after

theorem modifies {step otherStep : Machine → Machine}
    (steps : ∀ first second, leeway.Machines first second →
      leeway.Machines (step first) (otherStep second)) :
    leeway.Agree excused (fun _ _ => True) (modify step : Eval PUnit) (modify otherStep : Eval PUnit) :=
  change fun first second machines => ⟨trivial, steps first second machines⟩

theorem create {make otherMake : ObjectId → Value}
    (makes : ∀ id, leeway.Values (make id) (otherMake id)) :
    leeway.Agree excused leeway.Values (Eval.create make) (Eval.create otherMake) := by
  refine change fun first second machines => ?_
  refine ⟨machines.nextObject ▸ makes second.nextObject, ?_⟩
  exact { machines with nextObject := congrArg (· + 1) machines.nextObject }

theorem define (scope : ScopeId) (name : String) {value other : Value}
    (values : leeway.Values value other) :
    leeway.Agree excused leeway.Values (Eval.bind scope name value) (Eval.bind scope name other) := by
  unfold Eval.bind
  rw [values.isSignal, values.typeName]
  cases other.isSignal with
  | true => exact raise (.same _)
  | false =>
      refine bind (modifies fun _ _ machines => ?_) fun _ _ _ => pure values
      exact { machines with scopes := machines.scopes.bind scope name values }

theorem print (line : String) (byProgram : Bool) :
    leeway.Agree excused (fun _ _ => True) (Eval.print line byProgram) (Eval.print line byProgram) :=
  modifies fun _ _ machines =>
    { machines with printed := congrArg (·.push ⟨line, byProgram⟩) machines.printed }

theorem fail (message : String) (origin : Option String) :
    leeway.Agree excused leeway.Values (Eval.fail message origin) (Eval.fail message origin) :=
  bind get fun _ _ machines => pure (.failed (machines.failure message origin))

end Agree

end Leeway

/-- Hooks may have recorded something, and all else is as it was. -/
def Machine.Unseen (before after : Machine) : Prop :=
  after = { before with recorded := after.recorded, hookCalls := after.hookCalls }

/-- A notice that may hold a tree too deep to be shown. -/
def Notice.Hides (notice : Notice) : Prop := ∃ scopes, notice.details? scopes = none

/-- An evaluation of which only hooks could tell, unless it is broken off for its depth. -/
def Eval.Unnoticed (deep : Prop) (action : Eval Unit) : Prop :=
  ∀ before, (∃ after, (action before).ending = .ok () after ∧ before.Unseen after) ∨
    deep ∧ ∃ after, (action before).ending = .error .depth after

theorem Eval.Unnoticed.bind {deep : Prop} {first second : Eval Unit} (one : first.Unnoticed deep)
    (other : second.Unnoticed deep) : Eval.Unnoticed deep (do first; second) := by
  intro before
  rcases one before with ⟨between, ran, unseen⟩ | ⟨isDeep, after, ran⟩
  · rcases other between with ⟨after, ranOn, unseenOn⟩ | ⟨isDeep, after, ranOn⟩
    · refine .inl ⟨after, (Eval.bind_ok ran).trans ranOn, ?_⟩
      unfold Machine.Unseen at unseenOn ⊢
      rw [unseenOn, unseen]
    · exact .inr ⟨isDeep, after, (Eval.bind_ok ran).trans ranOn⟩
  · exact .inr ⟨isDeep, after, Eval.bind_error ran⟩

/-- Hooks that do nothing but record what they are told, if anything at all. -/
def Hooks.Watch (hooks : Hooks) : Prop :=
  ∀ event, ∀ hook ∈ hooks.of event, ∀ circumstance notice,
    hook.react circumstance notice = .record ∨ hook.react circumstance notice = .ignore

section Announcing

variable {hook : Hook} {called : List Hook} {hooks : Hooks} {notice : Notice}

theorem callHook_unnoticed (watches : ∀ circumstance,
    hook.react circumstance notice = .record ∨ hook.react circumstance notice = .ignore) :
    (Eval.callHook hook notice).Unnoticed notice.Hides := by
  intro before
  have called : ((modifyGet fun machine => (machine, machine.hookCall hook) : Eval Machine)
      before).ending = .ok before (before.hookCall hook) := rfl
  unfold Eval.callHook
  rw [Eval.bind_ok called]
  rcases watches (before.circumstance hook) with records | ignores
  · rw [records]
    dsimp only
    cases shown : notice.details? before.scopes with
    | some details => exact .inl ⟨_, rfl, rfl⟩
    | none => exact .inr ⟨⟨before.scopes, shown⟩, _, rfl⟩
  · rw [ignores]
    exact .inl ⟨_, rfl, rfl⟩

theorem callHooks_unnoticed (watch : ∀ hook ∈ called, ∀ circumstance,
    hook.react circumstance notice = .record ∨ hook.react circumstance notice = .ignore) :
    (Eval.callHooks called notice).Unnoticed notice.Hides := by
  induction called with
  | nil => exact fun before => .inl ⟨before, rfl, rfl⟩
  | cons hook others ih =>
      obtain ⟨hookWatches, othersWatch⟩ := List.forall_mem_cons.mp watch
      exact (callHook_unnoticed hookWatches).bind (ih othersWatch)

theorem announce_unnoticed (watch : hooks.Watch) (notice : Notice) :
    (Eval.announce hooks notice).Unnoticed notice.Hides :=
  callHooks_unnoticed fun hook member circumstance =>
    watch notice.event hook member circumstance notice

end Announcing

namespace Leeway

theorem Machines.unseen {first second after otherAfter : Machine}
    (machines : leeway.Machines first second) (unseen : first.Unseen after)
    (otherUnseen : second.Unseen otherAfter) : leeway.Machines after otherAfter := by
  unfold Machine.Unseen at unseen otherUnseen
  rw [unseen, otherUnseen]
  exact { machines with }

/-- What two settings have in common. -/
structure Settings (leeway : Leeway) (setting other : Setting) : Prop where
  file : setting.file = other.file
  builtins : setting.builtins = other.builtins
  verbose : setting.verbose = other.verbose ∨ leeway.snapshots ∧ other.verbose = false
  watch : setting.hooks.Watch
  otherWatch : other.hooks.Watch

namespace Agree

variable {excused : Prop} {setting other : Setting}

theorem unnoticed {deep otherDeep : Prop} {left right : Eval Unit} (one : left.Unnoticed deep)
    (two : right.Unnoticed otherDeep) (forgiven : deep ∨ otherDeep → excused) :
    leeway.Agree excused (fun _ _ => True) left right := by
  intro first second machines
  rcases one first with ⟨after, ran, unseen⟩ | ⟨isDeep, after, ran⟩
  · rcases two second with ⟨otherAfter, otherRan, otherUnseen⟩ | ⟨isDeep, otherAfter, otherRan⟩
    · rw [ran, otherRan]
      exact .done trivial (machines.unseen unseen otherUnseen)
    · rw [otherRan]
      exact .right (forgiven (.inr isDeep))
  · rw [ran]
    exact .left (forgiven (.inl isDeep))

theorem announce (settings : leeway.Settings setting other) (notice otherNotice : Notice)
    (forgiven : notice.Hides ∨ otherNotice.Hides → excused) :
    leeway.Agree excused (fun _ _ => True) (Eval.announce setting.hooks notice)
      (Eval.announce other.hooks otherNotice) :=
  unnoticed (announce_unnoticed settings.watch notice)
    (announce_unnoticed settings.otherWatch otherNotice) forgiven

theorem logStep (settings : leeway.Settings setting other) (form : String)
    {location otherLocation : Option Location} (places : leeway.Places location otherLocation)
    (callee : Option String) :
    leeway.Agree excused (fun _ _ => True) (Eval.logStep setting.verbose form location callee)
      (Eval.logStep other.verbose form otherLocation callee) :=
  modifies fun _ _ machines => machines.logStep settings.verbose form places callee

end Agree

end Leeway

end MonkeyLang
