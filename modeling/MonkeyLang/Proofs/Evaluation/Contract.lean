import MonkeyLang.Evaluation.Layer

namespace MonkeyLang

/-! # Contracts of evaluations

What holds of all states that an evaluation passes, where it ends with a result, and where it is
broken off, from one state on.  A contract of the whole follows from contracts of the parts.
-/

section Endings

variable {α β : Type} {before after : Machine} {first body : Eval α} {next : α → Eval β}
  {resume : Fault → Eval α}

theorem Eval.bind_ok {result : α} (ran : (first before).ending = .ok result after) :
    ((first >>= next) before).ending = (next result after).ending := by
  change (Eval.andThen first next before).ending = _
  unfold Eval.andThen
  generalize first before = course at ran
  obtain ⟨ending, passes, raised, trace, exact⟩ := course
  subst ran
  rfl

theorem Eval.bind_error {fault : Fault} (ran : (first before).ending = .error fault after) :
    ((first >>= next) before).ending = .error fault after := by
  change (Eval.andThen first next before).ending = _
  unfold Eval.andThen
  generalize first before = course at ran
  obtain ⟨ending, passes, raised, trace, exact⟩ := course
  subst ran
  rfl

theorem Eval.recover_ok {result : α} (ran : (body before).ending = .ok result after) :
    (Eval.recover body resume before).ending = .ok result after := by
  unfold Eval.recover
  generalize body before = course at ran
  obtain ⟨ending, passes, raised, trace, exact⟩ := course
  subst ran
  rfl

theorem Eval.recover_error {fault : Fault} (ran : (body before).ending = .error fault after) :
    (Eval.recover body resume before).ending = (resume fault after).ending := by
  unfold Eval.recover
  generalize body before = course at ran
  obtain ⟨ending, passes, raised, trace, exact⟩ := course
  subst ran
  rfl

end Endings

/-- That a run ends otherwise than by depth is found by running it. -/
theorem Course.has_room {α : Type} {course : Course α}
    (ends : (match course.outcome with
      | .error .depth => false
      | _ => true) = true) : course.outcome ≠ .error .depth := by
  intro deep
  rw [deep] at ends
  cases ends

structure Course.Meets {α : Type} (course : Course α) (through : Machine → Prop)
    (done : α → Machine → Prop) (broken : Fault → Machine → Prop) : Prop where
  passing : ∀ machine, course.passes machine → through machine
  done : ∀ result machine, course.ending = .ok result machine → done result machine
  broken : ∀ fault machine, course.ending = .error fault machine → broken fault machine

/-- A condition on states that holds all the way, and at the end. -/
abbrev Course.Keeps {α : Type} (course : Course α) (kept : Machine → Prop) : Prop :=
  course.Meets kept (fun _ => kept) fun _ => kept

namespace Course.Meets

variable {α β : Type} {before : Machine} {through wider : Machine → Prop}
  {done : α → Machine → Prop} {broken : Fault → Machine → Prop} {action : Eval α}

theorem outcome {course : Course α} (ends : Except Fault α → Machine → Prop)
    (meets : course.Meets through (fun result => ends (.ok result)) fun fault => ends (.error fault)) :
    ends course.outcome course.machine := by
  obtain ⟨ending, passes, raised⟩ := course
  cases ending with
  | ok result after => exact meets.done result after rfl
  | error fault after => exact meets.broken fault after rfl

theorem last {course : Course α} {ends : Machine → Prop}
    (meets : course.Meets through (fun _ => ends) (fun _ => ends)) : ends course.machine :=
  outcome (fun _ => ends) meets

/-- Where an evaluation never ends with some fault, nothing has to be known of that fault. -/
theorem excluding {course : Course α} {excluded : Fault}
    (meets : course.Meets through done fun fault after => fault ≠ excluded → broken fault after)
    (never : course.outcome ≠ .error excluded) :
    course.Meets through done fun fault after => fault ≠ excluded ∧ broken fault after where
  passing := meets.passing
  done := meets.done
  broken fault after ended := by
    have other : fault ≠ excluded := by
      intro same
      subst same
      exact never (by rw [Course.outcome, ended])
    exact ⟨other, meets.broken fault after ended other⟩

/-- The weakest contract: an evaluation ends as it does. -/
theorem self {course : Course α} : course.Meets (fun _ => True)
    (fun result machine => course.ending = .ok result machine)
    (fun fault machine => course.ending = .error fault machine) :=
  ⟨fun _ _ => trivial, fun _ _ => id, fun _ _ => id⟩

theorem and {course : Course α} {alsoThrough : Machine → Prop} {alsoDone : α → Machine → Prop}
    {alsoBroken : Fault → Machine → Prop} (meets : course.Meets through done broken)
    (also : course.Meets alsoThrough alsoDone alsoBroken) :
    course.Meets (fun machine => through machine ∧ alsoThrough machine)
      (fun result machine => done result machine ∧ alsoDone result machine)
      (fun fault machine => broken fault machine ∧ alsoBroken fault machine) where
  passing machine passed := ⟨meets.passing machine passed, also.passing machine passed⟩
  done result machine ended := ⟨meets.done result machine ended, also.done result machine ended⟩
  broken fault machine ended := ⟨meets.broken fault machine ended, also.broken fault machine ended⟩

/-- What cannot break off ends with a result. -/
theorem ends {course : Course α} (meets : course.Meets through done fun _ _ => False) :
    ∃ result after, course.ending = .ok result after ∧ done result after := by
  obtain ⟨ending, passes, raised⟩ := course
  cases ending with
  | ok result after => exact ⟨result, after, rfl, meets.done result after rfl⟩
  | error fault after => exact (meets.broken fault after rfl).elim

theorem weaken {course : Course α} {moreDone : α → Machine → Prop}
    {moreBroken : Fault → Machine → Prop} (meets : course.Meets through done broken)
    (wide : ∀ machine, through machine → wider machine)
    (result : ∀ result machine, done result machine → moreDone result machine)
    (fault : ∀ fault machine, broken fault machine → moreBroken fault machine) :
    course.Meets wider moreDone moreBroken where
  passing machine passed := wide machine (meets.passing machine passed)
  done given machine ended := result given machine (meets.done given machine ended)
  broken given machine ended := fault given machine (meets.broken given machine ended)

theorem leads {course : Course α} {moreDone : α → Machine → Prop}
    {moreBroken : Fault → Machine → Prop} (meets : course.Meets through done broken)
    (result : ∀ result machine, done result machine → moreDone result machine)
    (fault : ∀ fault machine, broken fault machine → moreBroken fault machine) :
    course.Meets through moreDone moreBroken :=
  meets.weaken (fun _ => id) result fault

theorem fails {course : Course α} {moreBroken : Fault → Machine → Prop}
    (meets : course.Meets through done broken)
    (fault : ∀ fault machine, broken fault machine → moreBroken fault machine) :
    course.Meets through done moreBroken :=
  meets.leads (fun _ _ => id) fault

theorem pure {result : α} (passed : through before) (ended : done result before) :
    ((Pure.pure result : Eval α) before).Meets through done broken where
  passing := by
    intro machine same
    subst same
    exact passed
  done := by
    intro result machine same
    cases same
    exact ended
  broken _ _ ended := nomatch ended

theorem raise {cause : Cause} {fault : Fault} (passed : through before)
    (ended : broken fault before) :
    ((Eval.raiseFor cause fault : Eval α) before).Meets through done broken where
  passing := by
    intro machine same
    subst same
    exact passed
  done _ _ ended := nomatch ended
  broken := by
    intro fault machine same
    cases same
    exact ended

theorem reraise {fault : Fault} (passed : through before) (ended : broken fault before) :
    ((Eval.reraise fault : Eval α) before).Meets through done broken where
  passing := by
    intro machine same
    subst same
    exact passed
  done _ _ ended := nomatch ended
  broken := by
    intro fault machine same
    cases same
    exact ended

theorem get {done : Machine → Machine → Prop} (passed : through before)
    (ended : done before before) :
    ((MonadState.get : Eval Machine) before).Meets through done broken where
  passing := by
    intro machine same
    subst same
    exact passed
  done := by
    intro result machine same
    cases same
    exact ended
  broken _ _ ended := nomatch ended

theorem note {mark : Machine → Mark} {done : Unit → Machine → Prop} (passed : through before)
    (ended : done () before) : (Eval.note mark before).Meets through done broken where
  passing := by
    intro machine same
    subst same
    exact passed
  done := by
    intro result machine same
    cases same
    exact ended
  broken _ _ ended := nomatch ended

theorem change {step : Machine → α × Machine} (passed : through before)
    (passedAfter : through (step before).2) (ended : done (step before).1 (step before).2) :
    (Eval.change step before).Meets through done broken where
  passing := by
    intro machine given
    rcases given with rfl | rfl
    · exact passed
    · exact passedAfter
  done := by
    intro result machine same
    cases same
    exact ended
  broken _ _ ended := nomatch ended

theorem modifies {step : Machine → Machine} {done : PUnit → Machine → Prop}
    (passed : through before) (passedAfter : through (step before)) (ended : done ⟨⟩ (step before)) :
    ((modify step : Eval PUnit) before).Meets through done broken := by
  change (Eval.change (fun machine => (PUnit.unit, step machine)) before).Meets through done broken
  exact change passed passedAfter ended

theorem bind {first : Eval α} {next : α → Eval β} {last : β → Machine → Prop}
    (meets : (first before).Meets through done broken)
    (onward : ∀ result between, done result between →
      (next result between).Meets through last broken) :
    ((first >>= next) before).Meets through last broken := by
  change (Eval.andThen first next before).Meets through last broken
  unfold Eval.andThen
  generalize first before = course at meets
  obtain ⟨ending, passes, raised⟩ := course
  cases ending with
  | ok result between =>
      have rest := onward result between (meets.done result between rfl)
      exact ⟨fun machine passed => passed.elim (meets.passing machine) (rest.passing machine),
        rest.done, rest.broken⟩
  | error fault after =>
      refine ⟨meets.passing, fun _ _ ended => (nomatch ended), ?_⟩
      intro fault machine given
      cases given
      exact meets.broken _ _ rfl

theorem giving {result : α} {next : α → Eval β} {last : β → Machine → Prop} (passed : through before)
    (onward : (next result before).Meets through last broken) :
    ((Pure.pure result >>= next) before).Meets through last broken := by
  have given : ((Pure.pure result : Eval α) before).Meets through
      (fun found between => found = result ∧ between = before) broken :=
    pure passed ⟨rfl, rfl⟩
  refine given.bind ?_
  intro _ _ ended
  obtain ⟨rfl, rfl⟩ := ended
  exact onward

theorem look {next : Machine → Eval β} {last : β → Machine → Prop} (passed : through before)
    (onward : (next before before).Meets through last broken) :
    ((MonadState.get >>= next) before).Meets through last broken := by
  have looked : ((MonadState.get : Eval Machine) before).Meets through
      (fun seen between => seen = before ∧ between = before) broken :=
    get passed ⟨rfl, rfl⟩
  refine looked.bind ?_
  intro _ _ given
  obtain ⟨rfl, rfl⟩ := given
  exact onward

theorem noting {mark : Machine → Mark} {next : Unit → Eval β} {last : β → Machine → Prop}
    (passed : through before) (onward : (next () before).Meets through last broken) :
    ((Eval.note mark >>= next) before).Meets through last broken := by
  have noted : (Eval.note mark before).Meets through (fun _ between => between = before) broken :=
    note passed rfl
  refine noted.bind ?_
  rintro _ _ rfl
  exact onward

theorem changing {step : Machine → α × Machine} {next : α → Eval β} {last : β → Machine → Prop}
    (passed : through before) (passedAfter : through (step before).2)
    (onward : (next (step before).1 (step before).2).Meets through last broken) :
    ((Eval.change step >>= next) before).Meets through last broken := by
  have changed : (Eval.change step before).Meets through
      (fun read between => read = (step before).1 ∧ between = (step before).2) broken :=
    change passed passedAfter ⟨rfl, rfl⟩
  refine changed.bind ?_
  intro _ _ given
  obtain ⟨rfl, rfl⟩ := given
  exact onward

theorem modifying {step : Machine → Machine} {next : PUnit → Eval β} {last : β → Machine → Prop}
    (passed : through before) (passedAfter : through (step before))
    (onward : (next ⟨⟩ (step before)).Meets through last broken) :
    (((modify step : Eval PUnit) >>= next) before).Meets through last broken :=
  changing passed passedAfter onward

theorem recover {body : Eval α} {resume : Fault → Eval α} {caught : Fault → Machine → Prop}
    (meets : (body before).Meets through done caught)
    (resumes : ∀ fault between, caught fault between →
      (resume fault between).Meets through done broken) :
    (Eval.recover body resume before).Meets through done broken := by
  unfold Eval.recover
  generalize body before = course at meets
  obtain ⟨ending, passes, raised⟩ := course
  cases ending with
  | ok result after => exact ⟨meets.passing, meets.done, fun _ _ ended => (nomatch ended)⟩
  | error fault between =>
      have rest := resumes fault between (meets.broken fault between rfl)
      exact ⟨fun machine passed => passed.elim (meets.passing machine) (rest.passing machine),
        rest.done, rest.broken⟩

/-- A fault that is caught is an answer, and any other one is handed on. -/
theorem attempt {catches : Fault → Bool} {answered : Except Fault α → Machine → Prop}
    (began : through before)
    (meets : (action before).Meets through (fun result => answered (.ok result)) broken)
    (caught : ∀ fault between, broken fault between → answered (.error fault) between)
    (passed : ∀ answer between, answered answer between → through between) :
    (Eval.attempt catches action before).Meets through answered broken := by
  have answers : ((do return .ok (← action) : Eval (Except Fault α)) before).Meets through answered
      broken :=
    Course.Meets.bind meets fun _ between ended => .pure (passed _ between ended) ended
  refine .look began (answers.recover fun fault between ended => ?_)
  have isAnswer := caught fault between ended
  have isPassed := passed _ between isAnswer
  split
  · exact .noting isPassed (.pure isPassed isAnswer)
  · exact .reraise isPassed ended

end Course.Meets

/-- Whether or not a node can be located, nothing changes. -/
theorem Eval.locate_meets (setting : Setting) (node : Node) (before : Machine) :
    (Eval.locate setting node before).Meets (fun machine => machine = before)
      (fun _ after => after = before) (fun fault after => fault = .depth ∧ after = before) := by
  unfold Eval.locate
  dsimp only
  refine .look rfl ?_
  generalize (if node.token.line = 0 then none else before.lines[node.token.line - 1]?) = line
  cases line with
  | some line => exact .pure rfl rfl
  | none =>
      cases node.render? with
      | some text => exact .pure rfl rfl
      | none => exact .raise rfl ⟨rfl, rfl⟩

/-- What hooks do to the machine when they are called for an event. -/
inductive Machine.Notes (before : Machine) : Machine → Prop
  | hookCall (hook : Hook) : Notes before (before.hookCall hook)
  | print (line : Printed) : Notes before { before with printed := before.printed.push line }
  | record (hook : Hook) (event : Event) (details : Details) :
      Notes before (before.record hook event details)

section Events

variable {kept : Machine → Prop} {before : Machine}
  (notes : ∀ {before after : Machine}, before.Notes after → kept before → kept after)

include notes

theorem Eval.callHook_keeps (hook : Hook) (notice : Notice) (started : kept before) :
    (Eval.callHook hook notice before).Keeps kept := by
  have called : ((modifyGet fun machine => (machine, machine.hookCall hook) : Eval Machine)
      before).Keeps kept :=
    .change started (notes (.hookCall hook) started) (notes (.hookCall hook) started)
  refine called.bind fun seen between holds => ?_
  have changes : ∀ step : Machine → Machine, between.Notes (step between) →
      ((modify step : Eval PUnit) between).Keeps kept := fun step noted =>
    .modifies holds (notes noted holds) (notes noted holds)
  cases hook.react (seen.circumstance hook) notice with
  | ignore => exact .pure holds holds
  | print line => exact changes _ (.print ⟨line, false⟩)
  | raise fault => exact .raise holds holds
  | record =>
      cases notice.details? seen.scopes with
      | some details => exact changes _ (.record hook notice.event details)
      | none => exact .raise holds holds

theorem Eval.announce_keeps (hooks : Hooks) (notice : Notice) (started : kept before) :
    (Eval.announce hooks notice before).Keeps kept := by
  refine .noting started ?_
  induction hooks.of notice.event generalizing before with
  | nil => exact .pure started started
  | cons hook others ih => exact (Eval.callHook_keeps notes hook notice started).bind fun _ _ => ih

end Events

end MonkeyLang
