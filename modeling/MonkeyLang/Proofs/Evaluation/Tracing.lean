import MonkeyLang.Proofs.Evaluation.Contract

namespace MonkeyLang

/-! # Contracts with origins

What holds where an evaluation ends with a result, and what holds of every origin of the fault that
breaks it off.  A fault that is raised again has the origins that it had before.
-/

/-- The origins of the fault that ends a course, when it goes on from a fault with some origins. -/
def Course.From {α : Type} (given : Origin → Prop) (course : Course α) (origin : Origin) : Prop :=
  course.raised origin ∨ (given origin ∧ ∀ own, ¬ course.raised own)

/-- There is an origin for every fault, and something holds of each. -/
structure Course.Traces {α : Type} (given : Origin → Prop) (course : Course α)
    (done : α → Machine → Prop) (broken : Origin → Fault → Machine → Prop) : Prop where
  done : ∀ result machine, course.ending = .ok result machine → done result machine
  traced : ∀ fault machine, course.ending = .error fault machine → ∃ origin, course.From given origin
  broken : ∀ fault machine origin, course.ending = .error fault machine → course.From given origin →
    broken origin fault machine

/-- No origins at all. -/
def Origin.none (_ : Origin) : Prop := False

namespace Course.Traces

variable {α β : Type} {given : Origin → Prop} {before : Machine} {done : α → Machine → Prop}
  {broken : Origin → Fault → Machine → Prop}

theorem from_none {course : Course α} {origin : Origin} :
    course.From Origin.none origin ↔ course.raised origin :=
  or_iff_left fun impossible => impossible.1

theorem leads {course : Course α} {moreDone : α → Machine → Prop}
    {moreBroken : Origin → Fault → Machine → Prop} (traces : course.Traces given done broken)
    (result : ∀ result machine, done result machine → moreDone result machine)
    (fault : ∀ origin fault machine, broken origin fault machine → moreBroken origin fault machine) :
    course.Traces given moreDone moreBroken where
  done given machine ended := result given machine (traces.done given machine ended)
  traced := traces.traced
  broken given machine origin ended come :=
    fault origin given machine (traces.broken given machine origin ended come)

theorem and {course : Course α} {otherDone : α → Machine → Prop}
    {otherBroken : Origin → Fault → Machine → Prop} (traces : course.Traces given done broken)
    (others : course.Traces given otherDone otherBroken) :
    course.Traces given (fun result machine => done result machine ∧ otherDone result machine)
      (fun origin fault machine => broken origin fault machine ∧ otherBroken origin fault machine) where
  done result machine ended := ⟨traces.done result machine ended, others.done result machine ended⟩
  traced := traces.traced
  broken fault machine origin ended come :=
    ⟨traces.broken fault machine origin ended come, others.broken fault machine origin ended come⟩

theorem meets {course : Course α} {through : Machine → Prop} {otherDone : α → Machine → Prop}
    {otherBroken : Fault → Machine → Prop} (traces : course.Traces given done broken)
    (meets : course.Meets through otherDone otherBroken) :
    course.Traces given (fun result machine => done result machine ∧ otherDone result machine)
      (fun origin fault machine => broken origin fault machine ∧ otherBroken fault machine) where
  done result machine ended := ⟨traces.done result machine ended, meets.done result machine ended⟩
  traced := traces.traced
  broken fault machine origin ended come :=
    ⟨traces.broken fault machine origin ended come, meets.broken fault machine ended⟩

/-- What raises its own faults does not care for those before. -/
theorem own {course : Course α} (traces : course.Traces Origin.none done broken) :
    course.Traces given done broken where
  done := traces.done
  traced fault machine ended := by
    obtain ⟨origin, come⟩ := traces.traced fault machine ended
    exact ⟨origin, .inl (from_none.mp come)⟩
  broken fault machine origin ended come := by
    obtain ⟨other, raised⟩ := traces.traced fault machine ended
    rcases come with own | ⟨_, noneOwn⟩
    · exact traces.broken fault machine origin ended (from_none.mpr own)
    · exact absurd (from_none.mp raised) (noneOwn other)

theorem pure {result : α} (ended : done result before) :
    ((Pure.pure result : Eval α) before).Traces given done broken where
  done := by
    intro result machine same
    cases same
    exact ended
  traced _ _ ended := nomatch ended
  broken _ _ _ ended := nomatch ended

theorem get {done : Machine → Machine → Prop} (ended : done before before) :
    ((MonadState.get : Eval Machine) before).Traces given done broken where
  done := by
    intro result machine same
    cases same
    exact ended
  traced _ _ ended := nomatch ended
  broken _ _ _ ended := nomatch ended

theorem note {mark : Machine → Mark} {done : Unit → Machine → Prop} (ended : done () before) :
    (Eval.note mark before).Traces given done broken where
  done := by
    intro result machine same
    cases same
    exact ended
  traced _ _ ended := nomatch ended
  broken _ _ _ ended := nomatch ended

theorem change {step : Machine → α × Machine} (ended : done (step before).1 (step before).2) :
    (Eval.change step before).Traces given done broken where
  done := by
    intro result machine same
    cases same
    exact ended
  traced _ _ ended := nomatch ended
  broken _ _ _ ended := nomatch ended

theorem modifies {step : Machine → Machine} {done : PUnit → Machine → Prop}
    (ended : done ⟨⟩ (step before)) :
    ((modify step : Eval PUnit) before).Traces given done broken := by
  change (Eval.change (fun machine => (PUnit.unit, step machine)) before).Traces given done broken
  exact change ended

theorem raise {cause : Cause} {fault : Fault} (ended : broken ⟨cause, fault, before⟩ fault before) :
    ((Eval.raiseFor cause fault : Eval α) before).Traces given done broken where
  done _ _ ended := nomatch ended
  traced _ _ _ := ⟨_, .inl rfl⟩
  broken := by
    rintro _ _ origin same (rfl | ⟨_, noneOwn⟩)
    · cases same
      exact ended
    · exact absurd rfl (noneOwn ⟨cause, fault, before⟩)

theorem reraise {fault : Fault} (come : ∃ origin, given origin)
    (ended : ∀ origin, given origin → broken origin fault before) :
    ((Eval.reraise fault : Eval α) before).Traces given done broken where
  done _ _ ended := nomatch ended
  traced _ _ _ := by
    obtain ⟨origin, isGiven⟩ := come
    exact ⟨origin, .inr ⟨isGiven, fun _ => id⟩⟩
  broken := by
    rintro _ _ origin same (impossible | ⟨isGiven, _⟩)
    · exact impossible.elim
    · cases same
      exact ended origin isGiven

theorem bind {first : Eval α} {next : α → Eval β} {last : β → Machine → Prop}
    (traces : (first before).Traces given done broken)
    (onward : ∀ result between, done result between →
      (next result between).Traces given last broken) :
    ((first >>= next) before).Traces given last broken := by
  change (Eval.andThen first next before).Traces given last broken
  unfold Eval.andThen
  generalize first before = course at traces
  obtain ⟨ending, passes, raised⟩ := course
  cases ending with
  | ok result between =>
      have rest := onward result between (traces.done result between rfl)
      exact ⟨rest.done, rest.traced, rest.broken⟩
  | error fault after =>
      refine ⟨fun _ _ ended => (nomatch ended), ?_, ?_⟩
      · intro fault machine same
        cases same
        exact traces.traced _ _ rfl
      · intro fault machine origin same come
        cases same
        exact traces.broken _ _ origin rfl come

theorem noting {mark : Machine → Mark} {next : Unit → Eval β} {last : β → Machine → Prop}
    (onward : (next () before).Traces given last broken) :
    ((Eval.note mark >>= next) before).Traces given last broken := by
  have noted : (Eval.note mark before).Traces given (fun _ between => between = before) broken :=
    note rfl
  refine noted.bind ?_
  rintro _ _ rfl
  exact onward

theorem changing {step : Machine → α × Machine} {next : α → Eval β} {last : β → Machine → Prop}
    (onward : (next (step before).1 (step before).2).Traces given last broken) :
    ((Eval.change step >>= next) before).Traces given last broken := by
  have changed : (Eval.change step before).Traces given
      (fun read between => read = (step before).1 ∧ between = (step before).2) broken :=
    change ⟨rfl, rfl⟩
  refine changed.bind ?_
  rintro _ _ ⟨rfl, rfl⟩
  exact onward

theorem modifying {step : Machine → Machine} {next : PUnit → Eval β} {last : β → Machine → Prop}
    (onward : (next ⟨⟩ (step before)).Traces given last broken) :
    (((modify step : Eval PUnit) >>= next) before).Traces given last broken :=
  changing onward

theorem look {next : Machine → Eval β} {last : β → Machine → Prop}
    (onward : (next before before).Traces given last broken) :
    ((MonadState.get >>= next) before).Traces given last broken := by
  have looked : ((MonadState.get : Eval Machine) before).Traces given
      (fun seen between => seen = before ∧ between = before) broken :=
    get ⟨rfl, rfl⟩
  refine looked.bind ?_
  rintro _ _ ⟨rfl, rfl⟩
  exact onward

/-- What goes on from a fault has the origins of that fault before it. -/
theorem recover {body : Eval α} {resume : Fault → Eval α}
    {caught : Origin → Fault → Machine → Prop} (traces : (body before).Traces Origin.none done caught)
    (resumes : ∀ (given : Origin → Prop) fault between, (∃ origin, given origin) →
      (∀ origin, given origin → caught origin fault between) →
      (resume fault between).Traces given done broken) :
    (Eval.recover body resume before).Traces Origin.none done broken := by
  unfold Eval.recover
  generalize body before = course at traces
  obtain ⟨ending, passes, raised⟩ := course
  cases ending with
  | ok result after =>
      exact ⟨traces.done, fun _ _ ended => (nomatch ended), fun _ _ _ ended => (nomatch ended)⟩
  | error fault between =>
      obtain ⟨origin, come⟩ := traces.traced fault between rfl
      have rest := resumes raised fault between ⟨origin, from_none.mp come⟩
        fun origin isRaised => traces.broken fault between origin rfl (from_none.mpr isRaised)
      refine ⟨rest.done, ?_, ?_⟩
      · intro last machine ended
        obtain ⟨origin, come⟩ := rest.traced last machine ended
        exact ⟨origin, from_none.mpr come⟩
      · exact fun last machine origin ended come =>
          rest.broken last machine origin ended (from_none.mp come)

/-- A fault that is caught is an answer, and any other one comes from where it came from. -/
theorem attempt {action : Eval α} {catches : Fault → Bool}
    {answered : Except Fault α → Machine → Prop}
    (traces : (action before).Traces Origin.none (fun result => answered (.ok result)) broken)
    (caught : ∀ origin fault between, catches fault = true → broken origin fault between →
      answered (.error fault) between) :
    (Eval.attempt catches action before).Traces Origin.none answered broken := by
  have answers : ((do return .ok (← action) : Eval (Except Fault α)) before).Traces Origin.none
      answered broken :=
    bind traces fun _ _ ended => .pure ended
  refine .look (answers.recover fun given fault between come leads => ?_)
  split
  · rename_i isCaught
    obtain ⟨origin, isGiven⟩ := come
    exact .noting (.pure (caught origin fault between isCaught (leads origin isGiven)))
  · exact .reraise come leads

end Course.Traces

end MonkeyLang
