import MonkeyLang.Proofs.Evaluation.Contract

namespace MonkeyLang

/-! # Contracts with marks

What holds where an evaluation ends with a result, and where it is broken off, together with the marks
that it has left until then.
-/

structure Course.Leaves {α : Type} (course : Course α) (done : α → Machine → List Mark → Prop)
    (broken : Fault → Machine → List Mark → Prop) : Prop where
  done : ∀ result machine, course.ending = .ok result machine → done result machine course.marks
  broken : ∀ fault machine, course.ending = .error fault machine → broken fault machine course.marks

section Parts

variable {α β : Type} {first body : Eval α} {next : α → Eval β} {resume : Fault → Eval α}
  {before between : Machine} {result : α} {fault : Fault}

theorem Course.trace_marks (course : Course α) : course.trace course.marks :=
  (course.trace_iff _).mpr rfl

/-- A list that a trace tells of is the list of marks. -/
theorem Course.marks_eq {course : Course α} {marks : List Mark} (told : course.trace marks) :
    course.marks = marks :=
  ((course.trace_iff marks).mp told).symm

theorem Eval.bind_marks_ok (ran : (first before).ending = .ok result between) :
    ((first >>= next) before).marks = (first before).marks ++ (next result between).marks := by
  have told := (first before).trace_marks
  refine Course.marks_eq ?_
  change (Eval.andThen first next before).trace _
  unfold Eval.andThen
  generalize (first before).marks = marks at told
  generalize first before = course at ran told
  obtain ⟨ending, passes, raised, trace, exact⟩ := course
  subst ran
  exact ⟨marks, _, told, (next result between).trace_marks, rfl⟩

theorem Eval.bind_marks_error (ran : (first before).ending = .error fault between) :
    ((first >>= next) before).marks = (first before).marks := by
  have told := (first before).trace_marks
  refine Course.marks_eq ?_
  change (Eval.andThen first next before).trace _
  unfold Eval.andThen
  generalize (first before).marks = marks at told
  generalize first before = course at ran told
  obtain ⟨ending, passes, raised, trace, exact⟩ := course
  subst ran
  exact told

theorem Eval.recover_marks_ok (ran : (body before).ending = .ok result between) :
    (Eval.recover body resume before).marks = (body before).marks := by
  have told := (body before).trace_marks
  refine Course.marks_eq ?_
  unfold Eval.recover
  generalize (body before).marks = marks at told
  generalize body before = course at ran told
  obtain ⟨ending, passes, raised, trace, exact⟩ := course
  subst ran
  exact told

theorem Eval.recover_marks_error (ran : (body before).ending = .error fault between) :
    (Eval.recover body resume before).marks =
      (body before).marks ++ (resume fault between).marks := by
  have told := (body before).trace_marks
  refine Course.marks_eq ?_
  unfold Eval.recover
  generalize (body before).marks = marks at told
  generalize body before = course at ran told
  obtain ⟨ending, passes, raised, trace, exact⟩ := course
  subst ran
  exact ⟨marks, _, told, (resume fault between).trace_marks, rfl⟩

end Parts

namespace Course.Leaves

variable {α β : Type} {before : Machine} {done : α → Machine → List Mark → Prop}
  {broken : Fault → Machine → List Mark → Prop}

theorem outcome {course : Course α} (ends : Except Fault α → Machine → List Mark → Prop)
    (leaves : course.Leaves (fun result => ends (.ok result)) fun fault => ends (.error fault)) :
    ends course.outcome course.machine course.marks := by
  unfold Course.outcome Course.machine
  cases ended : course.ending with
  | ok result after => exact leaves.done result after ended
  | error fault after => exact leaves.broken fault after ended

theorem leads {course : Course α} {moreDone : α → Machine → List Mark → Prop}
    {moreBroken : Fault → Machine → List Mark → Prop} (leaves : course.Leaves done broken)
    (result : ∀ result machine marks, done result machine marks → moreDone result machine marks)
    (fault : ∀ fault machine marks, broken fault machine marks → moreBroken fault machine marks) :
    course.Leaves moreDone moreBroken where
  done given machine ended := result given machine _ (leaves.done given machine ended)
  broken given machine ended := fault given machine _ (leaves.broken given machine ended)

/-- Where an evaluation never ends with some fault, nothing has to be known of that fault. -/
theorem excluding {course : Course α} {excluded : Fault} (leaves : course.Leaves done broken)
    (never : course.outcome ≠ .error excluded) :
    course.Leaves done fun fault after marks => fault ≠ excluded ∧ broken fault after marks where
  done := leaves.done
  broken fault after ended := by
    refine ⟨?_, leaves.broken fault after ended⟩
    rintro rfl
    exact never (by rw [Course.outcome, ended])

theorem ofOk {course : Course α} {result : α} {after : Machine} {marks : List Mark}
    (ran : course.ending = .ok result after) (told : course.trace marks)
    (ended : done result after marks) : course.Leaves done broken where
  done := by
    intro given machine same
    cases ran.symm.trans same
    exact marks_eq told ▸ ended
  broken _ _ same := nomatch ran.symm.trans same

theorem ofError {course : Course α} {fault : Fault} {after : Machine} {marks : List Mark}
    (ran : course.ending = .error fault after) (told : course.trace marks)
    (ended : broken fault after marks) : course.Leaves done broken where
  done _ _ same := nomatch ran.symm.trans same
  broken := by
    intro given machine same
    cases ran.symm.trans same
    exact marks_eq told ▸ ended

theorem pure {result : α} (ended : done result before []) :
    ((Pure.pure result : Eval α) before).Leaves done broken :=
  ofOk rfl rfl ended

theorem raise {cause : Cause} {fault : Fault} (ended : broken fault before []) :
    ((Eval.raiseFor cause fault : Eval α) before).Leaves done broken :=
  ofError rfl rfl ended

theorem reraise {fault : Fault} (ended : broken fault before []) :
    ((Eval.reraise fault : Eval α) before).Leaves done broken :=
  ofError rfl rfl ended

theorem get {done : Machine → Machine → List Mark → Prop} (ended : done before before []) :
    ((MonadState.get : Eval Machine) before).Leaves done broken :=
  ofOk rfl rfl ended

theorem note {mark : Machine → Mark} {done : Unit → Machine → List Mark → Prop}
    (ended : done () before [mark before]) : (Eval.note mark before).Leaves done broken :=
  ofOk rfl rfl ended

theorem change {step : Machine → α × Machine} (ended : done (step before).1 (step before).2 []) :
    (Eval.change step before).Leaves done broken :=
  ofOk rfl rfl ended

theorem modifies {step : Machine → Machine} {done : PUnit → Machine → List Mark → Prop}
    (ended : done ⟨⟩ (step before) []) :
    ((modify step : Eval PUnit) before).Leaves done broken := by
  change (Eval.change (fun machine => (PUnit.unit, step machine)) before).Leaves done broken
  exact change ended

theorem bind {first : Eval α} {next : α → Eval β} {last : β → Machine → List Mark → Prop}
    (leaves : (first before).Leaves done broken)
    (onward : ∀ result between marks, done result between marks →
      (next result between).Leaves (fun given after later => last given after (marks ++ later))
        fun fault after later => broken fault after (marks ++ later)) :
    ((first >>= next) before).Leaves last broken := by
  cases ran : (first before).ending with
  | ok result between =>
      have rest := onward result between _ (leaves.done result between ran)
      constructor <;> rw [Eval.bind_ok ran, Eval.bind_marks_ok ran]
      · exact rest.done
      · exact rest.broken
  | error fault between =>
      constructor <;> rw [Eval.bind_error ran, Eval.bind_marks_error ran]
      · exact fun _ _ ended => nomatch ended
      · intro given after same
        cases same
        exact leaves.broken fault between ran

theorem noting {mark : Machine → Mark} {next : Unit → Eval β}
    {last : β → Machine → List Mark → Prop}
    (onward : (next () before).Leaves (fun given after later => last given after (mark before :: later))
      fun fault after later => broken fault after (mark before :: later)) :
    ((Eval.note mark >>= next) before).Leaves last broken := by
  have noted : (Eval.note mark before).Leaves
      (fun _ between marks => between = before ∧ marks = [mark before]) broken :=
    note ⟨rfl, rfl⟩
  refine noted.bind ?_
  rintro _ _ _ ⟨rfl, rfl⟩
  exact onward

theorem changing {step : Machine → α × Machine} {next : α → Eval β}
    {last : β → Machine → List Mark → Prop}
    (onward : (next (step before).1 (step before).2).Leaves last broken) :
    ((Eval.change step >>= next) before).Leaves last broken := by
  have changed : (Eval.change step before).Leaves (fun read between marks =>
      read = (step before).1 ∧ between = (step before).2 ∧ marks = []) broken :=
    change ⟨rfl, rfl, rfl⟩
  refine changed.bind ?_
  rintro _ _ _ ⟨rfl, rfl, rfl⟩
  exact onward

theorem modifying {step : Machine → Machine} {next : PUnit → Eval β}
    {last : β → Machine → List Mark → Prop} (onward : (next ⟨⟩ (step before)).Leaves last broken) :
    (((modify step : Eval PUnit) >>= next) before).Leaves last broken :=
  changing onward

theorem look {next : Machine → Eval β} {last : β → Machine → List Mark → Prop}
    (onward : (next before before).Leaves last broken) :
    ((MonadState.get >>= next) before).Leaves last broken := by
  have looked : ((MonadState.get : Eval Machine) before).Leaves
      (fun seen between marks => seen = before ∧ between = before ∧ marks = []) broken :=
    get ⟨rfl, rfl, rfl⟩
  refine looked.bind ?_
  rintro _ _ _ ⟨rfl, rfl, rfl⟩
  exact onward

theorem recover {body : Eval α} {resume : Fault → Eval α}
    {caught : Fault → Machine → List Mark → Prop} (leaves : (body before).Leaves done caught)
    (resumes : ∀ fault between marks, caught fault between marks →
      (resume fault between).Leaves (fun given after later => done given after (marks ++ later))
        fun fault after later => broken fault after (marks ++ later)) :
    (Eval.recover body resume before).Leaves done broken := by
  cases ran : (body before).ending with
  | ok result between =>
      constructor <;> rw [Eval.recover_ok ran, Eval.recover_marks_ok ran]
      · intro given after same
        cases same
        exact leaves.done result between ran
      · exact fun _ _ ended => nomatch ended
  | error fault between =>
      have rest := resumes fault between _ (leaves.broken fault between ran)
      constructor <;> rw [Eval.recover_error ran, Eval.recover_marks_error ran]
      · exact rest.done
      · exact rest.broken

/-- Where a fault is caught, this leaves a mark behind those of the evaluation that it broke off. -/
theorem attempt {action : Eval α} {catches : Fault → Bool}
    {answered : Except Fault α → Machine → List Mark → Prop}
    (leaves : (action before).Leaves (fun result => answered (.ok result)) broken)
    (caught : ∀ fault between marks, catches fault = true → broken fault between marks →
      answered (.error fault) between (marks ++ [.caught fault before.steps.count])) :
    (Eval.attempt catches action before).Leaves answered broken := by
  have answers : ((do return .ok (← action) : Eval (Except Fault α)) before).Leaves answered
      broken := by
    refine bind leaves fun result between marks ended => .pure ?_
    rw [List.append_nil]
    exact ended
  refine .look (answers.recover fun fault between marks ended => ?_)
  split
  · rename_i catching
    exact .noting (.pure (caught fault between marks catching ended))
  · refine .reraise ?_
    rw [List.append_nil]
    exact ended

end Course.Leaves

end MonkeyLang
