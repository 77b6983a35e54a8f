import MonkeyLang.Proofs.Calls
import MonkeyLang.Proofs.Safety

namespace MonkeyLang

/-! # What failures are stamped with

A failure takes its place and its step number from the latest step of all, whatever frame that was
logged in, but its open calls from the latest step of each frame.  The two agree in the innermost
frame until a function that was called from it has logged something and ended.
-/

/-- A step is the latest of all, or that of a call behind which more was logged. -/
def StepLog.Trails (log : StepLog) (step : Step) : Prop :=
  log.last = some step ∨
    step.form = "Call" ∧ ∃ later, log.last = some later ∧ step.index < later.index

/-- What the log knows of the innermost frame.  If that is nothing, then the latest step of all is
the one with which the frame around it called; if there is no such frame, there is no step at all. -/
structure Frame.Follows (log : StepLog) (frame : Frame) (callers : List Frame) : Prop where
  trails : ∀ step, log.forFrame frame.serial = some step → log.Trails step
  entered : log.forFrame frame.serial = none →
    match callers with
    | [] => log.last = none ∧ frame.site = none
    | caller :: _ => log.last = log.forFrame caller.serial

theorem Frame.follows_of_trails {log : StepLog} {frame : Frame} {step : Step} (callers : List Frame)
    (logged : log.forFrame frame.serial = some step) (trails : log.Trails step) :
    frame.Follows log callers where
  trails found same := by
    cases logged.symm.trans same
    exact trails
  entered unlogged := by cases logged.symm.trans unlogged

namespace Machine

variable {machine : Machine}

/-- The frames are linked from the outermost in, and the latest step of all is where the innermost one
puts it. -/
structure Timed (machine : Machine) : Prop extends Linked (fun _ => False) machine where
  newest : ∀ entry ∈ machine.steps.latest, entry.2.index + 1 = machine.steps.count →
    machine.steps.last = some entry.2
  innermost : ∃ frame callers, machine.stack = frame :: callers ∧
    frame.Follows machine.steps callers

theorem timed_opened (setting : Setting) : (Machine.initial setting).opened.Timed where
  toLinked :=
    have added : (Machine.initial setting).Minor
        { Machine.initial setting with scopes := (Machine.initial setting).scopes.add none } :=
      .scope none
    ⟨((orderly_initial setting).adjust added).pushFrame topLevel _ none, nofun, .singleton _⟩
  newest := nofun
  innermost := by
    have unlogged : ∀ step, StepLog.empty.forFrame 0 = some step → StepLog.empty.Trails step := nofun
    exact ⟨_, [], rfl, ⟨unlogged, fun _ => ⟨rfl, rfl⟩⟩⟩

/-- The step of a frame is older than the latest of all unless it is that one. -/
theorem Timed.older (timed : machine.Timed) {serial : Nat} {step : Step}
    (logged : machine.steps.forFrame serial = some step) :
    ∃ later, machine.steps.last = some later ∧ (later = step ∨ step.index < later.index) := by
  have member := StepLog.forFrame_mem logged
  have bounded : step.index < machine.steps.count := timed.logged _ member
  have counted := timed.counted
  cases last : machine.steps.last with
  | none =>
      rw [last] at counted
      omega
  | some later =>
      rw [last] at counted
      have atMost : step.index ≤ later.index := by omega
      rcases Nat.lt_or_eq_of_le atMost with older | same
      · exact ⟨later, rfl, .inr older⟩
      · have isLast := timed.newest _ member (by simpa [same] using counted)
        rw [last] at isLast
        exact ⟨later, rfl, .inl (Option.some.inj isLast)⟩

theorem Timed.logStep (timed : machine.Timed) (verbose : Bool) (form : String)
    (location : Option Location) (callee : Option String) :
    (machine.logStep verbose form location callee).Timed where
  toLinked := timed.toLinked.logStep verbose form location callee
  newest := by
    obtain ⟨frame, callers, opened, _⟩ := timed.innermost
    intro entry member latest
    simp only [Machine.logStep, StepLog.record, opened, List.head?_cons, Option.map_some] at member latest ⊢
    rcases List.mem_cons.mp member with rfl | old
    · rfl
    · have bounded := timed.logged entry (List.mem_filter.mp old).1
      omega
  innermost := by
    obtain ⟨frame, callers, opened, _⟩ := timed.innermost
    refine ⟨frame, callers, opened, ?_⟩
    simp only [Machine.logStep, opened, List.head?_cons, Option.map_some]
    exact Frame.follows_of_trails callers (machine.steps.record_forFrame_same frame.serial _)
      (.inl rfl)

theorem Timed.adjust {good : Value → Prop} {before after : Machine} (timed : before.Timed)
    (adjustment : before.Adjustment good after) : after.Timed := by
  cases adjustment with
  | step verbose form location callee => exact timed.logStep verbose form location callee
  | _ =>
      have linked := timed.toLinked
      exact ⟨⟨⟨linked.sorted, linked.given, linked.live, linked.counted⟩, linked.logged, linked.chain⟩,
        timed.newest, timed.innermost⟩

/-- The next frame may be opened: the latest step is that of the call for which it is. -/
structure Calling (name : String) (site : Option Location) (machine : Machine) : Prop where
  expects : machine.Expects name site
  latest : ∃ frame ∈ machine.stack.head?, machine.steps.last = machine.steps.forFrame frame.serial

theorem Timed.calling (timed : machine.Timed) (verbose : Bool) (name : String)
    (site : Option Location) :
    (machine.logStep verbose "Call" site (some name)).Calling name site := by
  refine ⟨machine.expects_logStep verbose name site, ?_⟩
  obtain ⟨frame, callers, opened, _⟩ := timed.innermost
  have innermost : frame ∈ machine.stack.head? := by simp [opened]
  refine ⟨frame, innermost, ?_⟩
  simp only [Machine.logStep, opened, List.head?_cons, Option.map_some]
  exact (machine.steps.record_forFrame_same frame.serial _).symm

theorem Timed.pushFrame (timed : machine.Timed) {name : String} (scope : ScopeId)
    {site : Option Location} (calling : machine.Calling name site) :
    (machine.pushFrame name scope site).Timed where
  toLinked := timed.toLinked.pushFrame scope fun _ => calling.expects
  newest := timed.newest
  innermost := by
    obtain ⟨caller, innermost, latest⟩ := calling.latest
    obtain ⟨frame, callers, opened, _⟩ := timed.innermost
    have unlogged := timed.toOrderly.unlogged
    refine ⟨_, machine.stack, rfl, ?_⟩
    rw [opened] at innermost ⊢
    cases innermost
    refine ⟨fun step logged => ?_, fun _ => latest⟩
    cases unlogged.symm.trans logged

/-- A frame that is closed leaves its caller with the step of the call: it is the latest of all if
the frame has logged nothing, and older than the latest if it has. -/
theorem Timed.closeFrame {frame caller : Frame} {callers : List Frame} (timed : machine.Timed)
    (opened : machine.stack = frame :: caller :: callers) :
    (machine.closeFrame frame.serial).Timed where
  toLinked := timed.toLinked.closeFrame opened
  newest entry member := timed.newest entry (List.mem_filter.mp member).1
  innermost := by
    have closed : (machine.closeFrame frame.serial).stack = caller :: callers := by
      rw [Machine.closeFrame, opened, List.tail_cons]
    have chain := timed.chain
    rw [opened] at chain
    obtain ⟨step, called, calls, precedes⟩ := (List.isChain_cons_cons.mp chain).1 id
    have kept := timed.toOrderly.forget_outer opened caller List.mem_cons_self
    have follows : frame.Follows machine.steps (caller :: callers) := by
      obtain ⟨innermost, others, same, follows⟩ := timed.innermost
      rw [opened] at same
      cases same
      exact follows
    have trails : machine.steps.Trails step := by
      cases logged : machine.steps.forFrame frame.serial with
      | none => exact .inl ((follows.entered logged).trans called)
      | some own =>
          obtain ⟨later, last, isOwn | older⟩ := timed.older logged
          · exact .inr ⟨calls.form, later, last, isOwn ▸ precedes own logged⟩
          · exact .inr ⟨calls.form, later, last, Nat.lt_trans (precedes own logged) older⟩
    have found : (machine.closeFrame frame.serial).steps.forFrame caller.serial = some step :=
      kept.trans called
    exact ⟨caller, callers, closed, Frame.follows_of_trails callers found trails⟩

/-- The state is timed, and its stack is what it was. -/
structure TimedAs (base machine : Machine) : Prop extends Timed machine where
  stack : machine.stack = base.stack

theorem TimedAs.opens {base before : Machine} (timed : TimedAs base before) (name : String)
    (scope : ScopeId) (site : Option Location) (calling : before.Calling name site) :
    before.Opens (fun _ => Timed) TimedAs base name scope site := by
  refine ⟨before.pushFrame name scope site, ⟨timed.pushFrame scope calling, rfl⟩, fun _ => id, ?_⟩
  intro machine closing inside
  obtain ⟨caller, callers, opened, _⟩ := timed.innermost
  have stack : machine.stack = ⟨name, scope, before.nextSerial, site⟩ :: caller :: callers :=
    inside.stack.trans (congrArg _ opened)
  rw [close_innermost inside.stack closing]
  refine ⟨inside.toTimed.closeFrame stack, ?_⟩
  rw [Machine.closeFrame, stack, List.tail_cons]
  exact opened.symm.trans timed.stack

end Machine

/-- Whatever is evaluated in an open frame leaves the stack as it was, and timed. -/
def Standing.timed (setting : Setting) : Standing setting where
  toDomain := Goodness.all.domain setting True
  Index := Machine
  through _ := Machine.Timed
  ends := Machine.TimedAs
  ready := Machine.Calling
  passable _ _ := Machine.TimedAs.toTimed
  found _ _ := trivial
  unused _ := trivial
  minor timed minor := ⟨timed.adjust minor, minor.frames.1.trans timed.stack⟩
  anywhere _ := trivial
  bound {_ before scope name _} timed _ _ :=
    have adjustment : before.Adjustment (fun _ => True) _ := .binding scope name trivial
    ⟨timed.adjust adjustment, timed.stack⟩
  called verbose name site timed := timed.calling verbose name site
  frame name scope site timed calling := timed.opens name scope site calling
  quiet := setting.quiet_of_false
  breakable := Goodness.all.domain_breakable setting True
  texts _ _ _ _ _ _ := trivial

/-- Whether a call leaves the host's own frames alone. -/
def HostCall.leavesFrames : HostCall → Bool
  | run _ | pushFrame .. | unwind _ => false
  | _ => true

section Hosts

variable {setting : Setting} {machine : Machine}

theorem HostCall.timed {call : HostCall} (leaves : call.leavesFrames = true)
    (timed : machine.Timed) :
    (call.perform setting machine).Meets Machine.Timed (fun _ => machine.TimedAs)
      (fun _ => machine.TimedAs) := by
  have fits : call.Fits (.timed setting) := by
    cases call with
    | run | pushFrame | unwind => cases leaves
    | _ => simp [HostCall.Fits, Standing.timed, Goodness.domain, Goodness.all]
  have holds := (Standing.timed setting).performs
    (fun _ _ _ => Goodness.all.admits (Script.obeysAll _ _)) call fits
  exact (holds machine machine ⟨timed, rfl⟩).leads (fun _ _ => And.left) fun _ _ => And.left

/-- The states of a program that runs in a fresh top-level frame. -/
abbrev Machine.Running (setting : Setting) : Machine → Prop :=
  Machine.Reaches setting (fun call => call.leavesFrames = true) (Machine.initial setting).opened

theorem Machine.Running.timed (running : machine.Running setting) : machine.Timed := by
  refine running.keeps (Machine.timed_opened setting) ?_
  intro call before leaves timed
  have meets : (call.perform setting before).Meets Machine.Timed (fun _ => before.TimedAs)
      fun _ => before.TimedAs := HostCall.timed leaves timed
  exact ⟨meets.passing, (meets.leads (fun _ _ => (·.toTimed)) fun _ _ => (·.toTimed)).last⟩

theorem Course.meets_machine {α : Type} (course : Course α) :
    course.Meets course.passes (fun _ after => after = course.machine)
      fun _ after => after = course.machine where
  passing _ := id
  done _ _ ended := by simp only [Course.machine, ended]
  broken _ _ ended := by simp only [Course.machine, ended]

/-- A run executes its text in a fresh top-level frame. -/
theorem run_running (text : String) :
    (setting.run text (.initial setting)).Keeps
      fun machine => machine.stack = [] ∨ machine.Running setting := by
  let opened := (Machine.initial setting).opened
  let call : HostCall := .execute depthLimit text 0
  have timed : (call.perform setting opened).Meets Machine.Timed (fun _ => opened.TimedAs)
      fun _ => opened.TimedAs := HostCall.timed rfl (Machine.timed_opened setting)
  have last : (call.perform setting opened).machine.Running setting := .ending call .start rfl
  have closes : ∀ after : Machine, after.stack = opened.stack →
      (after.close 0 .unwinding).stack = [] := by
    intro after same
    have closed : after.close 0 .unwinding = after.closeFrame 0 :=
      Machine.close_innermost same .unwinding
    rw [closed, Machine.closeFrame, same]
    rfl
  have ends : ∀ after : Machine,
      after = (call.perform setting opened).machine ∧ opened.TimedAs after →
      after.Running setting ∧ (after.close 0 .unwinding).stack = [] := by
    rintro after ⟨rfl, timed⟩
    exact ⟨last, closes _ timed.stack⟩
  have executed := ((call.perform setting opened).meets_machine.and timed).weaken
    (fun machine passed => (.inr (.passing call .start rfl passed.1) :
      machine.stack = [] ∨ machine.Running setting))
    (fun _ => ends) fun _ => ends
  refine .changing (.inl rfl) (.inl rfl) (.changing (.inl rfl) (.inr .start) ?_)
  refine .bind (.recover executed fun fault after ended => ?_) fun result after ended => ?_
  · exact .modifying (.inr ended.1) (.inl ended.2) (.reraise (.inl ended.2) (.inl ended.2))
  · exact .modifying (.inr ended.1) (.inl ended.2) (.pure (.inl ended.2) (.inl ended.2))

end Hosts

/-- A failure has the place and the step number that an open call shows for the innermost frame; if
nothing was logged in the frame, these are the place and the number of the step that called it. -/
structure Failure.Agrees (failure : Failure) (log : StepLog) (frame : Frame) (call : OpenCall) :
    Prop where
  location : failure.location = call.location
  step : ∀ step, call.step = some step → failure.step = some step.index
  entered : call.step = none → ∀ step, log.last = some step →
    step.Calls frame ∧ failure.step = some step.index

/-- A failure has the place and the number of a step that was logged later than the one that an open
call shows, in a function that was called there and has ended. -/
def Failure.Overtakes (failure : Failure) (log : StepLog) (call : OpenCall) : Prop :=
  ∃ step later, call.step = some step ∧ step.form = "Call" ∧ log.last = some later ∧
    failure.location = later.location ∧ failure.step = some later.index ∧ step.index < later.index

theorem Machine.Timed.stamps {machine : Machine} (timed : machine.Timed) (message : String)
    (origin : Option String) :
    ∃ frame call, machine.stack.head? = some frame ∧
      (machine.failure message origin).calls.getLast? = some call ∧ call.name = frame.name ∧
      ((machine.failure message origin).Agrees machine.steps frame call ∨
        (machine.failure message origin).Overtakes machine.steps call) := by
  obtain ⟨frame, callers, opened, follows⟩ := timed.innermost
  have innermost : machine.stack.head? = some frame := by simp [opened]
  have stamped : ∀ step, machine.steps.last = some step →
      (machine.failure message origin).location = step.location ∧
        (machine.failure message origin).step = some step.index := by
    intro step latest
    simp [Machine.failure, latest]
  cases logged : machine.steps.forFrame frame.serial with
  | some step =>
      refine ⟨frame, ⟨frame.name, step.location, some step⟩, innermost, ?_, rfl, ?_⟩
      · simp [Machine.failure, Machine.openCalls, MonkeyLang.openCalls, opened, logged]
      · rcases follows.trails step logged with latest | ⟨form, later, latest, older⟩
        · obtain ⟨location, index⟩ := stamped step latest
          exact .inl ⟨location, fun _ same => Option.some.inj same ▸ index, nofun⟩
        · obtain ⟨location, index⟩ := stamped later latest
          exact .inr ⟨step, later, rfl, form, latest, location, index, older⟩
  | none =>
      refine ⟨frame, ⟨frame.name, frame.site, none⟩, innermost, ?_, rfl, .inl ?_⟩
      · simp [Machine.failure, Machine.openCalls, MonkeyLang.openCalls, opened, logged]
      · cases callers with
        | nil =>
            obtain ⟨latest, site⟩ := follows.entered logged
            have nowhere : (machine.failure message origin).location = frame.site := by
              simp [Machine.failure, latest, site]
            exact ⟨nowhere, nofun, fun _ step same => nomatch latest.symm.trans same⟩
        | cons caller others =>
            have chain := timed.chain
            rw [opened] at chain
            obtain ⟨step, called, calls, _⟩ := (List.isChain_cons_cons.mp chain).1 id
            have latest := (follows.entered logged).trans called
            obtain ⟨location, index⟩ := stamped step latest
            refine ⟨location.trans calls.location, nofun, fun _ other same => ?_⟩
            cases latest.symm.trans same
            exact ⟨calls, index⟩

/-- In a program that runs in a fresh top-level frame, a failure has the place and the number of the
latest step of the frame that is innermost at that moment, unless that step is a call of a function
that has logged steps of its own and ended: then it has the place and the number of a later step. -/
theorem failures_stamped (setting : Setting) (machine : Machine)
    (running : machine.Running setting ∨
      ∃ text, (setting.run text (.initial setting)).passes machine ∧ machine.stack ≠ [])
    (message : String) (origin : Option String) :
    ∃ frame call, machine.stack.head? = some frame ∧
      (machine.failure message origin).calls.getLast? = some call ∧ call.name = frame.name ∧
      ((machine.failure message origin).Agrees machine.steps frame call ∨
        (machine.failure message origin).Overtakes machine.steps call) := by
  have timed : machine.Timed := by
    rcases running with running | ⟨text, passed, opened⟩
    · exact running.timed
    · rcases (run_running text).passing machine passed with closed | running
      · exact absurd closed opened
      · exact running.timed
  exact timed.stamps message origin

/-- A statement of the top level has run, and its frame is still open. -/
theorem failures_stamped_in_statement :
    let setting : Setting := ⟨"<string>", false, Builtin.core, .none⟩
    let machine := ((HostCall.execute 5 "1" 0).perform setting (Machine.initial setting).opened).machine
    ∃ frame call, machine.stack.head? = some frame ∧
      (machine.failure "message" none).calls.getLast? = some call ∧ call.name = frame.name ∧
      ((machine.failure "message" none).Agrees machine.steps frame call ∨
        (machine.failure "message" none).Overtakes machine.steps call) :=
  failures_stamped _ _ (.inl (.ending (.execute 5 "1" 0) .start rfl)) "message" none

/-- A sum fails at the top level, and is located in the function that was called for its left
operand. -/
theorem failure_located_in_ended_function :
    let setting : Setting := ⟨"<string>", false, Builtin.core, .none⟩
    ∃ failure call after,
      (setting.run "let f = fn() { 1 };\nf() + true" (.initial setting)).ending =
        .ok (some (.failed failure)) after ∧
      failure.calls.getLast? = some call ∧ call.name = topLevel ∧
      failure.location = some ⟨"<string>", 1, 16, "let f = fn() { 1 };"⟩ ∧
      call.location = some ⟨"<string>", 2, 2, "f() + true"⟩ ∧
      failure.step ≠ call.step.map (·.index) := by
  intro setting
  exact ⟨_, _, _, rfl, rfl, rfl, rfl, rfl, by decide⟩

end MonkeyLang
