import MonkeyLang.Extension.Behaviour
import MonkeyLang.Proofs.Calls
import MonkeyLang.Proofs.Evaluation.Tracing

namespace MonkeyLang

/-! # Faults keep the calls that were open

A fault of a run takes the open calls with it before the first frame is closed on its way out.  Any
other fault becomes one of a run only where the text ends, when the frames of the text's calls are
closed, so that it keeps the calls around the text and may lose those inside.
-/

namespace Machine

variable {machine : Machine}

theorem openCalls_length (machine : Machine) : machine.openCalls.length = machine.stack.length := by
  simp [openCalls, MonkeyLang.openCalls]

theorem openCalls_closeFrame {frame : Frame} {frames : List Frame} (orderly : machine.Orderly)
    (opened : machine.stack = frame :: frames) :
    (machine.closeFrame frame.serial).openCalls <+: machine.openCalls := by
  have others := orderly.forget_outer opened
  unfold openCalls closeFrame MonkeyLang.openCalls
  rw [opened, List.tail_cons, List.reverse_cons, List.map_append]
  refine ⟨_, congrArg (· ++ _) (List.map_congr_left fun other member => ?_)⟩
  rw [others other (List.mem_reverse.mp member)]

end Machine

namespace Origin

variable {origin : Origin} {fault : Fault} {failure : Failure} {machine : Machine}

/-- No calls came with the fault, and it was not raised when the end of a text was announced. -/
structure Fresh (origin : Origin) : Prop where
  bare : ∀ failure, origin.fault = .runtime failure → failure.calls = []
  failing : origin.cause ≠ .hook .onError
  ending : origin.cause ≠ .hook .programEnd

/-- A failure has the outer calls of its origin, among them all those that are still open; and all
calls if its origin is a fault of the run. -/
structure Captured (origin : Origin) (failure : Failure) (machine : Machine) : Prop where
  outer : failure.calls <+: origin.machine.openCalls
  enough : machine.stack.length ≤ failure.calls.length
  whole : ∀ raised, origin.fault = .runtime raised → failure.calls = origin.machine.openCalls

/-- What a fault on its way out has of its origin: it captured the calls, or it still finds them, as
far as frames were not closed for a fault that captures nothing. -/
inductive Leads (origin : Origin) : Fault → Machine → Prop
  | captured {failure : Failure} {machine : Machine} (captured : origin.Captured failure machine) :
      Leads origin (.runtime failure) machine
  | bare {fault : Fault} {machine : Machine}
      (empty : ∀ failure, fault = .runtime failure → failure.calls = [])
      (outer : machine.openCalls <+: origin.machine.openCalls)
      (whole : ∀ raised, origin.fault = .runtime raised →
        (∃ failure, fault = .runtime failure) ∧ machine.openCalls = origin.machine.openCalls) :
      Leads origin fault machine

theorem Fresh.leads {cause : Cause} (fresh : Fresh ⟨cause, fault, machine⟩) :
    Leads ⟨cause, fault, machine⟩ fault machine :=
  .bare fresh.bare List.prefix_rfl fun raised same => ⟨⟨raised, same⟩, rfl⟩

theorem Captured.of_calls {other : Failure} {later : Machine} (captured : origin.Captured failure machine)
    (same : other.calls = failure.calls) (shorter : later.stack.length ≤ machine.stack.length) :
    origin.Captured other later where
  outer := same ▸ captured.outer
  enough := same ▸ Nat.le_trans shorter captured.enough
  whole raised isRun := same.trans (captured.whole raised isRun)

/-- Where all calls are closed there is nothing to capture. -/
theorem Captured.openCalls (captured : origin.Captured failure machine)
    (empty : failure.calls = []) : machine.openCalls = failure.calls := by
  have enough := captured.enough
  rw [empty, ← machine.openCalls_length] at enough
  rw [empty]
  exact List.length_eq_zero_iff.mp (Nat.le_zero.mp enough)

/-- A fault of the run that has no calls yet takes the open ones. -/
theorem Leads.runtime (leads : origin.Leads (.runtime failure) machine) {other : Failure}
    (calls : other.calls = if failure.calls.isEmpty then machine.openCalls else failure.calls) :
    origin.Captured other machine := by
  cases leads with
  | captured captured =>
      refine captured.of_calls ?_ (Nat.le_refl _)
      rw [calls]
      split
      · exact captured.openCalls (List.isEmpty_iff.mp ‹_›)
      · rfl
  | bare empty outer whole =>
      rw [if_pos (List.isEmpty_iff.mpr (empty failure rfl))] at calls
      exact ⟨calls ▸ outer, by rw [calls, machine.openCalls_length],
        fun raised isRun => calls.trans (whole raised isRun).2⟩

theorem Leads.foreign (leads : origin.Leads fault machine)
    (foreign : ∀ failure, fault ≠ .runtime failure) (calls : failure.calls = machine.openCalls) :
    origin.Captured failure machine := by
  cases leads with
  | captured captured => exact absurd rfl (foreign _)
  | bare empty outer whole =>
      refine ⟨calls ▸ outer, by rw [calls, machine.openCalls_length], fun raised isRun => ?_⟩
      obtain ⟨⟨failure, same⟩, _⟩ := whole raised isRun
      exact absurd same (foreign failure)

theorem Leads.close {frame : Frame} {frames : List Frame} (leads : origin.Leads fault machine)
    (orderly : machine.Orderly) (opened : machine.stack = frame :: frames) :
    origin.Leads (Eval.capture machine fault) (machine.closeFrame frame.serial) := by
  have shorter : (machine.closeFrame frame.serial).stack.length ≤ machine.stack.length := by
    simp [Machine.closeFrame]
  have outer := Machine.openCalls_closeFrame orderly opened
  by_cases isRun : ∃ failure, fault = .runtime failure
  -- A fault of the run has taken the calls by now; any other one only finds those that are left.
  · obtain ⟨failure, rfl⟩ := isRun
    refine .captured (Captured.of_calls (leads.runtime ?_) rfl shorter)
    split <;> rfl
  · have unchanged : Eval.capture machine fault = fault := by
      cases fault with
      | runtime failure => exact absurd ⟨failure, rfl⟩ isRun
      | _ => rfl
    rw [unchanged]
    cases leads with
    | captured captured => exact absurd ⟨_, rfl⟩ isRun
    | bare empty found whole =>
        exact .bare empty (outer.trans found) fun raised isRaised =>
          absurd (whole raised isRaised).1 isRun

end Origin

namespace Eval

variable {setting : Setting} {α : Type} {post : α → Prop}

/-- Started with the stack as it is, an evaluation ends with it, and a fault that ends it keeps what
it has of its origins. -/
def Preserves (post : α → Prop) (action : Eval α) : Prop :=
  ∀ base before, Machine.Balanced base before →
    (action before).Traces Origin.none (fun result after => Machine.Balanced base after ∧ post result)
      fun origin fault after => Machine.Balanced base after ∧ (origin.Fresh → origin.Leads fault after)

namespace Preserves

def rules (setting : Setting) : Rules setting where
  toDomain := Goodness.all.domain setting True
  known _ := True
  Holds := Preserves
  found _ _ := trivial
  unused _ := trivial
  pure given := fun _ _ balanced => .pure ⟨balanced, given⟩
  bind holds rest := fun base before balanced =>
    (holds base before balanced).bind fun result between ended =>
      rest result ended.2 base between ended.1
  weaken holds weaker := fun base before balanced =>
    (holds base before balanced).leads (fun result _ ended => ⟨ended.1, weaker result ended.2⟩)
      fun _ _ _ => id
  raise _ _ _ := fun _ _ balanced => .raise ⟨balanced, Origin.Fresh.leads⟩
  attempt _ holds := fun base before balanced => (holds base before balanced).attempt
    fun _ _ _ isCaught ended => ⟨ended.1, isCaught, False.elim, fun _ _ => trivial⟩
  get := fun _ _ balanced => .get ⟨balanced, trivial⟩
  note _ := fun _ _ balanced => .note ⟨balanced, trivial⟩
  change minor given := fun _ before balanced =>
    .change ⟨Invariant.frames.adjust balanced (minor before).adjustment, given before trivial⟩
  anywhere _ := trivial
  bound _ _ := fun _ _ balanced =>
    .modifies ⟨Invariant.frames.adjust balanced (.binding _ _ trivial), trivial⟩
  quiet := setting.quiet_of_false

/-- The calls are captured before the frame is closed. -/
theorem inFrame {body : Eval α} (name : String) (scope : ScopeId) (site : Option Location)
    (holds : Preserves post body) : Preserves post (Eval.inFrame name scope site body) := by
  intro base before balanced
  let pushed := before.pushFrame name scope site
  have opened : Machine.Balanced pushed pushed :=
    (balanced.orderly.pushFrame name scope site).balanced
  have closes : ∀ machine, Machine.Balanced pushed machine →
      Machine.Balanced base (machine.closeFrame before.nextSerial) := fun machine inside =>
    balanced.close name scope site .innermost inside
  have captured : (Eval.recover body
      (fun fault => do reraise (capture (← MonadState.get) fault)) pushed).Traces Origin.none
      (fun result after => Machine.Balanced pushed after ∧ post result)
      fun origin fault after => Machine.Balanced pushed after ∧ (origin.Fresh →
        origin.Leads fault (after.closeFrame before.nextSerial)) := by
    refine .recover (holds pushed pushed opened) fun given fault between come leads => ?_
    refine .look (.reraise come fun origin isGiven => ?_)
    obtain ⟨inside, leads⟩ := leads origin isGiven
    exact ⟨inside, fun fresh => (leads fresh).close inside.orderly inside.stack⟩
  refine .changing (.bind (.recover captured fun given fault between come leads => ?_) ?_)
  · refine .modifying (.reraise come fun origin isGiven => ?_)
    exact ⟨closes between (leads origin isGiven).1, (leads origin isGiven).2⟩
  · intro result between ended
    exact .modifying (.pure ⟨closes between ended.1, ended.2⟩)

/-- A hook that is called for an event is the cause of its faults. -/
theorem callHook_cause (hook : Hook) (notice : Notice) (before : Machine) :
    (Eval.callHook hook notice before).Traces Origin.none (fun _ _ => True)
      fun origin _ _ => origin.cause = .hook notice.event := by
  unfold Eval.callHook
  refine .changing ?_
  dsimp only
  cases hook.react (before.circumstance hook) notice with
  | ignore => exact .pure trivial
  | print line => exact .modifies trivial
  | raise fault => exact .raise rfl
  | record =>
      cases notice.details? before.scopes with
      | some details => exact .modifies trivial
      | none => exact .raise rfl

theorem announce_cause (hooks : Hooks) (notice : Notice) (before : Machine) :
    (Eval.announce hooks notice before).Traces Origin.none (fun _ _ => True)
      fun origin _ _ => origin.cause = .hook notice.event := by
  refine .noting ?_
  induction hooks.of notice.event generalizing before with
  | nil => exact .pure trivial
  | cons hook others ih => exact (callHook_cause hook notice before).bind fun _ between _ => ih between

end Preserves

/-- What ends a text has captured the calls, unless the text could not be parsed. -/
def Settles (base : Machine) (origin : Origin) (fault : Fault) (after : Machine) : Prop :=
  Machine.Balanced base after ∧ (origin.Fresh → origin.Leads fault after ∧
    ∀ failure, fault = .runtime failure → origin.Captured failure after)

namespace Preserves

/-- Faults of the hooks that are told of the end of a text do not count. -/
theorem announceEnd {notice : Notice} {given : Origin → Prop} {base before : Machine}
    (ends : notice.event = .onError ∨ notice.event = .programEnd)
    (balanced : Machine.Balanced base before) :
    (Eval.announce setting.hooks notice before).Traces given
      (fun _ after => Machine.Balanced base after) (Settles base) := by
  have preserves : Preserves (fun _ => True) (Eval.announce setting.hooks notice) :=
    (rules setting).announce notice
  have both := (preserves base before balanced).and (announce_cause setting.hooks notice before)
  refine (both.leads (fun _ _ ended => ended.1.1) ?_).own
  rintro origin fault after ⟨⟨ended, _⟩, cause⟩
  refine ⟨ended, fun fresh => ?_⟩
  rcases ends with isError | isEnd
  · exact absurd (isError ▸ cause) fresh.failing
  · exact absurd (isEnd ▸ cause) fresh.ending

theorem abandon {failure : Failure} {given : Origin → Prop} {base before : Machine}
    {done : α → Machine → Prop} (balanced : Machine.Balanced base before)
    (come : ∃ origin, given origin)
    (captured : ∀ origin, given origin → origin.Fresh → origin.Captured (stamp before failure) before) :
    (Eval.abandon setting failure before : Course α).Traces given done (Settles base) := by
  refine .look (.bind (announceEnd (.inl rfl) balanced) fun _ after ended => ?_)
  refine .reraise come fun origin isGiven => ⟨ended, fun fresh => ?_⟩
  have kept : origin.Captured (stamp before failure) after :=
    (captured origin isGiven fresh).of_calls rfl (Nat.le_of_eq (by rw [ended.stack, balanced.stack]))
  refine ⟨.captured kept, ?_⟩
  rintro _ ⟨⟩
  exact kept

theorem settle {body : Eval α} {base before : Machine} (balanced : Machine.Balanced base before)
    (holds : Preserves post body) :
    (Eval.settle setting body before).Traces Origin.none
      (fun result after => Machine.Balanced base after ∧ post result) (Settles base) := by
  refine .recover (holds base before balanced) fun given fault between come leads => ?_
  have still : Machine.Balanced base between := by
    obtain ⟨origin, isGiven⟩ := come
    exact (leads origin isGiven).1
  cases fault with
  | unparsable file errors =>
      refine .reraise come fun origin isGiven => ⟨still, fun fresh => ?_⟩
      exact ⟨(leads origin isGiven).2 fresh, nofun⟩
  | runtime failure =>
      exact abandon still come fun origin isGiven fresh =>
        ((leads origin isGiven).2 fresh).runtime rfl
  | depth =>
      refine .modifying (abandon ?_ come fun origin isGiven fresh => ?_)
      · exact Invariant.frames.adjust still .exhaustion
      · have captured : origin.Captured (stamp between (internal .depth)) between :=
          ((leads origin isGiven).2 fresh).foreign nofun rfl
        exact captured.of_calls rfl (Nat.le_refl _)
  | foreign | digits =>
      exact abandon still come fun origin isGiven fresh =>
        ((leads origin isGiven).2 fresh).foreign nofun rfl

theorem execute {evaluate : Evaluator} (text : String) (scope : ScopeId) {base before : Machine}
    (balanced : Machine.Balanced base before)
    (evaluates : ∀ tree scope, Preserves (fun _ => True) (evaluate tree scope)) :
    (Eval.execute setting evaluate text scope before).Traces Origin.none
      (fun _ after => Machine.Balanced base after) (Settles base) := by
  have holds : Preserves (fun _ => True) (Eval.body setting evaluate text scope) :=
    (rules setting).bind ((rules setting).parse text id) fun program _ =>
      (rules setting).bind ((rules setting).announce _) fun _ _ => evaluates program scope
  have closing : ∀ {between : Machine} (result : Option Value), Machine.Balanced base between →
      ((do
        Eval.announce setting.hooks (.programEnd result)
        return result : Eval (Option Value)) between).Traces Origin.none
        (fun _ after => Machine.Balanced base after) (Settles base) := fun _ balanced =>
    .bind (announceEnd (.inr rfl) balanced) fun _ _ ended => .pure ended
  refine .modifying ?_
  refine .bind (settle (Invariant.frames.adjust balanced (.text _)) holds) fun ending between ended => ?_
  dsimp only
  generalize Eval.textResult ending = result
  cases result with
  | none => exact closing _ ended.1
  | some value =>
      cases value with
      | failed failure =>
          exact .bind (announceEnd (.inl rfl) ended.1) fun _ _ ended => closing _ ended
      | _ => exact closing _ ended.1

theorem executes {evaluate : Evaluator} (text : String) (scope : ScopeId)
    (evaluates : ∀ tree scope, Preserves (fun _ => True) (evaluate tree scope)) :
    Preserves (Result Goodness.all.good) (Eval.execute setting evaluate text scope) :=
  fun _ _ balanced => (execute text scope balanced evaluates).leads
    (fun _ _ ended => ⟨ended, fun _ _ => Goodness.all.admissible trivial⟩)
    fun _ _ _ settles => ⟨settles.1, fun fresh => (settles.2 fresh).1⟩

def regime (setting : Setting) : Regime setting :=
  (rules setting).regime
    (fun name arguments scope site holds => (rules setting).inCall name arguments (some scope) site
      ((rules setting).bind (inFrame name scope site holds) fun outcome given =>
        (rules setting).pure ⟨outcome, rfl, given⟩))
    fun text scope _ evaluates => executes text scope fun tree scope =>
      (rules setting).weaken (evaluates tree scope trivial) fun _ _ => trivial

/-- Whatever builtins do, be it that they run texts. -/
theorem evaluates (setting : Setting) (depth : Nat) (tree : Node) (scope : ScopeId) :
    Preserves (fun _ => True) (evaluate setting depth tree scope) :=
  (rules setting).weaken ((regime setting).evaluates
    (fun _ _ _ => Goodness.all.admits (Script.obeysAll _ _)) depth tree scope trivial)
    fun _ _ => trivial

end Preserves

end Eval

/-- When a text ends with a fault of the run, which had no calls with it when it was raised and was
not raised at the announcement of a failure or of the end: the calls that it shows are the outermost
of those that were open when it was raised, and among them are all that were open around the text.
They are all of those if what was raised was a fault of the run, as those of hooks are, or if it was
raised outside of any function that the text calls. -/
theorem faults_keep_open_calls (setting : Setting) (machine : Machine)
    (reached : Machine.Reaches setting (fun _ => True) (.initial setting) machine)
    (depth : Nat) (text : String) (scope : ScopeId) {failure : Failure} {after : Machine}
    (ended : (Eval.execute setting (evaluate setting depth) text scope machine).ending =
      .error (.runtime failure) after) :
    let course := Eval.execute setting (evaluate setting depth) text scope machine
    (∃ origin, course.raised origin) ∧
      ∀ origin, course.raised origin → origin.Fresh →
        failure.calls <+: origin.machine.openCalls ∧
        machine.stack.length ≤ failure.calls.length ∧
        ((∃ raised, origin.fault = .runtime raised) ∨
            origin.machine.stack.length = machine.stack.length →
          failure.calls = origin.machine.openCalls) := by
  intro course
  have orderly := (reached.underway (Machine.orderly_initial setting)).orderly
  have traces : course.Traces Origin.none _ (Eval.Settles machine) :=
    Eval.Preserves.execute text scope orderly.balanced (Eval.Preserves.evaluates setting depth)
  constructor
  · obtain ⟨origin, come⟩ := traces.traced _ _ ended
    exact ⟨origin, Course.Traces.from_none.mp come⟩
  · intro origin raised fresh
    have settles := traces.broken _ _ origin ended (Course.Traces.from_none.mpr raised)
    have captured := (settles.2 fresh).2 failure rfl
    have enough := captured.enough
    rw [settles.1.stack] at enough
    refine ⟨captured.outer, enough, ?_⟩
    rintro (⟨fault, isRun⟩ | same)
    · exact captured.whole fault isRun
    · refine captured.outer.eq_of_length_le ?_
      rw [origin.machine.openCalls_length, same]
      exact enough

/-- `fn() { boom() }` -/
def Value.boomCaller : Value :=
  let token : Token := ⟨.identifier, "boom", 1, 1⟩
  .function 0 [] ⟨token, [.call token (.identifier ⟨token, "boom"⟩) []]⟩ 0

/-- At the top level `f` is bound to a function that calls `boom`. -/
def Machine.callingBoom (setting : Setting) : Machine :=
  let opened := ((HostCall.newScope none).perform setting (.initial setting)).machine
  let pushed := ((HostCall.pushFrame topLevel 0 none).perform setting opened).machine
  ((HostCall.bind 0 "f" .boomCaller).perform setting pushed).machine

/-- A builtin raises a fault of the run in a function, and both calls are kept. -/
theorem faults_keep_open_calls_in_function :
    let setting : Setting :=
      ⟨"<string>", false, [(Behaviour.fault "bad").builtin "boom" ⟨0, some 0⟩], .none⟩
    let machine := Machine.callingBoom setting
    let course := Eval.execute setting (evaluate setting 5) "f()" 0 machine
    ∃ failure after origin, course.ending = .error (.runtime failure) after ∧ course.raised origin ∧
      failure.calls = origin.machine.openCalls ∧ failure.calls.map (·.name) = [topLevel, "f"] := by
  intro setting machine course
  have reached : Machine.Reaches setting (fun _ => True) (.initial setting) machine :=
    .ending (.bind 0 "f" .boomCaller)
      (.ending (.pushFrame topLevel 0 none) (.ending (.newScope none) .start trivial) trivial) trivial
  have ended : course.ending = .error (.runtime _) _ := rfl
  have raised : course.raised ⟨.builtin, .runtime (.bare "bad" (some "boom")), _⟩ :=
    .inr ⟨.inr ⟨.inr ⟨rfl, fun _ => id⟩, fun _ => id⟩, fun _ => id⟩
  have fresh : ∀ machine, Origin.Fresh ⟨.builtin, .runtime (.bare "bad" (some "boom")), machine⟩ := by
    refine fun machine => ⟨?_, nofun, nofun⟩
    rintro _ ⟨⟩
    rfl
  have kept := (faults_keep_open_calls setting machine reached 5 "f()" 0 ended).2 _ raised
    (fresh _)
  exact ⟨_, _, _, ended, raised, kept.2.2 (.inl ⟨_, rfl⟩), rfl⟩

/-- A builtin raises an error that knows nothing of runs there, and the call of the function is
lost. -/
theorem foreign_fault_loses_open_call :
    let setting : Setting :=
      ⟨"<string>", false, [(Behaviour.raise "bad").builtin "boom" ⟨0, some 0⟩], .none⟩
    let machine := Machine.callingBoom setting
    let course := Eval.execute setting (evaluate setting 5) "f()" 0 machine
    ∃ failure after origin, course.ending = .error (.runtime failure) after ∧ course.raised origin ∧
      origin.machine.openCalls.map (·.name) = [topLevel, "f"] ∧
      failure.calls.map (·.name) = [topLevel] := by
  intro setting machine course
  have ended : course.ending = .error (.runtime _) _ := rfl
  have raised : course.raised ⟨.builtin, .foreign .value "bad", _⟩ :=
    .inr ⟨.inr ⟨.inr ⟨rfl, fun _ => id⟩, fun _ => id⟩, fun _ => id⟩
  exact ⟨_, _, _, ended, raised, rfl, rfl⟩

end MonkeyLang
