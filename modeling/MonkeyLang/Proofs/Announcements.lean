import MonkeyLang.Proofs.Events
import MonkeyLang.Proofs.Faults
import MonkeyLang.Proofs.Safety

namespace MonkeyLang

/-! # Faults are stamped and announced

A fault that ends a text names the latest step that had been logged when it was raised, and every hook
that listens for errors is told of it once.  Both is done where the body of a text ends, so that it
does not happen for a fault of the hooks that are told of the end of a text: they are called behind
that.
-/

theorem Script.Plain.runsNoText {good : Value → Prop} {silent : Prop} {script : Script}
    (plain : script.Plain good silent) : script.RunsNoText := by
  induction script with
  | give | fail => trivial
  | create make next ih => exact fun id => ih (make id) (plain id)
  | print line next ih => exact ih plain
  | raise | apply | execute | define | inspect => exact plain.elim

/-- Every hook of an event is counted under a number of its own. -/
structure Hooks.Numbered (hooks : Hooks) : Prop where
  within : ∀ {event}, ∀ hook ∈ hooks.of event, hook.serial < hooks.count
  once : ∀ {event}, ∀ hook ∈ hooks.of event, ∀ other,
    ((hooks.of other).map (·.serial)).count hook.serial = if other = event then 1 else 0

namespace Hooks

variable {hooks : Hooks}

theorem numbered_none : Hooks.none.Numbered :=
  ⟨fun _ impossible => (nomatch impossible), fun _ impossible => (nomatch impossible)⟩

theorem place_perm (hook : Hook) (others : List Hook) : (place hook others).Perm (hook :: others) := by
  induction others with
  | nil => exact .refl _
  | cons other others ih =>
      unfold place
      split
      · exact .refl _
      · exact (ih.cons other).trans (.swap hook other others)

/-- Registered hooks are numbered in the order of their registration. -/
theorem Numbered.add (numbered : hooks.Numbered) (event : Event) (extension : String) (priority : Int)
    (react : Circumstance → Notice → Reaction) :
    (hooks.add event extension priority react).Numbered := by
  have unused : ∀ other, ((hooks.of other).map (·.serial)).count hooks.count = 0 := by
    intro other
    refine List.count_eq_zero.mpr fun taken => ?_
    obtain ⟨hook, member, same⟩ := List.mem_map.mp taken
    exact Nat.lt_irrefl _ (same ▸ numbered.within hook member)
  have counts : ∀ other serial,
      (((hooks.add event extension priority react).of other).map (·.serial)).count serial =
        ((hooks.of other).map (·.serial)).count serial +
          if other = event ∧ hooks.count = serial then 1 else 0 := by
    intro other serial
    simp only [Hooks.add]
    split
    · rename_i same
      rw [((place_perm _ _).map _).count_eq, List.map_cons, List.count_cons]
      simp [same]
    · rename_i different
      simp [different]
  have members : ∀ {other hook}, hook ∈ (hooks.add event extension priority react).of other →
      (other = event ∧ hook.serial = hooks.count) ∨ hook ∈ hooks.of other := by
    intro other hook member
    simp only [Hooks.add] at member
    split at member
    · rename_i same
      rcases List.mem_cons.mp ((place_perm _ _).mem_iff.mp member) with rfl | old
      · exact .inl ⟨same, rfl⟩
      · exact .inr old
    · exact .inr member
  refine ⟨fun {listened} hook member => ?_, fun {listened} hook member other => ?_⟩
  · rcases members member with ⟨_, new⟩ | old
    · exact new ▸ Nat.lt_succ_self _
    · exact Nat.lt_succ_of_lt (numbered.within hook old)
  · rw [counts]
    rcases members member with ⟨rfl, new⟩ | old
    · rw [new, unused]
      simp
    · have older := numbered.within hook old
      have different : ¬ (other = event ∧ hooks.count = hook.serial) := by omega
      rw [numbered.once hook old, if_neg different, Nat.add_zero]

end Hooks

namespace Machine

variable {machine : Machine} {hook : Hook} {serial : Nat}

/-- How often the hook with a serial number was called. -/
def timesCalled (machine : Machine) (serial : Nat) : Nat :=
  machine.hookCalls.getD serial 0

theorem hookCall_size : (machine.hookCall hook).hookCalls.size = machine.hookCalls.size :=
  Array.size_modify

theorem timesCalled_hookCall (counted : serial < machine.hookCalls.size) :
    (machine.hookCall hook).timesCalled serial =
      machine.timesCalled serial + if hook.serial = serial then 1 else 0 := by
  simp only [timesCalled, hookCall, Array.getD_eq_getD_getElem?, Array.getElem?_modify,
    Array.getElem?_eq_getElem counted]
  split <;> rfl

/-- Some hooks were called in between, each as often as its number is among the given ones. -/
structure Called (serials : List Nat) (before after : Machine) : Prop where
  size : after.hookCalls.size = before.hookCalls.size
  times : ∀ serial < before.hookCalls.size,
    after.timesCalled serial = before.timesCalled serial + serials.count serial

/-- No hook was called in between. -/
theorem Called.none {before after : Machine} (same : after.hookCalls = before.hookCalls) :
    Called [] before after :=
  ⟨congrArg _ same, fun serial _ => congrArg (·.getD serial 0) same⟩

theorem Called.append {first second : List Nat} {before between after : Machine}
    (called : Called first before between) (later : Called second between after) :
    Called (first ++ second) before after where
  size := later.size.trans called.size
  times serial counted := by
    rw [later.times serial (called.size ▸ counted), called.times serial counted, List.count_append,
      Nat.add_assoc]

theorem Called.quiet {serials : List Nat} {before between after : Machine}
    (called : Called serials before between) (same : after.hookCalls = between.hookCalls) :
    Called serials before after := by
  simpa only [List.append_nil] using called.append (.none same)

theorem called_hookCall : Called [hook.serial] machine (machine.hookCall hook) where
  size := hookCall_size
  times serial counted := by
    rw [timesCalled_hookCall counted, List.count_singleton]
    simp only [beq_iff_eq]

end Machine

open Machine (Called)

namespace Eval

variable {setting : Setting} {notice : Notice}

/-- What a hook does when it is called calls no hooks. -/
theorem callHook_calls (hook : Hook) (notice : Notice) (before : Machine) :
    (Eval.callHook hook notice before).Meets (fun _ => True)
      (fun _ after => Called [hook.serial] before after)
      (fun _ after => Called [hook.serial] before after) := by
  unfold Eval.callHook
  refine .changing trivial trivial ?_
  dsimp only
  cases hook.react (before.circumstance hook) notice with
  | ignore => exact .pure trivial Machine.called_hookCall
  | print line => exact .modifies trivial trivial (Machine.called_hookCall.quiet rfl)
  | raise fault => exact .raise trivial Machine.called_hookCall
  | record =>
      cases notice.details? before.scopes with
      | some details =>
          exact .modifies trivial trivial (Machine.called_hookCall.quiet rfl)
      | none => exact .raise trivial Machine.called_hookCall

/-- Hooks are called one after the other, each in the state that the one before it left, and none behind one
that raises a fault. -/
inductive Calling (notice : Notice) : List Hook → Machine → Except Fault Unit → Machine → Prop
  | none {machine : Machine} : Calling notice [] machine (.ok ()) machine
  | raised {hook : Hook} {before after : Machine} {fault : Fault}
      (raises : (callHook hook notice before).ending = .error fault after) :
      Calling notice [hook] before (.error fault) after
  | next {hook : Hook} {others : List Hook} {before between after : Machine}
      {outcome : Except Fault Unit}
      (passes : (callHook hook notice before).ending = .ok () between)
      (further : Calling notice others between outcome after) :
      Calling notice (hook :: others) before outcome after

theorem callHooks_cons (hook : Hook) (others : List Hook) (notice : Notice) (before : Machine) :
    (callHooks (hook :: others) notice before).ending =
      match (callHook hook notice before).ending with
      | .ok () between => (callHooks others notice between).ending
      | .error fault after => .error fault after := by
  change (Eval.andThen (callHook hook notice) (fun _ => callHooks others notice) before).ending = _
  unfold Eval.andThen
  obtain ⟨ending, passes, raised⟩ := callHook hook notice before
  cases ending <;> rfl

/-- All hooks are called in their order, or those up to the first that raises a fault. -/
theorem callHooks_calling (hooks : List Hook) (notice : Notice) (before : Machine) :
    let course := callHooks hooks notice before
    ∃ called, called <+: hooks ∧ Calling notice called before course.outcome course.machine ∧
      (course.outcome = .ok () → called = hooks) := by
  induction hooks generalizing before with
  | nil => exact ⟨[], List.prefix_refl [], .none, fun _ => rfl⟩
  | cons hook others ih =>
      dsimp only [Course.outcome, Course.machine] at ih ⊢
      rw [callHooks_cons]
      cases ran : (callHook hook notice before).ending with
      | error fault after => exact ⟨[hook], ⟨others, rfl⟩, .raised ran, nofun⟩
      | ok _ between =>
          obtain ⟨called, isPrefix, calling, all⟩ := ih between
          refine ⟨hook :: called, List.cons_prefix_cons.mpr ⟨rfl, isPrefix⟩, .next ran calling, ?_⟩
          exact fun ended => congrArg _ (all ended)

theorem Calling.counted {notice : Notice} {called : List Hook} {before after : Machine}
    {outcome : Except Fault Unit} (calling : Calling notice called before outcome after) :
    Called (called.map (·.serial)) before after := by
  induction calling with
  | none => exact .none rfl
  | raised raises => exact (callHook_calls _ notice _).broken _ _ raises
  | next passes _ ih => exact ((callHook_calls _ notice _).done _ _ passes).append ih

/-- All hooks are called, unless one of them raises a fault. -/
theorem callHooks_calls (hooks : List Hook) (notice : Notice) (before : Machine) :
    (Eval.callHooks hooks notice before).Meets (fun _ => True)
      (fun _ after => Called (hooks.map (·.serial)) before after)
      (fun _ after => ∃ called, called <+: hooks.map (·.serial) ∧ Called called before after) := by
  obtain ⟨called, isPrefix, calling, all⟩ := callHooks_calling hooks notice before
  have counted := calling.counted
  refine ⟨fun _ _ => trivial, fun _ after ended => ?_, fun fault after ended => ?_⟩
  · have finished : called = hooks := all (by rw [Course.outcome, ended])
    rw [Course.machine, ended, finished] at counted
    exact counted
  · rw [Course.machine, ended] at counted
    exact ⟨called.map (·.serial), isPrefix.map _, counted⟩

theorem announce_calls (hooks : Hooks) (notice : Notice) (before : Machine) :
    (Eval.announce hooks notice before).Meets (fun _ => True)
      (fun _ after => Called ((hooks.of notice.event).map (·.serial)) before after)
      (fun _ after => ∃ called, called <+: (hooks.of notice.event).map (·.serial) ∧
        Called called before after) :=
  .noting trivial (callHooks_calls _ _ _)

end Eval

/-! ## What evaluations convey -/

/-- The step that a fault comes with. -/
def Fault.step? : Fault → Option Nat
  | .runtime failure => failure.step
  | _ => none

/-- No hook that listens for errors was called in between. -/
def Machine.Spares (hooks : Hooks) (before after : Machine) : Prop :=
  ∃ serials, Called serials before after ∧
    ∀ hook ∈ hooks.of .onError, serials.count hook.serial = 0

namespace Machine.Spares

variable {hooks : Hooks} {before between after : Machine}

theorem none (same : after.hookCalls = before.hookCalls) : before.Spares hooks after :=
  ⟨[], .none same, fun _ _ => rfl⟩

theorem trans (first : before.Spares hooks between) (second : between.Spares hooks after) :
    before.Spares hooks after := by
  obtain ⟨serials, called, spared⟩ := first
  obtain ⟨more, calledMore, sparedMore⟩ := second
  refine ⟨serials ++ more, called.append calledMore, fun hook member => ?_⟩
  rw [List.count_append, spared hook member, sparedMore hook member]

end Machine.Spares

/-- Since a fault was raised no step was logged, and it has the step and the place that it came
with. -/
structure Origin.Carried (origin : Origin) (fault : Fault) (machine : Machine) : Prop where
  last : machine.steps.last = origin.machine.steps.last
  step : fault.step? = origin.fault.step?
  place : fault.place? = origin.fault.place?

theorem Origin.Carried.capture {origin : Origin} {fault : Fault} {machine : Machine}
    (carried : origin.Carried fault machine) (moment : Machine) :
    origin.Carried (Eval.capture moment fault) machine := by
  refine ⟨carried.last, ?_, (Eval.capture_place moment fault).trans carried.place⟩
  rw [← carried.step]
  cases fault with
  | runtime failure => simp only [Eval.capture, Fault.step?]; split <;> rfl
  | _ => rfl

/-- An evaluation calls no hook that listens for errors, and a fault that ends it comes as it was
raised. -/
def Eval.Conveys {α : Type} (hooks : Hooks) (post : α → Prop) (action : Eval α) : Prop :=
  ∀ before, (action before).Traces Origin.none
    (fun result after => before.Spares hooks after ∧ post result)
    fun origin fault after => before.Spares hooks after ∧ origin.Carried fault after

namespace Eval.Conveys

variable {α β : Type} {hooks : Hooks} {setting : Setting} {post : α → Prop}

theorem pure {result : α} (given : post result) : Conveys hooks post (Pure.pure result) :=
  fun _ => .pure ⟨.none rfl, given⟩

theorem raise (cause : Cause) (fault : Fault) : Conveys hooks post (Eval.raiseFor cause fault) :=
  fun _ => .raise ⟨.none rfl, rfl, rfl, rfl⟩

theorem get : Conveys hooks (fun _ => True) MonadState.get :=
  fun _ => .get ⟨.none rfl, trivial⟩

theorem weaken {strong : α → Prop} {action : Eval α} (conveys : Conveys hooks strong action)
    (weaker : ∀ result, strong result → post result) : Conveys hooks post action :=
  fun before => (conveys before).leads (fun result _ ended => ⟨ended.1, weaker result ended.2⟩)
    fun _ _ _ => id

theorem bind {last : β → Prop} {first : Eval α} {next : α → Eval β}
    (conveys : Conveys hooks post first)
    (rest : ∀ result, post result → Conveys hooks last (next result)) :
    Conveys hooks last (first >>= next) := by
  intro before
  refine (conveys before).bind fun result between ended => ?_
  exact (rest result ended.2 between).leads (fun _ _ later => ⟨ended.1.trans later.1, later.2⟩)
    fun _ _ _ later => ⟨ended.1.trans later.1, later.2⟩

/-- A fault that is caught ends nothing, and one that is not comes as it was raised. -/
theorem attempt {action : Eval α} {catches : Fault → Bool} {answered : Except Fault α → Prop}
    (conveys : Conveys hooks (fun result => answered (.ok result)) action)
    (caught : ∀ fault, catches fault = true → answered (.error fault)) :
    Conveys hooks answered (Eval.attempt catches action) :=
  fun before => (conveys before).attempt fun _ fault _ isCaught broken =>
    ⟨broken.1, caught fault isCaught⟩

/-- What changes nothing about the hooks. -/
theorem change {step : Machine → α × Machine}
    (quiet : ∀ machine, (step machine).2.hookCalls = machine.hookCalls)
    (gives : ∀ machine, post (step machine).1) : Conveys hooks post (Eval.change step) :=
  fun before => .change ⟨.none (quiet before), gives before⟩

theorem modifies {step : Machine → Machine}
    (quiet : ∀ machine, (step machine).hookCalls = machine.hookCalls) :
    Conveys hooks (fun _ => True) (modify step : Eval PUnit) :=
  change quiet fun _ => trivial

theorem define {scope : ScopeId} {name : String} {value : Value} :
    Conveys hooks (fun bound => bound = value ∧ value.isSignal = false)
      (Eval.bind scope name value) := by
  unfold Eval.bind
  cases signal : value.isSignal with
  | true => exact raise _ _
  | false => exact bind (modifies fun _ => rfl) fun _ _ => pure ⟨rfl, rfl⟩

theorem locate (node : Node) : Conveys hooks (fun _ => True) (Eval.locate setting node) := by
  refine bind get fun machine _ => ?_
  dsimp only
  split
  · exact pure trivial
  · split
    · exact pure trivial
    · exact raise _ _

/-- A hook raises its fault in the state in which it was called, but for the call. -/
theorem callHook_carried (hook : Hook) (notice : Notice) (before : Machine) :
    (Eval.callHook hook notice before).Traces Origin.none (fun _ _ => True)
      fun origin fault after => origin.Carried fault after := by
  unfold Eval.callHook
  refine .changing ?_
  dsimp only
  cases hook.react (before.circumstance hook) notice with
  | ignore => exact .pure trivial
  | print line => exact .modifies trivial
  | raise fault => exact .raise ⟨rfl, rfl, rfl⟩
  | record =>
      cases notice.details? before.scopes with
      | some details => exact .modifies trivial
      | none => exact .raise ⟨rfl, rfl, rfl⟩

theorem announce_carried (hooks : Hooks) (notice : Notice) (before : Machine) :
    (Eval.announce hooks notice before).Traces Origin.none (fun _ _ => True)
      fun origin fault after => origin.Carried fault after := by
  refine .noting ?_
  induction hooks.of notice.event generalizing before with
  | nil => exact .pure trivial
  | cons hook others ih =>
      exact (callHook_carried hook notice before).bind fun _ between _ => ih between

theorem announce (numbered : hooks.Numbered) {notice : Notice} (other : notice.event ≠ .onError) :
    Conveys hooks (fun _ => True) (Eval.announce hooks notice) := by
  intro before
  have spared : ∀ hook ∈ hooks.of .onError,
      ((hooks.of notice.event).map (·.serial)).count hook.serial = 0 :=
    fun hook member => (numbered.once hook member _).trans (if_neg other)
  refine ((announce_carried hooks notice before).meets (announce_calls hooks notice before)).leads ?_ ?_
  · exact fun _ _ ended => ⟨⟨_, ended.2, spared⟩, trivial⟩
  · rintro origin fault after ⟨carried, called, isPrefix, calls⟩
    refine ⟨⟨called, calls, fun hook member => ?_⟩, carried⟩
    exact Nat.le_zero.mp (spared hook member ▸ isPrefix.sublist.count_le hook.serial)

theorem bracket {post : Option Value → Prop} {body : Eval (Option Value)} {log : Eval Unit}
    {opening : Notice} {closing : Option Value → Notice} (numbered : setting.hooks.Numbered)
    (opens : opening.event ≠ .onError) (closes : ∀ result, (closing result).event ≠ .onError)
    (logs : Conveys setting.hooks (fun _ => True) log) (conveys : Conveys setting.hooks post body) :
    Conveys setting.hooks post (Eval.bracket setting opening log body closing) := by
  refine bind (announce numbered opens) fun _ _ => bind logs fun _ _ => ?_
  refine bind conveys fun result given => ?_
  exact bind (announce numbered (closes result)) fun _ _ => pure given

theorem inStatement {post : Option Value → Prop} {body : Eval (Option Value)}
    (numbered : setting.hooks.Numbered) (statement : Node) (scope : ScopeId)
    (conveys : Conveys setting.hooks post body) :
    Conveys setting.hooks post (Eval.inStatement setting statement scope body) :=
  bracket numbered nofun nofun (bind (locate statement) fun _ _ => modifies fun _ => rfl) conveys

theorem inCall {post : Option Value → Prop} {body : Eval (Option Value)}
    (numbered : setting.hooks.Numbered) (name : String) (arguments : List Value)
    (scope : Option ScopeId) (site : Option Location) (conveys : Conveys setting.hooks post body) :
    Conveys setting.hooks post (Eval.inCall setting name arguments scope site body) :=
  bracket numbered nofun nofun (modifies fun _ => rfl) conveys

/-- A frame that is closed on the way out takes no step back that was logged. -/
theorem inFrame {body : Eval α} (name : String) (scope : ScopeId) (site : Option Location)
    (conveys : Conveys hooks post body) : Conveys hooks post (Eval.inFrame name scope site body) := by
  intro before
  have captured : Conveys hooks post
      (Eval.recover body fun fault => do Eval.reraise (Eval.capture (← MonadState.get) fault)) := by
    refine fun before => .recover (conveys before) fun given fault between come leads => ?_
    refine .look (.reraise come fun origin isGiven => ?_)
    obtain ⟨spares, carried⟩ := leads origin isGiven
    exact ⟨spares, carried.capture between⟩
  have closes : ∀ {after : Machine}, (before.pushFrame name scope site).Spares hooks after →
      before.Spares hooks (after.closeFrame before.nextSerial) := by
    rintro after ⟨serials, called, spared⟩
    exact ⟨serials, ⟨called.size, called.times⟩, spared⟩
  refine .changing (.bind (.recover (captured _) fun given fault between come leads => ?_) ?_)
  · refine .modifying (.reraise come fun origin isGiven => ?_)
    obtain ⟨spares, carried⟩ := leads origin isGiven
    exact ⟨closes spares, carried.last, carried.step, carried.place⟩
  · intro result between ended
    exact .modifying (.pure ⟨closes ended.1, ended.2⟩)

def regime (numbered : setting.hooks.Numbered) : Regime setting where
  toDomain := Goodness.all.domain setting False
  known _ := True
  Holds := Conveys setting.hooks
  found _ _ := trivial
  pure := pure
  bind := bind
  weaken := weaken
  raise cause _ _ _ := raise cause _
  attempt _ _ conveys := attempt conveys fun _ caught => ⟨caught, False.elim, fun _ _ => trivial⟩
  get := get
  create _ := change (fun _ => rfl) fun machine => ⟨machine.nextObject, rfl⟩
  newScope _ := change (fun _ => rfl) fun _ => trivial
  define _ _ _ := define
  print _ := modifies fun _ => rfl
  locate {_ _} _ := locate _
  inStatement {_ _ _ _} _ conveys := inStatement numbered _ _ conveys
  inFunction name arguments scope site _ conveys :=
    inCall numbered name arguments (some scope) site
      (bind (inFrame name scope site conveys) fun outcome given => pure ⟨outcome, rfl, given⟩)
  inBuiltin name arguments site _ conveys := inCall numbered name arguments none site conveys
  execute _ _ executes := executes.elim

theorem evaluates (numbered : setting.hooks.Numbered)
    (builtins : ∀ builtin ∈ setting.builtins, ∀ arguments, (builtin.run arguments).RunsNoText)
    (depth : Nat) (tree : Node) (scope : ScopeId) :
    Conveys setting.hooks (fun _ => True) (evaluate setting depth tree scope) :=
  have obeying := fun builtin member arguments (_ : ∀ argument ∈ arguments, True) =>
    (builtins builtin member arguments).obeys
  ((regime numbered).evaluates
    (fun {_ name _ _} _ argumentsGood _ => Goodness.all.scriptAdmitted obeying name argumentsGood)
    depth tree scope trivial).weaken fun _ _ => trivial

theorem body (numbered : setting.hooks.Numbered) {evaluate : Evaluator} (text : String)
    (scope : ScopeId)
    (evaluates : ∀ tree, Conveys setting.hooks (fun _ => True) (evaluate tree scope)) :
    Conveys setting.hooks (fun _ => True) (Eval.body setting evaluate text scope) := by
  have parses : Conveys setting.hooks (fun _ => True) (Eval.parse setting text) := by
    unfold Eval.parse
    split
    · exact pure trivial
    · exact raise _ _
    · exact raise _ _
  exact bind parses fun program _ => bind (announce numbered nofun) fun _ _ => evaluates program

end Eval.Conveys

/-! ## Texts -/

/-- A fault was not raised at the announcement of a failure or of the end of a text. -/
structure Origin.InBody (origin : Origin) : Prop where
  failing : origin.cause ≠ .hook .onError
  ending : origin.cause ≠ .hook .programEnd

/-- A failure has the step and the place that its origin came with; where it came with none, they are
those of the latest step that had been logged. -/
structure Origin.Stamps (origin : Origin) (failure : Failure) : Prop where
  step : failure.step = origin.fault.step?.or (origin.machine.steps.last.map (·.index))
  location : failure.location =
    origin.fault.place?.or (origin.machine.steps.last.bind (·.location))

/-- In the end every hook that listens for errors was told of a failure, and in between none of them
was called for anything else. -/
structure Setting.Tells (setting : Setting) (failure : Failure) (before after : Machine) : Prop where
  told : ∃ between,
    (Eval.announce setting.hooks (.onError .host failure) between).ending = .ok () after
  once : ∀ hook ∈ setting.hooks.of .onError,
    after.timesCalled hook.serial = before.timesCalled hook.serial + 1

/-- What ends a text is stamped and told, if it is a fault of the run that comes out of the body. -/
def Setting.Reports (setting : Setting) (before : Machine) (origin : Origin) (fault : Fault)
    (after : Machine) : Prop :=
  ∀ failure, fault = .runtime failure → origin.InBody →
    origin.Stamps failure ∧ setting.Tells failure before after

section Texts

variable {setting : Setting} {start before : Machine} {α : Type}

theorem announceEnd_reports {notice : Notice} {given : Origin → Prop}
    (ends : notice.event = .onError ∨ notice.event = .programEnd) :
    (Eval.announce setting.hooks notice before).Traces given (fun _ _ => True)
      (setting.Reports start) := by
  refine ((Eval.Preserves.announce_cause setting.hooks notice before).leads (fun _ _ => id) ?_).own
  rintro origin fault after cause failure _ inBody
  rcases ends with isError | isEnd
  · exact absurd (isError ▸ cause) inBody.failing
  · exact absurd (isEnd ▸ cause) inBody.ending

theorem Machine.Spares.tells (spares : start.Spares setting.hooks before)
    (numbered : setting.hooks.Numbered) (counted : start.hookCalls.size = setting.hooks.count)
    {failure : Failure} {after : Machine}
    (told : (Eval.announce setting.hooks (.onError .host failure) before).ending = .ok () after) :
    setting.Tells failure start after := by
  refine ⟨⟨before, told⟩, fun hook member => ?_⟩
  obtain ⟨serials, called, spared⟩ := spares
  have announced := (Eval.announce_calls setting.hooks (.onError .host failure) before).done () after told
  have within : hook.serial < start.hookCalls.size := counted ▸ numbered.within hook member
  have all := (called.append announced).times hook.serial within
  rw [List.count_append, spared hook member, Nat.zero_add] at all
  rw [all]
  exact congrArg _ ((numbered.once hook member .onError).trans (if_pos rfl))

theorem abandon_reports (numbered : setting.hooks.Numbered)
    (counted : start.hookCalls.size = setting.hooks.count) {failure : Failure}
    {given : Origin → Prop} (come : ∃ origin, given origin)
    (carried : ∀ origin, given origin →
      start.Spares setting.hooks before ∧ origin.Carried (.runtime failure) before)
    {done : α → Machine → Prop} :
    (Eval.abandon setting failure before : Course α).Traces given done (setting.Reports start) := by
  let notice : Notice := .onError .host (Eval.stamp before failure)
  have announced : (Eval.announce setting.hooks notice before).Traces given (fun _ _ => True)
      (setting.Reports start) := announceEnd_reports (.inl rfl)
  have told := (announced.meets .self).leads (fun _ _ => id) fun _ _ _ => And.left
  refine .look (.bind told fun _ after ended => ?_)
  refine .reraise come fun origin isGiven => ?_
  obtain ⟨spares, carried⟩ := carried origin isGiven
  rintro _ ⟨⟩ _
  refine ⟨⟨?_, ?_⟩, spares.tells numbered counted ended.2⟩
  · rw [← carried.step, ← carried.last]
    rfl
  · rw [← carried.place, ← carried.last]
    rfl

theorem settle_reports (numbered : setting.hooks.Numbered)
    (counted : start.hookCalls.size = setting.hooks.count) (spares : start.Spares setting.hooks before)
    {post : α → Prop} {body : Eval α} (conveys : Eval.Conveys setting.hooks post body) :
    (Eval.settle setting body before).Traces Origin.none (fun _ _ => True)
      (setting.Reports start) := by
  have ran : (body before).Traces Origin.none (fun _ _ => True) fun origin fault after =>
      start.Spares setting.hooks after ∧ origin.Carried fault after :=
    (conveys before).leads (fun _ _ _ => trivial) fun _ _ _ ended => ⟨spares.trans ended.1, ended.2⟩
  refine .recover ran fun given fault between come leads => ?_
  cases fault with
  | unparsable file errors => exact .reraise come fun _ _ _ impossible => nomatch impossible
  | runtime failure => exact abandon_reports numbered counted come leads
  | depth =>
      refine .modifying (abandon_reports numbered counted come fun origin isGiven => ?_)
      obtain ⟨spares, carried⟩ := leads origin isGiven
      exact ⟨spares.trans (.none rfl), carried.last, carried.step, carried.place⟩
  | foreign | digits =>
      refine abandon_reports numbered counted come fun origin isGiven => ?_
      obtain ⟨spares, carried⟩ := leads origin isGiven
      exact ⟨spares, carried.last, carried.step, carried.place⟩

theorem execute_reports (numbered : setting.hooks.Numbered)
    (counted : start.hookCalls.size = setting.hooks.count) {evaluate : Evaluator} (text : String)
    (scope : ScopeId)
    (evaluates : ∀ tree, Eval.Conveys setting.hooks (fun _ => True) (evaluate tree scope)) :
    (Eval.execute setting evaluate text scope start).Traces Origin.none (fun _ _ => True)
      (setting.Reports start) := by
  have body := Eval.Conveys.body numbered text scope evaluates
  have closing : ∀ {between : Machine} (result : Option Value),
      ((do
        Eval.announce setting.hooks (.programEnd result)
        return result : Eval (Option Value)) between).Traces Origin.none (fun _ _ => True)
        (setting.Reports start) := fun _ =>
    .bind (announceEnd_reports (.inr rfl)) fun _ _ _ => .pure trivial
  have spares : start.Spares setting.hooks { start with lines := Machine.trimmedLines text } :=
    .none rfl
  have settled := settle_reports numbered counted spares body
  refine .modifying (.bind settled fun ending between _ => ?_)
  dsimp only
  generalize Eval.textResult ending = result
  split
  · exact .bind (announceEnd_reports (.inl rfl)) fun _ _ _ => closing _
  · exact closing _

end Texts

def Invariant.counting (hooks : Nat) : Invariant where
  toGoodness := Goodness.all
  Index := Unit
  through _ machine := machine.hookCalls.size = hooks
  ends _ machine := machine.hookCalls.size = hooks
  passable _ _ := id
  found _ _ := trivial
  adjust counted adjustment := by
    cases adjustment with
    | hookCall hook => exact Machine.hookCall_size.trans counted
    | _ => exact counted
  frame _ _ _ counted :=
    ⟨(), counted, fun _ => id, fun machine closing inside => by cases closing <;> exact inside⟩

/-- No hook is ever added or taken away. -/
theorem Machine.Reaches.counted {setting : Setting} {machine : Machine} {allowed : HostCall → Prop}
    (reached : Machine.Reaches setting allowed (.initial setting) machine) :
    machine.hookCalls.size = setting.hooks.count := by
  have started : (Machine.initial setting).hookCalls.size = setting.hooks.count :=
    Array.size_replicate
  refine @Machine.Reaches.keeps _ _ _ _ (fun machine => machine.hookCalls.size = setting.hooks.count)
    reached started fun call before _ counted => ?_
  have meets : (call.perform setting before).Keeps
      fun machine => machine.hookCalls.size = setting.hooks.count := by
    cases changing : call.changesStack with
    | true => exact HostCall.changes changing counted (fun _ _ _ _ => counted) fun _ => counted
    | false =>
        have hands : call.Hands (Invariant.counting setting.hooks.count).good := by
          cases call <;> simp [HostCall.Hands, Invariant.counting, Goodness.all]
        have holds := (Invariant.counting setting.hooks.count).performs
          (fun builtin (_ : builtin ∈ setting.builtins) arguments _ => Script.obeysAll _ _)
          call hands changing
        exact (holds () before counted).leads (fun _ _ => And.left) fun _ _ => id
  exact ⟨meets.passing, meets.last⟩

/-- In any session with builtins that run no texts, when a text ends with a fault of the run that was
not raised at the announcement of a failure or of the end: the failure names the latest step that had
been logged when the fault was raised and has a place if that step has one, unless the fault came with
a step or a place of its own; and every hook that listens for errors was told of it, as the last thing
that happened, and was called just this once. -/
theorem faults_stamped_and_announced (setting : Setting) (numbered : setting.hooks.Numbered)
    (builtins : ∀ builtin ∈ setting.builtins, ∀ arguments, (builtin.run arguments).RunsNoText)
    (machine : Machine)
    (reached : Machine.Reaches setting (fun _ => True) (.initial setting) machine)
    (depth : Nat) (text : String) (scope : ScopeId) {failure : Failure} {after : Machine}
    (ended : (Eval.execute setting (evaluate setting depth) text scope machine).ending =
      .error (.runtime failure) after) :
    let course := Eval.execute setting (evaluate setting depth) text scope machine
    (∃ origin, course.raised origin) ∧
      ∀ origin, course.raised origin → origin.InBody →
        origin.Stamps failure ∧ setting.Tells failure machine after := by
  intro course
  have traces : course.Traces Origin.none _ (setting.Reports machine) :=
    execute_reports numbered reached.counted text scope fun tree =>
      Eval.Conveys.evaluates numbered builtins depth tree scope
  constructor
  · obtain ⟨origin, come⟩ := traces.traced _ _ ended
    exact ⟨origin, Course.Traces.from_none.mp come⟩
  · intro origin raised inBody
    exact traces.broken _ _ origin ended (Course.Traces.from_none.mpr raised) failure rfl inBody

/-- A hook that raises an error once, and one that listens for errors. -/
def Hooks.failingOnce (event : Event) (call : Nat) : Hooks :=
  (none.add event "monitor" 0 (HookAction.fail call "boom").react).add .onError "monitor" 0
    HookAction.record.react

/-- A hook fails before the second statement of a text, when the first one has been logged. -/
theorem faults_stamped_and_announced_before_statement :
    let setting : Setting := ⟨"<string>", false, Builtin.core, .failingOnce .beforeStatement 2⟩
    let machine := (Machine.initial setting).opened
    let course := Eval.execute setting (evaluate setting 5) "1; 2" 0 machine
    ∃ failure after, course.ending = .error (.runtime failure) after ∧ failure.step = some 0 ∧
      failure.location = some ⟨"<string>", 1, 1, "1; 2"⟩ ∧ setting.Tells failure machine after := by
  intro setting machine course
  have numbered : setting.hooks.Numbered := (Hooks.numbered_none.add _ _ _ _).add _ _ _ _
  have builtins : ∀ builtin ∈ setting.builtins, ∀ arguments,
      (builtin.run arguments).RunsNoText := fun builtin isCore arguments =>
    (Builtin.core_plain Goodness.all.composes (fun _ _ => trivial) isCore).runsNoText
  have reached : Machine.Reaches setting (fun _ => True) (.initial setting) machine :=
    .ending (.pushFrame topLevel 0 Option.none) (.ending (.newScope Option.none) .start trivial) trivial
  have ended : course.ending = .error (.runtime _) _ := rfl
  have raised : course.raised ⟨.hook .beforeStatement, _, _⟩ := .inr ⟨rfl, fun _ => id⟩
  have reported := (faults_stamped_and_announced setting numbered builtins machine reached 5 "1; 2" 0
    ended).2 _ raised ⟨nofun, nofun⟩
  exact ⟨_, _, ended, rfl, rfl, reported.2⟩

/-- A hook fails at the end of a text: the failure names no step, although one was logged, and the hook
that listens for errors is not called. -/
theorem fault_at_end_neither_stamped_nor_announced :
    let setting : Setting := ⟨"<string>", false, Builtin.core, .failingOnce .programEnd 1⟩
    let machine := (Machine.initial setting).opened
    let course := Eval.execute setting (evaluate setting 5) "1" 0 machine
    ∃ failure after origin step, course.ending = .error (.runtime failure) after ∧
      course.raised origin ∧ origin.cause = .hook .programEnd ∧
      origin.machine.steps.last = some step ∧ step.location ≠ none ∧
      failure.step = none ∧ failure.location = none ∧
      (setting.hooks.of .onError).map (fun hook => after.timesCalled hook.serial) = [0] := by
  intro setting machine course
  have ended : course.ending = .error (.runtime _) _ := rfl
  have raised : course.raised ⟨.hook .programEnd, _, _⟩ := rfl
  exact ⟨_, _, _, _, ended, raised, rfl, rfl, nofun, rfl, rfl, rfl⟩

end MonkeyLang
