import MonkeyLang.Proofs.Evaluation.Hosts

namespace MonkeyLang

/-! # Frames and the step log

Frames get their serial numbers in order and are closed innermost first, so that the stack is always
sorted and the log knows of no frame but those that are open.  Whatever is evaluated leaves the
stack as it was.
-/

namespace Machine

/-- The stack is sorted by serial numbers, which were all given out, and the log fits the stack and
its own count. -/
structure Orderly (machine : Machine) : Prop where
  sorted : machine.stack.Pairwise fun inner outer => outer.serial < inner.serial
  given : ∀ frame ∈ machine.stack, frame.serial < machine.nextSerial
  live : ∀ entry ∈ machine.steps.latest, ∃ frame ∈ machine.stack, frame.serial = entry.1
  counted : match machine.steps.last with
    | some step => step.index + 1 = machine.steps.count
    | none => machine.steps.count = 0

/-- A later state has no frames but those of the earlier one and such as got a new number. -/
structure Continues (earlier later : Machine) : Prop where
  serials : earlier.nextSerial ≤ later.nextSerial
  frames : ∀ frame ∈ later.stack, frame ∈ earlier.stack ∨ earlier.nextSerial ≤ frame.serial

variable {machine earlier middle later before after : Machine}

theorem Continues.rfl : machine.Continues machine :=
  ⟨Nat.le_refl _, fun _ => .inl⟩

theorem Continues.trans (first : earlier.Continues middle) (second : middle.Continues later) :
    earlier.Continues later where
  serials := Nat.le_trans first.serials second.serials
  frames frame member := by
    rcases second.frames frame member with old | new
    · exact first.frames frame old
    · exact .inr (Nat.le_trans first.serials new)

theorem continues_pushFrame (machine : Machine) (name : String) (scope : ScopeId)
    (site : Option Location) : machine.Continues (machine.pushFrame name scope site) where
  serials := Nat.le_succ _
  frames frame member := by
    rcases List.mem_cons.mp member with rfl | old
    · exact .inr (Nat.le_refl _)
    · exact .inl old

theorem Orderly.pushFrame (orderly : machine.Orderly) (name : String) (scope : ScopeId)
    (site : Option Location) : (machine.pushFrame name scope site).Orderly where
  sorted := List.pairwise_cons.mpr ⟨orderly.given, orderly.sorted⟩
  given frame member := by
    rcases List.mem_cons.mp member with rfl | old
    · exact Nat.lt_succ_self _
    · exact Nat.lt_succ_of_lt (orderly.given frame old)
  live entry member := by
    obtain ⟨frame, opened, same⟩ := orderly.live entry member
    exact ⟨frame, List.mem_cons_of_mem _ opened, same⟩
  counted := orderly.counted

theorem continues_closeFrame (machine : Machine) (serial : Nat) :
    machine.Continues (machine.closeFrame serial) where
  serials := Nat.le_refl _
  frames _ member := .inl (List.mem_of_mem_tail member)

/-- No other frame has the number of the one that is closed, so only that number is forgotten. -/
theorem Orderly.closeFrame {frame : Frame} {frames : List Frame} (orderly : machine.Orderly)
    (opened : machine.stack = frame :: frames) : (machine.closeFrame frame.serial).Orderly := by
  obtain ⟨sorted, given, live, counted⟩ := orderly
  have closed : (machine.closeFrame frame.serial).stack = frames := by
    rw [Machine.closeFrame, opened, List.tail_cons]
  rw [opened] at sorted given live
  constructor
  case sorted => exact closed ▸ (List.pairwise_cons.mp sorted).2
  case given => exact closed ▸ (List.forall_mem_cons.mp given).2
  case counted => exact counted
  case live =>
    intro entry member
    obtain ⟨logged, other⟩ := List.mem_filter.mp member
    obtain ⟨owner, owns, same⟩ := live entry logged
    rw [closed]
    rcases List.mem_cons.mp owns with rfl | older
    · simp [same] at other
    · exact ⟨owner, older, same⟩

theorem Orderly.unwind (orderly : machine.Orderly) (serial : Nat) :
    (machine.unwind serial).Orderly :=
  unwind_keeps (fun opened orderly => Orderly.closeFrame orderly opened) machine serial orderly

theorem continues_unwind (machine : Machine) (serial : Nat) :
    machine.Continues (machine.unwind serial) :=
  unwind_keeps (fun _ continues => continues.trans (continues_closeFrame _ _)) machine serial
    Continues.rfl

theorem Orderly.logStep (orderly : machine.Orderly) (verbose : Bool) (form : String)
    (location : Option Location) (callee : Option String) :
    (machine.logStep verbose form location callee).Orderly where
  sorted := orderly.sorted
  given := orderly.given
  live entry member := by
    change ∃ frame ∈ machine.stack, frame.serial = entry.1
    cases opened : machine.stack with
    | nil =>
        rw [← opened]
        refine orderly.live entry ?_
        simpa only [Machine.logStep, StepLog.record, opened, List.head?_nil, Option.map_none]
          using member
    | cons frame frames =>
        simp only [Machine.logStep, StepLog.record, opened, List.head?_cons, Option.map_some,
          List.mem_cons] at member
        rcases member with rfl | old
        · exact ⟨frame, List.mem_cons_self, rfl⟩
        · rw [← opened]
          exact orderly.live entry (List.mem_filter.mp old).1
  counted := rfl

/-- An adjustment leaves the stack and the serial numbers alone, and only a step adds to the log. -/
theorem Adjustment.frames {good : Value → Prop} (adjustment : before.Adjustment good after) :
    after.stack = before.stack ∧ after.nextSerial = before.nextSerial := by
  cases adjustment <;> exact ⟨rfl, rfl⟩

theorem Adjustment.continues {good : Value → Prop} (adjustment : before.Adjustment good after) :
    before.Continues after := by
  obtain ⟨stack, serial⟩ := adjustment.frames
  exact ⟨Nat.le_of_eq serial.symm, fun frame member => .inl (stack ▸ member)⟩

theorem Orderly.adjust {good : Value → Prop} (orderly : before.Orderly)
    (adjustment : before.Adjustment good after) : after.Orderly := by
  cases adjustment with
  | step verbose form location callee => exact orderly.logStep verbose form location callee
  | _ => exact ⟨orderly.sorted, orderly.given, orderly.live, orderly.counted⟩

theorem orderly_initial (setting : Setting) : (Machine.initial setting).Orderly where
  sorted := .nil
  given := nofun
  live := nofun
  counted := rfl

/-- What a state may have become while evaluating from a state on. -/
structure Underway (base machine : Machine) : Prop where
  orderly : machine.Orderly
  continues : base.Continues machine

/-- The state is again where it was as to the stack. -/
structure Balanced (base machine : Machine) : Prop extends Underway base machine where
  stack : machine.stack = base.stack

theorem Orderly.balanced (orderly : machine.Orderly) : Balanced machine machine :=
  ⟨⟨orderly, .rfl⟩, rfl⟩

/-- What is balanced within a frame is so outside once the frame is closed: the innermost frame is
then the one that was opened. -/
theorem Balanced.close {base : Machine} (outside : Balanced base before) (name : String)
    (scope : ScopeId) (site : Option Location) (closing : Closing)
    (inside : Balanced (before.pushFrame name scope site) machine) :
    Balanced base (machine.close before.nextSerial closing) := by
  have opened : machine.stack = ⟨name, scope, before.nextSerial, site⟩ :: before.stack :=
    inside.stack
  have closed : machine.close before.nextSerial closing = machine.closeFrame before.nextSerial :=
    close_innermost opened closing
  have continues := outside.continues.trans ((before.continues_pushFrame name scope site).trans
    (inside.continues.trans (machine.continues_closeFrame before.nextSerial)))
  rw [closed]
  refine ⟨⟨inside.orderly.closeFrame opened, continues⟩, ?_⟩
  rw [closeFrame, opened, List.tail_cons]
  exact outside.stack

end Machine

def Invariant.frames : Invariant where
  toGoodness := Goodness.all
  Index := Machine
  through := Machine.Underway
  ends := Machine.Balanced
  passable _ _ balanced := balanced.toUnderway
  found _ _ := trivial
  adjust balanced adjustment :=
    ⟨⟨balanced.orderly.adjust adjustment, balanced.continues.trans adjustment.continues⟩,
      adjustment.frames.1.trans balanced.stack⟩
  frame {base before} name scope site balanced := by
    refine ⟨before.pushFrame name scope site, ?_, ?_, ?_⟩
    · exact (balanced.orderly.pushFrame name scope site).balanced
    · intro machine inside
      exact ⟨inside.orderly, balanced.continues.trans
        ((before.continues_pushFrame name scope site).trans inside.continues)⟩
    · exact fun machine closing inside => balanced.close name scope site closing inside

section Hosts

variable (setting : Setting) {α : Type} {post : α → Prop} {action : Eval α} {machine : Machine}

theorem frames_performs (call : HostCall) (leaves : call.changesStack = false) :
    Invariant.frames.Holds (Result Invariant.frames.good) (call.perform setting) := by
  refine Invariant.frames.performs (fun builtin _ arguments _ => Script.obeysAll _ _) call ?_ leaves
  cases call <;> simp [HostCall.Hands, Invariant.frames, Goodness.all]

variable {setting}

theorem Invariant.Holds.underway (holds : Invariant.frames.Holds post action)
    (orderly : machine.Orderly) :
    (action machine).Keeps machine.Underway :=
  (holds machine machine orderly.balanced).leads
    (fun _ _ ended => ended.1.toUnderway) fun _ _ ended => ended.toUnderway

theorem Invariant.Holds.stack (holds : Invariant.frames.Holds post action)
    (orderly : machine.Orderly) : (action machine).machine.stack = machine.stack :=
  ((holds machine machine orderly.balanced).leads (fun _ _ ended => ended.1)
    fun _ _ => id).last.stack

/-- Whatever a host does with an orderly state, all goes on in order. -/
theorem HostCall.underway (setting : Setting) (call : HostCall) (orderly : machine.Orderly) :
    (call.perform setting machine).Keeps machine.Underway := by
  cases changing : call.changesStack with
  | false => exact (frames_performs setting call changing).underway orderly
  | true =>
      exact HostCall.changes changing orderly.balanced.toUnderway
        (fun name scope site _ =>
          ⟨orderly.pushFrame name scope site, machine.continues_pushFrame name scope site⟩)
        fun serial => ⟨orderly.unwind serial, machine.continues_unwind serial⟩

/-- From an orderly state on only orderly ones are reached, and no serial number comes again. -/
theorem Machine.Reaches.underway {allowed : HostCall → Prop} {first : Machine}
    (reached : Machine.Reaches setting allowed first machine) (orderly : first.Orderly) :
    first.Underway machine := by
  refine reached.keeps orderly.balanced.toUnderway fun call before _ kept => ?_
  have onward : ∀ machine, before.Underway machine → first.Underway machine :=
    fun machine underway => ⟨underway.orderly, kept.continues.trans underway.continues⟩
  have meets := call.underway setting kept.orderly
  exact ⟨fun machine passed => onward machine (meets.passing machine passed),
    onward _ meets.last⟩

/-- Under any hooks and builtins and in every reachable state the frames and the log are in order,
no serial number is given out twice, and a call that evaluates leaves the stack as it was, however it
ends. -/
theorem frames_restored (setting : Setting) (machine : Machine)
    (reached : Machine.Reaches setting (fun _ => True) (.initial setting) machine) :
    machine.Orderly ∧
      (∀ later, Machine.Reaches setting (fun _ => True) machine later → machine.Continues later) ∧
      (∀ depth text scope,
        (Eval.execute setting (evaluate setting depth) text scope machine).machine.stack =
          machine.stack) ∧
      (∀ text, (setting.run text machine).machine.stack = machine.stack) ∧
      ∀ depth callee arguments name site,
        (apply setting depth callee arguments name site machine).machine.stack = machine.stack := by
  have orderly := (reached.underway (Machine.orderly_initial setting)).orderly
  refine ⟨orderly, fun later onward => (onward.underway orderly).continues, ?_, ?_, ?_⟩
  · exact fun depth text scope =>
      (frames_performs setting (.execute depth text scope) rfl).stack orderly
  · exact fun text => (frames_performs setting (.run text) rfl).stack orderly
  · exact fun depth callee arguments name site =>
      (frames_performs setting (.apply depth callee arguments name site) rfl).stack orderly

/-- A frame is open, and a hook fails at the end of every call. -/
theorem frames_restored_failing_hook :
    let failing : Hooks :=
      Hooks.none.add .afterCall "failing" 0 fun _ _ => .raise (.foreign .value "failed")
    let setting : Setting := ⟨"<string>", false, Builtin.core, failing⟩
    let machine := (Machine.initial setting).pushFrame topLevel 0 none
    machine.stack.map (·.serial) = [0] ∧ machine.Orderly ∧
      ∀ text, (setting.run text machine).machine.stack = machine.stack := by
  intro failing setting machine
  have reached : Machine.Reaches setting (fun _ => True) (.initial setting) machine :=
    .ending (.pushFrame topLevel 0 none) .start trivial
  obtain ⟨orderly, _, _, runs, _⟩ := frames_restored setting machine reached
  exact ⟨rfl, orderly, runs⟩

end Hosts

end MonkeyLang
