import Mathlib.Data.List.Chain
import MonkeyLang.Proofs.Frames

namespace MonkeyLang

/-! # Open calls form a chain

A frame is opened right behind the step of its call, and nothing more is logged in the frame around
it until it is closed.  So the latest step of a frame tells of the call of the next one.
-/

namespace StepLog

variable {log : StepLog} {serial other : Nat}

theorem forget_forFrame (log : StepLog) (different : other ≠ serial) :
    (log.forget serial).forFrame other = log.forFrame other := by
  change (log.latest.filter fun entry => entry.1 != serial).lookup other = log.latest.lookup other
  induction log.latest with
  | nil => rfl
  | cons entry entries ih =>
      obtain ⟨present, step⟩ := entry
      by_cases forgotten : present = serial
      · subst forgotten
        rw [List.filter_cons_of_neg (by simp), List.lookup_cons, beq_false_of_ne different]
        exact ih
      · rw [List.filter_cons_of_pos (by simpa using forgotten), List.lookup_cons, List.lookup_cons, ih]

theorem forFrame_mem {step : Step} (found : log.forFrame serial = some step) :
    (serial, step) ∈ log.latest := by
  obtain ⟨before, behind, split, _⟩ := List.lookup_eq_some_iff.mp found
  rw [split]
  exact List.mem_append_right before List.mem_cons_self

theorem record_forFrame_same (log : StepLog) (serial : Nat) (step : Step) :
    (log.record (some serial) step).forFrame serial = some step :=
  List.lookup_cons_self

theorem record_forFrame_other (step : Step) (different : other ≠ serial) :
    (log.record (some serial) step).forFrame other = log.forFrame other := by
  change List.lookup other ((serial, step) :: (log.forget serial).latest) = _
  rw [List.lookup_cons, beq_false_of_ne different]
  exact log.forget_forFrame different

theorem record_index (older : ∀ entry ∈ log.latest, entry.2.index < log.count) (frame : Option Nat)
    {step : Step} (isNext : step.index = log.count) :
    ∀ entry ∈ (log.record frame step).latest, entry.2.index < (log.record frame step).count := by
  intro entry member
  change entry.2.index < log.count + 1
  cases frame with
  | none => exact Nat.lt_succ_of_lt (older entry member)
  | some serial =>
      rcases List.mem_cons.mp member with rfl | old
      · exact isNext ▸ Nat.lt_succ_self _
      · exact Nat.lt_succ_of_lt (older entry (List.mem_filter.mp old).1)

end StepLog

section Outer

variable {machine : Machine} {frame : Frame} {frames : List Frame} (orderly : machine.Orderly)
  (opened : machine.stack = frame :: frames)

include orderly opened

theorem Machine.Orderly.outer_ne : ∀ other ∈ frames, other.serial ≠ frame.serial := by
  have sorted := orderly.sorted
  rw [opened] at sorted
  exact fun other member => Nat.ne_of_lt ((List.pairwise_cons.mp sorted).1 other member)

theorem Machine.Orderly.forget_outer : ∀ other ∈ frames,
    (machine.steps.forget frame.serial).forFrame other.serial =
      machine.steps.forFrame other.serial :=
  fun other member => machine.steps.forget_forFrame (orderly.outer_ne opened other member)

theorem Machine.Orderly.record_outer (step : Step) : ∀ other ∈ frames,
    (machine.steps.record (some frame.serial) step).forFrame other.serial =
      machine.steps.forFrame other.serial :=
  fun other member => machine.steps.record_forFrame_other step (orderly.outer_ne opened other member)

end Outer

/-- A step is that of a call of a frame. -/
structure Step.Calls (step : Step) (frame : Frame) : Prop where
  form : step.form = "Call"
  callee : step.callee = some frame.name
  location : step.location = frame.site

/-- The latest step of the outer one of two frames is that of the call of the inner one, and the inner
one's steps come later. -/
def Frame.CalledFrom (log : StepLog) (inner outer : Frame) : Prop :=
  ∃ step, log.forFrame outer.serial = some step ∧ step.Calls inner ∧
    ∀ later, log.forFrame inner.serial = some later → step.index < later.index

/-- The same as a traceback tells it, which does not show the place of a call but in the outer one's
step, unless nothing was logged in the inner one. -/
def OpenCall.CalledFrom (inner outer : OpenCall) : Prop :=
  ∃ step, outer.step = some step ∧ outer.location = step.location ∧ step.form = "Call" ∧
    step.callee = some inner.name ∧ (inner.step = none → inner.location = step.location) ∧
    ∀ later, inner.step = some later → step.index < later.index

theorem Frame.CalledFrom.of_forFrame {log later : StepLog} {inner outer : Frame}
    (called : inner.CalledFrom log outer)
    (sameOuter : later.forFrame outer.serial = log.forFrame outer.serial)
    (sameInner : later.forFrame inner.serial = log.forFrame inner.serial) :
    inner.CalledFrom later outer := by
  obtain ⟨step, found, calls, index⟩ := called
  exact ⟨step, sameOuter.trans found, calls, fun step found => index step (sameInner.symm.trans found)⟩

namespace Machine

variable {own : Nat → Prop} {machine : Machine}

/-- Two neighbouring frames are linked, unless the inner one is one of the host's own. -/
structure Linked (own : Nat → Prop) (machine : Machine) : Prop extends Orderly machine where
  logged : ∀ entry ∈ machine.steps.latest, entry.2.index < machine.steps.count
  chain : machine.stack.IsChain fun inner outer =>
    ¬ own inner.serial → inner.CalledFrom machine.steps outer

theorem linked_initial (setting : Setting) : (Machine.initial setting).Linked own where
  toOrderly := orderly_initial setting
  logged := nofun
  chain := .nil

theorem Linked.more {more : Nat → Prop} (linked : machine.Linked own)
    (included : ∀ serial, own serial → more serial) : machine.Linked more where
  toOrderly := linked.toOrderly
  logged := linked.logged
  chain := linked.chain.imp fun _ _ link foreign => link fun isOwn => foreign (included _ isOwn)

/-- The next frame may be opened under a name, for a call at a place. -/
def Expects (name : String) (site : Option Location) (machine : Machine) : Prop :=
  ∀ frame ∈ machine.stack.head?, ∃ step, machine.steps.forFrame frame.serial = some step ∧
    step.form = "Call" ∧ step.callee = some name ∧ step.location = site

theorem expects_logStep (machine : Machine) (verbose : Bool) (name : String)
    (site : Option Location) :
    (machine.logStep verbose "Call" site (some name)).Expects name site := by
  intro frame innermost
  change frame ∈ machine.stack.head? at innermost
  unfold logStep
  rw [Option.mem_def.mp innermost]
  exact ⟨_, machine.steps.record_forFrame_same frame.serial _, rfl, rfl, rfl⟩

theorem Orderly.unlogged (orderly : machine.Orderly) :
    machine.steps.forFrame machine.nextSerial = none := by
  cases found : machine.steps.forFrame machine.nextSerial with
  | none => rfl
  | some step =>
      obtain ⟨frame, opened, same⟩ := orderly.live _ (StepLog.forFrame_mem found)
      exact absurd (orderly.given frame opened) (by simp [same])

theorem Linked.pushFrame (linked : machine.Linked own) {name : String} (scope : ScopeId)
    {site : Option Location} (ready : ¬ own machine.nextSerial → machine.Expects name site) :
    (machine.pushFrame name scope site).Linked own where
  toOrderly := linked.toOrderly.pushFrame name scope site
  logged := linked.logged
  chain := by
    refine List.isChain_cons.mpr ⟨?_, linked.chain⟩
    intro outer innermost foreign
    obtain ⟨step, found, form, callee, location⟩ := ready foreign outer innermost
    refine ⟨step, found, ⟨form, callee, location⟩, fun later absent => ?_⟩
    cases linked.toOrderly.unlogged.symm.trans absent

theorem Linked.closeFrame {frame : Frame} {frames : List Frame} (linked : machine.Linked own)
    (opened : machine.stack = frame :: frames) : (machine.closeFrame frame.serial).Linked own := by
  have others := linked.toOrderly.forget_outer opened
  have chain := linked.chain
  rw [opened] at chain
  refine ⟨linked.toOrderly.closeFrame opened, ?_, ?_⟩
  · exact fun entry member => linked.logged entry (List.mem_filter.mp member).1
  · rw [Machine.closeFrame, opened, List.tail_cons]
    refine (List.isChain_of_isChain_cons chain).imp_of_mem_imp ?_
    intro inner outer innerOpen outerOpen link foreign
    exact (link foreign).of_forFrame (others outer outerOpen) (others inner innerOpen)

theorem Linked.unwind (linked : machine.Linked own) (serial : Nat) :
    (machine.unwind serial).Linked own :=
  unwind_keeps (fun opened linked => Linked.closeFrame linked opened) machine serial linked

/-- A step goes to the innermost frame, which is nobody's outer one. -/
theorem Linked.record (linked : machine.Linked own) {step : Step}
    (isNext : step.index = machine.steps.count) :
    machine.stack.IsChain fun inner outer => ¬ own inner.serial →
      inner.CalledFrom (machine.steps.record (machine.stack.head?.map (·.serial)) step) outer := by
  have chain := linked.chain
  cases opened : machine.stack with
  | nil => exact .nil
  | cons frame frames =>
      have others := linked.toOrderly.record_outer opened step
      rw [opened] at chain
      simp only [List.head?_cons, Option.map_some]
      obtain ⟨innermost, rest⟩ := List.isChain_cons.mp chain
      refine List.isChain_cons.mpr ⟨fun outer next foreign => ?_, ?_⟩
      · obtain ⟨call, found, calls, _⟩ := innermost outer next foreign
        refine ⟨call, (others outer (List.mem_of_head? next)).trans found, calls, ?_⟩
        intro later logged
        cases (machine.steps.record_forFrame_same frame.serial step).symm.trans logged
        exact isNext ▸ linked.logged _ (StepLog.forFrame_mem found)
      · refine rest.imp_of_mem_imp ?_
        intro inner outer innerOpen outerOpen link foreign
        exact (link foreign).of_forFrame (others outer outerOpen) (others inner innerOpen)

theorem Linked.logStep (linked : machine.Linked own) (verbose : Bool) (form : String)
    (location : Option Location) (callee : Option String) :
    (machine.logStep verbose form location callee).Linked own where
  toOrderly := linked.toOrderly.logStep verbose form location callee
  logged := StepLog.record_index linked.logged _ rfl
  chain := linked.record rfl

theorem Linked.adjust {good : Value → Prop} {before after : Machine} (linked : before.Linked own)
    (adjustment : before.Adjustment good after) : after.Linked own := by
  cases adjustment with
  | step verbose form location callee => exact linked.logStep verbose form location callee
  | _ =>
      exact ⟨⟨linked.sorted, linked.given, linked.live, linked.counted⟩, linked.logged, linked.chain⟩

/-- The state is linked, and its stack is what it was. -/
structure Returned (own : Nat → Prop) (base machine : Machine) : Prop extends Linked own machine where
  stack : machine.stack = base.stack

theorem Linked.returned (linked : machine.Linked own) : Returned own machine machine :=
  ⟨linked, rfl⟩

theorem Returned.opens {base before : Machine} (returned : Returned own base before) (name : String)
    (scope : ScopeId) (site : Option Location)
    (ready : ¬ own before.nextSerial → before.Expects name site) :
    before.Opens (fun _ => Linked own) (Returned own) base name scope site := by
  refine ⟨before.pushFrame name scope site, (returned.pushFrame scope ready).returned, fun _ => id, ?_⟩
  intro machine closing inside
  rw [close_innermost inside.stack closing]
  exact ⟨inside.closeFrame inside.stack, (congrArg List.tail inside.stack).trans returned.stack⟩

end Machine

/-- Whatever is evaluated leaves the stack as it was, and linked. -/
def Standing.linked (setting : Setting) (own : Nat → Prop) : Standing setting where
  toDomain := Goodness.all.domain setting True
  Index := Machine
  through _ := Machine.Linked own
  ends := Machine.Returned own
  ready := Machine.Expects
  passable _ _ := Machine.Returned.toLinked
  found _ _ := trivial
  unused _ := trivial
  minor returned minor := ⟨returned.adjust minor, minor.frames.1.trans returned.stack⟩
  anywhere _ := trivial
  bound {_ before scope name _} returned _ _ :=
    have adjustment : before.Adjustment (fun _ => True) _ := .binding scope name trivial
    ⟨returned.adjust adjustment, returned.stack⟩
  called {_ machine} verbose name site _ := machine.expects_logStep verbose name site
  frame name scope site returned ready := returned.opens name scope site fun _ => ready
  quiet := setting.quiet_of_false
  breakable := Goodness.all.domain_breakable setting True
  texts _ _ _ _ _ _ := trivial

/-- The numbers of the host's own frames that a call opens: that of a frame that is pushed, or that of
a run. -/
def HostCall.opens (before : Machine) : HostCall → List Nat
  | run _ | pushFrame .. => [before.nextSerial]
  | _ => []

/-- The states that a machine reaches under a host, with the numbers of the host's own frames. -/
inductive Machine.ReachesWith (setting : Setting) (first : Machine) : List Nat → Machine → Prop
  | start : ReachesWith setting first [] first
  | passing {own : List Nat} {before machine : Machine} (call : HostCall)
      (reached : ReachesWith setting first own before)
      (passed : (call.perform setting before).passes machine) :
      ReachesWith setting first (call.opens before ++ own) machine
  | ending {own : List Nat} {before : Machine} (call : HostCall)
      (reached : ReachesWith setting first own before) :
      ReachesWith setting first (call.opens before ++ own) (call.perform setting before).machine

section Hosts

variable {setting : Setting} {own : Nat → Prop} {machine : Machine}

theorem linked_performs (call : HostCall) (fits : call.Fits (.linked setting own))
    (linked : machine.Linked own) :
    (call.perform setting machine).Meets (Machine.Linked own) (fun _ => machine.Returned own)
      (fun _ => machine.Returned own) := by
  have holds := (Standing.linked setting own).performs
    (fun _ _ _ => Goodness.all.admits (Script.obeysAll _ _)) call fits
  exact (holds machine machine linked.returned).leads (fun _ _ => And.left) fun _ _ => And.left

/-- The frame of a run is the host's own, and so nothing is expected before it is opened. -/
theorem linked_run (text : String) (linked : machine.Linked own) (isOwn : own machine.nextSerial) :
    (setting.run text machine).Meets (Machine.Linked own) (fun _ => machine.Returned own)
      (fun _ => machine.Returned own) := by
  have executes : ∀ scope, (Standing.linked setting own).Holds (Result fun _ => True)
      (setting.execute text scope) := fun scope =>
    (Standing.linked setting own).performs (fun _ _ _ => Goodness.all.admits (Script.obeysAll _ _))
      (.execute depthLimit text scope) trivial
  have opens : ∀ before scope, machine.Returned own before → own before.nextSerial →
      before.Opens (Standing.linked setting own).through (Standing.linked setting own).ends machine
        topLevel scope none :=
    fun before scope returned isOwn =>
      returned.opens topLevel scope none fun foreign => absurd isOwn foreign
  exact (Standing.Holds.run text linked.returned (fun scope _ added => opens _ scope added isOwn)
    executes).leads (fun _ _ => And.left) fun _ _ => And.left

theorem HostCall.linked (setting : Setting) (call : HostCall) (linked : machine.Linked own)
    (isOwn : ∀ serial ∈ call.opens machine, own serial) :
    (call.perform setting machine).Keeps (Machine.Linked own) := by
  cases changing : call.changesStack with
  | true =>
      refine HostCall.changes changing linked ?_ linked.unwind
      rintro name scope site rfl
      exact linked.pushFrame scope fun foreign => absurd (isOwn _ List.mem_cons_self) foreign
  | false =>
      have returns : (call.perform setting machine).Meets (Machine.Linked own)
          (fun _ => machine.Returned own) (fun _ => machine.Returned own) := by
        cases call with
        | run text => exact linked_run text linked (isOwn _ List.mem_cons_self)
        | pushFrame | unwind => cases changing
        | _ =>
            refine linked_performs _ ?_ linked
            simp [HostCall.Fits, Standing.linked, Goodness.domain, Goodness.all]
      exact returns.leads (fun _ _ => Machine.Returned.toLinked) fun _ _ => Machine.Returned.toLinked

theorem Machine.ReachesWith.linked {numbers : List Nat} {first : Machine}
    (reached : Machine.ReachesWith setting first numbers machine)
    (linked : ∀ {own}, first.Linked own) : machine.Linked (· ∈ numbers) := by
  induction reached with
  | start => exact linked
  | passing call _ passed ih =>
      have meets := call.linked setting (ih.more fun _ => List.mem_append_right _) fun _ =>
        List.mem_append_left _
      exact meets.passing _ passed
  | ending call _ ih =>
      have meets := call.linked setting (ih.more fun _ => List.mem_append_right _) fun _ =>
        List.mem_append_left _
      exact meets.last

theorem Machine.Linked.calledFrom (linked : machine.Linked own)
    (foreign : ∀ frame ∈ machine.stack.dropLast, ¬ own frame.serial) :
    machine.stack.IsChain fun inner outer => inner.CalledFrom machine.steps outer := by
  -- Of two neighbours the inner one is not the last of the stack, and so it is not the host's.
  refine List.isChain_iff_forall_rel_of_append_cons_cons.mpr fun inner outer before behind split => ?_
  refine List.isChain_iff_forall_rel_of_append_cons_cons.mp linked.chain split (foreign inner ?_)
  simp [split]

end Hosts

section Tracebacks

variable {log : StepLog} {stack : List Frame}

theorem logged_of_chain (chain : stack.IsChain fun inner outer => inner.CalledFrom log outer) :
    ∀ frame ∈ stack.tail, log.forFrame frame.serial ≠ none := by
  induction chain with
  | nil => nofun
  | singleton => nofun
  | cons_cons called rest ih =>
      obtain ⟨step, found, _⟩ := called
      refine List.forall_mem_cons.mpr ⟨?_, ih⟩
      rw [found]
      exact nofun

/-- From the innermost frame out, the latest steps get older. -/
theorem indices_descend (chain : stack.IsChain fun inner outer => inner.CalledFrom log outer) :
    (stack.filterMap fun frame => (log.forFrame frame.serial).map (·.index)).Pairwise (· > ·) := by
  refine List.IsChain.pairwise ?_
  induction chain with
  | nil => exact .nil
  | singleton frame => cases found : log.forFrame frame.serial <;> simp [found]
  | @cons_cons inner outer frames called rest ih =>
      obtain ⟨step, found, _, index⟩ := called
      cases innermost : log.forFrame inner.serial with
      | none =>
          rw [List.filterMap_cons_none (by rw [innermost]; rfl)]
          exact ih
      | some later =>
          rw [List.filterMap_cons_some (b := later.index) (by rw [innermost]; rfl)]
          refine List.isChain_cons.mpr ⟨fun next isNext => ?_, ih⟩
          rw [List.filterMap_cons_some (b := step.index) (by rw [found]; rfl)] at isNext
          cases isNext
          exact index later innermost

theorem openCalls_chain (chain : stack.IsChain fun inner outer => inner.CalledFrom log outer) :
    (openCalls log stack).IsChain fun outer inner => inner.CalledFrom outer := by
  unfold openCalls
  refine (List.isChain_map _).mpr (List.isChain_reverse.mpr (chain.imp fun inner outer called => ?_))
  obtain ⟨step, found, calls, index⟩ := called
  rw [found]
  refine ⟨step, rfl, rfl, calls.form, ?_, ?_⟩
  · cases innermost : log.forFrame inner.serial <;> exact calls.callee
  cases innermost : log.forFrame inner.serial with
  | none => exact ⟨fun _ => calls.location.symm, nofun⟩
  | some later => exact ⟨nofun, fun _ same => Option.some.inj same ▸ index later innermost⟩

end Tracebacks

/-- In every reachable state in which no frame but the outermost is one of the host's own, and so in
every failure that is made there: the latest step of a frame is that of the call of the next one, and
later frames have later steps.  Only in the innermost frame there may be none. -/
theorem open_calls_linked (setting : Setting) (own : List Nat) (machine : Machine)
    (reached : Machine.ReachesWith setting (.initial setting) own machine)
    (foreign : ∀ frame ∈ machine.stack.dropLast, frame.serial ∉ own) :
    (machine.stack.IsChain fun inner outer => inner.CalledFrom machine.steps outer) ∧
      (∀ frame ∈ machine.stack.tail, machine.steps.forFrame frame.serial ≠ none) ∧
      (machine.stack.filterMap fun frame =>
        (machine.steps.forFrame frame.serial).map (·.index)).Pairwise (· > ·) ∧
      ∀ message origin, (machine.failure message origin).calls.IsChain fun outer inner =>
        inner.CalledFrom outer := by
  have linked := reached.linked (Machine.linked_initial setting)
  have chain := linked.calledFrom foreign
  exact ⟨chain, logged_of_chain chain, indices_descend chain, fun _ _ => openCalls_chain chain⟩

/-- A function was called from the top level, and has logged nothing yet. -/
theorem open_calls_linked_entered :
    let setting : Setting := ⟨"<string>", false, Builtin.core, .none⟩
    let site : Location := ⟨"<string>", 1, 2, "f()"⟩
    let opened := ((HostCall.newScope none).perform setting (.initial setting)).machine
    let before := ((HostCall.pushFrame topLevel 0 none).perform setting opened).machine
    let machine := (({ before with scopes := before.scopes.add (some 0) }).logStep false "Call"
      (some site) (some "f")).pushFrame "f" 1 (some site)
    machine.stack.map (·.name) = ["f", topLevel] ∧
      machine.stack.IsChain fun inner outer => inner.CalledFrom machine.steps outer := by
  intro setting site opened before machine
  let call := HostCall.apply 1 (.function 0 [] ⟨⟨.leftBrace, "\x7b", 1, 1⟩, []⟩ 0) [] "f" (some site)
  have passed : (call.perform setting before).passes machine :=
    .inr (.inr (.inr (.inr (.inl (.inl (.inl (.inr rfl)))))))
  have reached : Machine.ReachesWith setting (.initial setting) [0] machine :=
    .passing call (.ending (.pushFrame topLevel 0 none) (.ending (.newScope none) .start)) passed
  exact ⟨rfl, (open_calls_linked setting [0] machine reached (by decide)).1⟩

end MonkeyLang
