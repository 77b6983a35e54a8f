import MonkeyLang.Proofs.Evaluation.Goodness
import MonkeyLang.Proofs.Evaluation.Marks

namespace MonkeyLang

/-! # Events of evaluation

What recording hooks keep are the announced events in their order.  They are bracketed like the
statements and calls that they enclose, and every step of the log belongs to an opening event.  Only
what was opened in a request whose fault a builtin has caught is never closed.
-/

namespace Emission

/-- What a recording hook keeps of an announcement. -/
def recorded (emission : Emission) (hook : Hook) : Option Recorded :=
  (emission.notice.details? emission.machine.scopes).map fun details =>
    ⟨hook.extension, emission.notice.event, emission.machine.stack.length,
      emission.machine.steps.count, details⟩

def isOpening (emission : Emission) : Bool :=
  match emission.notice with
  | .beforeStatement .. | .beforeCall .. => true
  | _ => false

/-- A closing event fits an opening one if both are about the same statement or the same call, at the
same stack. -/
inductive Closes : Emission → Emission → Prop
  | statement {statement : Node} {scope : ScopeId} {opened closed : Machine}
      (sameStack : closed.stack = opened.stack) :
      Closes ⟨.afterStatement statement scope, closed⟩ ⟨.beforeStatement statement scope, opened⟩
  | call {name : String} {arguments : List Value} {result : Option Value} {scope : Option ScopeId}
      {site : Option Location} {opened closed : Machine} (sameStack : closed.stack = opened.stack) :
      Closes ⟨.afterCall name result scope site, closed⟩
        ⟨.beforeCall name arguments scope site, opened⟩

end Emission

def Mark.isAnnounced : Mark → Bool
  | .announced _ => true
  | .caught .. => false

/-- Whether a mark is that of an event that opens a statement or a call. -/
def Mark.isOpening : Mark → Bool
  | .announced emission => emission.isOpening
  | .caught .. => false

/-- Events that open and close, from the events that are open at the beginning to those that are
open at the end, the most recent ones first.  Where a builtin catches the fault of a request, what was
opened in that request stays open for good, and nothing else does. -/
inductive Bracketed : List Emission → List Mark → List Emission → Prop
  | done (opened : List Emission) : Bracketed opened [] opened
  | opens {opened left : List Emission} {event : Emission} {marks : List Mark}
      (isOpening : event.isOpening = true) (others : Bracketed (event :: opened) marks left) :
      Bracketed opened (.announced event :: marks) left
  | closes {opened left : List Emission} {event opening : Emission} {marks : List Mark}
      (fits : event.Closes opening) (others : Bracketed opened marks left) :
      Bracketed (opening :: opened) (.announced event :: marks) left
  | caught {abandoned opened left : List Emission} {marks : List Mark} {begun : Nat} (fault : Fault)
      (inside : ∀ event ∈ abandoned, begun ≤ event.machine.steps.count)
      (outside : ∀ event ∈ opened, event.machine.steps.count < begun)
      (others : Bracketed opened marks left) :
      Bracketed (abandoned ++ opened) (.caught fault begun :: marks) left

namespace Bracketed

variable {opened middle left outer : List Emission} {marks later : List Mark}
  {opening closing : Emission}

theorem append (first : Bracketed opened marks middle) (second : Bracketed middle later left) :
    Bracketed opened (marks ++ later) left := by
  induction first with
  | done => exact second
  | opens isOpening others ih => exact .opens isOpening (ih second)
  | closes fits others ih => exact .closes fits (ih second)
  | caught fault inside outside others ih => exact .caught fault inside outside (ih second)

/-- Around events that were opened before any of the requests of which a fault is caught, all is
bracketed as it is alone. -/
theorem within (bracketed : Bracketed opened marks left)
    (earlier : ∀ fault begun, .caught fault begun ∈ marks →
      ∀ event ∈ outer, event.machine.steps.count < begun) :
    Bracketed (opened ++ outer) marks (left ++ outer) := by
  induction bracketed with
  | done => exact .done _
  | opens isOpening others ih =>
      exact .opens isOpening (ih fun fault begun member =>
        earlier fault begun (List.mem_cons_of_mem _ member))
  | closes fits others ih =>
      exact .closes fits (ih fun fault begun member =>
        earlier fault begun (List.mem_cons_of_mem _ member))
  | caught fault inside outside others ih =>
      rw [List.append_assoc]
      refine .caught fault inside (fun event member => ?_)
        (ih fun fault begun member => earlier fault begun (List.mem_cons_of_mem _ member))
      exact (List.mem_append.mp member).elim (outside event)
        (earlier fault _ List.mem_cons_self event)

/-- What was still open when a fault was caught is not waited for. -/
theorem abandoned (bracketed : Bracketed [] marks left) (fault : Fault) {begun : Nat}
    (inside : ∀ event ∈ left, begun ≤ event.machine.steps.count) :
    Bracketed [] (marks ++ [.caught fault begun]) [] := by
  have dropped : Bracketed (left ++ []) [.caught fault begun] [] :=
    .caught fault inside (List.forall_mem_nil _) (.done [])
  rw [List.append_nil] at dropped
  exact bracketed.append dropped

end Bracketed

/-- The number of statements and calls that are opened. -/
def openings (marks : List Mark) : Nat := marks.countP (·.isOpening)

namespace Hooks

/-- All hooks only record. -/
def Record (hooks : Hooks) : Prop :=
  ∀ event, ∀ hook ∈ hooks.of event, ∀ circumstance notice,
    hook.react circumstance notice = .record

/-- What the hooks keep of what has left a mark. -/
def records (hooks : Hooks) (marks : List Mark) : List Recorded :=
  marks.flatMap fun
    | .announced emission => (hooks.of emission.notice.event).filterMap emission.recorded
    | .caught .. => []

end Hooks

/-- From one state to another the hooks have kept what left a mark, the stack is the same again, and
the log has only grown. -/
structure Emitted (hooks : Hooks) (before after : Machine) (marks : List Mark) : Prop where
  recorded : after.recorded.toList = before.recorded.toList ++ hooks.records marks
  stack : after.stack = before.stack
  steps : before.steps.count ≤ after.steps.count

/-- Every opening event has its step, and every hook has kept every event that it is called for. -/
structure Complete (hooks : Hooks) (before after : Machine) (marks : List Mark) : Prop where
  counted : after.steps.count = before.steps.count + openings marks
  kept : ∀ emission, .announced emission ∈ marks → ∀ hook ∈ hooks.of emission.notice.event,
    (emission.recorded hook).isSome = true

/-- No builtin has caught a fault. -/
def Uncaught (marks : List Mark) : Prop := ∀ fault begun, .caught fault begun ∉ marks

/-- No builtin has caught that evaluation went too deep. -/
def Shallow (marks : List Mark) : Prop := ∀ begun, .caught .depth begun ∉ marks

variable {hooks : Hooks} {before between after : Machine} {marks later : List Mark}

theorem Emitted.append (first : Emitted hooks before between marks)
    (second : Emitted hooks between after later) :
    Emitted hooks before after (marks ++ later) where
  recorded := by
    rw [second.recorded, first.recorded, List.append_assoc]
    simp only [Hooks.records, List.flatMap_append]
  stack := second.stack.trans first.stack
  steps := Nat.le_trans first.steps second.steps

theorem Complete.append (first : Complete hooks before between marks)
    (second : Complete hooks between after later) :
    Complete hooks before after (marks ++ later) where
  counted := by
    rw [second.counted, first.counted, openings, openings, openings, List.countP_append,
      Nat.add_assoc]
  kept emission member :=
    (List.mem_append.mp member).elim (first.kept emission) (second.kept emission)

theorem Uncaught.tail {mark : Mark} (uncaught : Uncaught (mark :: marks)) : Uncaught marks :=
  fun fault begun member => uncaught fault begun (List.mem_cons_of_mem _ member)

theorem Shallow.left (shallow : Shallow (marks ++ later)) : Shallow marks :=
  fun begun member => shallow begun (List.mem_append_left _ member)

theorem Shallow.right (shallow : Shallow (marks ++ later)) : Shallow later :=
  fun begun member => shallow begun (List.mem_append_right _ member)

/-- Nothing that hooks or the log see has changed. -/
structure Machine.Quiet (before after : Machine) : Prop where
  recorded : after.recorded = before.recorded
  stack : after.stack = before.stack
  steps : after.steps.count = before.steps.count

theorem Machine.Quiet.emitted (quiet : before.Quiet after) : Emitted hooks before after [] :=
  ⟨by rw [quiet.recorded]; exact (List.append_nil _).symm, quiet.stack, Nat.le_of_eq quiet.steps.symm⟩

/-- A step has been logged, and nothing else of what hooks see has changed. -/
structure Machine.Logged (before after : Machine) : Prop where
  recorded : after.recorded = before.recorded
  stack : after.stack = before.stack
  count : after.steps.count = before.steps.count + 1

theorem Machine.Logged.emitted (logged : between.Logged after)
    (emitted : Emitted hooks before between marks) : Emitted hooks before after marks :=
  ⟨by rw [logged.recorded, emitted.recorded], logged.stack.trans emitted.stack,
    Nat.le_trans emitted.steps (by rw [logged.count]; exact Nat.le_succ _)⟩

/-- Between two hooks of an announcement. -/
structure Machine.Alike (before after : Machine) : Prop where
  stack : after.stack = before.stack
  steps : after.steps = before.steps
  scopes : after.scopes = before.scopes

theorem Emission.recorded_alike {notice : Notice} (alike : before.Alike after) (hook : Hook) :
    Emission.recorded ⟨notice, after⟩ hook = Emission.recorded ⟨notice, before⟩ hook := by
  simp only [Emission.recorded, alike.stack, alike.steps, alike.scopes]

section Announcing

variable {notice : Notice} {hook : Hook} {called : List Hook}

theorem callHook_records (records : ∀ circumstance, hook.react circumstance notice = .record)
    {details : Details} (shown : notice.details? before.scopes = some details) :
    (Eval.callHook hook notice before).Leaves
      (fun _ after marks => before.Alike after ∧ after.recorded.toList =
        before.recorded.toList ++ [hook].filterMap (Emission.recorded ⟨notice, before⟩) ∧ marks = [])
      (fun _ _ _ => False) := by
  refine .changing ?_
  rw [records]
  dsimp only
  rw [shown]
  refine .modifies ⟨⟨rfl, rfl, rfl⟩, ?_, rfl⟩
  simp [Machine.record, Machine.hookCall, Emission.recorded, shown]

theorem callHook_fails (records : ∀ circumstance, hook.react circumstance notice = .record)
    (hidden : notice.details? before.scopes = none) :
    (Eval.callHook hook notice before).Leaves (fun _ _ _ => False)
      (fun fault after marks => fault = .depth ∧ before.Quiet after ∧ marks = []) := by
  refine .changing ?_
  rw [records]
  dsimp only
  rw [hidden]
  exact .raise ⟨rfl, ⟨rfl, rfl, rfl⟩, rfl⟩

theorem callHooks_record (records : ∀ hook ∈ called, ∀ circumstance,
    hook.react circumstance notice = .record) {details : Details}
    (shown : notice.details? before.scopes = some details) :
    (Eval.callHooks called notice before).Leaves
      (fun _ after marks => before.Alike after ∧ after.recorded.toList =
        before.recorded.toList ++ called.filterMap (Emission.recorded ⟨notice, before⟩) ∧ marks = [])
      (fun _ _ _ => False) := by
  induction called generalizing before with
  | nil => exact .pure ⟨⟨rfl, rfl, rfl⟩, (List.append_nil _).symm, rfl⟩
  | cons hook others ih =>
      obtain ⟨hookRecords, othersRecord⟩ := List.forall_mem_cons.mp records
      refine (callHook_records hookRecords shown).bind ?_
      rintro _ between _ ⟨alike, recorded, rfl⟩
      refine (ih othersRecord (alike.scopes ▸ shown)).leads ?_ fun _ _ _ => id
      rintro _ after _ ⟨alikeAfter, recordedAfter, rfl⟩
      refine ⟨⟨alikeAfter.stack.trans alike.stack, alikeAfter.steps.trans alike.steps,
        alikeAfter.scopes.trans alike.scopes⟩, ?_, rfl⟩
      have same : Emission.recorded ⟨notice, between⟩ = Emission.recorded ⟨notice, before⟩ :=
        funext (Emission.recorded_alike alike)
      rw [recordedAfter, recorded, same, List.append_assoc, ← List.filterMap_append,
        List.singleton_append]

/-- A notice has been announced in the state before, and the hooks have kept it if it can be
shown. -/
structure Announced (hooks : Hooks) (notice : Notice) (before after : Machine) (marks : List Mark) :
    Prop where
  announced : marks = [.announced ⟨notice, before⟩]
  emitted : Emitted hooks before after marks
  count : after.steps.count = before.steps.count

/-- All hooks have kept the notice, if there are any. -/
structure Heard (hooks : Hooks) (notice : Notice) (before after : Machine) (marks : List Mark) : Prop
    extends Announced hooks notice before after marks where
  kept : ∀ hook ∈ hooks.of notice.event, (Emission.recorded ⟨notice, before⟩ hook).isSome = true

theorem Heard.complete (heard : Heard hooks notice before between marks)
    (logged : after.steps.count = before.steps.count +
      (Emission.isOpening ⟨notice, before⟩).toNat) : Complete hooks before after marks where
  counted := by
    rw [logged, heard.announced, openings, List.countP_singleton, Mark.isOpening]
    cases Emission.isOpening ⟨notice, before⟩ <;> rfl
  kept emission member := by
    rw [heard.announced] at member
    cases List.mem_singleton.mp member
    exact heard.kept

theorem Heard.closing (heard : Heard hooks notice before after marks)
    (outside : Emission.isOpening ⟨notice, before⟩ = false) : Complete hooks before after marks :=
  heard.complete (by rw [heard.count, outside]; rfl)

theorem announce_shown (recording : hooks.Record) {details : Details}
    (shown : notice.details? before.scopes = some details)
    {broken : Fault → Machine → List Mark → Prop} :
    (Eval.announce hooks notice before).Leaves
      (fun _ after marks => Heard hooks notice before after marks) broken := by
  have records : ∀ hook ∈ hooks.of notice.event, ∀ circumstance,
      hook.react circumstance notice = .record :=
    fun hook member circumstance => recording notice.event hook member circumstance notice
  refine .noting ((callHooks_record records shown).leads ?_ fun _ _ _ => False.elim)
  rintro _ after _ ⟨alike, recorded, rfl⟩
  have same : after.steps.count = before.steps.count := by rw [alike.steps]
  refine ⟨⟨rfl, ⟨?_, alike.stack, Nat.le_of_eq same.symm⟩, same⟩, fun hook _ => ?_⟩
  · simpa only [Hooks.records, List.flatMap_cons, List.flatMap_nil, List.append_nil] using recorded
  · rw [Emission.recorded, shown]
    rfl

/-- Where a notice cannot be shown, nothing is kept of it. -/
theorem Announced.hidden (hidden : notice.details? before.scopes = none)
    (quiet : before.Quiet after) :
    Announced hooks notice before after [.announced ⟨notice, before⟩] := by
  refine ⟨rfl, ⟨?_, quiet.stack, Nat.le_of_eq quiet.steps.symm⟩, quiet.steps⟩
  simp [quiet.recorded, Hooks.records, Emission.recorded, hidden]

/-- An announcement reaches all hooks or, where the notice cannot be shown, none of them. -/
theorem announce_leaves (recording : hooks.Record) (notice : Notice) (before : Machine) :
    (Eval.announce hooks notice before).Leaves
      (fun _ after marks => Heard hooks notice before after marks)
      (fun fault after marks => fault = .depth ∧ Announced hooks notice before after marks) := by
  cases shown : notice.details? before.scopes with
  | some details => exact announce_shown recording shown
  | none =>
      refine .noting ?_
      cases called : hooks.of notice.event with
      | nil => exact .pure ⟨.hidden shown ⟨rfl, rfl, rfl⟩, by simp [called]⟩
      | cons hook others =>
          have records : ∀ circumstance, hook.react circumstance notice = .record := by
            refine fun circumstance => recording notice.event hook ?_ circumstance notice
            rw [called]
            exact List.mem_cons_self
          refine Course.Leaves.bind ((callHook_fails records shown).leads (fun _ _ _ => id) ?_)
            fun _ _ _ => False.elim
          rintro fault after _ ⟨same, quiet, rfl⟩
          exact ⟨same, .hidden shown quiet⟩

end Announcing

/-- Faults are only caught where that is allowed, and those of requests since a state only. -/
def Catching (catching : Prop) (before : Machine) (marks : List Mark) : Prop :=
  ∀ fault begun, .caught fault begun ∈ marks → catching ∧ before.steps.count ≤ begun

/-- What marks tell of the states before and after them. -/
structure Accounted (hooks : Hooks) (catching : Prop) (before after : Machine) (marks : List Mark) :
    Prop where
  emitted : Emitted hooks before after marks
  complete : Shallow marks → Complete hooks before after marks
  catches : Catching catching before marks

/-- Everything that was opened is closed or given up. -/
structure Balanced (hooks : Hooks) (catching : Prop) (before after : Machine) (marks : List Mark) :
    Prop extends Accounted hooks catching before after marks where
  bracketed : Bracketed [] marks []

/-- Something may still be open.  Where evaluation is too deep, a step may be missing. -/
structure Halted (hooks : Hooks) (catching : Prop) (fault : Fault) (before after : Machine)
    (marks : List Mark) : Prop where
  emitted : Emitted hooks before after marks
  complete : fault ≠ .depth → Shallow marks → Complete hooks before after marks
  bracketed : ∃ left, Bracketed [] marks left ∧
    ∀ event ∈ left, before.steps.count ≤ event.machine.steps.count
  catches : Catching catching before marks

variable {catching : Prop} {fault : Fault}

theorem Catching.earlier (catches : Catching catching between marks)
    (steps : before.steps.count ≤ between.steps.count) : Catching catching before marks :=
  fun fault begun member => (catches fault begun member).imp id (Nat.le_trans steps)

theorem Catching.append (first : Catching catching before marks)
    (second : Catching catching before later) : Catching catching before (marks ++ later) :=
  fun fault begun member => (List.mem_append.mp member).elim (first fault begun) (second fault begun)

theorem Catching.announced (emission : Emission) :
    Catching catching before [.announced emission] :=
  fun _ _ member => nomatch List.mem_singleton.mp member

theorem Accounted.append (first : Accounted hooks catching before between marks)
    (second : Accounted hooks catching between after later) :
    Accounted hooks catching before after (marks ++ later) where
  emitted := first.emitted.append second.emitted
  complete shallow := (first.complete shallow.left).append (second.complete shallow.right)
  catches := first.catches.append (second.catches.earlier first.emitted.steps)

theorem Halted.accounted (halted : Halted hooks catching fault before after marks)
    (room : fault ≠ .depth) : Accounted hooks catching before after marks :=
  ⟨halted.emitted, halted.complete room, halted.catches⟩

theorem Heard.accounted {notice : Notice} (heard : Heard hooks notice before after marks)
    (outside : Emission.isOpening ⟨notice, before⟩ = false) :
    Accounted hooks catching before after marks :=
  ⟨heard.emitted, fun _ => heard.closing outside, heard.announced ▸ .announced _⟩

theorem Machine.Quiet.balanced (quiet : before.Quiet after) :
    Balanced hooks catching before after [] :=
  ⟨⟨quiet.emitted, fun _ => ⟨quiet.steps, fun _ member => nomatch member⟩,
    fun _ _ member => nomatch member⟩, .done []⟩

namespace Balanced

theorem rfl : Balanced hooks catching before before [] :=
  Machine.Quiet.balanced ⟨Eq.refl _, Eq.refl _, Eq.refl _⟩

theorem append (first : Balanced hooks catching before between marks)
    (second : Balanced hooks catching between after later) :
    Balanced hooks catching before after (marks ++ later) :=
  ⟨first.toAccounted.append second.toAccounted, first.bracketed.append second.bracketed⟩

theorem halts (first : Balanced hooks catching before between marks)
    (second : Halted hooks catching fault between after later) :
    Halted hooks catching fault before after (marks ++ later) where
  emitted := first.emitted.append second.emitted
  complete room shallow :=
    (first.complete shallow.left).append (second.complete room shallow.right)
  bracketed := by
    obtain ⟨left, bracketed, late⟩ := second.bracketed
    exact ⟨left, first.bracketed.append bracketed, fun event member =>
      Nat.le_trans first.emitted.steps (late event member)⟩
  catches := first.catches.append (second.catches.earlier first.emitted.steps)

theorem halted (balanced : Balanced hooks catching before after marks) (fault : Fault) :
    Halted hooks catching fault before after marks :=
  ⟨balanced.emitted, fun _ => balanced.complete, ⟨[], balanced.bracketed, List.forall_mem_nil _⟩,
    balanced.catches⟩

end Balanced

/-- A fault that is caught leaves a mark, and nothing is open any more. -/
theorem Halted.caught (halted : Halted hooks catching fault before after marks)
    (isCatching : catching) :
    Balanced hooks catching before after (marks ++ [.caught fault before.steps.count]) where
  emitted := by
    have quiet : Emitted hooks after after [.caught fault before.steps.count] :=
      ⟨(List.append_nil _).symm, rfl, Nat.le_refl _⟩
    exact halted.emitted.append quiet
  complete shallow := by
    have room : fault ≠ .depth := fun same => shallow before.steps.count (by simp [same])
    have unchanged : Complete hooks after after [.caught fault before.steps.count] :=
      ⟨rfl, fun _ member => nomatch List.mem_singleton.mp member⟩
    exact (halted.complete room shallow.left).append unchanged
  bracketed := by
    obtain ⟨left, bracketed, late⟩ := halted.bracketed
    exact bracketed.abandoned fault late
  catches := by
    refine halted.catches.append fun _ _ member => ?_
    cases List.mem_singleton.mp member
    exact ⟨isCatching, Nat.le_refl _⟩

section Framed

variable {name : String} {scope : ScopeId} {site : Option Location}

theorem Emitted.closeFrame (emitted : Emitted hooks (before.pushFrame name scope site) after marks)
    (serial : Nat) : Emitted hooks before (after.closeFrame serial) marks where
  recorded := emitted.recorded
  stack := by
    rw [Machine.closeFrame, emitted.stack]
    rfl
  steps := emitted.steps

theorem Balanced.closeFrame
    (balanced : Balanced hooks catching (before.pushFrame name scope site) after marks)
    (serial : Nat) : Balanced hooks catching before (after.closeFrame serial) marks :=
  ⟨⟨balanced.emitted.closeFrame serial,
    fun shallow => ⟨(balanced.complete shallow).counted, (balanced.complete shallow).kept⟩,
    balanced.catches⟩, balanced.bracketed⟩

theorem Halted.closeFrame
    (halted : Halted hooks catching fault (before.pushFrame name scope site) after marks)
    (serial : Nat) : Halted hooks catching fault before (after.closeFrame serial) marks :=
  ⟨halted.emitted.closeFrame serial,
    fun room shallow => ⟨(halted.complete room shallow).counted, (halted.complete room shallow).kept⟩,
    halted.bracketed, halted.catches⟩

end Framed

theorem Halted.capture (halted : Halted hooks catching fault before after marks)
    (machine : Machine) : Halted hooks catching (Eval.capture machine fault) before after marks where
  emitted := halted.emitted
  complete room := by
    refine halted.complete fun same => room ?_
    subst same
    rfl
  bracketed := halted.bracketed
  catches := halted.catches

/-- An opening event may be the last one. -/
theorem Announced.halted {opening : Notice}
    (announced : Announced hooks opening before after marks)
    (isOpening : Emission.isOpening ⟨opening, before⟩ = true) :
    Halted hooks catching .depth before after marks := by
  obtain ⟨rfl, emitted, _⟩ := announced
  exact ⟨emitted, fun room => absurd rfl room, ⟨_, .opens isOpening (.done _),
    List.forall_mem_singleton.mpr (Nat.le_refl _)⟩, .announced _⟩

/-- An opening event whose step is logged too. -/
structure Opened (hooks : Hooks) (opening : Notice) (before after : Machine) (marks : List Mark) :
    Prop where
  announced : marks = [.announced ⟨opening, before⟩]
  isOpening : Emission.isOpening ⟨opening, before⟩ = true
  emitted : Emitted hooks before after marks
  complete : Complete hooks before after marks

namespace Opened

variable {opening closing : Notice} {last : Machine} {between : Machine} {begin finish : List Mark}

theorem ofLogged (heard : Heard hooks opening before between begin) (logged : between.Logged after)
    (isOpening : Emission.isOpening ⟨opening, before⟩ = true) :
    Opened hooks opening before after begin where
  announced := heard.announced
  isOpening := isOpening
  emitted := logged.emitted heard.emitted
  complete := heard.complete (by rw [logged.count, heard.count, isOpening]; rfl)

theorem logged (opened : Opened hooks opening before between begin) :
    before.steps.count < between.steps.count := by
  rw [opened.complete.counted, opened.announced, openings, List.countP_singleton, Mark.isOpening,
    opened.isOpening]
  exact Nat.lt_succ_self _

/-- What is opened precedes all requests inside it. -/
theorem precedes (opened : Opened hooks opening before between begin)
    (catches : Catching catching between marks) (fault : Fault) (begun : Nat)
    (member : .caught fault begun ∈ marks) :
    ∀ event ∈ [(⟨opening, before⟩ : Emission)], event.machine.steps.count < begun :=
  List.forall_mem_singleton.mpr (Nat.lt_of_lt_of_le opened.logged (catches fault begun member).2)

theorem bracketed (opened : Opened hooks opening before between begin)
    (body : Balanced hooks catching between after marks)
    (fits : Emission.Closes ⟨closing, after⟩ ⟨opening, before⟩) :
    Bracketed [] (begin ++ (marks ++ [.announced ⟨closing, after⟩])) [] := by
  rw [opened.announced]
  exact .opens opened.isOpening
    ((body.bracketed.within (opened.precedes body.catches)).append (.closes fits (.done [])))

theorem catches (opened : Opened hooks opening before between begin)
    (inside : Catching catching between marks) : Catching catching before (begin ++ marks) := by
  rw [opened.announced]
  exact (Catching.announced _).append (inside.earlier (Nat.le_of_lt opened.logged))

theorem halts (opened : Opened hooks opening before between begin)
    (halted : Halted hooks catching fault between after marks) :
    Halted hooks catching fault before after (begin ++ marks) where
  emitted := opened.emitted.append halted.emitted
  complete room shallow := opened.complete.append (halted.complete room shallow.right)
  bracketed := by
    obtain ⟨left, bracketed, late⟩ := halted.bracketed
    have around := bracketed.within (opened.precedes halted.catches)
    refine ⟨left ++ [⟨opening, before⟩], ?_, ?_⟩
    · rw [opened.announced]
      exact .opens opened.isOpening around
    · exact List.forall_mem_append.mpr ⟨fun event member =>
        Nat.le_trans (Nat.le_of_lt opened.logged) (late event member),
        List.forall_mem_singleton.mpr (Nat.le_refl _)⟩
  catches := opened.catches halted.catches

/-- The end is announced, be it that not all hooks hear of it. -/
theorem halted (opened : Opened hooks opening before between begin)
    (body : Balanced hooks catching between after marks)
    (fits : Emission.Closes ⟨closing, after⟩ ⟨opening, before⟩)
    (announced : Announced hooks closing after last finish) :
    Halted hooks catching .depth before last (begin ++ (marks ++ finish)) where
  emitted := opened.emitted.append (body.emitted.append announced.emitted)
  complete room := absurd rfl room
  bracketed := by
    rw [announced.announced]
    exact ⟨[], opened.bracketed body fits, List.forall_mem_nil _⟩
  catches := by
    rw [announced.announced]
    exact opened.catches (body.catches.append (Catching.announced _))

theorem closes (opened : Opened hooks opening before between begin)
    (body : Balanced hooks catching between after marks)
    (fits : Emission.Closes ⟨closing, after⟩ ⟨opening, before⟩)
    (heard : Heard hooks closing after last finish) :
    Balanced hooks catching before last (begin ++ (marks ++ finish)) where
  emitted := opened.emitted.append (body.emitted.append heard.emitted)
  complete shallow := by
    have outside : Emission.isOpening ⟨closing, after⟩ = false := by cases fits <;> rfl
    exact opened.complete.append
      ((body.complete shallow.right.left).append (heard.closing outside))
  bracketed := by
    rw [heard.announced]
    exact opened.bracketed body fits
  catches := by
    rw [heard.announced]
    exact opened.catches (body.catches.append (Catching.announced _))

end Opened

/-- An evaluation emits what it opens and closes, and ends with a result as described. -/
def Eval.Emits {α : Type} (hooks : Hooks) (catching : Prop) (post : α → Prop)
    (action : Eval α) : Prop :=
  ∀ before, (action before).Leaves
    (fun result after marks => post result ∧ Balanced hooks catching before after marks)
    (fun fault after marks => Halted hooks catching fault before after marks)

namespace Eval.Emits

variable {α β : Type} {post : α → Prop} {setting : Setting}

theorem pure {result : α} (holds : post result) :
    Eval.Emits hooks catching post (Pure.pure result) :=
  fun _ => .pure ⟨holds, .rfl⟩

theorem raise (cause : Cause) (fault : Fault) :
    Eval.Emits hooks catching post (Eval.raiseFor cause fault) :=
  fun _ => .raise (Balanced.rfl.halted fault)

theorem weaken {strong : α → Prop} {action : Eval α}
    (emits : Eval.Emits hooks catching strong action)
    (weaker : ∀ result, strong result → post result) : Eval.Emits hooks catching post action :=
  fun before => (emits before).leads
    (fun result _ _ ended => ⟨weaker result ended.1, ended.2⟩) fun _ _ _ => id

theorem bind {last : β → Prop} {first : Eval α} {next : α → Eval β}
    (emits : Eval.Emits hooks catching post first)
    (rest : ∀ result, post result → Eval.Emits hooks catching last (next result)) :
    Eval.Emits hooks catching last (first >>= next) := by
  intro before
  refine (emits before).bind ?_
  rintro result between marks ⟨holds, balanced⟩
  refine (rest result holds between).leads ?_ ?_
  · exact fun _ _ _ ended => ⟨ended.1, balanced.append ended.2⟩
  · exact fun _ _ _ halted => balanced.halts halted

theorem get : Eval.Emits hooks catching (fun _ => True) MonadState.get :=
  fun _ => .get ⟨trivial, .rfl⟩

theorem change {step : Machine → α × Machine}
    (quiet : ∀ machine : Machine, machine.Quiet (step machine).2)
    (gives : ∀ machine, post (step machine).1) :
    Eval.Emits hooks catching post (Eval.change step) :=
  fun before => .change ⟨gives before, (quiet before).balanced⟩

theorem define {scope : ScopeId} {name : String} {value : Value} :
    Eval.Emits hooks catching (fun bound => bound = value ∧ value.isSignal = false)
      (Eval.bind scope name value) := by
  unfold Eval.bind
  cases signal : value.isSignal with
  | true => exact raise _ _
  | false =>
      have bound : Eval.Emits hooks catching (fun _ => True)
          (modify fun machine =>
            { machine with scopes := machine.scopes.bind scope name value } : Eval PUnit) :=
        change (fun _ => ⟨rfl, rfl, rfl⟩) fun _ => trivial
      exact bind bound fun _ _ => pure ⟨rfl, rfl⟩

theorem bracket {post : Option Value → Prop} {body : Eval (Option Value)} {log : Eval Unit}
    {opening : Notice} {closing : Option Value → Notice} (recording : setting.hooks.Record)
    (isOpening : ∀ before, Emission.isOpening ⟨opening, before⟩ = true)
    (fits : ∀ result opened closed, closed.stack = opened.stack →
      Emission.Closes ⟨closing result, closed⟩ ⟨opening, opened⟩)
    (logs : ∀ before, (log before).Leaves (fun _ after marks => before.Logged after ∧ marks = [])
      (fun fault after marks => fault = .depth ∧ after = before ∧ marks = []))
    (emits : Eval.Emits setting.hooks catching post body) :
    Eval.Emits setting.hooks catching post (Eval.bracket setting opening log body closing) := by
  intro before
  have began : (Eval.announce setting.hooks opening before).Leaves
      (fun _ between begin => Heard setting.hooks opening before between begin)
      (fun fault after marks => Halted setting.hooks catching fault before after marks) := by
    refine (announce_leaves recording opening before).leads (fun _ _ _ => id) ?_
    rintro _ after marks ⟨rfl, announced⟩
    exact announced.halted (isOpening before)
  refine began.bind fun _ between begin heard => ?_
  have logged : (log between).Leaves
      (fun _ start marks => Opened setting.hooks opening before start begin ∧ marks = [])
      (fun fault after marks => Halted setting.hooks catching fault before after (begin ++ marks)) := by
    refine (logs between).leads ?_ ?_
    · rintro _ start marks ⟨steps, rfl⟩
      exact ⟨.ofLogged heard steps (isOpening before), rfl⟩
    · rintro _ after marks ⟨rfl, rfl, rfl⟩
      rw [List.append_nil]
      exact heard.halted (isOpening before)
  refine logged.bind ?_
  rintro _ start _ ⟨opened, rfl⟩
  refine Course.Leaves.bind ((emits start).leads (fun _ _ _ => id) fun _ _ _ => opened.halts) ?_
  rintro result finish inner ⟨holds, balanced⟩
  have sameStack : finish.stack = before.stack :=
    balanced.emitted.stack.trans opened.emitted.stack
  have isClosing := fits result before finish sameStack
  have closes := (announce_leaves recording (closing result) finish).leads
    (fun _ _ _ => opened.closes balanced isClosing)
    fun _ _ _ failed => failed.1 ▸ opened.halted balanced isClosing failed.2
  refine closes.bind fun _ last ending closed => .pure ⟨holds, ?_⟩
  rw [List.append_nil]
  exact closed

theorem logs (form : String) (location : Option Location) (callee : Option String)
    (before : Machine) :
    (Eval.logStep setting.verbose form location callee before).Leaves
      (fun _ after marks => before.Logged after ∧ marks = [])
      (fun fault after marks => fault = .depth ∧ after = before ∧ marks = []) :=
  .modifies ⟨⟨rfl, rfl, rfl⟩, rfl⟩

theorem located (tree : Node) (before : Machine) :
    (Eval.locate setting tree before).Leaves (fun _ after marks => after = before ∧ marks = [])
      (fun fault after marks => fault = .depth ∧ after = before ∧ marks = []) := by
  unfold Eval.locate
  dsimp only
  refine .look ?_
  generalize (if tree.token.line = 0 then none else before.lines[tree.token.line - 1]?) = line
  cases line with
  | some line => exact .pure ⟨rfl, rfl⟩
  | none =>
      cases tree.render? with
      | some text => exact .pure ⟨rfl, rfl⟩
      | none => exact .raise ⟨rfl, rfl, rfl⟩

theorem locate (tree : Node) :
    Eval.Emits hooks catching (fun _ => True) (Eval.locate setting tree) := by
  refine fun before => (located tree before).leads ?_ ?_
  · rintro _ _ _ ⟨rfl, rfl⟩
    exact ⟨trivial, .rfl⟩
  · rintro fault _ _ ⟨_, rfl, rfl⟩
    exact Balanced.rfl.halted fault

theorem inStatement {post : Option Value → Prop} {body : Eval (Option Value)}
    (recording : setting.hooks.Record) (statement : Node) (scope : ScopeId)
    (emits : Eval.Emits setting.hooks catching post body) :
    Eval.Emits setting.hooks catching post (Eval.inStatement setting statement scope body) := by
  refine bracket recording (fun _ => rfl) (fun _ _ _ => .statement) (fun before => ?_) emits
  refine (located statement before).bind ?_
  rintro location _ _ ⟨rfl, rfl⟩
  exact logs _ _ _ _

theorem inCall {post : Option Value → Prop} {body : Eval (Option Value)}
    (recording : setting.hooks.Record) (name : String) (arguments : List Value)
    (scope : Option ScopeId) (site : Option Location)
    (emits : Eval.Emits setting.hooks catching post body) :
    Eval.Emits setting.hooks catching post (Eval.inCall setting name arguments scope site body) :=
  bracket recording (fun _ => rfl) (fun _ _ _ => .call) (logs _ _ _) emits

/-- What happens inside a frame is the same seen from outside. -/
theorem enclosed {body : Eval α} (name : String) (scope : ScopeId) (site : Option Location)
    (emits : Eval.Emits hooks catching post body) :
    Eval.Emits hooks catching post (Eval.enclosed .innermost name scope site body) := by
  intro before
  refine .changing (.bind (.recover (emits _) fun fault between marks halted => ?_) ?_)
  · refine .modifying (.reraise ?_)
    rw [List.append_nil]
    exact halted.closeFrame before.nextSerial
  · rintro result between marks ⟨holds, balanced⟩
    refine .modifying (.pure ⟨holds, ?_⟩)
    rw [List.append_nil]
    exact balanced.closeFrame before.nextSerial

theorem inFrame {body : Eval α} (name : String) (scope : ScopeId) (site : Option Location)
    (emits : Eval.Emits hooks catching post body) :
    Eval.Emits hooks catching post (Eval.inFrame name scope site body) := by
  refine enclosed name scope site fun before => .recover (emits before) ?_
  intro fault between marks halted
  refine .look (.reraise ?_)
  rw [List.append_nil]
  exact halted.capture between

theorem attempt {action : Eval α} {catches : Fault → Bool} {answered : Except Fault α → Prop}
    (allowed : ∀ fault, catches fault = true → catching)
    (emits : Eval.Emits hooks catching (fun result => answered (.ok result)) action)
    (caught : ∀ fault, catches fault = true → answered (.error fault)) :
    Eval.Emits hooks catching answered (Eval.attempt catches action) :=
  fun before => (emits before).attempt fun fault _ _ isCaught halted =>
    ⟨caught fault isCaught, halted.caught (allowed fault isCaught)⟩

/-- Any values, no texts run, and faults caught only where that is allowed. -/
def domain (setting : Setting) (catching : Prop) : Domain setting :=
  { Goodness.all.domain setting False with catches := catching }

/-- Evaluations emit whatever values there are, as long as no texts are run. -/
def regime (catching : Prop) (recording : setting.hooks.Record) : Regime setting where
  toDomain := domain setting catching
  known _ := True
  Holds := Eval.Emits setting.hooks catching
  found _ _ := trivial
  pure := pure
  bind := bind
  weaken := weaken
  raise cause _ _ _ := raise cause _
  attempt _ allowed emits := attempt allowed emits fun _ caught => ⟨caught, False.elim, fun _ _ => trivial⟩
  get := get
  create _ := change (fun _ => ⟨rfl, rfl, rfl⟩) fun machine => ⟨machine.nextObject, rfl⟩
  newScope _ := change (fun _ => ⟨rfl, rfl, rfl⟩) fun _ => trivial
  define _ _ _ := define
  print _ := change (fun _ => ⟨rfl, rfl, rfl⟩) fun _ => trivial
  locate _ := locate _
  inStatement {_ _ _ _} _ emits := inStatement recording _ _ emits
  inFunction name arguments scope site _ emits := inCall recording name arguments (some scope) site
    (bind (inFrame name scope site emits) fun outcome given => pure ⟨outcome, rfl, given⟩)
  inBuiltin name arguments site _ emits := inCall recording name arguments none site emits
  execute _ _ executes := executes.elim

end Eval.Emits

end MonkeyLang
