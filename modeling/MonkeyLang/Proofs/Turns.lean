import MonkeyLang.Dialogue
import MonkeyLang.Proofs.Frames
import MonkeyLang.Proofs.Token.Lines

namespace MonkeyLang

/-! # Lines of a dialogue

Every line of a dialogue that is not blank is run once and in its order, by itself or with the lines
of its group, unless the input ends before the group does.  What the dialogue does with a line depends
on the group that is open, and the group on the line that opened it.
-/

namespace Text

/-- The lines of a text as they were entered. -/
def enteredLines (text : String) : List String :=
  (fedLines text.toList).map String.ofList

theorem enteredLines_single {line : String} (free : '\n' ∉ line.toList) : enteredLines line = [line] := by
  rw [enteredLines, fedLines_single free, List.map_singleton, String.ofList_toList]

theorem enteredLines_intercalate {first : String} {others : List String}
    (free : ∀ line ∈ first :: others, '\n' ∉ line.toList) :
    enteredLines ("\n".intercalate (first :: others)) = first :: others := by
  induction others generalizing first with
  | nil =>
      rw [String.intercalate_singleton]
      exact enteredLines_single (free first List.mem_cons_self)
  | cons second others ih =>
      obtain ⟨firstFree, othersFree⟩ := List.forall_mem_cons.mp free
      have rest := ih othersFree
      have joined : ("\n".intercalate (first :: second :: others)).toList =
          first.toList ++ '\n' :: ("\n".intercalate (second :: others)).toList := by
        simp [String.intercalate_cons_cons]
      rw [enteredLines] at rest ⊢
      rw [joined, fedLines_append firstFree, List.map_cons, rest, String.ofList_toList]

end Text

namespace Dialogue

def isBlank (line : String) : Bool := (Text.trimmed line.toList).isEmpty

def EndsWithBrace (line : String) : Prop := (Text.trimmed line.toList).getLast? = some '\x7b'

/-- A line that is a program by itself, or too deep to be read. -/
def ReadsAlone (line : String) : Prop :=
  (∃ parsed, Parsed.ofText line = .ok parsed ∧ parsed.errors = []) ∨
    Parsed.ofText line = .error .tooDeep

/-- A line that is no program by itself. -/
def Unfinished (line : String) : Prop :=
  ∃ parsed, Parsed.ofText line = .ok parsed ∧ parsed.errors ≠ []

/-- What a dialogue does with a line: the text that it runs, if any, and its answer. -/
inductive Turn (dialogue : Dialogue) (line : String) : Option String → Answer → Prop
  /-- A blank line outside of a group. -/
  | skips (blank : isBlank line = true) (single : dialogue.group = []) :
      Turn dialogue line none ⟨.nothing, .ok dialogue⟩
  /-- A line that opens a group or goes on with it. -/
  | keeps (proper : isBlank line = false)
      (opens : dialogue.group = [] → EndsWithBrace line ∨ Unfinished line) :
      Turn dialogue line none
        ⟨.nothing, .ok { dialogue with group := dialogue.group ++ [line] }⟩
  /-- A line outside of a group. -/
  | runsLine (proper : isBlank line = false) (single : dialogue.group = [])
      (closed : ¬ EndsWithBrace line) (alone : ReadsAlone line) :
      Turn dialogue line (some line) (dialogue.run line)
  /-- A blank line behind a group. -/
  | runsGroup {first : String} {others : List String} (blank : isBlank line = true)
      (grouped : dialogue.group = first :: others)
      (opened : EndsWithBrace first ∨ Unfinished first) :
      Turn dialogue line (some ("\n".intercalate (first :: others)))
        (dialogue.run ("\n".intercalate (first :: others)))
  /-- A line that cannot be checked whether it reads alone. -/
  | fails {count : Nat} (proper : isBlank line = false) (single : dialogue.group = [])
      (closed : ¬ EndsWithBrace line) (unread : Parsed.ofText line = .error (.tooManyDigits count)) :
      Turn dialogue line none ⟨.nothing, .error (.digits count)⟩

/-- What becomes of lines, one after the other, and the texts that are run. -/
inductive Takes (Step : Dialogue → String → Option String → Dialogue → Prop) :
    Dialogue → List String → List String → Dialogue → Prop
  | none (dialogue : Dialogue) : Takes Step dialogue [] [] dialogue
  | next {dialogue between final : Dialogue} {line : String} {lines texts : List String}
      {ran : Option String} (step : Step dialogue line ran between)
      (others : Takes Step between lines texts final) :
      Takes Step dialogue (line :: lines) (ran.toList ++ texts) final

variable {dialogue next : Dialogue} {line text : String}

/-- The machine on which the next text is run: what was printed and recorded before is cleared. -/
def cleared (dialogue : Dialogue) : Machine :=
  { dialogue.machine with printed := #[], recorded := #[] }

/-- A run closes the group and leaves the scope and the setting alone. -/
theorem run_next (ran : (dialogue.run text).next = .ok next) :
    next = { dialogue with
      machine := keepOutermost (dialogue.setting.execute text dialogue.scope dialogue.cleared).machine
      group := [] } := by
  unfold run at ran
  unfold cleared
  dsimp only at ran ⊢
  split at ran
  case h_1 ended =>
    rw [ended]
    split at ran
    · cases ran
      rfl
    · cases ran
  case h_2 ended | h_3 ended =>
    rw [ended]
    cases ran
    rfl
  case h_4 => cases ran

theorem run_setting (ran : (dialogue.run text).next = .ok next) : next.setting = dialogue.setting := by
  rw [run_next ran]

theorem run_scope (ran : (dialogue.run text).next = .ok next) : next.scope = dialogue.scope := by
  rw [run_next ran]

theorem run_group (ran : (dialogue.run text).next = .ok next) : next.group = [] := by
  rw [run_next ran]

theorem keepOutermost_scopes (machine : Machine) : (keepOutermost machine).scopes = machine.scopes :=
  rfl

theorem run_scopes (ran : (dialogue.run text).next = .ok next) : next.machine.scopes =
    (dialogue.setting.execute text dialogue.scope dialogue.cleared).machine.scopes := by
  rw [run_next ran]
  exact keepOutermost_scopes _

/-- Only the top-level frame is open. -/
def AtTop (dialogue : Dialogue) : Prop :=
  dialogue.machine.stack = [⟨topLevel, dialogue.scope, 0, none⟩]

/-- A dialogue between two lines: any group was opened by a line that opens one. -/
structure Settled (dialogue : Dialogue) : Prop where
  atTop : dialogue.AtTop
  orderly : dialogue.machine.Orderly
  opened : ∀ first ∈ dialogue.group.head?, EndsWithBrace first ∨ Unfinished first

theorem start_settled (setting : Setting) : (start setting).Settled where
  atTop := rfl
  orderly :=
    have initial := Machine.orderly_initial setting
    have added : Machine.Orderly { Machine.initial setting with
        scopes := (Machine.initial setting).scopes.add none } :=
      ⟨initial.sorted, initial.given, initial.live, initial.counted⟩
    added.pushFrame topLevel _ none
  opened := nofun

theorem keepOutermost_single {machine : Machine} {frame : Frame} (single : machine.stack = [frame]) :
    keepOutermost machine = machine := by
  have kept : machine.stack.getLast?.toList = machine.stack := by
    rw [single]
    rfl
  rw [keepOutermost, kept]

section Running

variable (settled : dialogue.Settled)

include settled

theorem Settled.cleared_orderly : dialogue.cleared.Orderly :=
  ⟨settled.orderly.sorted, settled.orderly.given, settled.orderly.live, settled.orderly.counted⟩

theorem Settled.execute_stack (text : String) :
    (dialogue.setting.execute text dialogue.scope dialogue.cleared).machine.stack =
      [⟨topLevel, dialogue.scope, 0, none⟩] := by
  let call : HostCall := .execute depthLimit text dialogue.scope
  have kept := (frames_performs dialogue.setting call rfl).stack settled.cleared_orderly
  exact kept.trans settled.atTop

/-- A run leaves the stack as it was, so that no frame has to be dropped. -/
theorem Settled.run_machine (ran : (dialogue.run text).next = .ok next) : next.machine =
    (dialogue.setting.execute text dialogue.scope dialogue.cleared).machine := by
  rw [run_next ran]
  exact keepOutermost_single (settled.execute_stack text)

theorem Settled.run (ran : (dialogue.run text).next = .ok next) : next.Settled where
  atTop := by
    rw [AtTop, settled.run_machine ran, run_scope ran]
    exact settled.execute_stack text
  orderly := by
    let call : HostCall := .execute depthLimit text dialogue.scope
    rw [settled.run_machine ran]
    exact (call.underway dialogue.setting settled.cleared_orderly).last.orderly
  opened := by
    rw [run_group ran]
    nofun

end Running

theorem isIncomplete_cases (line : String) :
    (Parsed.isIncomplete line = .ok true ∧ Unfinished line) ∨
      (Parsed.isIncomplete line = .ok false ∧ ReadsAlone line) ∨
      ∃ count, Parsed.isIncomplete line = .error (.digits count) ∧
        Parsed.ofText line = .error (.tooManyDigits count) := by
  unfold Parsed.isIncomplete
  cases read : Parsed.ofText line with
  | ok parsed =>
      obtain ⟨program, errors⟩ := parsed
      cases errors with
      | nil => exact .inr (.inl ⟨rfl, .inl ⟨_, read, rfl⟩⟩)
      | cons error errors => exact .inl ⟨rfl, _, read, List.cons_ne_nil _ _⟩
  | error reason =>
      cases reason with
      | tooDeep => exact .inr (.inl ⟨rfl, .inr read⟩)
      | tooManyDigits count => exact .inr (.inr ⟨count, rfl, rfl⟩)

theorem enter_idle (blank : isBlank line = true) (single : dialogue.group = []) :
    dialogue.enter line = ⟨.nothing, .ok dialogue⟩ :=
  (if_pos blank).trans (if_pos (by rw [single]; rfl))

theorem enter_flushing (blank : isBlank line = true) {first : String} {others : List String}
    (grouped : dialogue.group = first :: others) :
    dialogue.enter line = dialogue.run ("\n".intercalate (first :: others)) := by
  rw [← grouped]
  exact (if_pos blank).trans (if_neg (by rw [grouped]; nofun))

theorem enter_grouped (proper : isBlank line = false)
    (joins : dialogue.group = [] → EndsWithBrace line) :
    dialogue.enter line = ⟨.nothing, .ok { dialogue with group := dialogue.group ++ [line] }⟩ := by
  refine (if_neg (by simpa [isBlank] using proper)).trans (if_neg ?_)
  unfold EndsWithBrace at joins
  simpa using joins

theorem enter_single (proper : isBlank line = false) (single : dialogue.group = [])
    (closed : ¬ EndsWithBrace line) :
    dialogue.enter line =
      match Parsed.isIncomplete line with
      | .error fault => ⟨.nothing, .error fault⟩
      | .ok true => ⟨.nothing, .ok { dialogue with group := dialogue.group ++ [line] }⟩
      | .ok false => dialogue.run line := by
  refine (if_neg (by simpa [isBlank] using proper)).trans (if_pos ?_)
  unfold EndsWithBrace at closed
  simp [single, closed]

/-- Every line is taken by one of the turns. -/
theorem Settled.turn (settled : dialogue.Settled) (line : String) :
    ∃ ran, Turn dialogue line ran (dialogue.enter line) := by
  cases blank : isBlank line with
  | true =>
      cases grouped : dialogue.group with
      | nil =>
          rw [enter_idle blank grouped]
          exact ⟨none, .skips blank grouped⟩
      | cons first others =>
          have opened := settled.opened first (by rw [grouped]; rfl)
          rw [enter_flushing blank grouped]
          exact ⟨_, .runsGroup blank grouped opened⟩
  | false =>
      by_cases alone : dialogue.group = [] ∧ ¬ EndsWithBrace line
      · obtain ⟨single, closed⟩ := alone
        rw [enter_single blank single closed]
        rcases isIncomplete_cases line with ⟨checked, unfinished⟩ | ⟨checked, reads⟩ |
          ⟨count, checked, unread⟩
        · rw [checked]
          exact ⟨none, .keeps blank fun _ => .inr unfinished⟩
        · rw [checked]
          exact ⟨some line, .runsLine blank single closed reads⟩
        · rw [checked]
          exact ⟨none, .fails blank single closed unread⟩
      · have joins : dialogue.group = [] → EndsWithBrace line :=
          fun single => Classical.not_not.mp fun closed => alone ⟨single, closed⟩
        rw [enter_grouped blank joins]
        exact ⟨none, .keeps blank fun single => .inl (joins single)⟩

variable {answer : Answer} {ran : Option String}

/-- A dialogue that goes on is settled again. -/
theorem Turn.settled (turn : Turn dialogue line ran answer) (settled : dialogue.Settled)
    (goesOn : answer.next = .ok next) : next.Settled := by
  cases turn with
  | skips =>
      cases goesOn
      exact settled
  | keeps _ opens =>
      cases goesOn
      refine ⟨settled.atTop, settled.orderly, ?_⟩
      have opened := settled.opened
      cases grouped : dialogue.group with
      | nil => simpa [grouped] using opens grouped
      | cons first others => simpa [grouped] using opened
  | runsLine | runsGroup => exact settled.run goesOn
  | fails => cases goesOn

/-- The lines of the open group, and the line that is entered, are run or stand in the group that is
open then. -/
theorem Turn.entered (turn : Turn dialogue line ran answer) (goesOn : answer.next = .ok next)
    (free : ∀ earlier ∈ dialogue.group ++ [line], '\n' ∉ earlier.toList) :
    dialogue.group ++ [line].filter (!isBlank ·) =
        ran.toList.flatMap Text.enteredLines ++ next.group ∧
      ∀ earlier ∈ next.group, '\n' ∉ earlier.toList := by
  obtain ⟨groupFree, lineFree⟩ := List.forall_mem_append.mp free
  cases turn with
  | skips blank single =>
      cases goesOn
      exact ⟨by simp [blank, single], groupFree⟩
  | keeps proper =>
      cases goesOn
      exact ⟨by simp [proper], free⟩
  | runsLine proper single =>
      have entered := Text.enteredLines_single (lineFree line List.mem_cons_self)
      rw [run_group goesOn]
      exact ⟨by simp [proper, single, entered], List.forall_mem_nil _⟩
  | runsGroup blank grouped =>
      have entered := Text.enteredLines_intercalate (grouped ▸ groupFree)
      rw [run_group goesOn]
      exact ⟨by simp [blank, grouped, entered], List.forall_mem_nil _⟩
  | fails => cases goesOn

/-- What a turn leaves: the machine of the execution of the text that is run, and without such a text
the machine as it was. -/
structure Leaves (dialogue : Dialogue) (ran : Option String) (next : Dialogue) : Prop where
  executed : ∀ text ∈ ran, next.machine =
    (dialogue.setting.execute text dialogue.scope dialogue.cleared).machine
  waited : ran = none → next.machine = dialogue.machine
  setting : next.setting = dialogue.setting
  scope : next.scope = dialogue.scope

theorem Settled.ran_leaves (settled : dialogue.Settled) (ran : (dialogue.run text).next = .ok next) :
    Leaves dialogue (some text) next where
  executed := by
    rintro _ ⟨⟩
    exact settled.run_machine ran
  waited := nofun
  setting := run_setting ran
  scope := run_scope ran

theorem Turn.leaves (turn : Turn dialogue line ran answer) (settled : dialogue.Settled)
    (goesOn : answer.next = .ok next) : Leaves dialogue ran next := by
  cases turn with
  | skips | keeps =>
      cases goesOn
      exact ⟨nofun, fun _ => rfl, rfl, rfl⟩
  | runsLine | runsGroup => exact settled.ran_leaves goesOn
  | fails => cases goesOn

/-- A turn with which a dialogue goes on, with only the top-level frame open, over the scope that all
texts share. -/
structure Turns (dialogue : Dialogue) (line : String) (ran : Option String) (next : Dialogue) :
    Prop extends Leaves dialogue ran next where
  turn : Turn dialogue line ran (dialogue.enter line)
  goesOn : (dialogue.enter line).next = .ok next
  atTop : next.AtTop

theorem Settled.turns (settled : dialogue.Settled) (goesOn : (dialogue.enter line).next = .ok next) :
    ∃ ran, Turns dialogue line ran next ∧ next.Settled := by
  obtain ⟨ran, turn⟩ := settled.turn line
  have settledNext := turn.settled settled goesOn
  exact ⟨ran, ⟨turn.leaves settled goesOn, turn, goesOn, settledNext.atTop⟩, settledNext⟩

variable {final : Dialogue} {lines texts : List String}

theorem converse_next (lines : List String) (went : (dialogue.enter line).next = .ok next) :
    (dialogue.converse (line :: lines)).2 = (next.converse lines).2 := by
  simp only [converse, went]

theorem converse_broken (lines : List String) {fault : Fault}
    (broken : (dialogue.enter line).next = .error fault) :
    (dialogue.converse (line :: lines)).2 = some fault := by
  simp only [converse, broken]

theorem Settled.takes (settled : dialogue.Settled) (unbroken : (dialogue.converse lines).2 = none) :
    ∃ texts final, Takes Turns dialogue lines texts final := by
  induction lines generalizing dialogue with
  | nil => exact ⟨[], dialogue, .none dialogue⟩
  | cons line lines ih =>
      cases went : (dialogue.enter line).next with
      | error fault =>
          rw [converse_broken lines went] at unbroken
          cases unbroken
      | ok next =>
          rw [converse_next lines went] at unbroken
          obtain ⟨ran, step, settledNext⟩ := settled.turns went
          obtain ⟨texts, final, others⟩ := ih settledNext unbroken
          exact ⟨_, final, .next step others⟩

theorem Takes.entered (takes : Takes Turns dialogue lines texts final)
    (groupFree : ∀ earlier ∈ dialogue.group, '\n' ∉ earlier.toList)
    (free : ∀ line ∈ lines, '\n' ∉ line.toList) :
    dialogue.group ++ lines.filter (!isBlank ·) = texts.flatMap Text.enteredLines ++ final.group := by
  induction takes with
  | none dialogue => simp
  | @next dialogue between final line lines texts ran step _ ih =>
      obtain ⟨lineFree, linesFree⟩ := List.forall_mem_cons.mp free
      have allFree : ∀ earlier ∈ dialogue.group ++ [line], '\n' ∉ earlier.toList :=
        List.forall_mem_append.mpr ⟨groupFree, List.forall_mem_singleton.mpr lineFree⟩
      obtain ⟨here, betweenFree⟩ := step.turn.entered step.goesOn allFree
      calc dialogue.group ++ (line :: lines).filter (!isBlank ·)
          = dialogue.group ++ [line].filter (!isBlank ·) ++ lines.filter (!isBlank ·) := by
            rw [List.append_assoc, ← List.filter_append, List.singleton_append]
        _ = ran.toList.flatMap Text.enteredLines ++ (between.group ++ lines.filter (!isBlank ·)) := by
            rw [here, List.append_assoc]
        _ = (ran.toList ++ texts).flatMap Text.enteredLines ++ final.group := by
            rw [ih betweenFree linesFree, List.flatMap_append, List.append_assoc]

/-- The lines that are not blank are those of the texts that are run, in their order, and those of the
group that is still open at the end.  A text is a line that reads alone, or the lines of a group that
was opened by a line that does not; it is executed once, in the scope that all texts share, and the
next one is executed on the machine that it leaves.  After every line only the top-level frame is
open. -/
theorem dialogue_keeps_lines (setting : Setting) (lines : List String)
    (free : ∀ line ∈ lines, '\n' ∉ line.toList)
    (unbroken : ((start setting).converse lines).2 = none) :
    ∃ texts final, Takes Turns (start setting) lines texts final ∧
      lines.filter (!isBlank ·) = texts.flatMap Text.enteredLines ++ final.group := by
  obtain ⟨texts, final, takes⟩ := (start_settled setting).takes unbroken
  exact ⟨texts, final, takes, takes.entered (List.forall_mem_nil _) free⟩

/-- A function that is entered in three lines and flushed by a blank one, a call of it, and the first
line of a group that does not end. -/
theorem dialogue_keeps_lines_of_group :
    let setting : Setting := ⟨"<string>", false, Builtin.core, .none⟩
    let lines := ["let f = fn(x) \x7b", "  x", "\x7d", " ", "f(1)", "(2"]
    (∀ line ∈ lines, '\n' ∉ line.toList) ∧ ((start setting).converse lines).2 = none ∧
      ∃ texts final, Takes Turns (start setting) lines texts final ∧
        lines.filter (!isBlank ·) = texts.flatMap Text.enteredLines ++ final.group := by
  intro setting lines
  have free : ∀ line ∈ lines, '\n' ∉ line.toList := by decide +kernel
  have unbroken : ((start setting).converse lines).2 = none := by decide +kernel
  exact ⟨free, unbroken, dialogue_keeps_lines setting lines free unbroken⟩

end Dialogue

end MonkeyLang
