import MonkeyLang.Proofs.Safety
import MonkeyLang.Proofs.Syntax.Oversized
import MonkeyLang.Proofs.Turns
import MonkeyLang.Proofs.Writing

namespace MonkeyLang

/-! # What ends a dialogue

Without extensions a text that is run ends with a result, or with a fault that the dialogue reports; in
either case the dialogue goes on, with all that was bound before.  What ends a dialogue is an integer
with too many digits in a line that is checked by itself, and a result that is too deep to be shown.
-/

/-- Faults that a dialogue reports and survives. -/
def Fault.Reported : Fault → Prop
  | .unparsable .. | .runtime _ => True
  | _ => False

/-- What a text breaks off with whose body breaks off with one of some faults: a fault of syntax stays
what it is, and every other becomes one of the run. -/
inductive Fault.Settled (caught : Fault → Prop) : Fault → Prop
  | unparsable {file : String} {errors : List SyntaxError} (ofBody : caught (.unparsable file errors)) :
      Settled caught (.unparsable file errors)
  | runtime (failure : Failure) : Settled caught (.runtime failure)

theorem Fault.Settled.reported {caught : Fault → Prop} {fault : Fault}
    (settled : fault.Settled caught) : fault.Reported := by
  cases settled <;> exact trivial

section Texts

variable {setting : Setting} (hooks : ∀ event, setting.hooks.of event = [])
  {caught : Fault → Prop}

include hooks

theorem abandon_settles {α : Type} {done : α → Machine → Prop} (failure : Failure)
    (before : Machine) :
    (Eval.abandon setting failure before).Meets (fun _ => True) done
      fun fault _ => fault.Settled caught := by
  exact .look trivial (announcing hooks _ trivial (.reraise trivial (.runtime _)))

theorem settle_settles {α : Type} {done : α → Machine → Prop} {body : Eval α} {before : Machine}
    (ends : (body before).Meets (fun _ => True) done fun fault _ => caught fault) :
    (Eval.settle setting body before).Meets (fun _ => True) done
      fun fault _ => fault.Settled caught := by
  refine .recover ends fun fault between ofBody => ?_
  cases fault with
  | unparsable file errors => exact .reraise trivial (.unparsable ofBody)
  | runtime failure => exact abandon_settles hooks _ _
  | depth => exact .modifying trivial trivial (abandon_settles hooks _ _)
  | foreign | digits => exact abandon_settles hooks _ _

theorem execute_settles {evaluate : Evaluator} {text : String} {scope : ScopeId} {before : Machine}
    {done : Prop}
    (ends : (Eval.body setting evaluate text scope
      { before with lines := Machine.trimmedLines text }).Meets (fun _ => True) (fun _ _ => done)
      fun fault _ => caught fault) :
    (Eval.execute setting evaluate text scope before).Meets (fun _ => True) (fun _ _ => done)
      fun fault _ => fault.Settled caught := by
  refine .modifying trivial trivial (.bind (settle_settles hooks ends) fun ending after known => ?_)
  dsimp only
  generalize Eval.textResult ending = result
  split
  · exact announcing hooks _ trivial (announcing hooks _ trivial (.pure trivial known))
  · exact announcing hooks _ trivial (.pure trivial known)

theorem execute_reported (evaluate : Evaluator) (text : String) (scope : ScopeId) (before : Machine) :
    (Eval.execute setting evaluate text scope before).Meets (fun _ => True) (fun _ _ => True)
      fun fault _ => fault.Reported := by
  have ends : (Eval.body setting evaluate text scope
      { before with lines := Machine.trimmedLines text }).Meets (fun _ => True) (fun _ _ => True)
      fun _ _ => True :=
    Course.Meets.self.leads (fun _ _ _ => trivial) fun _ _ _ => trivial
  exact (execute_settles hooks ends).fails fun _ _ => Fault.Settled.reported

end Texts

namespace Dialogue

variable {dialogue next final : Dialogue} {line text : String} {lines texts : List String}
  {ran : Option String} {fault : Fault}

/-- What was bound before is in place: a turn changes only the scope that all texts share, and there
only what the text binds that it runs. -/
structure Retains (dialogue : Dialogue) (ran : Option String) (next : Dialogue) : Prop where
  setting : next.setting = dialogue.setting
  scope : next.scope = dialogue.scope
  writes : dialogue.machine.scopes.Writes dialogue.scope (fun name => ∃ text ∈ ran, Rebinds text name)
    next.machine.scopes

/-- What ends a dialogue before its time. -/
inductive Ends (dialogue : Dialogue) (line : String) : Fault → Prop
  /-- An integer with too many digits, in a line that is checked whether it reads alone. -/
  | oversized {token : Token} (proper : isBlank line = false) (single : dialogue.group = [])
      (closed : ¬ EndsWithBrace line) (member : token ∈ Token.scan line)
      (oversized : token.Oversized) : Ends dialogue line (.digits token.literal.toList.length)
  /-- A result that is too deep to be shown. -/
  | deep {text : String} {value : Value} {after : Machine}
      (turn : Turn dialogue line (some text) (dialogue.enter line))
      (ended : (dialogue.setting.execute text dialogue.scope dialogue.cleared).ending =
        .ok (some value) after)
      (deep : shownLimit < value.depth) : Ends dialogue line .depth

/-- A turn behind which all is as before but for what the text binds. -/
structure LastingTurn (dialogue : Dialogue) (line : String) (ran : Option String) (next : Dialogue) :
    Prop extends Turns dialogue line ran next where
  retains : Retains dialogue ran next

/-- How a dialogue goes: through all lines, or up to one that ends it. -/
inductive Lasts (dialogue : Dialogue) : List String → Option Fault → Prop
  | throughout {lines texts : List String} {final : Dialogue}
      (takes : Takes LastingTurn dialogue lines texts final) : Lasts dialogue lines none
  | upTo {earlier later texts : List String} {line : String} {reached : Dialogue} {fault : Fault}
      (takes : Takes LastingTurn dialogue earlier texts reached) (ends : reached.Ends line fault) :
      Lasts dialogue (earlier ++ line :: later) (some fault)

theorem Lasts.behind (step : LastingTurn dialogue line ran next) {fault : Option Fault}
    (lasts : Lasts next lines fault) : Lasts dialogue (line :: lines) fault := by
  cases lasts with
  | throughout takes => exact .throughout (.next step takes)
  | upTo takes ends => exact .upTo (.next step takes) ends

section Turns

variable (builtins : ∀ builtin ∈ dialogue.setting.builtins,
    builtin ∈ Builtin.core ∨ builtin ∈ Builtin.strings)

include builtins in
theorem run_retains (goesOn : (dialogue.run text).next = .ok next) :
    Retains dialogue (some text) next := by
  have writes := (execute_writes builtins depthLimit text dialogue.scope dialogue.cleared).last
  have names : (fun name => ∃ ran ∈ some text, Rebinds ran name) = Rebinds text := by
    funext name
    simp
  refine ⟨run_setting goesOn, run_scope goesOn, ?_⟩
  rw [run_scopes goesOn, names]
  exact writes

include builtins in
theorem Turn.retains {answer : Answer} (turn : Turn dialogue line ran answer)
    (goesOn : answer.next = .ok next) : Retains dialogue ran next := by
  cases turn with
  | skips | keeps =>
      cases goesOn
      exact ⟨rfl, rfl, .rfl⟩
  | runsLine | runsGroup => exact run_retains builtins goesOn
  | fails => cases goesOn

variable (hooks : ∀ event, dialogue.setting.hooks.of event = [])

include hooks

/-- A text that is run ends a dialogue only by its result. -/
theorem run_ends (turn : Turn dialogue line (some text) (dialogue.enter line))
    (broken : (dialogue.run text).next = .error fault) : Ends dialogue line fault := by
  have reported := execute_reported hooks (evaluate dialogue.setting depthLimit) text dialogue.scope
    dialogue.cleared
  unfold run at broken
  dsimp only at broken
  split at broken
  case h_1 result after _ _ _ _ ended =>
    have ending := congrArg Course.ending ended
    split at broken
    case h_1 => cases broken
    case h_2 shown =>
      cases broken
      unfold show? at shown
      split at shown
      · cases shown
      · split at shown
        · cases shown
        · rename_i deep
          cases shown
          exact .deep turn ending (Nat.not_le.mp deep)
  case h_2 | h_3 => cases broken
  case h_4 other after _ _ _ _ read caught ended =>
    cases broken
    have known := reported.broken fault after (congrArg Course.ending ended)
    cases fault with
    | unparsable file errors => exact (read file errors rfl).elim
    | runtime failure => exact (caught failure rfl).elim
    | _ => exact known.elim

theorem Settled.ends (settled : dialogue.Settled) (broken : (dialogue.enter line).next = .error fault) :
    Ends dialogue line fault := by
  obtain ⟨ran, whole⟩ := settled.turn line
  have turn := whole
  generalize dialogue.enter line = answer at turn broken
  cases turn with
  | skips | keeps => cases broken
  | runsLine | runsGroup => exact run_ends hooks whole broken
  | fails proper single closed unread =>
      cases broken
      obtain ⟨token, member, oversized, same⟩ := (Parsed.ofText_breaks unread).resolve_left nofun
      cases same
      exact .oversized proper single closed member oversized

include builtins

/-- Nothing but what is said to end a dialogue ends it. -/
theorem Settled.lasts (settled : dialogue.Settled) (lines : List String) :
    Lasts dialogue lines (dialogue.converse lines).2 := by
  induction lines generalizing dialogue with
  | nil => exact .throughout (.none dialogue)
  | cons line lines ih =>
      cases went : (dialogue.enter line).next with
      | error fault =>
          rw [converse_broken lines went]
          exact .upTo (.none dialogue) (settled.ends hooks went)
      | ok next =>
          rw [converse_next lines went]
          obtain ⟨ran, step, settledNext⟩ := settled.turns went
          have retains := step.turn.retains builtins went
          refine .behind ⟨step, retains⟩ (ih ?_ ?_ settledNext)
          · rw [retains.setting]
            exact builtins
          · rw [retains.setting]
            exact hooks

end Turns

/-- Without extensions a dialogue takes all lines, whatever they are, each by a turn that leaves in
place what was bound before, unless it comes to a line that has an integer with too many digits and is
checked by itself, or to a text whose result is too deep to be shown. -/
theorem default_dialogue_lasts (file : String) (verbose : Bool) (lines : List String) :
    let started := start ⟨file, verbose, Builtin.core, .none⟩
    Lasts started lines (started.converse lines).2 := by
  intro started
  have builtins : ∀ builtin ∈ started.setting.builtins,
      builtin ∈ Builtin.core ∨ builtin ∈ Builtin.strings := fun _ => .inl
  exact (start_settled _).lasts builtins (fun _ => rfl) lines

end Dialogue

section Digits

variable {digits : List Char} (all : ∀ digit ∈ digits, Token.isDigit digit = true)

include all

theorem Text.trimmed_digits : Text.trimmed digits = digits := by
  have solid : ∀ {text : List Char}, (∀ digit ∈ text, Token.isDigit digit = true) →
      text.dropWhile Text.isBlank = text := by
    intro text digits
    cases text with
    | nil => rfl
    | cons first others =>
        refine List.dropWhile_cons_of_neg ?_
        have digit := digits first List.mem_cons_self
        simp only [Token.isDigit, Bool.and_eq_true, decide_eq_true_eq] at digit
        have least : 48 ≤ first.toNat := digit.1
        have most : first.toNat ≤ 57 := digit.2
        simp only [Text.isBlank, Bool.or_eq_true, Bool.and_eq_true, decide_eq_true_eq, beq_iff_eq]
        omega
  have reversed : ∀ digit ∈ digits.reverse, Token.isDigit digit = true := by simpa using all
  rw [Text.trimmed, solid all, solid reversed, List.reverse_reverse]

/-- A line of too many digits ends every dialogue in which no group is open. -/
theorem Dialogue.enter_digits (tooMany : Parse.digitLimit < digits.length) {dialogue : Dialogue}
    (single : dialogue.group = []) :
    (dialogue.enter (String.ofList digits)).next = .error (.digits digits.length) := by
  have trimmed : Text.trimmed (String.ofList digits).toList = digits := by
    rw [String.toList_ofList, Text.trimmed_digits all]
  have proper : isBlank (String.ofList digits) = false := by
    rw [isBlank, trimmed, List.isEmpty_eq_false_iff]
    rintro rfl
    exact Nat.not_lt_zero _ tooMany
  have closed : ¬ EndsWithBrace (String.ofList digits) := by
    intro brace
    rw [EndsWithBrace, trimmed] at brace
    exact absurd (all _ (List.mem_of_mem_getLast? brace)) (by decide)
  have checked : Parsed.isIncomplete (String.ofList digits) = .error (.digits digits.length) := by
    rw [Parsed.isIncomplete, Parsed.ofText_digits all tooMany]
  rw [enter_single proper single closed, checked]

end Digits

/-- A line of 4301 digits, and the line behind it is never reached. -/
theorem Dialogue.digits_end_dialogue :
    ((start ⟨"<string>", false, Builtin.core, .none⟩).converse
      [String.ofList (List.replicate 4301 '9'), "1 + 1"]).2 = some (.digits 4301) := by
  have all : ∀ digit ∈ List.replicate 4301 '9', Token.isDigit digit = true := by
    intro digit member
    rw [List.eq_of_mem_replicate member]
    decide
  have tooMany : Parse.digitLimit < (List.replicate 4301 '9').length := by
    rw [List.length_replicate]
    decide
  have single : (start ⟨"<string>", false, Builtin.core, .none⟩).group = [] := rfl
  have ended := enter_digits all tooMany single
  rw [List.length_replicate] at ended
  exact converse_broken _ ended

end MonkeyLang
