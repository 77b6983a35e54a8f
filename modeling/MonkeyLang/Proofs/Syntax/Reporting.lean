import MonkeyLang.Proofs.Syntax.Sources

namespace MonkeyLang

/-! # Errors kept at once

A construct that is refused hands its error up to the statement around it, which keeps it.  Reading
may as well keep the error on the spot and give nothing, as long as whoever asked for the construct
gives nothing either and touches neither tokens nor errors on the way.  Both ways of reading end alike.
-/

namespace Parse

/-- How reading ends that keeps errors at once: with a result or with nothing, if it is not broken
off. -/
abbrev Report (α : Type) := EStateM.Result Breakoff Spot (Option α)

/-- What an ending amounts to once its error, if it has one, is kept. -/
def reported {α : Type} : EStateM.Result Stop Spot α → Report α
  | .ok result spot => .ok (some result) spot
  | .error (.refused error) spot => .ok none (spot.report error)
  | .error (.broken reason) spot => .error reason spot

/-- A run of code that keeps errors at once.  Nothing comes of code that asks for a form of which
nothing comes; only a statement of which nothing comes is passed over. -/
inductive Reports (stream : Nat → Token) :
    {α : Type} → Nat → Code α → Spot → Report α → Prop where
  | done {α : Type} {depth : Nat} (result : α) (spot : Spot) :
      Reports stream depth (.done result) spot (.ok (some result) spot)
  | refuses {α : Type} {depth : Nat} (error : SyntaxError) (spot : Spot) :
      Reports stream depth (Code.refuse error : Code α) spot (.ok none (spot.report error))
  | breaks {α : Type} {depth : Nat} (reason : Breakoff) (spot : Spot) :
      Reports stream depth (.stop (.broken reason) : Code α) spot (.error reason spot)
  | look {α : Type} {depth : Nat} {next : Token → Code α} {spot : Spot} {report : Report α}
      (onward : Reports stream depth (next (stream spot.place)) spot report) :
      Reports stream depth (.look next) spot report
  | lookAhead {α : Type} {depth : Nat} {next : Token → Code α} {spot : Spot} {report : Report α}
      (onward : Reports stream depth (next (stream (spot.place + 1))) spot report) :
      Reports stream depth (.lookAhead next) spot report
  | move {α : Type} {depth : Nat} {next : Code α} {spot : Spot} {report : Report α}
      (onward : Reports stream depth next spot.advance report) :
      Reports stream depth (.move next) spot report
  | called {α β : Type} {depth inner : Nat} {form : Form β} {next : β → Code α} {spot between : Spot}
      {result : β} {report : Report α} (room : form.room depth = some inner)
      (first : Reports stream inner form.code spot (.ok (some result) between))
      (onward : Reports stream depth (next result) between report) :
      Reports stream depth (.call form next) spot report
  | nothing {α β : Type} {depth inner : Nat} {form : Form β} {next : β → Code α} {spot after : Spot}
      (room : form.room depth = some inner)
      (first : Reports stream inner form.code spot (.ok none after)) :
      Reports stream depth (.call form next) spot (.ok none after)
  | broken {α β : Type} {depth inner : Nat} {form : Form β} {next : β → Code α} {spot after : Spot}
      {reason : Breakoff} (room : form.room depth = some inner)
      (first : Reports stream inner form.code spot (.error reason after)) :
      Reports stream depth (.call form next) spot (.error reason after)
  | full {α β : Type} {depth : Nat} {form : Form β} {next : β → Code α} {spot : Spot}
      (room : form.room depth = none) :
      Reports stream depth (.call form next) spot (.error .tooDeep spot)
  | attempted {α : Type} {depth : Nat} {next : Option Node → Code α} {spot between : Spot}
      {found : Option Node} {report : Report α}
      (first : Reports stream depth Code.statementForm spot (.ok found between))
      (onward : Reports stream depth (next found) between report) :
      Reports stream depth (.attempt next) spot report
  | brokenAttempt {α : Type} {depth : Nat} {next : Option Node → Code α} {spot after : Spot}
      {reason : Breakoff}
      (first : Reports stream depth Code.statementForm spot (.error reason after)) :
      Reports stream depth (.attempt next) spot (.error reason after)

variable {stream : Nat → Token} {α : Type} {depth : Nat} {code : Code α} {spot : Spot}
  {starts : List Nat} {ending : EStateM.Result Stop Spot α} {report : Report α}

/-- A run ends alike when its errors are kept at once. -/
theorem Runs.reports (run : Runs stream depth code spot starts ending) :
    Reports stream depth code spot (reported ending) := by
  induction run with
  | done result spot => exact .done result spot
  | stop reason spot =>
      cases reason with
      | refused error => exact .refuses error spot
      | broken reason => exact .breaks reason spot
  | look _ ih => exact .look ih
  | lookAhead _ ih => exact .lookAhead ih
  | move _ ih => exact .move ih
  | called room _ _ firstIH ih => exact .called room firstIH ih
  | @stopped _ _ _ _ _ _ _ _ _ reason room _ firstIH =>
      cases reason with
      | refused error => exact .nothing room firstIH
      | broken reason => exact .broken room firstIH
  | full room => exact .full room
  | kept _ _ firstIH ih => exact .attempted firstIH ih
  | dropped _ _ firstIH ih => exact .attempted firstIH ih
  | broken _ firstIH => exact .brokenAttempt firstIH

section Reported

variable {result : α} {after : Spot}

theorem reported_eq_some (same : reported ending = .ok (some result) after) :
    ending = .ok result after := by
  cases ending with
  | ok =>
      cases same
      rfl
  | error reason => cases reason <;> cases same

theorem reported_eq_none (same : reported ending = .ok none after) :
    ∃ error last, ending = .error (.refused error) last ∧ last.report error = after := by
  cases ending with
  | ok => cases same
  | error reason last =>
      cases reason with
      | refused error =>
          cases same
          exact ⟨error, last, rfl, rfl⟩
      | broken => cases same

theorem reported_eq_error {reason : Breakoff} (same : reported ending = .error reason after) :
    ending = .error (.broken reason) after := by
  cases ending with
  | ok => cases same
  | error stop =>
      cases stop with
      | refused => cases same
      | broken =>
          cases same
          rfl

end Reported

/-- Whatever ends when errors are kept at once, ends alike when they are handed up. -/
theorem Reports.runs (reports : Reports stream depth code spot report) :
    ∃ starts ending, Runs stream depth code spot starts ending ∧ reported ending = report := by
  induction reports with
  | done result spot => exact ⟨[], _, .done result spot, rfl⟩
  | refuses error spot => exact ⟨[], _, .stop (.refused error) spot, rfl⟩
  | breaks reason spot => exact ⟨[], _, .stop (.broken reason) spot, rfl⟩
  | look _ ih =>
      obtain ⟨starts, ending, run, same⟩ := ih
      exact ⟨starts, ending, .look run, same⟩
  | lookAhead _ ih =>
      obtain ⟨starts, ending, run, same⟩ := ih
      exact ⟨starts, ending, .lookAhead run, same⟩
  | move _ ih =>
      obtain ⟨starts, ending, run, same⟩ := ih
      exact ⟨starts, ending, .move run, same⟩
  | called room _ _ firstIH ih =>
      obtain ⟨starts, _, first, given⟩ := firstIH
      obtain ⟨others, ending, onward, same⟩ := ih
      rw [reported_eq_some given] at first
      exact ⟨starts ++ others, ending, .called room first onward, same⟩
  | nothing room _ firstIH =>
      obtain ⟨starts, _, first, none⟩ := firstIH
      obtain ⟨error, last, rfl, kept⟩ := reported_eq_none none
      exact ⟨starts, _, .stopped room first, congrArg (EStateM.Result.ok Option.none) kept⟩
  | broken room _ firstIH =>
      obtain ⟨starts, _, first, broke⟩ := firstIH
      rw [reported_eq_error broke] at first
      exact ⟨starts, _, .stopped room first, rfl⟩
  | full room => exact ⟨[], _, .full room, rfl⟩
  | @attempted _ _ _ spot between found _ _ _ firstIH ih =>
      obtain ⟨starts, _, first, given⟩ := firstIH
      obtain ⟨others, ending, onward, same⟩ := ih
      cases found with
      | some node =>
          rw [reported_eq_some given] at first
          exact ⟨spot.place :: (starts ++ others), ending, .kept first onward, same⟩
      | none =>
          obtain ⟨error, last, rfl, rfl⟩ := reported_eq_none given
          exact ⟨spot.place :: (starts ++ others), ending, .dropped first onward, same⟩
  | @brokenAttempt _ _ _ spot _ _ _ firstIH =>
      obtain ⟨starts, _, first, broke⟩ := firstIH
      rw [reported_eq_error broke] at first
      exact ⟨spot.place :: starts, _, .broken first, rfl⟩

/-- Where a run ends, keeping errors at once ends in just one way. -/
theorem Runs.reports_iff (run : Runs stream depth code spot starts ending) :
    Reports stream depth code spot report ↔ report = reported ending := by
  constructor
  · intro reports
    obtain ⟨_, _, other, same⟩ := reports.runs
    rw [← same, (run.unique other).2]
  · rintro rfl
    exact run.reports

/-- A statement of a list, kept or dropped with its error, is the one found by keeping errors at once,
with the same errors behind it. -/
theorem statement_reports {feed : Feed} {low : Nat} {cursor : Cursor}
    (proper : cursor.current.kind ≠ .endOfInput) (here : feed.At low cursor spot) :
    (∃ found other after last, statement (expression depth) cursor = .ok found after ∧
      Reports feed.stream depth Code.statementForm spot (.ok other last) ∧
      Option.Rel (Node.Similar feed.similar) found other ∧ feed.At (last.place + 1) after last) ∨
    ∃ reason after last, statement (expression depth) cursor = .error (.broken reason) after ∧
      Reports feed.stream depth Code.statementForm spot (.error reason last) ∧
      feed.At (last.place + 1) after last := by
  obtain ⟨starts, ending, run, matched, _⟩ := Follows.statementForm
    (fun tight there => Follows.expression depth tight there) proper here
  have reports := run.reports
  generalize ran : statementForm (expression depth) cursor = ended at matched
  cases matched with
  | done nodes there =>
      exact .inl ⟨_, _, _, _, statement_of_form ran, reports, .some nodes, there⟩
  | stopped reason there =>
      cases reason with
      | refused error =>
          exact .inl ⟨none, none, _, _, statement_of_refused ran, reports, .none, there.report error⟩
      | broken reason => exact .inr ⟨_, _, _, statement_of_broken ran, reports, there⟩

/-- A list of tokens is read as if errors were kept at once: it gives the same program, with the same
errors in the same order, or breaks off for the same reason. -/
theorem ofTokens_reports (tokens : Grammar.Tokens) (depth : Nat) :
    (∃ program after, Parsed.ofTokens depth tokens = .ok ⟨program, after.errors.toList⟩ ∧
      ∀ report, Reports (supplied tokens) depth Code.program .start report ↔
        report = .ok (some program) after) ∨
    ∃ reason after, Parsed.ofTokens depth tokens = .error reason ∧
      ∀ report, Reports (supplied tokens) depth Code.program .start report ↔
        report = .error reason after := by
  obtain ⟨starts, ending, run, _, concludes⟩ :=
    program_runs spelled_eq (fun place => alike_rfl (supplied tokens place)) depth
  cases concludes with
  | read read programs _ =>
      exact .inl ⟨_, _, programs.eq ▸ read, fun _ => run.reports_iff⟩
  | broken read _ => exact .inr ⟨_, _, read, fun _ => run.reports_iff⟩

end Parse

end MonkeyLang
