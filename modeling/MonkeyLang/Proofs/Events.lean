import MonkeyLang.Extension.Behaviour
import MonkeyLang.Extension.Catalogue
import MonkeyLang.Proofs.Evaluation.Emission
import MonkeyLang.Proofs.Syntax.Parsing

namespace MonkeyLang

/-! # The events of a run

A text with errors of syntax has no events.  Any other run begins with one event and ends with one
or two, and between them all is bracketed, as far as builtins let the faults of their requests pass.
-/

namespace Script

def RunsNoText : Script → Prop
  | .give _ | .raise _ | .fail _ _ => True
  | .create make next => ∀ id, (next (make id)).RunsNoText
  | .print _ next => next.RunsNoText
  | .apply _ _ _ _ catches next =>
      (∀ result, (next (.ok result)).RunsNoText) ∧
        ∀ fault, catches fault = true → (next (.error fault)).RunsNoText
  | .execute .. => False
  | .define _ _ value next => (next value).RunsNoText
  | .inspect next => ∀ machine, (next machine).RunsNoText

/-- No fault of a request is caught. -/
def LetsFaultsPass : Script → Prop
  | .give _ | .raise _ | .fail _ _ => True
  | .create make next => ∀ id, (next (make id)).LetsFaultsPass
  | .print _ next => next.LetsFaultsPass
  | .apply _ _ _ _ catches next | .execute _ _ catches next =>
      (∀ fault, catches fault = false) ∧ ∀ result, (next (.ok result)).LetsFaultsPass
  | .define _ _ value next => (next value).LetsFaultsPass
  | .inspect next => ∀ machine, (next machine).LetsFaultsPass

theorem RunsNoText.obeys {script : Script} (runsNone : script.RunsNoText) :
    script.Obeys Goodness.all.good (fun _ => True) False := by
  induction script with
  | give result =>
      intro value _
      exact Goodness.all.admissible trivial
  | raise | fail => trivial
  | create make next ih => exact fun id => ih _ (runsNone id)
  | print line next ih => exact ih runsNone
  | apply callee arguments name site catches next ih =>
      exact ⟨trivial, fun _ _ => trivial, fun result _ => ih _ (runsNone.1 result),
        fun fault caught => ih _ (runsNone.2 fault caught)⟩
  | execute => exact runsNone.elim
  | define scope name value next ih => exact ⟨fun _ => trivial, ih value runsNone⟩
  | inspect next ih => exact fun machine _ => ih machine (runsNone machine)

theorem RunsNoText.admits {setting : Setting} {catching : Prop} {script : Script}
    (runsNone : script.RunsNoText) (passing : ¬ catching → script.LetsFaultsPass) :
    (Eval.Emits.domain setting catching).Admits (fun _ => True) script := by
  have yields : ∀ result, (Eval.Emits.domain setting catching).Yields result := fun result =>
    ⟨fun _ _ => Goodness.all.admissible trivial, False.elim⟩
  induction script with
  | give result => exact yields result
  | raise => exact ⟨False.elim, fun _ _ => trivial⟩
  | fail => exact trivial
  | create make next ih => exact fun id => ih _ (runsNone id) fun none => passing none id
  | print line next ih => exact ih runsNone passing
  | apply callee arguments name site catches next ih =>
      have allowed : ∀ fault, catches fault = true → catching := by
        intro fault caught
        by_contra none
        rw [(passing none).1 fault] at caught
        cases caught
      refine ⟨trivial, fun _ _ => trivial, fun _ _ => trivial, allowed, fun answer answered => ?_⟩
      cases answer with
      | ok result => exact ih _ (runsNone.1 result) fun none => (passing none).2 result
      | error fault =>
          exact ih _ (runsNone.2 fault answered.1) fun none => absurd (allowed fault answered.1) none
  | execute => exact runsNone.elim
  | define scope name value next ih =>
      exact ⟨trivial, fun _ => trivial, False.elim, ih value runsNone passing⟩
  | inspect next ih =>
      exact fun machine _ => ih machine (runsNone machine) fun none => passing none machine

theorem giveStrings_runsNoText (texts : List String) (made : List Value) :
    (Script.giveStrings texts made).RunsNoText := by
  induction texts generalizing made with
  | nil => exact fun _ => trivial
  | cons text texts ih => exact fun _ => ih _

end Script

/-- Of the described builtins only one runs texts. -/
theorem Behaviour.runsNoText (behaviour : Behaviour) (builtin : String) (arguments : List Value)
    (other : behaviour ≠ .execute) : (behaviour.script builtin arguments).RunsNoText := by
  have bound : ∀ name value, (Behaviour.bindInInnermost name value).RunsNoText := by
    intro name value machine
    dsimp only
    split <;> trivial
  cases behaviour with
  | apply => exact ⟨fun _ => trivial, fun _ => nofun⟩
  | define name => exact bound name _
  | defineReturned name => exact bound name _
  | frames => exact fun machine => Script.giveStrings_runsNoText _ _
  | execute => contradiction
  | _ => trivial

theorem evaluate_emits {setting : Setting} {catching : Prop} (recording : setting.hooks.Record)
    (builtins : ∀ builtin ∈ setting.builtins, ∀ arguments, (builtin.run arguments).RunsNoText)
    (passing : ¬ catching →
      ∀ builtin ∈ setting.builtins, ∀ arguments, (builtin.run arguments).LetsFaultsPass)
    (depth : Nat) (tree : Node) (scope : ScopeId) :
    Eval.Emits setting.hooks catching (fun _ => True) (evaluate setting depth tree scope) := by
  refine ((Eval.Emits.regime catching recording).evaluates ?_ depth tree scope trivial).weaken
    fun _ _ => trivial
  intro _ name _ arguments _ _ _
  unfold Setting.script
  split
  · rename_i builtin found
    have member := List.mem_of_find?_eq_some found
    exact (builtins builtin member arguments).admits fun none => passing none builtin member arguments
  · exact ⟨.none, False.elim⟩

/-- The marks of a run with a given outcome. -/
inductive RunEvents (file : String) (parsed : Parsed) :
    Except Fault (Option Value) → List Mark → Prop
  | unparsable (errors : parsed.errors ≠ []) :
      RunEvents file parsed (.error (.unparsable file parsed.errors)) []
  | ended {result : Option Value} {start last : Machine} {inner : List Mark}
      (parses : parsed.errors = []) (bracketed : Bracketed [] inner [])
      (succeeds : ∀ failure, result ≠ some (.failed failure)) :
      RunEvents file parsed (.ok result)
        (.announced ⟨.programStart parsed.program, start⟩ :: inner ++
          [.announced ⟨.programEnd result, last⟩])
  | failed {failure : Failure} {start failing last : Machine} {inner : List Mark}
      (parses : parsed.errors = []) (bracketed : Bracketed [] inner []) :
      RunEvents file parsed (.ok (some (.failed failure)))
        (.announced ⟨.programStart parsed.program, start⟩ :: inner ++
          [.announced ⟨.onError .language failure, failing⟩,
            .announced ⟨.programEnd (some (.failed failure)), last⟩])
  | broken {failure : Failure} {start last : Machine} {inner : List Mark} {left : List Emission}
      (parses : parsed.errors = []) (bracketed : Bracketed [] inner left) :
      RunEvents file parsed (.error (.runtime failure))
        (.announced ⟨.programStart parsed.program, start⟩ :: inner ++
          [.announced ⟨.onError .host failure, last⟩])
  /-- A builtin may raise an error of syntax itself, which is announced to nobody. -/
  | refused {name : String} {errors : List SyntaxError} {start : Machine} {inner : List Mark}
      {left : List Emission} (parses : parsed.errors = [])
      (bracketed : Bracketed [] inner left) :
      RunEvents file parsed (.error (.unparsable name errors))
        (.announced ⟨.programStart parsed.program, start⟩ :: inner)

/-- A run has the marks of its events, and they account for what it has changed. -/
structure Ran (setting : Setting) (catching : Prop) (parsed : Parsed) (before : Machine)
    (outcome : Except Fault (Option Value)) (after : Machine) (marks : List Mark) : Prop
    extends Accounted setting.hooks catching before after marks where
  events : RunEvents setting.file parsed outcome marks

theorem Ran.ofLines {setting : Setting} {catching : Prop} {parsed : Parsed} {before after : Machine}
    {lines : Array String} {outcome : Except Fault (Option Value)} {marks : List Mark}
    (ran : Ran setting catching parsed { before with lines := lines } outcome after marks) :
    Ran setting catching parsed before outcome after marks :=
  ⟨⟨⟨ran.emitted.recorded, ran.emitted.stack, ran.emitted.steps⟩,
    fun shallow => ⟨(ran.complete shallow).counted, (ran.complete shallow).kept⟩, ran.catches⟩,
    ran.events⟩

/-- A program that has started, with the marks since then. -/
structure Underway (setting : Setting) (catching : Prop) (program : Node) (before after : Machine)
    (marks inner : List Mark) (left : List Emission) : Prop
    extends Accounted setting.hooks catching before after marks where
  started : marks = .announced ⟨.programStart program, before⟩ :: inner
  bracketed : Bracketed [] inner left

section Running

variable {setting : Setting} {catching : Prop} {parsed : Parsed} {start between : Machine}
  {marks inner : List Mark} {left : List Emission} {depth : Nat} {text : String} {scope : ScopeId}

theorem abandon_ran {α : Type} (recording : setting.hooks.Record) (parses : parsed.errors = [])
    (underway : Underway setting catching parsed.program start between marks inner left)
    (failure : Failure) {done : α → Machine → List Mark → Prop} :
    (Eval.abandon setting failure between).Leaves done
      (fun fault after later =>
        Ran setting catching parsed start (.error fault) after (marks ++ later)) := by
  refine .look ?_
  refine Course.Leaves.bind (announce_shown recording rfl) fun _ last told heard => .reraise ?_
  rw [List.append_nil]
  refine ⟨underway.toAccounted.append (heard.accounted rfl), ?_⟩
  rw [underway.started, heard.announced]
  exact .broken parses underway.bracketed

theorem body_underway (recording : setting.hooks.Record)
    (builtins : ∀ builtin ∈ setting.builtins, ∀ arguments, (builtin.run arguments).RunsNoText)
    (passing : ¬ catching →
      ∀ builtin ∈ setting.builtins, ∀ arguments, (builtin.run arguments).LetsFaultsPass)
    (read : Parsed.ofText text = .ok parsed) (parses : parsed.errors = []) :
    (Eval.body setting (evaluate setting depth) text scope start).Leaves
      (fun _ after marks => ∃ inner,
        Underway setting catching parsed.program start after marks inner [])
      (fun fault after marks => fault ≠ .depth → ∃ inner left,
        Underway setting catching parsed.program start after marks inner left) := by
  have reads : Eval.parse setting text = pure parsed.program := by
    obtain ⟨program, errors⟩ := parsed
    cases parses
    simp only [Eval.parse, read]
  have parsing : (Eval.parse setting text start).Leaves
      (fun program between marks => program = parsed.program ∧ start = between ∧ [] = marks)
      (fun fault after marks => fault ≠ .depth → ∃ inner left,
        Underway setting catching parsed.program start after marks inner left) := by
    rw [reads]
    exact .pure ⟨rfl, rfl, rfl⟩
  have announced : (Eval.announce setting.hooks (.programStart parsed.program) start).Leaves
      (fun _ between told => Heard setting.hooks (.programStart parsed.program) start between told)
      (fun fault after marks => fault ≠ .depth → ∃ inner left,
        Underway setting catching parsed.program start after marks inner left) :=
    (announce_leaves recording _ start).leads (fun _ _ _ => id)
      fun _ _ _ failed room => absurd failed.1 room
  refine parsing.bind ?_
  rintro _ _ _ ⟨rfl, rfl, rfl⟩
  refine announced.bind fun _ between told heard => ?_
  have began : told = [.announced ⟨.programStart parsed.program, start⟩] := heard.announced
  refine (evaluate_emits recording builtins passing depth parsed.program scope between).leads ?_ ?_
  · rintro _ after inner ⟨_, balanced⟩
    exact ⟨inner, (heard.accounted rfl).append balanced.toAccounted, by rw [began]; rfl,
      balanced.bracketed⟩
  · intro fault after inner halted room
    obtain ⟨left, bracketed, _⟩ := halted.bracketed
    exact ⟨inner, left, (heard.accounted rfl).append (halted.accounted room), by rw [began]; rfl,
      bracketed⟩

theorem settle_ran (recording : setting.hooks.Record) (parses : parsed.errors = [])
    {body : Eval (Option Value)} (room : (body start).outcome ≠ .error .depth)
    (leaves : (body start).Leaves
      (fun _ after marks => ∃ inner,
        Underway setting catching parsed.program start after marks inner [])
      (fun fault after marks => fault ≠ .depth → ∃ inner left,
        Underway setting catching parsed.program start after marks inner left)) :
    (Eval.settle setting body start).Leaves
      (fun _ after marks => ∃ inner,
        Underway setting catching parsed.program start after marks inner [])
      (fun fault after marks => Ran setting catching parsed start (.error fault) after marks) := by
  refine (leaves.excluding room).recover ?_
  rintro fault between marks ⟨room, ended⟩
  obtain ⟨inner, left, underway⟩ := ended room
  cases fault with
  | unparsable name errors =>
      refine .reraise ?_
      rw [List.append_nil]
      refine ⟨underway.toAccounted, ?_⟩
      rw [underway.started]
      exact .refused parses underway.bracketed
  | runtime failure => exact abandon_ran recording parses underway failure
  | foreign kind message => exact abandon_ran recording parses underway _
  | digits count => exact abandon_ran recording parses underway _
  | depth => exact absurd rfl room

theorem close_ran (recording : setting.hooks.Record) (parses : parsed.errors = [])
    (underway : Underway setting catching parsed.program start between marks inner [])
    (result : Option Value) :
    ((do
      match result with
      | some (.failed failure) => Eval.announce setting.hooks (.onError .language failure)
      | _ => pure ()
      Eval.announce setting.hooks (.programEnd result)
      return result : Eval (Option Value)) between).Leaves
      (fun result after later =>
        Ran setting catching parsed start (.ok result) after (marks ++ later))
      (fun fault after later =>
        Ran setting catching parsed start (.error fault) after (marks ++ later)) := by
  split
  · rename_i failure
    refine Course.Leaves.bind (announce_shown recording rfl) fun _ failing first reported => ?_
    refine Course.Leaves.bind (announce_shown recording rfl) fun _ last second heard => .pure ?_
    rw [List.append_nil]
    refine ⟨underway.toAccounted.append ((reported.accounted rfl).append (heard.accounted rfl)), ?_⟩
    rw [underway.started, reported.announced, heard.announced]
    exact .failed parses underway.bracketed
  · rename_i succeeds
    refine Course.Leaves.bind (announce_shown recording rfl) fun _ last second heard => .pure ?_
    rw [List.append_nil]
    refine ⟨underway.toAccounted.append (heard.accounted rfl), ?_⟩
    rw [underway.started, heard.announced]
    exact .ended parses underway.bracketed succeeds

/-- A text with errors is refused before anything is announced. -/
theorem body_unparsable (evaluate : Evaluator) (read : Parsed.ofText text = .ok parsed)
    (errors : parsed.errors ≠ []) {done : Option Value → Machine → List Mark → Prop} :
    (Eval.body setting evaluate text scope start).Leaves done (fun fault after marks =>
      fault = .unparsable setting.file parsed.errors ∧ after = start ∧ marks = []) := by
  have refuses : Eval.parse setting text = Eval.raise (.unparsable setting.file parsed.errors) := by
    obtain ⟨program, _ | ⟨error, others⟩⟩ := parsed
    · exact absurd rfl errors
    · simp only [Eval.parse, read]
  have parsing : (Eval.parse setting text start).Leaves (fun _ _ _ => False)
      (fun fault after marks =>
        fault = .unparsable setting.file parsed.errors ∧ after = start ∧ marks = []) := by
    rw [refuses]
    exact .raise ⟨rfl, rfl, rfl⟩
  exact parsing.bind fun _ _ _ => False.elim

theorem settledBody_ran (recording : setting.hooks.Record)
    (builtins : ∀ builtin ∈ setting.builtins, ∀ arguments, (builtin.run arguments).RunsNoText)
    (passing : ¬ catching →
      ∀ builtin ∈ setting.builtins, ∀ arguments, (builtin.run arguments).LetsFaultsPass)
    (read : Parsed.ofText text = .ok parsed)
    (room : (Eval.body setting (evaluate setting depth) text scope start).outcome ≠ .error .depth) :
    (Eval.settle setting (Eval.body setting (evaluate setting depth) text scope) start).Leaves
      (fun _ after marks => parsed.errors = [] ∧ ∃ inner,
        Underway setting catching parsed.program start after marks inner [])
      (fun fault after marks => Ran setting catching parsed start (.error fault) after marks) := by
  by_cases parses : parsed.errors = []
  · exact (settle_ran recording parses room
      (body_underway recording builtins passing read parses)).leads
        (fun _ _ _ ended => ⟨parses, ended⟩) fun _ _ _ => id
  · refine Course.Leaves.recover (body_unparsable (evaluate setting depth) read parses) ?_
    rintro _ _ _ ⟨rfl, rfl, rfl⟩
    exact .reraise ⟨Balanced.rfl.toAccounted, .unparsable parses⟩

theorem execute_ran (recording : setting.hooks.Record)
    (builtins : ∀ builtin ∈ setting.builtins, ∀ arguments, (builtin.run arguments).RunsNoText)
    (passing : ¬ catching →
      ∀ builtin ∈ setting.builtins, ∀ arguments, (builtin.run arguments).LetsFaultsPass)
    (read : Parsed.ofText text = .ok parsed)
    (room : (Eval.body setting (evaluate setting depth) text scope
      { start with lines := Machine.trimmedLines text }).outcome ≠ .error .depth) :
    (Eval.execute setting (evaluate setting depth) text scope start).Leaves
      (fun result after marks => Ran setting catching parsed start (.ok result) after marks)
      (fun fault after marks => Ran setting catching parsed start (.error fault) after marks) := by
  refine .modifying ?_
  have settled := settledBody_ran recording builtins passing read room
  refine Course.Leaves.bind (settled.leads (fun _ _ _ => id) fun _ _ _ => Ran.ofLines) ?_
  rintro result after marks ⟨parses, inner, underway⟩
  exact (close_ran recording parses underway (Eval.textResult result)).leads
    (fun _ _ _ => Ran.ofLines) fun _ _ _ => Ran.ofLines

end Running

/-- A text is read, or its run breaks off with a fault that has nothing to do with its events. -/
theorem reads_in_room {setting : Setting} {evaluate : Evaluator} {text : String} {scope : ScopeId}
    {before : Machine} (digits : ∀ token ∈ Token.scan text, ¬ token.Oversized)
    (room : (Eval.body setting evaluate text scope before).outcome ≠ .error .depth) :
    ∃ parsed, Parsed.ofText text = .ok parsed := by
  cases read : Parsed.ofText text with
  | ok parsed => exact ⟨parsed, rfl⟩
  | error reason =>
      rcases Parsed.ofText_error read with rfl | ⟨token, member, oversized⟩
      · have breaks : Eval.parse setting text = Eval.raise .depth := by
          simp only [Eval.parse, read, Fault.ofBreakoff]
        refine absurd ?_ room
        rw [Eval.body, breaks]
        rfl
      · exact absurd oversized (digits token member)

/-- Under hooks that only record and builtins that run no texts, the events of a run are bracketed and
agree with its steps, whatever the run ends with, as long as it does not nest too deeply and its text
has no integer with too many digits.  What is opened stays open where a builtin catches the fault of
an application, and only there. -/
theorem run_events_bracketed (setting : Setting) (depth : Nat) (text : String) (scope : ScopeId)
    (before : Machine) (recording : setting.hooks.Record)
    (builtins : ∀ builtin ∈ setting.builtins, ∀ arguments, (builtin.run arguments).RunsNoText)
    (digits : ∀ token ∈ Token.scan text, ¬ token.Oversized)
    (room : (Eval.body setting (evaluate setting depth) text scope
      { before with lines := Machine.trimmedLines text }).outcome ≠ .error .depth) :
    let course := Eval.execute setting (evaluate setting depth) text scope before
    ∃ parsed, Parsed.ofText text = .ok parsed ∧
      RunEvents setting.file parsed course.outcome course.marks ∧
      Emitted setting.hooks before course.machine course.marks ∧
      (Shallow course.marks → Complete setting.hooks before course.machine course.marks) ∧
      ((∀ builtin ∈ setting.builtins, ∀ arguments, (builtin.run arguments).LetsFaultsPass) →
        Uncaught course.marks) := by
  intro course
  obtain ⟨parsed, read⟩ := reads_in_room digits room
  have ran := (execute_ran recording builtins Classical.not_not.mp read room).outcome
    (Ran setting _ parsed before)
  exact ⟨parsed, read, ran.events, ran.emitted, ran.complete,
    fun passing fault begun member => (ran.catches fault begun member).1 passing⟩

/-- One hook for every event, which only records. -/
def Hooks.tracing : Hooks := ⟨1, fun _ => [⟨"trace", 0, 0, HookAction.record.react⟩]⟩

theorem Hooks.tracing_record : Hooks.tracing.Record := by
  intro event hook member circumstance notice
  rw [List.mem_singleton.mp member]
  rfl

theorem not_oversized_of_short {tokens : List Token}
    (short : ∀ token ∈ tokens, token.literal.toList.length ≤ Parse.digitLimit) :
    ∀ token ∈ tokens, ¬ token.Oversized :=
  fun token member oversized => Nat.not_lt.mpr (short token member) oversized.tooMany

/-- A function is applied by a builtin, and another builtin raises an error in the end, so that the
last call and the last statement stay open. -/
theorem run_events_bracketed_raising_builtin :
    let builtins : List Builtin :=
      [Behaviour.apply.builtin "app" ⟨1, none⟩, (Behaviour.raise "no").builtin "no" ⟨0, none⟩]
    let setting : Setting := ⟨"<string>", false, builtins, .tracing⟩
    let text := "app(fn(x) \x7b x \x7d, 1); no()"
    let course := Eval.execute setting (evaluate setting 20) text 0 (.initial setting)
    ∃ parsed, Parsed.ofText text = .ok parsed ∧
      RunEvents "<string>" parsed course.outcome course.marks ∧
      Emitted .tracing (.initial setting) course.machine course.marks ∧ openings course.marks = 6 ∧
      Uncaught course.marks := by
  intro builtins setting text course
  have runsNone : ∀ builtin ∈ builtins, ∀ arguments, (builtin.run arguments).RunsNoText := by
    intro builtin member arguments
    simp only [builtins, List.mem_cons, List.not_mem_nil, or_false] at member
    rcases member with rfl | rfl
    · exact Behaviour.apply.runsNoText "app" arguments nofun
    · exact (Behaviour.raise "no").runsNoText "no" arguments nofun
  have passing : ∀ builtin ∈ builtins, ∀ arguments, (builtin.run arguments).LetsFaultsPass := by
    intro builtin member arguments
    simp only [builtins, List.mem_cons, List.not_mem_nil, or_false] at member
    rcases member with rfl | rfl
    · exact ⟨fun _ => rfl, fun _ => trivial⟩
    · trivial
  have digits : ∀ token ∈ Token.scan text, ¬ token.Oversized :=
    not_oversized_of_short (by decide +kernel)
  have room : (Eval.body setting (evaluate setting 20) text 0
      { Machine.initial setting with lines := Machine.trimmedLines text }).outcome ≠ .error .depth :=
    Course.has_room (by decide +kernel)
  have six : course.machine.steps.count = 6 := by decide +kernel
  have none : (Machine.initial setting).steps.count = 0 := rfl
  obtain ⟨parsed, read, events, emitted, complete, uncaught⟩ :=
    run_events_bracketed setting 20 text 0 (.initial setting) Hooks.tracing_record runsNone digits
      room
  have counted := (complete (uncaught passing .depth)).counted
  rw [six, none, Nat.zero_add] at counted
  exact ⟨parsed, read, events, emitted, counted.symm, uncaught passing⟩

/-- The announcements among some marks. -/
def announcements (marks : List Mark) : List Mark := marks.filter (·.isAnnounced)

theorem announcements_uncaught (marks : List Mark) : Uncaught (announcements marks) :=
  fun _ _ member => nomatch (List.mem_filter.mp member).2

theorem openings_announcements (marks : List Mark) :
    openings (announcements marks) = openings marks := by
  rw [openings, announcements, List.countP_filter]
  congr 1
  funext mark
  cases mark <;> simp [Mark.isAnnounced, Mark.isOpening]

/-- Where nothing is caught, every event opens one or closes one. -/
theorem Bracketed.length_eq {opened left : List Emission} {marks : List Mark}
    (bracketed : Bracketed opened marks left) (uncaught : Uncaught marks) :
    marks.length + left.length = opened.length + 2 * openings marks := by
  induction bracketed with
  | done => exact Nat.zero_add _
  | opens isOpening others ih =>
      have rest := ih uncaught.tail
      simp only [openings, List.length_cons, List.countP_cons, Mark.isOpening, isOpening,
        if_true] at rest ⊢
      omega
  | @closes _ _ event _ _ fits others ih =>
      have rest := ih uncaught.tail
      have outside : event.isOpening = false := by cases fits <;> rfl
      simp only [openings, List.length_cons, List.countP_cons, Mark.isOpening, outside,
        Bool.false_eq_true, if_false] at rest ⊢
      omega
  | caught fault _ _ others ih => exact absurd List.mem_cons_self (uncaught fault _)

/-- A run that ends with a result closes all it has opened, unless a fault is caught. -/
theorem RunEvents.openings_lt {file : String} {parsed : Parsed} {result : Option Value}
    {marks : List Mark} (events : RunEvents file parsed (.ok result) marks)
    (uncaught : Uncaught marks) : 2 * openings marks < marks.length := by
  cases events with
  | ended _ bracketed | failed _ bracketed =>
      have closed := bracketed.length_eq fun fault begun member =>
        uncaught fault begun (by simp [member])
      simp [openings, Mark.isOpening, Emission.isOpening] at closed ⊢
      omega

/-- One hook for each event keeps one line for each event. -/
theorem Complete.records_length {before after : Machine} {marks : List Mark}
    (complete : Complete .tracing before after marks) :
    (Hooks.tracing.records marks).length = (announcements marks).length := by
  have kept := complete.kept
  clear complete
  induction marks with
  | nil => rfl
  | cons mark marks ih =>
      have rest := ih fun emission member => kept emission (List.mem_cons_of_mem _ member)
      cases mark with
      | caught fault begun => exact rest
      | announced emission =>
          obtain ⟨line, shown⟩ := Option.isSome_iff_exists.mp
            (kept emission List.mem_cons_self _ List.mem_cons_self)
          simp only [Hooks.records, Hooks.tracing, announcements] at rest shown ⊢
          simp [shown, rest, Mark.isAnnounced]

/-- Told by one hook for each event, a run that closes all it has opened and ends with a result is told
of more than twice for each of its steps. -/
theorem RunEvents.steps_lt_records {file : String} {parsed : Parsed} {result : Option Value}
    {before after : Machine} {marks : List Mark}
    (events : RunEvents file parsed (.ok result) (announcements marks))
    (emitted : Emitted .tracing before after marks) (complete : Complete .tracing before after marks) :
    2 * after.steps.count + before.recorded.toList.length <
      after.recorded.toList.length + 2 * before.steps.count := by
  have fewer := events.openings_lt (announcements_uncaught marks)
  have counted := complete.counted
  have recorded := congrArg List.length emitted.recorded
  rw [List.length_append, complete.records_length] at recorded
  rw [openings_announcements] at fewer
  omega

/-- A builtin that catches the fault of an application leaves events open, although the run ends with
a result: what is announced is not bracketed as if nothing had been caught. -/
theorem caught_fault_leaves_events_open :
    let builtins : List Builtin :=
      [ExtensionFile.attempt, (Behaviour.raise "no").builtin "boom" ⟨0, none⟩]
    let setting : Setting := ⟨"<string>", false, builtins, .tracing⟩
    let text := "attempt(fn() \x7b boom() \x7d)"
    let course := Eval.execute setting (evaluate setting 20) text 0 (.initial setting)
    setting.hooks.Record ∧
      (∀ builtin ∈ builtins, ∀ arguments, (builtin.run arguments).RunsNoText) ∧
      (∀ token ∈ Token.scan text, ¬ token.Oversized) ∧
      (Eval.body setting (evaluate setting 20) text 0
        { Machine.initial setting with lines := Machine.trimmedLines text }).outcome ≠
          .error .depth ∧
      ¬ ∃ parsed, Parsed.ofText text = .ok parsed ∧
        RunEvents "<string>" parsed course.outcome (announcements course.marks) ∧
        Emitted .tracing (.initial setting) course.machine course.marks ∧
        Complete .tracing (.initial setting) course.machine course.marks := by
  intro builtins setting text course
  have runsNone : ∀ builtin ∈ builtins, ∀ arguments, (builtin.run arguments).RunsNoText := by
    intro builtin member arguments
    simp only [builtins, List.mem_cons, List.not_mem_nil, or_false] at member
    rcases member with rfl | rfl
    · exact ⟨fun _ => trivial, fun _ _ => trivial⟩
    · exact (Behaviour.raise "no").runsNoText "boom" arguments nofun
  refine ⟨Hooks.tracing_record, runsNone, not_oversized_of_short (by decide +kernel),
    Course.has_room (by decide +kernel), ?_⟩
  rintro ⟨parsed, read, events, emitted, complete⟩
  have five : course.machine.steps.count = 5 := by decide +kernel
  have nine : course.machine.recorded.toList.length = 9 := by decide +kernel
  obtain ⟨result, returns⟩ : ∃ result, course.outcome = .ok result := by
    have succeeds : course.outcome.toOption.isSome = true := by decide +kernel
    cases ended : course.outcome with
    | ok result => exact ⟨result, rfl⟩
    | error fault =>
        rw [ended] at succeeds
        cases succeeds
  have none : (Machine.initial setting).steps.count = 0 := rfl
  have empty : (Machine.initial setting).recorded.toList.length = 0 := rfl
  rw [returns] at events
  have more := events.steps_lt_records emitted complete
  rw [five, nine, none, empty] at more
  exact absurd more (by decide)

end MonkeyLang
