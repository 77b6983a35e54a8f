import MonkeyLang.Proofs.SoundValues

namespace MonkeyLang

/-! # Programs without errors run to their end

In a program without errors every operand has a value when it is asked for, and whatever is computed
with is sound.  Without hooks, and with plain builtins, nothing but its depth can then break the
program off.
-/

variable {setting : Setting}

/-- What statements in a row give, each evaluated where the one before it has ended, up to the first
signal. -/
inductive Eval.Gives (setting : Setting) (evaluate : Evaluator) (scope : ScopeId) :
    Machine → List Node → List (Option Value) → Machine → Prop
  | none (before : Machine) : Gives setting evaluate scope before [] [] before
  | next {before between after : Machine} {statement : Node} {others : List Node}
      {result : Option Value} {results : List (Option Value)}
      (ran : (Eval.inStatement setting statement scope
        (evaluate (Eval.content statement) scope) before).ending = .ok result between)
      (usable : ∀ value, result = some value → value.isSignal = false)
      (rest : Gives setting evaluate scope between others results after) :
      Gives setting evaluate scope before (statement :: others) (result :: results) after
  | signal {before after : Machine} {statement : Node} {others : List Node} {value : Value}
      (ran : (Eval.inStatement setting statement scope
        (evaluate (Eval.content statement) scope) before).ending = .ok (some value) after)
      (isSignal : value.isSignal = true) :
      Gives setting evaluate scope before (statement :: others) [some value] after

/-- There are only let statements, and none of them gives a signal. -/
def OnlyLets (body : List Node) (given : List (Option Value)) : Prop :=
  (∀ statement ∈ body, statement.isLet = true) ∧ ∀ value, some value ∈ given → value.isSignal = false

/-- The last value among what statements give. -/
def lastValue (given : List (Option Value)) : Option Value :=
  (given.filterMap id).getLast?

theorem lastValue_some (value : Value) (given : List (Option Value)) :
    lastValue (some value :: given) = (lastValue given).or (some value) := by
  change (value :: given.filterMap id).getLast? = (given.filterMap id).getLast?.or (some value)
  rw [List.getLast?_cons]
  cases (given.filterMap id).getLast? <;> rfl

theorem onlyLets_none {statement : Node} {others : List Node} {given : List (Option Value)}
    (isLet : statement.isLet = true) :
    OnlyLets (statement :: others) (none :: given) ↔ OnlyLets others given := by
  simp [OnlyLets, isLet]

theorem lastValue_none_iff_some {statement : Node} {others : List Node} {value : Value}
    (given : List (Option Value)) (signals : statement.isLet = true → value.isSignal = true) :
    lastValue (some value :: given) = none ↔ OnlyLets (statement :: others) (some value :: given) := by
  constructor
  · intro absent
    rw [lastValue_some] at absent
    exact nomatch (Option.or_eq_none_iff.mp absent).2
  · intro only
    -- The statement would be a let statement, which gives nothing but signals.
    have isSignal := signals (only.1 statement List.mem_cons_self)
    exact nomatch isSignal.symm.trans (only.2 value List.mem_cons_self)

theorem Eval.textResult_settled {good : Value → Prop} {ending : Option Value}
    (admissible : Result good ending) :
    ∀ value, Eval.textResult ending = some value → good value ∨ ∃ failure, value = .failed failure := by
  intro value same
  cases ending with
  | none => cases same
  | some last =>
      have lastAdmissible := admissible last rfl
      cases last with
      | failed failure => exact .inr ⟨failure, (Option.some.inj same).symm⟩
      | _ =>
          cases same
          exact .inl lastAdmissible

theorem Eval.textResult_eq_none {ending : Option Value} :
    Eval.textResult ending = none ↔ ending = none := by
  cases ending with
  | none => rfl
  | some value => cases value <;> exact ⟨nofun, nofun⟩

/-- How a program ends that consists of some statements. -/
structure Eval.Ends (setting : Setting) (evaluate : Evaluator) (scope : ScopeId) (start : Machine)
    (body : List Node) (given : List (Option Value)) (result : Option Value) : Prop where
  gives : ∃ after, Eval.Gives setting evaluate scope start body given after
  last : result = lastValue given
  admissible : Result (Value.Sound setting) result
  nothing : result = none ↔ OnlyLets body given

/-- How a text ends whose program consists of some statements. -/
structure Eval.Concludes (setting : Setting) (evaluate : Evaluator) (scope : ScopeId)
    (start : Machine) (body : List Node) (given : List (Option Value)) (result : Option Value) :
    Prop where
  gives : ∃ after, Eval.Gives setting evaluate scope start body given after
  last : result = Eval.textResult (lastValue given)
  settled : ∀ value, result = some value → value.Sound setting ∨ ∃ failure, value = .failed failure
  nothing : result = none ↔ OnlyLets body given

theorem Eval.Ends.concludes {evaluate : Evaluator} {scope : ScopeId} {start : Machine}
    {body : List Node} {given : List (Option Value)} {result : Option Value}
    (ends : Eval.Ends setting evaluate scope start body given result) :
    Eval.Concludes setting evaluate scope start body given (Eval.textResult result) where
  gives := ends.gives
  last := congrArg Eval.textResult ends.last
  settled := Eval.textResult_settled ends.admissible
  nothing := Eval.textResult_eq_none.trans ends.nothing

/-- The state in which a run starts to execute its text. -/
def Machine.opened (machine : Machine) : Machine :=
  { machine with scopes := machine.scopes.add none }.pushFrame topLevel machine.scopes.size none

section Programs

variable (hooks : ∀ event, setting.hooks.of event = [])
  (builtins : ∀ builtin ∈ setting.builtins,
    builtin ∈ Builtin.core ∨ builtin ∈ Builtin.strings)

include builtins

/-- A let statement gives a signal or nothing, and every other statement a value. -/
theorem statement_given (depth : Nat) (scope : ScopeId) {statement : Node}
    (proper : statement.ProperStatement) :
    (Standing.sound setting True fun _ => hooks).Holds
      (fun result => (result = none → statement.isLet = true) ∧
        (statement.isLet = true → ∀ value, result = some value → value.isSignal = true))
      (Eval.inStatement setting statement scope
        (evaluate setting depth (Eval.content statement) scope)) := by
  let regime := (Standing.sound setting True fun _ => hooks).regime
  refine regime.inStatement proper.proper ?_
  cases statement with
  | letStatement token name value =>
      exact regime.weaken (regime.evaluatesLet (sound_admits builtins) depth proper.proper)
        fun _ signals => ⟨fun _ => rfl, fun _ => signals⟩
  | _ =>
      have isValued := proper.stands.resolve_left nofun
      have evaluates := regime.evaluates (sound_admits builtins) depth
      refine regime.weaken (regime.content evaluates proper.proper)
        fun _ answers => ⟨fun absent => ?_, nofun⟩
      exact absurd absent (answers.2 trivial isValued)

include hooks in
theorem statements_give (depth : Nat) (scope : ScopeId) {body : List Node}
    (proper : ∀ statement ∈ body, statement.ProperStatement) {before : Machine}
    (bound : before.scopes.Bind (Value.Sound setting)) (previous : Option Value) :
    (Eval.statements setting (evaluate setting depth) scope body previous before).Meets
      (fun _ => True)
      (fun result after => ∃ given,
        Eval.Gives setting (evaluate setting depth) scope before body given after ∧
        (lastValue given = none ↔ OnlyLets body given) ∧ result = (lastValue given).or previous)
      (fun _ _ => True) := by
  induction body generalizing before previous with
  | nil =>
      refine .pure trivial ⟨[], .none before, ⟨fun _ => ?_, fun _ => rfl⟩, rfl⟩
      exact ⟨List.forall_mem_nil _, nofun⟩
  | cons statement others ih =>
      obtain ⟨first, rest⟩ := List.forall_mem_cons.mp proper
      have holds := statement_given hooks builtins depth scope first
      have meets : (Eval.inStatement setting statement scope
          (evaluate setting depth (Eval.content statement) scope) before).Meets
          (fun _ => True) _ (fun _ _ => True) :=
        ((holds () before bound).and .self).weaken (fun _ _ => trivial) (fun _ _ => id)
          fun _ _ _ => trivial
      refine Course.Meets.bind meets fun result between ended => ?_
      obtain ⟨⟨boundAfter, absent, signals⟩, ran⟩ := ended
      cases result with
      -- What gave nothing is a let statement, so that only the others matter; a value settles both sides.
      | none =>
          have isLet := absent rfl
          refine (ih rest boundAfter previous).leads ?_ fun _ _ => id
          intro final after ended
          obtain ⟨given, gives, nothing, rfl⟩ := ended
          exact ⟨none :: given, .next ran nofun gives, nothing.trans (onlyLets_none isLet).symm, rfl⟩
      | some value =>
          have isSignal : statement.isLet = true → value.isSignal = true :=
            fun isLet => signals isLet value rfl
          cases signal : value.isSignal with
          | true =>
              simp only [signal, if_true]
              exact .pure trivial ⟨[some value], .signal ran signal,
                lastValue_none_iff_some [] isSignal, rfl⟩
          | false =>
              simp only [signal, Bool.false_eq_true, if_false]
              refine (ih rest boundAfter (some value)).leads ?_ fun _ _ => id
              intro final after ended
              obtain ⟨given, gives, _, rfl⟩ := ended
              have usable : ∀ found, some value = some found → found.isSignal = false := by
                rintro _ ⟨⟩
                exact signal
              refine ⟨some value :: given, .next ran usable gives,
                lastValue_none_iff_some given isSignal, ?_⟩
              rw [lastValue_some]
              cases lastValue given <;> rfl

include hooks in
theorem program_ends (depth : Nat) (scope : ScopeId) {token : Token} {body : List Node}
    (proper : (Node.program ⟨token, body⟩).Proper) {start : Machine}
    (bound : start.scopes.Bind (Value.Sound setting)) :
    (evaluate setting depth (.program ⟨token, body⟩) scope start).Meets (fun _ => True)
      (fun result _ => ∃ given,
        Eval.Ends setting (evaluate setting (depth - 1)) scope start body given result)
      (fun fault _ => fault = .depth) := by
  cases depth with
  | zero => exact .raise trivial rfl
  | succ depth =>
      have evaluates : (Standing.sound setting True fun _ => hooks).Holds _ _ :=
        (Standing.sound setting True fun _ => hooks).regime.evaluates (sound_admits builtins)
          (depth + 1) _ scope proper
      have gives := statements_give hooks builtins depth scope proper.statement bound none
      refine ((evaluates () start bound).and gives).weaken (fun _ _ => trivial) ?_ ?_
      · intro result after ended
        obtain ⟨⟨_, admissible, _⟩, given, gives, nothing, same⟩ := ended
        rw [Option.or_none] at same
        exact ⟨given, ⟨after, gives⟩, same, admissible, same ▸ nothing⟩
      · exact fun fault after broken => broken.1.2 trivial

omit builtins in
include hooks in
/-- Without hooks, an announced event leaves the machine as it is. -/
theorem announcing {β : Type} {through : Machine → Prop} {last : β → Machine → Prop}
    {broken : Fault → Machine → Prop} {next : Unit → Eval β} {before : Machine} (notice : Notice)
    (passed : through before) (onward : (next () before).Meets through last broken) :
    ((Eval.announce setting.hooks notice >>= next) before).Meets through last broken := by
  have unheard : (Eval.announce setting.hooks notice before).Meets through
      (fun _ between => between = before) broken := by
    unfold Eval.announce
    rw [hooks]
    exact .noting passed (.pure passed rfl)
  refine unheard.bind ?_
  rintro _ _ rfl
  exact onward

section Texts

variable {text : String} {parsed : Parsed} {token : Token} {body : List Node} {depth : Nat}
  {scope : ScopeId} {before : Machine}
  (read : Parsed.ofText text = .ok parsed) (clean : parsed.errors = [])
  (program : parsed.program = .program ⟨token, body⟩)

include read clean

omit builtins in
theorem parse_pure : Eval.parse setting text = pure parsed.program := by
  obtain ⟨program, errors⟩ := parsed
  cases clean
  simp only [Eval.parse, read]

include hooks program

theorem body_ends {start : Machine} (bound : start.scopes.Bind (Value.Sound setting)) :
    (Eval.body setting (evaluate setting depth) text scope start).Meets (fun _ => True)
      (fun result _ => ∃ given,
        Eval.Ends setting (evaluate setting (depth - 1)) scope start body given result)
      (fun fault _ => fault = .depth) := by
  obtain ⟨_, _, _, proper⟩ := Parsed.proper read clean
  unfold Eval.body
  rw [parse_pure read clean]
  rw [program] at proper ⊢
  refine .giving trivial (announcing hooks _ trivial ?_)
  exact program_ends hooks builtins depth scope proper bound

theorem execute_concludes (bound : before.scopes.Bind (Value.Sound setting))
    (room : (Eval.body setting (evaluate setting depth) text scope
      { before with lines := Machine.trimmedLines text }).outcome ≠ .error .depth) :
    (Eval.execute setting (evaluate setting depth) text scope before).Meets (fun _ => True)
      (fun result _ => ∃ given, Eval.Concludes setting (evaluate setting (depth - 1)) scope
        { before with lines := Machine.trimmedLines text } body given result)
      (fun _ _ => False) := by
  have ends : (Eval.body setting (evaluate setting depth) text scope
      { before with lines := Machine.trimmedLines text }).Meets (fun _ => True) _ _ :=
    body_ends hooks builtins read clean program bound
  have endsInRoom := (ends.fails fun fault _ same room => room same).excluding room
  unfold Eval.execute
  refine .modifying trivial trivial (.bind (.recover endsInRoom fun _ _ broken => ?_) ?_)
  · exact broken.2.elim
  · intro ending after given
    obtain ⟨given, ends⟩ := given
    have concludes := ends.concludes
    dsimp only
    generalize Eval.textResult ending = result at concludes
    split
    · exact announcing hooks _ trivial (announcing hooks _ trivial (.pure trivial ⟨given, concludes⟩))
    · exact announcing hooks _ trivial (.pure trivial ⟨given, concludes⟩)

end Texts

omit builtins in
/-- A run ends as its text does in a new scope and frame. -/
theorem run_ends {text : String} {before : Machine} {post : Option Value → Prop}
    {broken : Fault → Prop}
    (meets : (setting.execute text before.scopes.size before.opened).Meets (fun _ => True)
      (fun result _ => post result) (fun fault _ => broken fault)) :
    (setting.run text before).Meets (fun _ => True) (fun result _ => post result)
      (fun fault _ => broken fault) := by
  refine .changing trivial trivial (.changing trivial trivial ?_)
  refine .bind (.recover meets fun _ _ caught => ?_) fun result after ended => ?_
  · exact .modifying trivial trivial (.reraise trivial caught)
  · exact .modifying trivial trivial (.pure trivial ended)

include hooks in
/-- Without hooks and with plain builtins, a text that parses breaks off for nothing but its depth, in
any state that a host reaches by handing sound values and proper trees over, and so also in a session
of texts.  It ends with a failure, a sound value or nothing, namely with the last value that its
statements give; and with nothing exactly if there are only let statements, none of which gives a
failure or a returned value.  This is true of a text in a given scope and of one in a run of its
own. -/
theorem parsed_text_concludes {machine : Machine}
    (reached : Machine.Reaches setting (HostCall.Sound setting) (.initial setting) machine)
    {text : String} {parsed : Parsed} (read : Parsed.ofText text = .ok parsed)
    (clean : parsed.errors = []) :
    ∃ token body, parsed.program = .program ⟨token, body⟩ ∧
      (∀ depth scope,
        let start := { machine with lines := Machine.trimmedLines text }
        (Eval.body setting (evaluate setting depth) text scope start).outcome ≠ .error .depth →
        ∃ result after,
          (Eval.execute setting (evaluate setting depth) text scope machine).ending =
            .ok result after ∧
          ∃ given, Eval.Concludes setting (evaluate setting (depth - 1)) scope start body given
            result) ∧
      (let scope := machine.scopes.size
        let start := { machine.opened with lines := Machine.trimmedLines text }
        (Eval.body setting (evaluate setting depthLimit) text scope start).outcome ≠
          .error .depth →
        ∃ result after, (setting.run text machine).ending = .ok result after ∧
          ∃ given, Eval.Concludes setting (evaluate setting (depthLimit - 1)) scope start body given
            result) := by
  have bound := reached.sound builtins
  obtain ⟨token, body, program, _⟩ := Parsed.proper read clean
  refine ⟨token, body, program, ?_, ?_⟩
  · intro depth scope start room
    exact (execute_concludes hooks builtins read clean program bound room).ends
  · intro scope start room
    have opened : machine.opened.scopes.Bind (Value.Sound setting) := bound.add none
    exact (run_ends (execute_concludes hooks builtins read clean program opened room)).ends

omit builtins in
/-- A function and a block without statements have the value `null`, also in the text behind the one
that defines the function. -/
theorem parsed_text_concludes_empty_function :
    let setting : Setting := ⟨"<string>", false, Builtin.core ++ Builtin.strings, .none⟩
    let opened := ((HostCall.newScope none).perform setting (.initial setting)).machine
    let defined :=
      ((HostCall.execute 20 "let f = fn() \x7b \x7d;" 0).perform setting opened).machine
    let text := "let a = if (f()) \x7b \x7d; push([a], f)"
    ∃ value after,
      (Eval.execute setting (evaluate setting 20) text 0 defined).ending = .ok (some value) after ∧
        (value.Sound setting ∨ ∃ failure, value = .failed failure) := by
  intro setting opened defined text
  have builtins : ∀ builtin ∈ setting.builtins,
      builtin ∈ Builtin.core ∨ builtin ∈ Builtin.strings := fun _ => List.mem_append.mp
  have reached : Machine.Reaches setting (HostCall.Sound setting) (.initial setting) defined :=
    .ending (.execute 20 _ 0) (.ending (.newScope none) .start trivial) trivial
  have parses : (match Parsed.ofText text with
      | .ok parsed => parsed.errors.isEmpty && parsed.program.body.any (!·.isLet)
      | .error _ => false) = true := by decide +kernel
  have room : (Eval.body setting (evaluate setting 20) text 0
      { defined with lines := Machine.trimmedLines text }).outcome ≠ .error .depth :=
    Course.has_room (by decide +kernel)
  cases read : Parsed.ofText text with
  | error reason =>
      rw [read] at parses
      cases parses
  | ok parsed =>
      rw [read] at parses
      obtain ⟨clean, other⟩ := Bool.and_eq_true_iff.mp parses
      obtain ⟨token, body, program, executes, _⟩ :=
        parsed_text_concludes (fun _ => rfl) builtins reached read (List.isEmpty_iff.mp clean)
      obtain ⟨result, after, ended, given, concludes⟩ := executes 20 0 room
      cases result with
      | some value => exact ⟨value, after, ended, concludes.settled value rfl⟩
      | none =>
          rw [program] at other
          obtain ⟨statement, member, isOther⟩ := List.any_eq_true.mp other
          have isLet := (concludes.nothing.mp rfl).1 statement member
          simp [isLet] at isOther

end Programs

end MonkeyLang
