import MonkeyLang.Builtin.Core
import MonkeyLang.Proofs.Evaluation.Moves
import MonkeyLang.Proofs.Syntax.Shape

namespace MonkeyLang

/-! # Signals end what they occur in

The operands of a node are evaluated from left to right, and its statements one after the other.  The
first signal among what they give is at once what the whole gives: nothing behind it is evaluated, and
nothing is done any more but to close the statement in which it occurred.
-/

/-- An operand in its place.  A key of a hash has to be usable as one. -/
structure Slot where
  operand : Node
  isKey : Bool

/-- The operands in the order of their evaluation. -/
def Node.slots : Node → List Slot
  | hash _ pairs => pairs.flatMap fun pair => [⟨pair.1, true⟩, ⟨pair.2, false⟩]
  | tree => tree.operands.map (⟨·, false⟩)

/-- The states that an evaluation passes, and the one in which it ends. -/
def Course.Touches {α : Type} (course : Course α) (machine : Machine) : Prop :=
  course.passes machine ∨ machine = course.machine

theorem Course.Touches.last {α : Type} {course : Course α} {result : α} {after : Machine}
    (ran : course.ending = .ok result after) : course.Touches after := by
  refine .inr ?_
  rw [Course.machine, ran]

section Contracts

variable {α β : Type} {through wider : Machine → Prop} {broken : Fault → Machine → Prop}

theorem Course.Meets.of_ending {course : Course α} {result : α} {after : Machine}
    (ran : course.ending = .ok result after)
    (inside : ∀ machine, course.Touches machine → through machine) :
    course.Meets through (fun found machine => found = result ∧ machine = after) broken where
  passing machine passed := inside machine (.inl passed)
  done found machine ended := by
    cases ran.symm.trans ended
    exact ⟨rfl, rfl⟩
  broken _ _ ended := nomatch ran.symm.trans ended

theorem Course.Meets.within {course : Course α} {done : α → Machine → Prop}
    (meets : course.Meets through done broken) (wide : ∀ machine, through machine → wider machine) :
    course.Meets wider done broken :=
  meets.weaken wide (fun _ _ => id) fun _ _ => id

/-- What goes on from the result of an evaluation that ended. -/
theorem Course.Meets.following {first : Eval α} {next : α → Eval β} {result : α}
    {before between : Machine} {done : β → Machine → Prop}
    (ran : (first before).ending = .ok result between)
    (inside : ∀ machine, (first before).Touches machine → through machine)
    (onward : (next result between).Meets through done broken) :
    ((first >>= next) before).Meets through done broken := by
  refine (Course.Meets.of_ending ran inside).bind ?_
  rintro _ _ ⟨rfl, rfl⟩
  exact onward

end Contracts

/-- Operands give a signal: those up to one give values that are none, usable ones where they are keys,
and that one gives it.  The states in between are those that these operands touch. -/
inductive Eval.Halts (evaluate : Evaluator) (scope : ScopeId) :
    List Slot → Machine → Value → Machine → (Machine → Prop) → Prop
  | here {slot : Slot} {others : List Slot} {before after : Machine} {signal : Value}
      (gives : (evaluate slot.operand scope before).ending = .ok (some signal) after)
      (isSignal : signal.isSignal = true) :
      Halts evaluate scope (slot :: others) before signal after
        (evaluate slot.operand scope before).Touches
  | next {slot : Slot} {others : List Slot} {before between after : Machine} {value signal : Value}
      {later : Machine → Prop}
      (gives : (evaluate slot.operand scope before).ending = .ok (some value) between)
      (ordinary : value.isSignal = false) (usable : slot.isKey = true → value.toKey?.isSome = true)
      (halts : Halts evaluate scope others between signal after later) :
      Halts evaluate scope (slot :: others) before signal after fun machine =>
        (evaluate slot.operand scope before).Touches machine ∨ later machine

namespace Eval

section Nodes

variable {setting : Setting} {evaluate : Evaluator} {apply : Applier} {scope : ScopeId}
  {before after : Machine} {slot : Slot} {slots : List Slot} {signal : Value} {seen : Machine → Prop}

/-- An evaluation passes no other states than these, and gives the signal in the state in which the
operand left it. -/
abbrev Passes (course : Course (Option Value)) (signal : Value) (after : Machine)
    (seen : Machine → Prop) : Prop :=
  course.Meets seen (fun result machine => result = some signal ∧ machine = after) fun _ _ => False

theorem Halts.last (halts : Halts evaluate scope slots before signal after seen) : seen after := by
  induction halts with
  | here gives _ => exact .last gives
  | next _ _ _ _ ih => exact .inr ih

/-- What begins with an operand ends as it does on the signal, if the operand gives that, and as it does
on the signal of the later operands otherwise. -/
theorem Halts.bind {β : Type} {next : Option Value → Eval β} {ends : β → Machine → Prop}
    {never : Fault → Machine → Prop}
    (halts : Halts evaluate scope (slot :: slots) before signal after seen)
    (stops : signal.isSignal = true → (next (some signal) after).Meets (· = after) ends never)
    (onward : ∀ value between later, value.isSignal = false →
      (slot.isKey = true → value.toKey?.isSome = true) →
      Halts evaluate scope slots between signal after later →
      (next (some value) between).Meets (fun machine => machine = between ∨ later machine) ends never) :
    ((evaluate slot.operand scope >>= next) before).Meets seen ends never := by
  cases halts with
  | here gives isSignal =>
      exact .following gives (fun _ => id) ((stops isSignal).within fun _ same => same ▸ .last gives)
  | next gives ordinary usable halts =>
      refine .following gives (fun _ => .inl) ((onward _ _ _ ordinary usable halts).within ?_)
      rintro machine (rfl | passed)
      · exact .inl (.last gives)
      · exact .inr passed

/-- The usual way to go on with an operand: a signal is passed on. -/
theorem Halts.unlessSignal {go : Option Value → Eval (Option Value)}
    (halts : Halts evaluate scope (slot :: slots) before signal after seen)
    (onward : ∀ value between later, value.isSignal = false →
      (slot.isKey = true → value.toKey?.isSome = true) →
      Halts evaluate scope slots between signal after later →
      Passes (go (some value) between) signal after fun machine => machine = between ∨ later machine) :
    Passes ((do Eval.unlessSignal (← evaluate slot.operand scope) go) before) signal after seen := by
  refine halts.bind (fun isSignal => ?_) fun value between later ordinary usable halts => ?_
  · simp only [Eval.unlessSignal, isSignal, if_true]
    exact .pure rfl ⟨rfl, rfl⟩
  · rw [unlessSignal_some ordinary]
    exact onward value between later ordinary usable halts

theorem Halts.only {go : Option Value → Eval (Option Value)}
    (halts : Halts evaluate scope [slot] before signal after seen) :
    Passes ((do Eval.unlessSignal (← evaluate slot.operand scope) go) before) signal after seen :=
  halts.unlessSignal fun _ _ _ _ _ => nofun

theorem Halts.pair {other : Slot} {go : Option Value → Option Value → Eval (Option Value)}
    (halts : Halts evaluate scope [slot, other] before signal after seen) :
    Passes ((do
      Eval.unlessSignal (← evaluate slot.operand scope) fun result => do
        Eval.unlessSignal (← evaluate other.operand scope) (go result)) before) signal after seen :=
  halts.unlessSignal fun _ _ _ _ _ halts =>
    halts.only.within fun _ => .inr

theorem Halts.expressions {nodes : List Node}
    (halts : Halts evaluate scope (nodes.map (⟨·, false⟩)) before signal after seen)
    (found : List Value) :
    (Eval.expressions setting evaluate scope nodes found before).Meets seen
      (fun result machine => result = .error signal ∧ machine = after) fun _ _ => False := by
  induction nodes generalizing before seen found with
  | nil => cases halts
  | cons node nodes ih =>
      refine halts.bind (fun isSignal => ?_) fun value between later ordinary _ halts => ?_
      · simp only [isSignal, if_true]
        exact .pure rfl ⟨rfl, rfl⟩
      · simp only [ordinary, Bool.false_eq_true, if_false]
        exact (ih halts _).within fun _ => .inr

theorem Halts.entries {pairs : List (Node × Node)}
    (halts : Halts evaluate scope (pairs.flatMap fun pair => [⟨pair.1, true⟩, ⟨pair.2, false⟩]) before
      signal after seen) (found : List (Key × Value)) :
    Passes (Eval.entries setting evaluate scope pairs found before) signal after seen := by
  induction pairs generalizing before seen found with
  | nil => cases halts
  | cons pair pairs ih =>
      obtain ⟨key, value⟩ := pair
      refine halts.unlessSignal fun keyValue between later _ usable halts => ?_
      obtain ⟨usableKey, isKey⟩ := Option.isSome_iff_exists.mp (usable rfl)
      refine .giving (.inl rfl) ?_
      rw [isKey]
      refine (halts.unlessSignal fun given between later _ _ halts => ?_).within fun _ => .inr
      exact .giving (.inl rfl) ((ih halts _).within fun _ => .inr)

/-- A node whose operands give a signal gives that. -/
theorem Halts.node {tree : Node} (halts : Halts evaluate scope tree.slots before signal after seen) :
    Passes (Eval.node setting evaluate apply tree scope before) signal after seen := by
  cases tree with
  | letStatement | returnStatement | unary | conditional => exact halts.only
  | binary | index => exact halts.pair
  | expressionStatement token expression =>
      cases halts with
      | here gives isSignal =>
          exact .of_ending gives fun _ => id
      | next _ _ _ halts => cases halts
  | array =>
      refine (halts.expressions []).bind ?_
      rintro _ _ ⟨rfl, rfl⟩
      exact .pure halts.last ⟨rfl, rfl⟩
  | hash => exact halts.entries []
  | call =>
      refine halts.unlessSignal fun value between later _ _ halts => ?_
      refine ((halts.expressions []).within fun _ => Or.inr).bind ?_
      rintro _ _ ⟨rfl, rfl⟩
      exact .pure (.inr halts.last) ⟨rfl, rfl⟩
  | _ => cases halts

end Nodes

/-- Statements in a row come to one that gives a signal when it is evaluated, after it was announced and
its step was logged.  The states in between are those that are touched up to then. -/
inductive Stops (setting : Setting) (evaluate : Evaluator) (scope : ScopeId) :
    List Node → Machine → Node → Value → Machine → (Machine → Prop) → Prop
  | here {statement : Node} {others : List Node} {before told logged after : Machine} {signal : Value}
      (announces : (announce setting.hooks (.beforeStatement statement scope) before).ending =
        .ok () told)
      (logs : (logStatement setting statement told).ending = .ok () logged)
      (gives : (evaluate (content statement) scope logged).ending = .ok (some signal) after)
      (isSignal : signal.isSignal = true) :
      Stops setting evaluate scope (statement :: others) before statement signal after fun machine =>
        (announce setting.hooks (.beforeStatement statement scope) before).Touches machine ∨
          (logStatement setting statement told).Touches machine ∨
            (evaluate (content statement) scope logged).Touches machine
  | next {statement stopped : Node} {others : List Node} {before between after : Machine}
      {result : Option Value} {signal : Value} {later : Machine → Prop}
      (ran : (inStatement setting statement scope
        (evaluate (content statement) scope) before).ending = .ok result between)
      (ordinary : ∀ value, result = some value → value.isSignal = false)
      (stops : Stops setting evaluate scope others between stopped signal after later) :
      Stops setting evaluate scope (statement :: others) before stopped signal after fun machine =>
        (inStatement setting statement scope (evaluate (content statement) scope) before).Touches machine ∨
          later machine

section Statements

variable {setting : Setting} {evaluate : Evaluator} {scope : ScopeId} {before after : Machine}
  {stopped : Node} {signal : Value} {seen : Machine → Prop}

/-- All that happens to a statement behind its result is that hooks are told of its end. -/
theorem inStatement_result {statement : Node} {told logged : Machine} {result : Option Value}
    (announces : (announce setting.hooks (.beforeStatement statement scope) before).ending = .ok () told)
    (logs : (logStatement setting statement told).ending = .ok () logged)
    (gives : (evaluate (content statement) scope logged).ending = .ok result after) :
    let ends := announce setting.hooks (.afterStatement statement scope) after
    (inStatement setting statement scope (evaluate (content statement) scope) before).Meets
      (fun machine =>
        ((announce setting.hooks (.beforeStatement statement scope) before).Touches machine ∨
          (logStatement setting statement told).Touches machine ∨
            (evaluate (content statement) scope logged).Touches machine) ∨ ends.Touches machine)
      (fun found final => found = result ∧ ends.ending = .ok () final)
      fun fault final => ends.ending = .error fault final := by
  intro ends
  refine .following announces (fun _ touched => .inl (.inl touched)) ?_
  refine .following logs (fun _ touched => .inl (.inr (.inl touched))) ?_
  refine .following gives (fun _ touched => .inl (.inr (.inr touched))) ?_
  have telling : ends.Meets ends.Touches (fun _ final => ends.ending = .ok () final)
      fun fault final => ends.ending = .error fault final :=
    ⟨fun _ => .inl, fun _ _ => id, fun _ _ => id⟩
  exact (telling.within fun _ => .inr).bind fun _ _ ended => .pure (.inr (.last ended)) ⟨rfl, ended⟩

theorem Stops.statements {body : List Node}
    (stops : Stops setting evaluate scope body before stopped signal after seen)
    (previous : Option Value) :
    let ends := announce setting.hooks (.afterStatement stopped scope) after
    (Eval.statements setting evaluate scope body previous before).Meets
      (fun machine => seen machine ∨ ends.Touches machine)
      (fun result final => result = some signal ∧ ends.ending = .ok () final)
      fun fault final => ends.ending = .error fault final := by
  induction stops generalizing previous with
  | here announces logs gives isSignal =>
      intro ends
      unfold Eval.statements
      refine (inStatement_result announces logs gives).bind ?_
      rintro _ final ⟨rfl, ended⟩
      simp only [isSignal, if_true]
      exact .pure (.inr (.last ended)) ⟨rfl, ended⟩
  | @next _ _ _ _ _ _ result _ _ ran ordinary _ ih =>
      intro ends
      unfold Eval.statements
      refine .following ran (fun _ touched => .inl (.inl touched)) ?_
      cases result with
      | none => exact (ih previous).within fun _ passed => passed.imp_left .inr
      | some value =>
          dsimp only
          rw [ordinary value rfl]
          exact (ih (some value)).within fun _ passed => passed.imp_left .inr

/-- Hooks that are told of something change nothing but what they print and record, and how often they
were called. -/
theorem announce_changes (hooks : Hooks) (notice : Notice) (before : Machine) :
    (announce hooks notice before).Keeps fun machine =>
      ∃ printed recorded hookCalls, machine =
        { before with printed := printed, recorded := recorded, hookCalls := hookCalls } := by
  refine announce_keeps (fun notes kept => ?_) hooks notice ⟨_, _, _, rfl⟩
  obtain ⟨printed, recorded, hookCalls, rfl⟩ := kept
  cases notes with
  | hookCall hook => exact ⟨_, _, _, rfl⟩
  | print line => exact ⟨_, _, _, rfl⟩
  | record hook event details => exact ⟨_, _, _, rfl⟩

end Statements

end Eval

/-- If some operand of a node gives a signal, and those before it give ordinary values and usable keys,
then that signal is at once what the node gives, in the state in which that operand left the machine:
no other states are passed than those of these operands.  Likewise for statements in a row, where the
end of the statement is still announced to hooks, which change nothing but what they print and record,
and may raise a fault. -/
theorem signals_end_evaluation (setting : Setting) (depth : Nat) (scope : ScopeId)
    {before after : Machine} {signal : Value} {seen : Machine → Prop} :
    (∀ tree : Node,
      Eval.Halts (evaluate setting depth) scope tree.slots before signal after seen →
      let course := evaluate setting (depth + 1) tree scope before
      course.ending = .ok (some signal) after ∧ ∀ machine, course.passes machine → seen machine) ∧
    ∀ (body : List Node) (previous : Option Value) (stopped : Node),
      Eval.Stops setting (evaluate setting depth) scope body before stopped signal after seen →
      let course := Eval.statements setting (evaluate setting depth) scope body previous before
      let ends := Eval.announce setting.hooks (.afterStatement stopped scope) after
      (∀ final, ends.ending = .ok () final → course.ending = .ok (some signal) final) ∧
        (∀ fault final, ends.ending = .error fault final → course.ending = .error fault final) ∧
        (∀ machine, course.passes machine → seen machine ∨ ends.Touches machine) ∧
        ∃ printed recorded hookCalls, course.machine =
          { after with printed := printed, recorded := recorded, hookCalls := hookCalls } := by
  constructor
  · intro tree halts course
    have meets : Eval.Passes course signal after seen := halts.node
    obtain ⟨_, _, ended, rfl, rfl⟩ := meets.ends
    exact ⟨ended, meets.passing⟩
  · intro body previous stopped stops course ends
    have meets := stops.statements previous
    have changes := Eval.announce_changes setting.hooks (.afterStatement stopped scope) after
    cases ended : course.ending with
    | ok result last =>
        obtain ⟨rfl, told⟩ := meets.done result last ended
        refine ⟨fun final given => ?_, fun _ _ given => (nomatch told.symm.trans given), meets.passing, ?_⟩
        · cases told.symm.trans given
          rfl
        · rw [Course.machine, ended]
          exact changes.done () last told
    | error fault last =>
        have told := meets.broken fault last ended
        refine ⟨fun _ given => (nomatch told.symm.trans given), fun _ _ given => ?_, meets.passing, ?_⟩
        · cases told.symm.trans given
          rfl
        · rw [Course.machine, ended]
          exact changes.broken fault last told

/-- The second item of an array is an unknown name, and so is the second of three statements.  The calls
behind them would print. -/
theorem signals_end_evaluation_unknown_name :
    let token : Token := ⟨.identifier, "", 1, 1⟩
    let call : Node := .call token (.identifier ⟨token, "puts"⟩) [.boolean token true]
    let items : List Node := [.integer token 1, .identifier ⟨token, "x"⟩, call]
    let setting : Setting := ⟨"<string>", false, Builtin.core, .none⟩
    let before := (Eval.newScope none (.initial setting)).machine
    ∃ itemFailure statementFailure after last,
      (evaluate setting 5 (.array token items) 0 before).ending =
        .ok (some (.failed itemFailure)) after ∧ after.printed = #[] ∧
      (Eval.statements setting (evaluate setting 4) 0 items none before).ending =
        .ok (some (.failed statementFailure)) last ∧ last.printed = #[] := by
  intro token call items setting before
  have halts : Eval.Halts (evaluate setting 4) 0 (Node.array token items).slots before _ _ _ :=
    .next rfl rfl nofun (.here rfl rfl)
  have stops : Eval.Stops setting (evaluate setting 4) 0 items before items[1] _ _ _ :=
    .next rfl (fun _ same => Option.some.inj same ▸ rfl) (.here rfl rfl rfl rfl)
  obtain ⟨first, -⟩ := (signals_end_evaluation setting 4 0).1 _ halts
  obtain ⟨second, -⟩ := (signals_end_evaluation setting 4 0).2 _ none _ stops
  exact ⟨_, _, _, _, first, rfl, second _ rfl, rfl⟩

end MonkeyLang
