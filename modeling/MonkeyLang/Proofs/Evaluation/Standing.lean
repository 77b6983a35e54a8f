import MonkeyLang.Proofs.Evaluation.Contract
import MonkeyLang.Proofs.Evaluation.Rules

namespace MonkeyLang

/-! # What evaluations keep up

A standing tells two things of states: what holds of every state that an evaluation passes, and what
holds in addition where an evaluation starts and where it ends, be it with a result or with a fault.
The elementary changes of the machine keep it up, and so does a frame that is opened where one may be
opened, and closed again.  Every standing is a regime.
-/

/-- A frame may be opened in a state: seen from outside, all that happens in it is then in order if it
is so seen from inside. -/
def Machine.Opens {Index : Type} (through ends : Index → Machine → Prop) (index : Index)
    (before : Machine) (name : String) (scope : ScopeId) (site : Option Location) : Prop :=
  ∃ inner, ends inner (before.pushFrame name scope site) ∧
    (∀ machine, through inner machine → through index machine) ∧
    ∀ machine closing, ends inner machine → ends index (machine.close before.nextSerial closing)

/-- A family of conditions on states, one for each state of affairs outside the evaluation. -/
structure Standing (setting : Setting) extends Domain setting where
  Index : Type
  through : Index → Machine → Prop
  ends : Index → Machine → Prop
  /-- Where a frame may be opened. -/
  ready : String → Option Location → Machine → Prop
  passable : ∀ index machine, ends index machine → through index machine
  found : ∀ {index machine scope name value}, ends index machine →
    machine.scopes.find? scope name = some value → good value
  unused : ∀ {index machine}, ends index machine → fresh machine.scopes.size
  minor : ∀ {index before after}, ends index before → before.Minor after → ends index after
  anywhere : ∀ location, placed location
  bound : ∀ {index machine scope name value}, ends index machine → binds scope name → good value →
    ends index { machine with scopes := machine.scopes.bind scope name value }
  called : ∀ {index machine} verbose name site, ends index machine →
    ready name site (machine.logStep verbose "Call" site (some name))
  frame : ∀ {index before} name scope site, ends index before → ready name site before →
    before.Opens through ends index name scope site
  /-- A total domain has no hooks, and its builtins run no texts. -/
  quiet : total → ∀ event, setting.hooks.of event = []
  breakable : executes → ¬ total
  texts : executes → ∀ {text parsed}, Parsed.ofText text = .ok parsed → parsed.errors = [] →
    ∀ scope, allows parsed.program scope

namespace Standing

variable {setting : Setting} (standing : Standing setting)

/-- Started where `ends` holds, an evaluation passes states where `through` holds and ends where
`ends` holds again. -/
def Holds {α : Type} (post : α → Prop) (action : Eval α) : Prop :=
  ∀ index before, standing.ends index before →
    (action before).Meets (standing.through index)
      (fun result after => standing.ends index after ∧ post result)
      (fun fault after => standing.ends index after ∧ (standing.total → fault = .depth))

variable {standing} {evaluate : Evaluator} {α β : Type} {post : α → Prop}

theorem Holds.pure {result : α} (holds : post result) : standing.Holds post (Pure.pure result) :=
  fun index before started => .pure (standing.passable index before started) ⟨started, holds⟩

theorem Holds.raise (cause : Cause) {fault : Fault} (deep : standing.total → fault = .depth) :
    standing.Holds post (Eval.raiseFor cause fault) :=
  fun index before started => .raise (standing.passable index before started) ⟨started, deep⟩

theorem Holds.reraise {fault : Fault} (deep : standing.total → fault = .depth) :
    standing.Holds post (Eval.reraise fault) :=
  fun index before started => .reraise (standing.passable index before started) ⟨started, deep⟩

theorem Holds.weaken {strong : α → Prop} {action : Eval α} (holds : standing.Holds strong action)
    (weaker : ∀ result, strong result → post result) : standing.Holds post action :=
  fun index before started => (holds index before started).leads
    (fun result _ ended => ⟨ended.1, weaker result ended.2⟩) fun _ _ => id

theorem Holds.bind {last : β → Prop} {first : Eval α} {next : α → Eval β}
    (holds : standing.Holds post first)
    (rest : ∀ result, post result → standing.Holds last (next result)) :
    standing.Holds last (first >>= next) :=
  fun index before started => (holds index before started).bind fun result between ended =>
    rest result ended.2 index between ended.1

theorem Holds.recover {body : Eval α} {resume : Fault → Eval α} (holds : standing.Holds post body)
    (resumes : ∀ fault, (standing.total → fault = .depth) → standing.Holds post (resume fault)) :
    standing.Holds post (Eval.recover body resume) :=
  fun index before started => (holds index before started).recover fun fault between ended =>
    resumes fault ended.2 index between ended.1

theorem Holds.note (mark : Machine → Mark) :
    standing.Holds (fun _ => True) (Eval.note mark) :=
  fun index before started => .note (standing.passable index before started) ⟨started, trivial⟩

theorem Holds.get : standing.Holds (fun machine => ∃ index, standing.ends index machine)
    MonadState.get :=
  fun index before started =>
    .get (standing.passable index before started) ⟨started, index, started⟩

theorem Holds.attempt {action : Eval α} (caught : Fault → Bool)
    (holds : standing.Holds post action) :
    standing.Holds (standing.Answered caught post) (Eval.attempt caught action) :=
  .bind .get fun _ _ => .recover (.bind holds fun _ given => .pure given) fun fault deep => by
    split
    · rename_i isCaught
      exact .bind (.note _) fun _ _ =>
        .pure ⟨isCaught, deep, fun location _ => standing.anywhere location⟩
    · exact .reraise deep

theorem Holds.change {step : Machine → α × Machine}
    (keeps : ∀ {index machine}, standing.ends index machine →
      standing.ends index (step machine).2 ∧ post (step machine).1) :
    standing.Holds post (Eval.change step) :=
  fun index before started =>
    have ended := keeps started
    .change (standing.passable index before started) (standing.passable index _ ended.1) ended

/-- What a standing knows at a point is that some instance of it holds there. -/
def rules (standing : Standing setting) : Rules setting where
  toDomain := standing.toDomain
  known machine := ∃ index, standing.ends index machine
  Holds := standing.Holds
  found known isFound := known.elim fun _ ended => standing.found ended isFound
  unused known := known.elim fun _ ended => standing.unused ended
  pure := .pure
  bind := .bind
  weaken := .weaken
  raise cause _ deep := .raise cause deep
  attempt caught holds := .attempt caught holds
  get := .get
  note := .note
  change minor given := .change fun {index _} started =>
    ⟨standing.minor started (minor _), given _ ⟨index, started⟩⟩
  anywhere := standing.anywhere
  bound binds isGood := .change fun started => ⟨standing.bound started binds isGood, trivial⟩
  quiet := standing.quiet

/-- What the body passes is inside the frame, which is closed however the body ends. -/
theorem Holds.enclosed {index : standing.Index} {before : Machine} {body : Eval α}
    (closing : Machine.Closing) (name : String) (scope : ScopeId) (site : Option Location)
    (started : standing.ends index before)
    (opens : before.Opens standing.through standing.ends index name scope site)
    (holds : standing.Holds post body) :
    (Eval.enclosed closing name scope site body before).Meets (standing.through index)
      (fun result after => standing.ends index after ∧ post result)
      (fun fault after => standing.ends index after ∧ (standing.total → fault = .depth)) := by
  obtain ⟨inner, opened, inside, closes⟩ := opens
  have passable : ∀ machine, standing.ends inner machine → standing.through index machine :=
    fun machine ended => inside machine (standing.passable inner machine ended)
  have running := (holds inner _ opened).weaken inside (fun _ _ => id) fun _ _ => id
  refine .changing (standing.passable index before started) (passable _ opened) ?_
  refine .bind (.recover running fun fault after ended => ?_) fun result after ended => ?_
  · have closed := closes after closing ended.1
    have closedPassable := standing.passable index _ closed
    exact .modifying (passable after ended.1) closedPassable
      (.reraise closedPassable ⟨closed, ended.2⟩)
  · have closed := closes after closing ended.1
    have closedPassable := standing.passable index _ closed
    exact .modifying (passable after ended.1) closedPassable
      (.pure closedPassable ⟨closed, ended.2⟩)

/-- Calls captured on the way out change nothing but a fault. -/
theorem Holds.captured {body : Eval α} (holds : standing.Holds post body) :
    standing.Holds post
      (Eval.recover body fun fault => do Eval.reraise (Eval.capture (← MonadState.get) fault)) := by
  refine .recover holds fun fault deep => .bind .get fun machine _ => .reraise fun isTotal => ?_
  rw [deep isTotal]
  rfl

/-- A frame is opened right behind the step of its call. -/
theorem Holds.inFunction {post : Option Value → Prop} {body : Eval (Option Value)} (name : String)
    (arguments : List Value) (scope : ScopeId) (site : Option Location)
    (holds : standing.Holds post body) :
    standing.Holds (fun result => ∃ outcome, result = some (Eval.callResult outcome) ∧ post outcome)
      (Eval.inCall setting name arguments (some scope) site do
        return some (Eval.callResult (← Eval.inFrame name scope site body))) := by
  refine .bind (standing.rules.announce _) fun _ _ => ?_
  intro index before started
  have logged := standing.minor started (.step setting.verbose "Call" site (some name))
  have opens := standing.frame name scope site logged
    (standing.called setting.verbose name site started)
  have framed := holds.captured.enclosed .innermost name scope site logged opens
  have returned : ((do
      let outcome ← Eval.inFrame name scope site body
      return some (Eval.callResult outcome) : Eval (Option Value))
        (before.logStep setting.verbose "Call" site (some name))).Meets (standing.through index)
      (fun result after => standing.ends index after ∧
        ∃ outcome, result = some (Eval.callResult outcome) ∧ post outcome)
      (fun fault after => standing.ends index after ∧ (standing.total → fault = .depth)) :=
    Course.Meets.bind framed fun outcome after ended =>
      .pure (standing.passable index after ended.1) ⟨ended.1, outcome, rfl, ended.2⟩
  refine .modifying (standing.passable index before started) (standing.passable index _ logged) ?_
  refine returned.bind fun result after ended => ?_
  have announced : standing.Holds (· = result) (do
      Eval.announce setting.hooks (.afterCall name result (some scope) site)
      return result) :=
    .bind (standing.rules.announce _) fun _ _ => .pure rfl
  refine (announced index after ended.1).leads ?_ fun _ _ => id
  rintro _ later ⟨still, rfl⟩
  exact ⟨still, ended.2⟩

theorem Holds.abandon (failure : Failure) (breaks : ¬ standing.total) :
    standing.Holds post (Eval.abandon setting failure) :=
  .bind .get fun _ _ => .bind (standing.rules.announce _) fun _ _ =>
    .reraise fun isTotal => absurd isTotal breaks

theorem Holds.settle {body : Eval α} (breaks : ¬ standing.total) (holds : standing.Holds post body) :
    standing.Holds post (Eval.settle setting body) := by
  refine .recover holds fun fault _ => ?_
  split
  · exact .reraise fun isTotal => absurd isTotal breaks
  · exact .abandon _ breaks
  · exact .bind (standing.rules.modifies fun _ => .exhaustion) fun _ _ => .abandon _ breaks
  · exact .abandon _ breaks

/-- A text may be run whose program, if it has one, is allowed. -/
theorem Holds.executeAllowed (text : String) (scope : ScopeId) (breaks : ¬ standing.total)
    (allowed : ∀ {parsed}, Parsed.ofText text = .ok parsed → parsed.errors = [] →
      standing.allows parsed.program scope)
    (evaluates : ∀ tree scope, standing.allows tree scope →
      standing.Holds (standing.Answers tree) (evaluate tree scope)) :
    standing.Holds (Result standing.good) (Eval.execute setting evaluate text scope) := by
  have body : standing.Holds (Result standing.good) (Eval.body setting evaluate text scope) := by
    refine .bind (standing.rules.parse text breaks) fun program given => ?_
    obtain ⟨parsed, read, clean, rfl⟩ := given
    refine .bind (standing.rules.announce _) fun _ _ => ?_
    exact (evaluates _ scope (allowed read clean)).weaken fun _ => And.left
  refine .bind (standing.rules.modifies fun _ => .text _) fun _ _ => ?_
  refine .bind (body.settle breaks) fun ending admissible => ?_
  have closing : standing.Holds (Result standing.good) (do
      Eval.announce setting.hooks (.programEnd (Eval.textResult ending))
      return Eval.textResult ending) :=
    .bind (standing.rules.announce _) fun _ _ => .pure (standing.textResult admissible)
  dsimp only
  split
  · exact .bind (standing.rules.announce _) fun _ _ => closing
  · exact closing

theorem Holds.execute (text : String) (scope : ScopeId) (executes : standing.executes)
    (evaluates : ∀ tree scope, standing.allows tree scope →
      standing.Holds (standing.Answers tree) (evaluate tree scope)) :
    standing.Holds (Result standing.good) (Eval.execute setting evaluate text scope) :=
  .executeAllowed text scope (standing.breakable executes)
    (fun read clean => standing.texts executes read clean scope) evaluates

/-- A run opens a scope and a frame of its own. -/
theorem Holds.run {post : Option Value → Prop} {index : standing.Index} {before : Machine}
    (text : String) (started : standing.ends index before)
    (opens : ∀ scope parent, standing.ends index { before with scopes := before.scopes.add parent } →
      Machine.Opens standing.through standing.ends index
        { before with scopes := before.scopes.add parent } topLevel scope none)
    (holds : ∀ scope, standing.Holds post (setting.execute text scope)) :
    (setting.run text before).Meets (standing.through index)
      (fun result after => standing.ends index after ∧ post result)
      (fun fault after => standing.ends index after ∧ (standing.total → fault = .depth)) := by
  have added := standing.minor started (.scope none)
  exact .changing (standing.passable index before started) (standing.passable index _ added)
    ((holds _).enclosed .unwinding topLevel _ none added (opens _ none added))

def regime (standing : Standing setting) : Regime setting :=
  standing.rules.regime .inFunction fun text scope executes evaluates =>
    .execute text scope executes evaluates

end Standing

end MonkeyLang
