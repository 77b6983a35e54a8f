import MonkeyLang.Proofs.Calls
import MonkeyLang.Proofs.SoundValues
import MonkeyLang.Proofs.Syntax.Parts

namespace MonkeyLang

/-! # Places of nodes

While a text runs, every node is located in that text, also one that was read from another text: that
of a function which an earlier text defined.  What a state names are places of such nodes, and places
that were brought along by those who act on the state.
-/

/-- A node inside the program that is read from a text. -/
def Node.From (text : String) (node : Node) : Prop :=
  ∃ program, Parsed.ofText text = .ok ⟨program, []⟩ ∧
    ∃ statement ∈ program.body, statement.Part node

/-- The place of a node while a text runs. -/
def Setting.placeIn (setting : Setting) (running : String) (node : Node) : Location where
  file := setting.file
  line := node.token.line
  column := node.token.column
  statement :=
    (if node.token.line = 0 then none
      else (Machine.trimmedLines running)[node.token.line - 1]?).getD node.render

namespace Node.From

variable {text : String} {node part : Node}

theorem operand (within : node.From text) (member : part ∈ node.operands) : part.From text := by
  obtain ⟨program, read, statement, among, inside⟩ := within
  exact ⟨program, read, statement, among, inside.operand member⟩

theorem statement (within : node.From text) (member : part ∈ node.statements) :
    part.From text := by
  obtain ⟨program, read, statement, among, inside⟩ := within
  exact ⟨program, read, statement, among, inside.statement member⟩

theorem token (within : node.From text) :
    node.token ∈ Token.scan text ∧ node.token.kind ≠ .endOfInput := by
  obtain ⟨program, read, statement, among, inside⟩ := within
  exact ((Parsed.statements_formed read statement among).part inside).here.token

end Node.From

/-- A value without signals at any depth, of which every function was read from one of some texts. -/
inductive Value.Drawn (texts : List String) : Value → Prop
  | integer (id : ObjectId) (value : Int) : Drawn texts (.integer id value)
  | boolean (value : Bool) : Drawn texts (.boolean value)
  | null : Drawn texts .null
  | string (id : ObjectId) (text : String) : Drawn texts (.string id text)
  | array (id : ObjectId) {items : List Value} (elements : ∀ item ∈ items, Drawn texts item) :
      Drawn texts (.array id items)
  | hash (id : ObjectId) {entries : List (Key × Value)}
      (values : ∀ entry ∈ entries, Drawn texts entry.2) : Drawn texts (.hash id entries)
  | function (id : ObjectId) (parameters : List Identifier) {body : Block Node} (scope : ScopeId)
      (read : ∀ statement ∈ body.statements, ∃ text ∈ texts, statement.From text) :
      Drawn texts (.function id parameters body scope)
  | builtin (id : ObjectId) (name : String) (arity : Arity) : Drawn texts (.builtin id name arity)

namespace Value.Drawn

variable {texts : List String} {value : Value}

theorem elements {id : ObjectId} {items : List Value}
    (drawn : (Value.array id items).Drawn texts) : ∀ item ∈ items, item.Drawn texts := by
  cases drawn with
  | array _ elements => exact elements

theorem statements {id : ObjectId} {parameters : List Identifier} {body : Block Node}
    {scope : ScopeId} (drawn : (Value.function id parameters body scope).Drawn texts) :
    ∀ statement ∈ body.statements, ∃ text ∈ texts, statement.From text := by
  cases drawn with
  | function _ _ _ read => exact read

theorem more {texts known : List String} (drawn : value.Drawn texts) (all : texts ⊆ known) :
    value.Drawn known := by
  induction drawn with
  | integer id value => exact .integer id value
  | boolean value => exact .boolean value
  | null => exact .null
  | string id text => exact .string id text
  | array id _ ih => exact .array id ih
  | hash id _ ih => exact .hash id ih
  | function id parameters scope read =>
      refine .function id parameters scope fun statement member => ?_
      obtain ⟨text, among, within⟩ := read statement member
      exact ⟨text, all among, within⟩
  | builtin id name arity => exact .builtin id name arity

theorem composes (texts : List String) : Value.Composes (Value.Drawn texts) where
  null := .null
  computed id value := .integer id (wrap value)
  string := .string
  array := .array _
  items := elements

end Value.Drawn

/-- Values drawn from some texts, the trees that were read from them, and some places. -/
def Domain.drawn (setting : Setting) (texts : List String) (placed : Location → Prop) :
    Domain setting where
  good := Value.Drawn texts
  allows tree _ := ∃ text ∈ texts, tree.From text
  binds _ _ := True
  fresh _ := True
  placed := placed
  total := False
  executes := False
  catches := True
  admissible drawn := by cases drawn <;> constructor <;> assumption
  usable isTotal := isTotal.elim
  null := .null
  boolean := .boolean
  computed id value := .integer id (wrap value)
  string := .string
  builtin found := by
    obtain ⟨id, name, arity, rfl⟩ := setting.builtinValue?_shape found
    exact .builtin id name arity
  array := .array _
  items := Value.Drawn.elements
  hash allDrawn := .hash _ fun entry member => (allDrawn entry member).2
  integer _ id := .integer id _
  function := by
    rintro token parameters body scope ⟨text, among, within⟩ id
    exact .function id parameters scope fun _ member => ⟨text, among, within.statement member⟩
  operands := by
    rintro tree scope operand ⟨text, among, within⟩ member
    exact ⟨⟨text, among, within.operand member⟩, False.elim⟩
  body := by
    rintro tree scope statement ⟨text, among, within⟩ member
    exact ⟨text, among, within.statement (Node.body_statements member)⟩
  target _ := trivial
  opened drawn _ := ⟨fun _ => trivial, drawn.statements⟩
  supported isTotal := isTotal.elim

/-- The places that a state names: those of the latest steps, and those of the calls that are open. -/
inductive Machine.Names (machine : Machine) (location : Location) : Prop
  | last {step : Step} (logged : machine.steps.last = some step)
      (located : step.location = some location)
  | latest {entry : Nat × Step} (kept : entry ∈ machine.steps.latest)
      (located : entry.2.location = some location)
  | site {frame : Frame} (opened : frame ∈ machine.stack) (called : frame.site = some location)

/-- The places that a failure names: its own, and those of the calls that were open. -/
inductive Failure.Names (failure : Failure) (location : Location) : Prop
  | own (located : failure.location = some location)
  | call {call : OpenCall} (opened : call ∈ failure.calls) (located : call.location = some location)
  | step {call : OpenCall} {step : Step} (opened : call ∈ failure.calls)
      (logged : call.step = some step) (located : step.location = some location)

/-- An open call is that of an open frame: with its latest step, or where it was called. -/
theorem Machine.openCalls_mem (machine : Machine) {call : OpenCall}
    (opened : call ∈ machine.openCalls) :
    ∃ frame ∈ machine.stack,
      (∃ step, machine.steps.forFrame frame.serial = some step ∧
        call = ⟨frame.name, step.location, some step⟩) ∨ call = ⟨frame.name, frame.site, none⟩ := by
  obtain ⟨frame, isOpen, rfl⟩ := List.mem_map.mp opened
  refine ⟨frame, List.mem_reverse.mp isOpen, ?_⟩
  cases machine.steps.forFrame frame.serial with
  | some step => exact .inl ⟨step, rfl, rfl⟩
  | none => exact .inr rfl

namespace Machine.Names

variable {machine after : Machine} {location : Location}

theorem of_same (names : after.Names location) (steps : after.steps = machine.steps)
    (stack : after.stack = machine.stack) : machine.Names location := by
  cases names with
  | last logged located => exact .last (steps ▸ logged) located
  | latest kept located => exact .latest (steps ▸ kept) located
  | site opened called => exact .site (stack ▸ opened) called

theorem of_failure {message : String} {origin : Option String}
    (names : (machine.failure message origin).Names location) : machine.Names location := by
  cases names with
  | own located =>
      obtain ⟨step, logged, located⟩ := Option.bind_eq_some_iff.mp located
      exact .last logged located
  | call opened located =>
      obtain ⟨frame, isOpen, ⟨step, found, rfl⟩ | rfl⟩ := machine.openCalls_mem opened
      · exact .latest (StepLog.forFrame_mem found) located
      · exact .site isOpen located
  | step opened logged located =>
      obtain ⟨frame, isOpen, ⟨step, found, rfl⟩ | rfl⟩ := machine.openCalls_mem opened
      · cases logged
        exact .latest (StepLog.forFrame_mem found) located
      · cases logged

theorem of_logStep {verbose : Bool} {form : String} {site : Option Location}
    {callee : Option String} (names : (machine.logStep verbose form site callee).Names location) :
    machine.Names location ∨ site = some location := by
  cases names with
  | last logged located =>
      cases logged
      exact .inr located
  | latest kept located =>
      change _ ∈ (machine.steps.record (machine.stack.head?.map (·.serial)) _).latest at kept
      cases frame : machine.stack.head?.map (·.serial) with
      | none =>
          rw [frame] at kept
          exact .inl (.latest kept located)
      | some serial =>
          rw [frame] at kept
          rcases List.mem_cons.mp kept with rfl | old
          · exact .inr located
          · exact .inl (.latest (List.mem_filter.mp old).1 located)
  | site opened called => exact .inl (.site opened called)

theorem of_pushFrame {name : String} {scope : ScopeId} {site : Option Location}
    (names : (machine.pushFrame name scope site).Names location) :
    machine.Names location ∨ site = some location := by
  cases names with
  | last logged located => exact .inl (.last logged located)
  | latest kept located => exact .inl (.latest kept located)
  | site opened called =>
      rcases List.mem_cons.mp opened with rfl | old
      · exact .inr called
      · exact .inl (.site old called)

theorem of_closeFrame {serial : Nat} (names : (machine.closeFrame serial).Names location) :
    machine.Names location := by
  cases names with
  | last logged located => exact .last logged located
  | latest kept located => exact .latest (List.mem_filter.mp kept).1 located
  | site opened called => exact .site (List.mem_of_mem_tail opened) called

end Machine.Names

/-- The text that runs is the latest one, all values are drawn from the texts so far, and the places
that are named are among the given ones. -/
structure Machine.Placed (texts : List String) (placed : Location → Prop) (machine : Machine) :
    Prop where
  lines : machine.lines = Machine.trimmedLines (texts.headD "")
  bound : machine.scopes.Bind (Value.Drawn texts)
  named : ∀ location, machine.Names location → placed location

namespace Machine.Placed

variable {texts : List String} {placed : Location → Prop} {machine after : Machine}

/-- What neither logs nor opens anything names no other places. -/
theorem quiet (start : machine.Placed texts placed) (bound : after.scopes.Bind (Value.Drawn texts))
    (lines : after.lines = machine.lines) (steps : after.steps = machine.steps)
    (stack : after.stack = machine.stack) : after.Placed texts placed where
  lines := lines.trans start.lines
  bound := bound
  named location names := start.named location (names.of_same steps stack)

theorem pushFrame (start : machine.Placed texts placed) (name : String) (scope : ScopeId)
    {site : Option Location} (sited : ∀ location, site = some location → placed location) :
    (machine.pushFrame name scope site).Placed texts placed where
  lines := start.lines
  bound := start.bound
  named location names := names.of_pushFrame.elim (start.named location) (sited location)

theorem logStep (start : machine.Placed texts placed) (verbose : Bool) (form : String)
    {site : Option Location} (callee : Option String)
    (sited : ∀ location, site = some location → placed location) :
    (machine.logStep verbose form site callee).Placed texts placed where
  lines := start.lines
  bound := start.bound
  named location names := names.of_logStep.elim (start.named location) (sited location)

theorem closeFrame (start : machine.Placed texts placed) (serial : Nat) :
    (machine.closeFrame serial).Placed texts placed where
  lines := start.lines
  bound := start.bound
  named location names := start.named location names.of_closeFrame

theorem unwind (start : machine.Placed texts placed) (serial : Nat) :
    (machine.unwind serial).Placed texts placed :=
  unwind_keeps (fun {machine frame _} _ (kept : machine.Placed texts placed) =>
    kept.closeFrame frame.serial) machine serial start

theorem close (start : machine.Placed texts placed) (serial : Nat) (closing : Closing) :
    (machine.close serial closing).Placed texts placed := by
  cases closing with
  | innermost => exact start.closeFrame serial
  | unwinding => exact start.unwind serial

end Machine.Placed

/-- Hooks raise faults at some places only. -/
def Hooks.Bring (brought : Location → Prop) (hooks : Hooks) : Prop :=
  ∀ event, ∀ hook ∈ hooks.of event, ∀ circumstance notice fault,
    hook.react circumstance notice = .raise fault →
    ∀ location, fault.place? = some location → brought location

theorem Hook.fault_place {hook : Hook} {event : Event} {fault : Fault} {location : Location}
    (located : (hook.fault event fault).place? = some location) :
    fault.place? = some location := by
  cases fault with
  | runtime => exact located
  | _ => cases located

/-- An evaluation names some places only, also in the fault that breaks it off. -/
def Eval.Places {α : Type} (texts : List String) (placed : Location → Prop) (post : α → Prop)
    (action : Eval α) : Prop :=
  ∀ before : Machine, before.Placed texts placed →
    (action before).Meets (Machine.Placed texts placed)
      (fun result after => after.Placed texts placed ∧ post result)
      fun fault after => after.Placed texts placed ∧
        ∀ location, fault.place? = some location → placed location

namespace Eval.Places

variable {α β : Type} {setting : Setting} {texts : List String} {placed : Location → Prop}
  {post : α → Prop}

theorem pure {result : α} (given : post result) : Places texts placed post (Pure.pure result) :=
  fun _ started => .pure started ⟨started, given⟩

theorem raise (cause : Cause) {fault : Fault}
    (located : ∀ location, fault.place? = some location → placed location) :
    Places texts placed post (Eval.raiseFor cause fault) :=
  fun _ started => .raise started ⟨started, located⟩

theorem reraise {fault : Fault}
    (located : ∀ location, fault.place? = some location → placed location) :
    Places texts placed post (Eval.reraise fault) :=
  fun _ started => .reraise started ⟨started, located⟩

theorem get : Places texts placed (Machine.Placed texts placed) MonadState.get :=
  fun _ started => .get started ⟨started, started⟩

theorem weaken {strong : α → Prop} {action : Eval α} (places : Places texts placed strong action)
    (weaker : ∀ result, strong result → post result) : Places texts placed post action :=
  fun before started => (places before started).leads
    (fun result _ ended => ⟨ended.1, weaker result ended.2⟩) fun _ _ => id

theorem bind {last : β → Prop} {first : Eval α} {next : α → Eval β}
    (places : Places texts placed post first)
    (rest : ∀ result, post result → Places texts placed last (next result)) :
    Places texts placed last (first >>= next) :=
  fun before started => (places before started).bind fun result between ended =>
    rest result ended.2 between ended.1

theorem followed {action : Eval α} (places : Places texts placed post action) (result : α → β) :
    Places texts placed (fun _ => True) (do return result (← action)) :=
  bind places fun _ _ => pure trivial

theorem recover {body : Eval α} {resume : Fault → Eval α} (places : Places texts placed post body)
    (resumes : ∀ fault, (∀ location, fault.place? = some location → placed location) →
      Places texts placed post (resume fault)) :
    Places texts placed post (Eval.recover body resume) :=
  fun before started => (places before started).recover fun fault between ended =>
    resumes fault ended.2 between ended.1

theorem note (mark : Machine → Mark) :
    Places texts placed (fun _ => True) (Eval.note mark) :=
  fun _ started => .note started ⟨started, trivial⟩

/-- A fault that is caught names places that are known. -/
theorem attempt {action : Eval α} (catches : Fault → Bool) (places : Places texts placed post action) :
    Places texts placed ((Domain.drawn setting texts placed).Answered catches post)
      (Eval.attempt catches action) := by
  refine bind get fun _ _ => ?_
  refine recover (bind places fun _ given => pure given) fun fault located => ?_
  cases isCaught : catches fault with
  | true => exact bind (note _) fun _ _ => pure ⟨isCaught, False.elim, located⟩
  | false => exact reraise located

theorem change {step : Machine → α × Machine}
    (keeps : ∀ machine : Machine, machine.Placed texts placed → (step machine).2.Placed texts placed)
    (gives : ∀ machine, post (step machine).1) : Places texts placed post (Eval.change step) :=
  fun before started =>
    have kept := keeps before started
    .change started kept ⟨kept, gives before⟩

theorem modifies {step : Machine → Machine}
    (keeps : ∀ machine : Machine, machine.Placed texts placed → (step machine).Placed texts placed) :
    Places texts placed (fun _ => True) (modify step : Eval PUnit) :=
  change keeps fun _ => trivial

theorem create (make : ObjectId → Value) :
    Places texts placed (fun value => ∃ id, value = make id) (Eval.create make) :=
  change (fun _ started => started.quiet started.bound rfl rfl rfl)
    fun machine => ⟨machine.nextObject, rfl⟩

theorem newScope (parent : Option ScopeId) :
    Places texts placed (fun _ => True) (Eval.newScope parent) :=
  change (fun _ started => started.quiet (started.bound.add parent) rfl rfl rfl) fun _ => trivial

theorem define {scope : ScopeId} {name : String} {value : Value}
    (drawn : value.isSignal = false → value.Drawn texts) :
    Places texts placed (fun bound => bound = value ∧ value.isSignal = false)
      (Eval.bind scope name value) := by
  unfold Eval.bind
  cases signal : value.isSignal with
  | true => exact raise _ nofun
  | false =>
      have binds : ∀ machine : Machine, machine.Placed texts placed →
          Machine.Placed texts placed
            { machine with scopes := machine.scopes.bind scope name value } := fun _ started =>
        started.quiet (started.bound.bind scope name (drawn signal)) rfl rfl rfl
      exact bind (modifies binds) fun _ _ => pure ⟨rfl, rfl⟩

theorem print (line : String) (byProgram : Bool) :
    Places texts placed (fun _ => True) (Eval.print line byProgram) :=
  modifies fun _ started => started.quiet started.bound rfl rfl rfl

/-- While a text runs, every node is located in it. -/
theorem locate_in (node : Node) :
    Places texts placed (· = setting.placeIn (texts.headD "") node) (Eval.locate setting node) := by
  refine bind get fun machine started => ?_
  dsimp only
  rw [started.lines]
  cases found : (if node.token.line = 0 then none
      else (Machine.trimmedLines (texts.headD ""))[node.token.line - 1]?) with
  | some line => exact pure (by rw [Setting.placeIn, found, Option.getD_some])
  | none =>
      by_cases shallow : node.depth ≤ renderLimit
      · rw [Node.render?, if_pos shallow]
        exact pure (by rw [Setting.placeIn, found, Option.getD_none])
      · rw [Node.render?, if_neg shallow]
        exact raise _ nofun

/-- The given places are those of the nodes that were read, while the latest text runs. -/
abbrev Placing (setting : Setting) (texts : List String) (placed : Location → Prop) : Prop :=
  ∀ text ∈ texts, ∀ node : Node, node.From text → placed (setting.placeIn (texts.headD "") node)

theorem locate (placing : Placing setting texts placed) {node : Node}
    (known : ∃ text ∈ texts, node.From text) :
    Places texts placed placed (Eval.locate setting node) := by
  obtain ⟨text, among, within⟩ := known
  refine weaken (locate_in node) fun location same => ?_
  rw [same]
  exact placing text among node within

section Hooks

variable {brought : Location → Prop} (hooks : setting.hooks.Bring brought)
  (among : ∀ location, brought location → placed location)

include hooks among

theorem callHook {event : Event} {hook : Hook} (member : hook ∈ setting.hooks.of event)
    (notice : Notice) : Places texts placed (fun _ => True) (Eval.callHook hook notice) := by
  have called : Places texts placed (fun _ => True)
      (modifyGet fun machine => (machine, machine.hookCall hook) : Eval Machine) :=
    change (fun _ started => started.quiet started.bound rfl rfl rfl) fun _ => trivial
  refine bind called fun before _ => ?_
  cases reaction : hook.react (before.circumstance hook) notice with
  | ignore => exact pure trivial
  | print line => exact print line false
  | raise fault =>
      have known := hooks event hook member _ notice fault reaction
      exact raise _ fun location located => among location (known location (Hook.fault_place located))
  | record =>
      dsimp only
      split
      · exact modifies fun _ started => started.quiet started.bound rfl rfl rfl
      · exact raise _ nofun

theorem announce (notice : Notice) :
    Places texts placed (fun _ => True) (Eval.announce setting.hooks notice) := by
  have all : ∀ called : List Hook, (∀ hook ∈ called, hook ∈ setting.hooks.of notice.event) →
      Places texts placed (fun _ => True) (Eval.callHooks called notice) := by
    intro called members
    induction called with
    | nil => exact pure trivial
    | cons hook others ih =>
        obtain ⟨first, rest⟩ := List.forall_mem_cons.mp members
        exact bind (callHook hooks among first notice) fun _ _ => ih rest
  exact bind (note _) fun _ _ => all _ fun _ => id

theorem bracket {post : Option Value → Prop} {body : Eval (Option Value)} {log : Eval Unit}
    (opening : Notice) (closing : Option Value → Notice)
    (logs : Places texts placed (fun _ => True) log) (places : Places texts placed post body) :
    Places texts placed post (Eval.bracket setting opening log body closing) := by
  refine bind (announce hooks among opening) fun _ _ => bind logs fun _ _ => ?_
  refine bind places fun result given => ?_
  exact bind (announce hooks among (closing result)) fun _ _ => pure given

theorem inStatement {post : Option Value → Prop} {body : Eval (Option Value)}
    (placing : Placing setting texts placed) {statement : Node} (scope : ScopeId)
    (known : ∃ text ∈ texts, statement.From text) (places : Places texts placed post body) :
    Places texts placed post (Eval.inStatement setting statement scope body) := by
  refine bracket hooks among _ _ (bind (locate placing known) fun location isPlaced => ?_) places
  have sited : ∀ found, some location = some found → placed found := by
    rintro _ ⟨⟩
    exact isPlaced
  exact modifies fun _ started => started.logStep setting.verbose statement.formName none sited

theorem inCall {post : Option Value → Prop} {body : Eval (Option Value)} (name : String)
    (arguments : List Value) (scope : Option ScopeId) {site : Option Location}
    (sited : ∀ location, site = some location → placed location)
    (places : Places texts placed post body) :
    Places texts placed post (Eval.inCall setting name arguments scope site body) :=
  bracket hooks among _ _
    (modifies fun _ started => started.logStep setting.verbose "Call" (some name) sited) places

omit hooks among in
theorem enclosed {body : Eval α} (closing : Machine.Closing) (name : String) (scope : ScopeId)
    {site : Option Location} (sited : ∀ location, site = some location → placed location)
    (places : Places texts placed post body) :
    Places texts placed post (Eval.enclosed closing name scope site body) := by
  intro before started
  have opened := started.pushFrame name scope sited
  refine .changing started opened (.bind (.recover (places _ opened) ?_) ?_)
  · intro fault after ended
    have closed := ended.1.close before.nextSerial closing
    exact .modifying ended.1 closed (.reraise closed ⟨closed, ended.2⟩)
  · intro result after ended
    have closed := ended.1.close before.nextSerial closing
    exact .modifying ended.1 closed (.pure closed ⟨closed, ended.2⟩)

omit hooks among in
theorem inFrame {body : Eval α} (name : String) (scope : ScopeId)
    {site : Option Location} (sited : ∀ location, site = some location → placed location)
    (places : Places texts placed post body) :
    Places texts placed post (Eval.inFrame name scope site body) := by
  have captured : Places texts placed post
      (Eval.recover body fun fault => do Eval.reraise (Eval.capture (← MonadState.get) fault)) := by
    refine recover places fun fault located => bind get fun machine _ => reraise ?_
    rw [Eval.capture_place]
    exact located
  exact enclosed .innermost name scope sited captured

/-- A failure is stamped with the place of the latest step. -/
theorem abandon {failure : Failure}
    (located : ∀ location, failure.location = some location → placed location) :
    Places texts placed post (Eval.abandon setting failure) := by
  refine bind get fun machine started => ?_
  refine bind (announce hooks among _) fun _ _ => reraise fun location stamped => ?_
  rcases Option.or_eq_some_iff.mp stamped with own | ⟨_, last⟩
  · exact located location own
  · obtain ⟨step, logged, at_⟩ := Option.bind_eq_some_iff.mp last
    exact started.named location (.last logged at_)

theorem settle {body : Eval α} (places : Places texts placed post body) :
    Places texts placed post (Eval.settle setting body) := by
  refine recover places fun fault located => ?_
  cases fault with
  | unparsable file errors => exact reraise nofun
  | runtime failure => exact abandon hooks among located
  | depth =>
      have noted : Places texts placed (fun _ => True)
          (modify fun machine => { machine with exhausted := true } : Eval PUnit) :=
        modifies fun _ started => started.quiet started.bound rfl rfl rfl
      exact bind noted fun _ _ => abandon hooks among nofun
  | foreign | digits => exact abandon hooks among nofun

def regime (placing : Placing setting texts placed) : Regime setting where
  toDomain := .drawn setting texts placed
  known := Machine.Placed texts placed
  Holds := Places texts placed
  found started found := started.bound.found found
  pure := pure
  bind := bind
  weaken := weaken
  raise cause _ _ sited := raise cause sited
  attempt catches _ places := attempt catches places
  get := get
  create := create
  newScope := newScope
  define _ drawn _ := define drawn
  print line := print line true
  locate known := locate placing known
  inStatement {_ _ _ scope} known places := inStatement hooks among placing scope known places
  inFunction name arguments scope _ sited places :=
    inCall hooks among name arguments (some scope) sited
      (bind (inFrame name scope sited places) fun outcome given => pure ⟨outcome, rfl, given⟩)
  inBuiltin name arguments _ sited places := inCall hooks among name arguments none sited places
  execute _ _ executes := executes.elim

end Hooks

end Eval.Places

end MonkeyLang
