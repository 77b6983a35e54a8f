import MonkeyLang.Proofs.Placing
import MonkeyLang.Proofs.Safety
import MonkeyLang.Proofs.Token.Lines

namespace MonkeyLang

/-! # Places in a session

A session executes one text after the other on one machine.  What is recorded on the way is the place
of a node of one of these texts, and it shows a line of the text that runs then.  This is the line on
which the node stands if it was read from that very text, and if no line up to there is cut but by a
line feed.
-/

/-- The line of a text on which a node stands, without the blanks at its ends. -/
def Node.lineIn (text : String) (node : Node) : String :=
  String.ofList (Text.trimmed ((Text.fedLines text.toList).getD (node.token.line - 1) []))

theorem Setting.placeIn_of_line (setting : Setting) {running shown : String} {node : Node}
    {number : Nat} (line : node.token.line = number + 1)
    (cut : (Machine.trimmedLines running)[number]? = some shown) :
    setting.placeIn running node = ⟨setting.file, number + 1, node.token.column, shown⟩ := by
  simp [Setting.placeIn, line, cut]

/-- While a text runs, what was read from it is shown where it stands. -/
theorem Setting.placeIn_lineIn {setting : Setting} {text : String} {node : Node}
    (read : node.From text)
    (whole : ∀ line ∈ (Text.fedLines text.toList).take node.token.line, Text.isWhole line = true) :
    (setting.placeIn text node).statement = node.lineIn text := by
  obtain ⟨scanned, proper⟩ := read.token
  obtain ⟨line, counted, found, present⟩ := (Token.scan_stands scanned proper).line
  obtain ⟨number, isNext⟩ := Nat.exists_eq_succ_of_ne_zero counted
  rw [isNext, Nat.succ_sub_one] at found
  rw [isNext] at whole
  obtain ⟨shown, cut, same⟩ := Text.lines_agree found present whole
  have listed : (Machine.trimmedLines text)[number]? = some (String.ofList (Text.trimmed shown)) := by
    simp [Machine.trimmedLines, cut]
  rw [setting.placeIn_of_line isNext listed, Node.lineIn, isNext, Nat.succ_sub_one,
    List.getD_eq_getElem?_getD, found, Option.getD_some, same]

/-- A node that was read from one text was located while a text ran. -/
structure Setting.Locates (setting : Setting) (running home : String) (node : Node)
    (location : Location) : Prop where
  read : node.From home
  place : location = setting.placeIn running node
  shown : running = home →
    (∀ line ∈ (Text.fedLines home.toList).take node.token.line, Text.isWhole line = true) →
    location.statement = node.lineIn home

/-- A place is that of a node of one of the texts so far, located in the latest one, which comes
first. -/
def Setting.Records (setting : Setting) (texts : List String) (location : Location) : Prop :=
  ∃ home ∈ texts, ∃ node, setting.Locates (texts.headD "") home node location

theorem Setting.records_placing {setting : Setting} {texts : List String} :
    Eval.Places.Placing setting texts (setting.Records texts) := by
  intro home among node read
  refine ⟨home, among, node, read, rfl, fun same whole => ?_⟩
  rw [same]
  exact Setting.placeIn_lineIn read whole

/-- Builtins run no texts and hand nothing on but what comes of the texts so far.  They and the hooks
bring some places along. -/
structure Setting.Brings (setting : Setting) (brought : Location → Prop) : Prop where
  hooks : setting.hooks.Bring brought
  builtins : ∀ texts placed, (∀ location, brought location → placed location) →
    ∀ builtin ∈ setting.builtins, ∀ arguments, (∀ argument ∈ arguments, argument.Drawn texts) →
      (Domain.drawn setting texts placed).Admits (Machine.Placed texts placed) (builtin.run arguments)

namespace HostCall

/-- The texts that a call executes. -/
def texts : HostCall → List String
  | execute _ text _ | run text => [text]
  | _ => []

/-- A host hands nothing over but what comes of the texts so far, and brings some places along. -/
def Draws (brought : Location → Prop) (texts : List String) : HostCall → Prop
  | evaluate _ tree _ => ∃ text ∈ texts, tree.From text
  | apply _ callee arguments _ site =>
      callee.Drawn texts ∧ (∀ argument ∈ arguments, argument.Drawn texts) ∧
        ∀ location, site = some location → brought location
  | invoke _ _ _ arguments => ∀ argument ∈ arguments, argument.Drawn texts
  | bind _ _ value => value.isSignal = false → value.Drawn texts
  | pushFrame _ _ site => ∀ location, site = some location → brought location
  | _ => True

end HostCall

/-- The states between the calls of a host, with the texts that were executed so far, the latest one
first. -/
inductive Machine.HasRun (setting : Setting) (brought : Location → Prop) :
    List String → Machine → Prop
  | start : HasRun setting brought [] (.initial setting)
  | call {texts : List String} {before : Machine} (ran : HasRun setting brought texts before)
      (call : HostCall) (draws : call.Draws brought texts) :
      HasRun setting brought (call.texts ++ texts) (call.perform setting before).machine

/-- Only the given places are named on the way, in the end, and by the fault that breaks it off. -/
abbrev Course.Places {α : Type} (course : Course α) (texts : List String)
    (placed : Location → Prop) : Prop :=
  course.Meets (fun machine => ∀ location, machine.Names location → placed location)
    (fun _ after => after.Placed texts placed)
    fun fault after => after.Placed texts placed ∧
      ∀ location, fault.place? = some location → placed location

theorem Eval.Places.course {α : Type} {texts : List String} {placed : Location → Prop}
    {post : α → Prop} {action : Eval α} {before : Machine}
    (places : Eval.Places texts placed post action) (started : before.Placed texts placed) :
    (action before).Places texts placed :=
  (places before started).weaken (fun _ kept => kept.named) (fun _ _ => And.left) fun _ _ => id

section Calls

variable {setting : Setting} {brought placed : Location → Prop} {texts : List String}
  {before : Machine}

/-- A text begins to run. -/
theorem Machine.Placed.text (started : before.Placed texts placed) (text : String) :
    Machine.Placed (text :: texts) placed { before with lines := Machine.trimmedLines text } where
  lines := rfl
  bound scope member binding among :=
    (started.bound scope member binding among).more (List.subset_cons_self text texts)
  named location names := started.named location (names.of_same rfl rfl)

variable (brings : setting.Brings brought) (among : ∀ location, brought location → placed location)

include brings among

theorem Setting.Brings.admits {name : String} {arguments : List Value}
    (drawn : ∀ argument ∈ arguments, argument.Drawn texts) :
    (Domain.drawn setting texts placed).Admits (Machine.Placed texts placed)
      (setting.script name arguments) := by
  unfold Setting.script
  split
  · rename_i builtin found
    exact brings.builtins texts placed among builtin (List.mem_of_find?_eq_some found) arguments drawn
  · exact ⟨.none, False.elim⟩

/-- What is evaluated and applied at any depth. -/
theorem Setting.Brings.layers (placing : Eval.Places.Placing setting texts placed) (depth : Nat) :
    (∀ tree scope, (∃ text ∈ texts, tree.From text) →
      Eval.Places texts placed ((Domain.drawn setting texts placed).Answers tree)
        (evaluate setting depth tree scope)) ∧
    ∀ callee arguments name site, callee.Drawn texts →
      (∀ argument ∈ arguments, argument.Drawn texts) →
      (∀ location, site = some location → placed location) →
      Eval.Places texts placed (Domain.drawn setting texts placed).Yields
        (apply setting depth callee arguments name site) :=
  (Eval.Places.regime brings.hooks among placing).evaluatesAndApplies
    (fun _ drawn _ => brings.admits among drawn) depth

section Texts

variable {text : String} (placing : Eval.Places.Placing setting (text :: texts) placed)

include placing

theorem body_places (depth : Nat) (scope : ScopeId) :
    Eval.Places (text :: texts) placed (fun _ => True)
      (Eval.body setting (evaluate setting depth) text scope) := by
  have parses : Eval.Places (text :: texts) placed
      (fun program => Parsed.ofText text = .ok ⟨program, []⟩) (Eval.parse setting text) := by
    unfold Eval.parse
    split
    · rename_i program read
      exact .pure read
    · exact .raise _ nofun
    · rename_i reason _
      exact .raise _ (by cases reason <;> nofun)
  refine .bind parses fun program read => ?_
  refine .bind (.announce brings.hooks among _) fun _ _ => ?_
  obtain ⟨_, _, body, _, _, rfl, _⟩ := Parsed.derived read
  have known : ∀ statement ∈ body, ∃ home ∈ text :: texts, statement.From home :=
    fun statement member => ⟨text, List.mem_cons_self, _, read, statement, member, .whole⟩
  -- The program itself is no node inside a program, and so its statements are gone through here.
  cases depth with
  | zero => exact .raise _ nofun
  | succ depth =>
      obtain ⟨evaluates, _⟩ := brings.layers among placing depth
      have places : Eval.Places (text :: texts) placed (Result (Value.Drawn (text :: texts)))
          (Eval.statements setting (evaluate setting depth) scope body none) :=
        (Eval.Places.regime brings.hooks among placing).statements evaluates scope body known .none
      exact places.weaken fun _ _ => trivial

theorem execute_places (depth : Nat) (scope : ScopeId) (started : before.Placed texts placed) :
    (Eval.execute setting (evaluate setting depth) text scope before).Places (text :: texts)
      placed := by
  have running := started.text text
  have announces : ∀ notice, Eval.Places (text :: texts) placed (fun _ => True)
      (Eval.announce setting.hooks notice) := fun notice => .announce brings.hooks among notice
  have closing : ∀ result, Eval.Places (text :: texts) placed (fun _ => True) (do
      Eval.announce setting.hooks (.programEnd result)
      return result : Eval (Option Value)) := fun _ => .bind (announces _) fun _ _ => .pure trivial
  have settled : Eval.Places (text :: texts) placed (fun _ => True)
      (Eval.settle setting (Eval.body setting (evaluate setting depth) text scope)) :=
    .settle brings.hooks among (body_places brings among placing depth scope)
  refine .modifying started.named running.named
    (.bind (settled.course running) fun ending between kept => ?_)
  dsimp only
  generalize Eval.textResult ending = result
  split
  · exact Eval.Places.course (.bind (announces _) fun _ _ => closing _) kept
  · exact (closing _).course kept

theorem run_places (started : before.Placed texts placed) :
    (setting.run text before).Places (text :: texts) placed := by
  have added : Machine.Placed texts placed { before with scopes := before.scopes.add none } :=
    started.quiet (started.bound.add none) rfl rfl rfl
  have opened : before.opened.Placed texts placed :=
    added.pushFrame topLevel before.scopes.size nofun
  have executed := execute_places brings among placing depthLimit before.scopes.size opened
  refine .changing started.named added.named (.changing added.named opened.named ?_)
  refine .bind (.recover executed fun fault between ended => ?_) fun result between ended => ?_
  · have closed := ended.1.unwind before.nextSerial
    exact .modifying ended.1.named closed.named (.reraise closed.named ⟨closed, ended.2⟩)
  · have closed := ended.unwind before.nextSerial
    exact .modifying ended.named closed.named (.pure closed.named closed)

end Texts

theorem HostCall.places {call : HostCall} (draws : call.Draws brought texts)
    (placing : Eval.Places.Placing setting (call.texts ++ texts) placed)
    (started : before.Placed texts placed) :
    (call.perform setting before).Places (call.texts ++ texts) placed := by
  cases call with
  | execute depth text scope => exact execute_places brings among placing depth scope started
  | run text => exact run_places brings among placing started
  | evaluate depth tree scope =>
      obtain ⟨evaluates, _⟩ := brings.layers among placing depth
      exact (evaluates tree scope draws).course started
  | apply depth callee arguments name site =>
      obtain ⟨drawn, allDrawn, sited⟩ := draws
      obtain ⟨_, applies⟩ := brings.layers among placing depth
      have known : ∀ location, site = some location → placed location :=
        fun location same => among location (sited location same)
      exact (applies callee arguments name site drawn allDrawn known).course started
  | invoke depth builtin arity arguments =>
      obtain ⟨evaluates, applies⟩ := brings.layers among placing depth
      have places : Eval.Places texts placed (Domain.drawn setting texts placed).Yields
          (Eval.invoke setting (MonkeyLang.evaluate setting depth) (MonkeyLang.apply setting depth)
            builtin arity arguments) :=
        (Eval.Places.regime brings.hooks among placing).invoke evaluates applies builtin arity
          fun _ => brings.admits among draws
      exact places.course started
  | create make => exact (Eval.Places.followed (.create make) some).course started
  | newScope parent => exact (Eval.Places.followed (.newScope parent) fun _ => none).course started
  | bind scope name value => exact (Eval.Places.followed (.define draws) some).course started
  | pushFrame name scope site =>
      have opens : Eval.Places texts placed (fun _ => True)
          (modify fun machine => machine.pushFrame name scope site : Eval PUnit) :=
        .modifies fun _ started => started.pushFrame name scope fun location same =>
          among location (draws location same)
      exact (opens.followed fun _ => none).course started
  | unwind serial =>
      have closes : Eval.Places texts placed (fun _ => True)
          (modify fun machine => machine.unwind serial : Eval PUnit) :=
        .modifies fun _ started => started.unwind serial
      exact (closes.followed fun _ => none).course started

end Calls

section Sessions

variable {setting : Setting} {brought : Location → Prop} {texts : List String} {before : Machine}

/-- Whatever is named between two calls was recorded when some of the texts had been executed, or was
brought along. -/
theorem Machine.HasRun.placed (brings : setting.Brings brought)
    (ran : Machine.HasRun setting brought texts before) :
    before.Placed texts fun location =>
      brought location ∨ ∃ sofar, sofar <:+ texts ∧ setting.Records sofar location := by
  induction ran with
  | start =>
      refine ⟨rfl, fun _ impossible => (nomatch impossible), fun location names => ?_⟩
      cases names with
      | last logged => cases logged
      | latest kept => cases kept
      | site opened => cases opened
  | @call texts before _ call draws ih =>
      let placed : Location → Prop := fun location =>
        brought location ∨ ∃ sofar, sofar <:+ call.texts ++ texts ∧ setting.Records sofar location
      have placing : Eval.Places.Placing setting (call.texts ++ texts) placed :=
        fun home among node read =>
          .inr ⟨_, List.suffix_refl _, Setting.records_placing home among node read⟩
      have started : before.Placed texts placed := by
        refine ⟨ih.lines, ih.bound, fun location names => ?_⟩
        rcases ih.named location names with given | ⟨sofar, behind, recorded⟩
        · exact .inl given
        · exact .inr ⟨sofar, behind.trans (List.suffix_append _ _), recorded⟩
      have places := HostCall.places brings (fun _ => .inl) draws placing started
      exact (places.fails fun _ _ => And.left).last

/-- In any session with builtins that run no texts, each call of the host names the places that were
named before it, places that were brought along, and beyond these only places of nodes that were read
from the texts so far: they are located in the text that runs.  So are the places of failures that are
made on the way, and of the fault that breaks the call off.  A node that was read from the text that
runs is shown with its line if the lines up to that one are cut by line feeds only. -/
theorem nodes_located_in_running_text (setting : Setting) (brought : Location → Prop)
    (brings : setting.Brings brought) (texts : List String) (before : Machine)
    (ran : Machine.HasRun setting brought texts before) (call : HostCall)
    (draws : call.Draws brought texts) :
    let course := call.perform setting before
    let Known : Location → Prop := fun location =>
      before.Names location ∨ brought location ∨ setting.Records (call.texts ++ texts) location
    (∀ location, before.Names location →
        brought location ∨ ∃ sofar, sofar <:+ texts ∧ setting.Records sofar location) ∧
      (∀ machine, course.passes machine → ∀ location, machine.Names location → Known location) ∧
      (∀ machine, course.passes machine → ∀ message origin location,
        (machine.failure message origin).Names location → Known location) ∧
      ∀ fault after, course.ending = .error fault after →
        ∀ location, fault.place? = some location → Known location := by
  intro course Known
  have kept := ran.placed brings
  have placing : Eval.Places.Placing setting (call.texts ++ texts) Known :=
    fun home among node read => .inr (.inr (Setting.records_placing home among node read))
  have started : before.Placed texts Known := ⟨kept.lines, kept.bound, fun _ => .inl⟩
  have places := HostCall.places brings (fun _ given => .inr (.inl given)) draws placing started
  refine ⟨kept.named, places.passing, ?_, ?_⟩
  · exact fun machine passed _ _ location names =>
      places.passing machine passed location (Machine.Names.of_failure names)
  · exact fun fault after ended => (places.broken fault after ended).2

theorem Setting.brings_core (file : String) (verbose : Bool) :
    Setting.Brings ⟨file, verbose, Builtin.core, .none⟩ fun _ => False where
  hooks _ _ impossible := nomatch impossible
  builtins texts _ _ _ isCore _ drawn :=
    (Builtin.core_plain (Value.Drawn.composes texts) drawn isCore).admits False.elim

/-- The second line of a text, behind a carriage return and a line feed. -/
theorem nodes_located_in_running_text_second_line :
    let setting : Setting := ⟨"<string>", false, Builtin.core, .none⟩
    let text := "let x = 1;\r\n  x + true"
    let opened := ((HostCall.newScope none).perform setting (.initial setting)).machine
    let after := ((HostCall.execute 20 text 0).perform setting opened).machine
    let location : Location := ⟨"<string>", 2, 3, "x + true"⟩
    after.Names location ∧ ∃ node : Node, node.From text ∧ location.statement = node.lineIn text := by
  intro setting text opened after location
  have brings : setting.Brings fun _ => False := Setting.brings_core "<string>" false
  have ran : Machine.HasRun setting (fun _ => False) [text] after :=
    .call (.call .start (.newScope none) trivial) (.execute 20 text 0) trivial
  have logged : after.steps.last =
      some ⟨1, "ExpressionStatement", some location, none, none⟩ := by decide +kernel
  have names : after.Names location := .last logged rfl
  obtain ⟨earlier, _⟩ := nodes_located_in_running_text setting _ brings [text] after ran
    (.newScope none) trivial
  obtain impossible | ⟨sofar, behind, home, among, node, located⟩ := earlier location names
  · exact impossible.elim
  · have same : sofar = [text] := by
      rcases List.suffix_cons_iff.mp behind with whole | none
      · exact whole
      · rw [List.suffix_nil.mp none] at among
        cases among
    subst same
    cases List.mem_singleton.mp among
    have line : node.token.line = 2 := (congrArg Location.line located.place).symm
    refine ⟨names, node, located.read, located.shown rfl ?_⟩
    rw [line]
    exact List.all_eq_true.mp (by decide +kernel)

/-- A form feed ends a line that is shown, and not one that the scanner counts; and a function of an
earlier text is located in the text that calls it. -/
theorem node_shown_with_another_line :
    let setting : Setting := ⟨"<string>", false, Builtin.core, .none⟩
    let opened := ((HostCall.newScope none).perform setting (.initial setting)).machine
    (let text := "let s = \"a\x0cb\"; 1 + true"
      let after := ((HostCall.execute 20 text 0).perform setting opened).machine
      let location : Location := ⟨"<string>", 1, 16, "let s = \"a"⟩
      after.Names location ∧ ∃ node, setting.Locates text text node location ∧
        node.lineIn text = "let s = \"a\x0cb\"; 1 + true") ∧
    let first := "let f = fn() \x7b 1 + true \x7d;"
    let defined := ((HostCall.execute 20 first 0).perform setting opened).machine
    let after := ((HostCall.execute 20 "f()" 0).perform setting defined).machine
    let location : Location := ⟨"<string>", 1, 16, "f()"⟩
    after.Names location ∧ ∃ node, setting.Locates "f()" first node location ∧
      node.lineIn first = "let f = fn() \x7b 1 + true \x7d;" := by
  intro setting opened
  constructor
  · intro text after location
    have logged : after.steps.last =
        some ⟨1, "ExpressionStatement", some location, none, none⟩ := by decide +kernel
    obtain ⟨node, read, token⟩ : ∃ node : Node, node.From "let s = \"a\x0cb\"; 1 + true" ∧
        node.token = ⟨.integer, "1", 1, 16⟩ :=
      ⟨_, ⟨_, rfl, _, .tail _ (.head _), .whole⟩, rfl⟩
    have cut : (Machine.trimmedLines text)[0]? = some location.statement := by decide +kernel
    have place := setting.placeIn_of_line (congrArg Token.line token) cut
    have broken : ¬ ∀ line ∈ (Text.fedLines text.toList).take 1, Text.isWhole line = true := by
      decide +kernel
    have line : node.lineIn text = "let s = \"a\x0cb\"; 1 + true" := by
      rw [Node.lineIn, token]
      decide +kernel
    rw [token] at place
    refine ⟨.last logged rfl, node, ⟨read, place.symm, fun _ whole => ?_⟩, line⟩
    rw [token] at whole
    exact absurd whole broken
  · intro first defined after location
    have logged : after.steps.last =
        some ⟨3, "ExpressionStatement", some location, none, none⟩ := by decide +kernel
    obtain ⟨node, read, token⟩ : ∃ node : Node, node.From "let f = fn() \x7b 1 + true \x7d;" ∧
        node.token = ⟨.integer, "1", 1, 16⟩ :=
      ⟨_, ⟨_, rfl, _, .head _, .statement (.operand .whole (.head _)) (.head _)⟩, rfl⟩
    have cut : (Machine.trimmedLines "f()")[0]? = some location.statement := by decide +kernel
    have place := setting.placeIn_of_line (congrArg Token.line token) cut
    have line : node.lineIn first = "let f = fn() \x7b 1 + true \x7d;" := by
      rw [Node.lineIn, token]
      decide +kernel
    rw [token] at place
    exact ⟨.last logged rfl, node, ⟨read, place.symm, fun same => absurd same (by decide)⟩, line⟩

end Sessions

end MonkeyLang
