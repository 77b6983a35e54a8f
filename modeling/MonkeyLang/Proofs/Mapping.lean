import MonkeyLang.Proofs.Evaluation.Endings

namespace MonkeyLang

/-! # Mapping

A program of a few lines maps a function over an array: a function inside it calls itself, with what is
left of the array and what has been collected so far.  It applies the function that it is given to the
elements in turn, and stops where that fails.
-/

namespace Mapping

def text : String :=
  "let map = fn(arr, f) \x7b\n" ++
  "  let iter = fn(arr, acc) \x7b\n" ++
  "    if (len(arr) == 0) \x7b acc \x7d else \x7b iter(rest(arr), push(acc, f(first(arr)))) \x7d\n" ++
  "  \x7d;\n" ++
  "  iter(arr, []);\n" ++
  "\x7d;"

/-! What the text is read as, given its tokens by their positions. -/

section Trees

variable (token : Nat → Token)

def word (position : Nat) (spelling : String) : Identifier := ⟨token position, spelling⟩

def use (position : Nat) (spelling : String) : Node := .identifier (word token position spelling)

def length : Node := .call (token 23) (use token 22 "len") [use token 24 "arr"]

def first : Node := .call (token 48) (use token 47 "first") [use token 49 "arr"]

def rest : Node := .call (token 37) (use token 36 "rest") [use token 38 "arr"]

/-- `len(arr) == 0` -/
def isEmpty : Node := .binary (token 26) "==" (length token) (.integer (token 27) 0)

/-- `f(first(arr))` -/
def applied : Node := .call (token 46) (use token 45 "f") [first token]

/-- `push(acc, f(first(arr)))` -/
def pushed : Node := .call (token 42) (use token 41 "push") [use token 43 "acc", applied token]

/-- `iter(rest(arr), push(acc, f(first(arr))))` -/
def again : Node := .call (token 35) (use token 34 "iter") [rest token, pushed token]

def choice : Node :=
  .conditional (token 20) (isEmpty token)
    ⟨token 29, [.expressionStatement (token 30) (use token 30 "acc")]⟩
    (some ⟨token 33, [.expressionStatement (token 34) (again token)]⟩)

def innerParameters : List Identifier := [word token 15 "arr", word token 17 "acc"]

def innerBody : Block Node := ⟨token 19, [.expressionStatement (token 20) (choice token)]⟩

def outerParameters : List Identifier := [word token 5 "arr", word token 7 "f"]

/-- `iter(arr, [])` -/
def started : Node :=
  .call (token 58) (use token 57 "iter") [use token 59 "arr", .array (token 61) []]

def outerBody : Block Node :=
  ⟨token 9,
    [.letStatement (token 10) (word token 11 "iter")
      (.function (token 13) (innerParameters token) (innerBody token)),
      .expressionStatement (token 57) (started token)]⟩

def definition : Node :=
  .letStatement (token 0) (word token 1 "map")
    (.function (token 3) (outerParameters token) (outerBody token))

end Trees

set_option maxRecDepth 100000 in
theorem text_read : ∃ token first,
    Parsed.ofText text = .ok ⟨.program ⟨first, [definition token]⟩, []⟩ :=
  ⟨fun position => (Token.scan text).getD position ⟨.endOfInput, "", 0, 0⟩, _, rfl⟩

/-! ## Applications in turn -/

/-- A value is applied to items one after the other, each time three levels further down, and gives
values that are no signals.  Before each application and after the last one, nothing happens that shows.
What is printed is told for each item. -/
inductive InTurn (setting : Setting) (callee : Value) :
    Nat → Machine → List Value → List Value → List (List Printed) → Machine → Prop
  | done {depth : Nat} {before after : Machine} (onward : before.Onward after) :
      InTurn setting callee depth before [] [] [] after
  | next {depth : Nat} {before called between after : Machine} {item value : Value}
      {items values : List Value} {lines : List Printed} {outputs : List (List Printed)}
      (site : Option Location) (onward : before.Onward called)
      (ran : (apply setting depth callee [item] "f" site called).ending = .ok (some value) between)
      (ordinary : value.isSignal = false)
      (printed : between.printed.toList = called.printed.toList ++ lines)
      (others : InTurn setting callee (depth - 3) between items values outputs after) :
      InTurn setting callee depth before (item :: items) (value :: values) (lines :: outputs) after

/-- How it ends to map a value over items, at some depth and from one state on, when some values have
been collected.  The value is applied to items in turn.  If to all of them, then what has been collected
and what it gave are made into an array; if an application gives no value that could be collected, then
it is the last one, and its failure is the result.  Each of these ends takes some room. -/
def Ends (setting : Setting) (callee : Value) (collected : List Value) (depth : Nat)
    (items : List Value) (before : Machine)
    (ending : EStateM.Result Fault Machine (Option Value)) : Prop :=
  ∃ done later values outputs reached, items = done ++ later ∧
    InTurn setting callee (depth - 7) before done values outputs reached ∧
    reached.printed.toList = before.printed.toList ++ outputs.flatten ∧
    match later with
    | [] => 3 * done.length + 7 ≤ depth → ∃ id final, reached.Unwound final ∧
        ending = .ok (some (.array id (collected ++ values))) final
    | item :: _ => 3 * done.length + 9 ≤ depth → ∃ site,
        let application :=
          (apply setting (depth - 7 - 3 * done.length) callee [item] "f" site reached).ending
        (∀ value after, application = .ok (some value) after → value.isSignal = true) ∧
          ∀ failure after, application = .ok (some (.failed failure)) after →
            ∃ final, after.Unwound final ∧ ending = .ok (some (.failed failure)) final

section InTurn

variable {setting : Setting} {callee : Value} {depth : Nat} {before middle after : Machine}
  {items values collected : List Value} {outputs : List (List Printed)}
  {ending : EStateM.Result Fault Machine (Option Value)}

theorem InTurn.after_onward (inTurn : InTurn setting callee depth middle items values outputs after)
    (onward : before.Onward middle) :
    InTurn setting callee depth before items values outputs after := by
  cases inTurn with
  | done further => exact .done (onward.trans further)
  | next site further ran ordinary printed others =>
      exact .next site (onward.trans further) ran ordinary printed others

theorem InTurn.printed (inTurn : InTurn setting callee depth before items values outputs after) :
    after.printed.toList = before.printed.toList ++ outputs.flatten := by
  induction inTurn with
  | done onward => rw [onward.printed, List.flatten_nil, List.append_nil]
  | next site onward ran ordinary printed others ih =>
      rw [ih, printed, onward.printed, List.flatten_cons, List.append_assoc]

/-- Where nothing has been applied yet, and there is no room for anything. -/
theorem Ends.cramped (cramped : depth < 7 ∨ items ≠ [] ∧ depth < 9) :
    Ends setting callee collected depth items before ending := by
  refine ⟨[], items, [], [], before, rfl, .done .rfl, (List.append_nil _).symm, ?_⟩
  cases items with
  | nil =>
      intro room
      rcases cramped with low | ⟨filled, _⟩
      · exact absurd room (Nat.not_le.mpr low)
      · exact absurd rfl filled
  | cons item items =>
      intro room
      simp only [List.length_nil] at room
      omega

theorem Ends.after_onward (ends : Ends setting callee collected depth items middle ending)
    (onward : before.Onward middle) : Ends setting callee collected depth items before ending := by
  obtain ⟨done, later, values, outputs, reached, split, inTurn, printed, last⟩ := ends
  exact ⟨done, later, values, outputs, reached, split, inTurn.after_onward onward,
    onward.printed ▸ printed, last⟩

/-- What is ended by the iteration ends like it. -/
theorem Ends.passed {whole : EStateM.Result Fault Machine (Option Value)}
    (ends : Ends setting callee collected depth items before ending)
    (passes : ∀ result after, ending = .ok (some result) after →
      ∃ final, after.Unwound final ∧ whole = .ok (some (Eval.callResult (some result))) final) :
    Ends setting callee collected depth items before whole := by
  obtain ⟨done, later, values, outputs, reached, split, inTurn, printed, last⟩ := ends
  refine ⟨done, later, values, outputs, reached, split, inTurn, printed, ?_⟩
  cases later with
  | nil =>
      intro room
      obtain ⟨id, after, unwound, gives⟩ := last room
      obtain ⟨final, closed, result⟩ := passes _ _ gives
      exact ⟨id, final, unwound.trans closed, result⟩
  | cons stopped later =>
      intro room
      obtain ⟨site, unusable, fails⟩ := last room
      refine ⟨site, unusable, fun failure after ran => ?_⟩
      obtain ⟨between, unwound, gives⟩ := fails failure after ran
      obtain ⟨final, closed, result⟩ := passes _ _ gives
      exact ⟨final, unwound.trans closed, result⟩

variable {called between : Machine} {item value : Value} (site : Option Location)

/-- Where an application gives no value that could be collected, it is the last one. -/
theorem Ends.stopped (onward : before.Onward called)
    (unusable : ∀ value after, (apply setting (depth + 2) callee [item] "f" site called).ending =
      .ok (some value) after → value.isSignal = true)
    (fails : ∀ failure after, (apply setting (depth + 2) callee [item] "f" site called).ending =
      .ok (some (.failed failure)) after →
      ∃ final, after.Unwound final ∧ ending = .ok (some (.failed failure)) final) :
    Ends setting callee collected (depth + 9) (item :: items) before ending :=
  ⟨[], item :: items, [], [], called, rfl, .done onward, by rw [onward.printed]; simp,
    fun _ => ⟨site, unusable, fails⟩⟩

/-- One application more, before all others. -/
theorem Ends.next {lines : List Printed} (onward : before.Onward called)
    (ran : (apply setting (depth + 2) callee [item] "f" site called).ending = .ok (some value) between)
    (ordinary : value.isSignal = false)
    (printed : between.printed.toList = called.printed.toList ++ lines)
    (ends : Ends setting callee (collected ++ [value]) (depth + 6) items between ending) :
    Ends setting callee collected (depth + 9) (item :: items) before ending := by
  obtain ⟨done, later, values, outputs, reached, split, inTurn, output, last⟩ := ends
  have turns : InTurn setting callee (depth + 9 - 7) before (item :: done) (value :: values)
      (lines :: outputs) reached := .next site onward ran ordinary printed inTurn
  refine ⟨item :: done, later, value :: values, lines :: outputs, reached, by rw [split]; rfl, turns,
    turns.printed, ?_⟩
  cases later with
  | nil =>
      intro room
      simp only [List.length_cons] at room
      have complete := last (by omega)
      rw [List.append_assoc] at complete
      exact complete
  | cons stopped later =>
      intro room
      simp only [List.length_cons] at room
      have level : depth + 9 - 7 - 3 * (done.length + 1) = depth + 6 - 7 - 3 * done.length := by omega
      rw [List.length_cons, level]
      exact last (by omega)

end InTurn

/-- The builtins that the program calls. -/
def helpers : List String := ["len", "first", "rest", "push"]

/-- The scope of a call of `map`, when it has defined `iter`. -/
def Around (scopes : Scopes) (outer : ScopeId) (callee self : Value) : Prop :=
  ∃ whole bindings, (∀ name ∈ helpers, bindings.lookup name = none) ∧
    scopes.Layers outer [[("arr", whole), ("f", callee), ("iter", self)], bindings]

/-- The scope of a call of `iter`. -/
def Inside (scopes : Scopes) (inner : ScopeId) (array collected callee self : Value) : Prop :=
  ∃ whole bindings, (∀ name ∈ helpers, bindings.lookup name = none) ∧
    scopes.Layers inner [[("arr", array), ("acc", collected)],
      [("arr", whole), ("f", callee), ("iter", self)], bindings]

section Bindings

variable {before after scopes : Scopes} {inner outer : ScopeId}
  {array collected callee self : Value}

theorem Around.persist (around : Around before outer callee self) (persist : before.PersistIn after) :
    Around after outer callee self := by
  obtain ⟨whole, bindings, unbound, layers⟩ := around
  exact ⟨whole, bindings, unbound, layers.persist persist⟩

theorem Inside.persist (inside : Inside before inner array collected callee self)
    (persist : before.PersistIn after) : Inside after inner array collected callee self := by
  obtain ⟨whole, bindings, unbound, layers⟩ := inside
  exact ⟨whole, bindings, unbound, layers.persist persist⟩

theorem Around.inside (around : Around scopes outer callee self)
    (opened : scopes.table[inner]? = some ⟨some outer, [("arr", array), ("acc", collected)]⟩)
    (older : outer < inner) : Inside scopes inner array collected callee self := by
  obtain ⟨whole, bindings, unbound, layers⟩ := around
  exact ⟨whole, bindings, unbound, .inner opened older layers⟩

/-- The parameter of `iter` hides that of `map`. -/
theorem Inside.means (inside : Inside scopes inner array collected callee self) {name : String}
    {value : Value}
    (listed : [("arr", array), ("acc", collected), ("f", callee), ("iter", self)].lookup name =
      some value) : scopes.find? inner name = some value := by
  obtain ⟨whole, bindings, unbound, layers⟩ := inside
  have each : ∀ binding ∈ [("arr", array), ("acc", collected), ("f", callee), ("iter", self)],
      scopes.find? inner binding.1 = some binding.2 := by
    simp only [List.forall_mem_cons, layers.find?]
    exact ⟨rfl, rfl, rfl, rfl, List.forall_mem_nil _⟩
  obtain ⟨_, _, split, _⟩ := List.lookup_eq_some_iff.mp listed
  exact each (name, value) (split ▸ List.mem_append_right _ List.mem_cons_self)

theorem Inside.helper (inside : Inside scopes inner array collected callee self) {name : String}
    (isHelper : name ∈ helpers) : scopes.find? inner name = none := by
  obtain ⟨whole, bindings, unbound, layers⟩ := inside
  have free := unbound name isHelper
  rw [layers.find?]
  simp only [helpers, List.mem_cons, List.not_mem_nil, or_false] at isHelper
  rcases isHelper with rfl | rfl | rfl | rfl <;> simp [free]

end Bindings

/-! ## The parts of the function inside -/

/-- No other length is taken for zero. -/
theorem counted_length (items : List Value) : (counted items.length == 0) = items.isEmpty := by
  rw [Bool.eq_iff_iff, beq_iff_eq, counted_eq_zero, List.isEmpty_iff_length_eq_zero]

section Core

variable {setting : Setting} (core : setting.builtins = Builtin.core)

include core

theorem builtinValue?_core (name : String) :
    setting.builtinValue? name = Setting.builtinValue? ⟨"", false, Builtin.core, .none⟩ name := by
  rw [Setting.builtinValue?, core]
  rfl

theorem script_core (name : String) (arguments : List Value) :
    setting.script name arguments =
      Setting.script ⟨"", false, Builtin.core, .none⟩ name arguments := by
  rw [Setting.script, core]
  rfl

end Core

section Parts

variable {setting : Setting} (hooks : ∀ event, setting.hooks.of event = [])
  (core : setting.builtins = Builtin.core) (token : Nat → Token) (depth : Nat) {scope : ScopeId}
  {before between : Machine} {arrayId collectedId : ObjectId} {items found : List Value}
  {array collected callee self item value : Value}

include core

include hooks

theorem length_gives
    (inside : Inside before.scopes scope (.array arrayId items) collected callee self) :
    ∃ new after, before.Onward after ∧
      (evaluate setting (depth + 2) (length token) scope before).ending =
        .ok (some (.integer new (counted items.length))) after :=
  call_creating hooks (of_decide_eq_true rfl)
    (inside.helper (show "len" ∈ helpers by decide)) (builtinValue?_core core "len")
    (.next (evaluate_identifier (inside.means rfl)) rfl (.none before)) rfl (script_core core "len" _)

theorem first_gives
    (inside : Inside before.scopes scope (.array arrayId (item :: items)) collected callee self) :
    ∃ after, before.Onward after ∧
      (evaluate setting (depth + 2) (first token) scope before).ending = .ok (some item) after :=
  call_giving hooks (of_decide_eq_true rfl)
    (inside.helper (show "first" ∈ helpers by decide)) (builtinValue?_core core "first")
    (.next (evaluate_identifier (inside.means rfl)) rfl (.none before)) rfl (script_core core "first" _)

theorem rest_gives
    (inside : Inside before.scopes scope (.array arrayId (item :: items)) collected callee self) :
    ∃ new after, before.Onward after ∧
      (evaluate setting (depth + 2) (rest token) scope before).ending =
        .ok (some (.array new items)) after :=
  call_creating hooks (of_decide_eq_true rfl)
    (inside.helper (show "rest" ∈ helpers by decide)) (builtinValue?_core core "rest")
    (.next (evaluate_identifier (inside.means rfl)) rfl (.none before)) rfl (script_core core "rest" _)

theorem isEmpty_gives
    (inside : Inside before.scopes scope (.array arrayId items) collected callee self) :
    ∃ after, before.Onward after ∧
      (evaluate setting (depth + 3) (isEmpty token) scope before).ending =
        .ok (some (.boolean items.isEmpty)) after := by
  obtain ⟨number, middle, onward, gives⟩ := length_gives hooks core token depth inside
  have literal : (evaluate setting (depth + 2) (.integer (token 27) 0) scope middle).ending =
      .ok (some (.integer middle.nextObject 0))
        { middle with nextObject := middle.nextObject + 1 } := rfl
  have compared := evaluate_binary (token 26) "==" gives rfl literal rfl
  refine ⟨_, onward.trans middle.onward_created, compared.trans ?_⟩
  rw [← counted_length items]
  rfl

theorem applied_applies
    (inside : Inside before.scopes scope (.array arrayId (item :: items)) collected callee self)
    (ordinary : item.isSignal = false) (usable : callee.isSignal = false) :
    ∃ site called, before.Onward called ∧
      (evaluate setting (depth + 3) (applied token) scope before).ending =
        (apply setting (depth + 2) callee [item] "f" site called).ending := by
  obtain ⟨called, onward, gives⟩ := first_gives hooks core token depth inside
  have function : (evaluate setting (depth + 2) (use token 45 "f") scope before).ending =
      .ok (some callee) before := evaluate_identifier (inside.means rfl)
  obtain ⟨site, applies⟩ := evaluate_call_applies (token 46) function usable
    (.next gives ordinary (.none called)) (of_decide_eq_true rfl)
  exact ⟨some site, called, onward, applies⟩

theorem pushed_gives
    (inside : Inside before.scopes scope array (.array collectedId found) callee self)
    (gives : (evaluate setting (depth + 3) (applied token) scope before).ending =
      .ok (some value) between) (ordinary : value.isSignal = false) :
    ∃ new after, between.Onward after ∧
      (evaluate setting (depth + 4) (pushed token) scope before).ending =
        .ok (some (.array new (found ++ [value]))) after :=
  call_creating hooks (of_decide_eq_true rfl)
    (inside.helper (show "push" ∈ helpers by decide)) (builtinValue?_core core "push")
    (.next (evaluate_identifier (inside.means rfl)) rfl (.next gives ordinary (.none between))) rfl
    (script_core core "push" _)

omit hooks in
theorem pushed_signals
    (inside : Inside before.scopes scope array (.array collectedId found) callee self)
    (gives : (evaluate setting (depth + 3) (applied token) scope before).ending =
      .ok (some value) between) (signal : value.isSignal = true) :
    (evaluate setting (depth + 4) (pushed token) scope before).ending =
      .ok (some value) between :=
  evaluate_call_signal
    (evaluate_builtin (inside.helper (show "push" ∈ helpers by decide))
      (builtinValue?_core core "push"))
    rfl (.next (evaluate_identifier (inside.means rfl)) rfl (.none before)) gives signal rfl

/-- An iteration first applies the function.  A signal that this gives is its result; with any other
value the next iteration starts. -/
theorem again_applies
    (inside : Inside before.scopes scope (.array arrayId (item :: items)) (.array collectedId found)
      callee self)
    (ordinary : item.isSignal = false) (usable : callee.isSignal = false)
    (selfUsable : self.isSignal = false) :
    ∃ site called, before.Onward called ∧ ∀ value between,
      (apply setting (depth + 2) callee [item] "f" site called).ending = .ok (some value) between →
      (value.isSignal = true →
        (evaluate setting (depth + 5) (again token) scope before).ending =
          .ok (some value) between) ∧
      (value.isSignal = false → ∃ left new site following, between.Onward following ∧
        (evaluate setting (depth + 5) (again token) scope before).ending =
          (apply setting (depth + 4) self [.array left items, .array new (found ++ [value])] "iter" site
            following).ending) := by
  have function : (evaluate setting (depth + 4) (use token 34 "iter") scope before).ending =
      .ok (some self) before := evaluate_identifier (inside.means rfl)
  obtain ⟨left, middle, onward, shorter⟩ := rest_gives hooks core token (depth + 2) inside
  have later := inside.persist onward.scopes
  obtain ⟨site, called, further, applies⟩ :=
    applied_applies hooks core token depth later ordinary usable
  refine ⟨site, called, onward.trans further, fun value between ran => ⟨?_, ?_⟩⟩
  · intro signal
    have stops := pushed_signals core token depth later (applies.trans ran) signal
    exact evaluate_call_signal function selfUsable (.next shorter rfl (.none middle)) stops signal rfl
  · intro plain
    obtain ⟨new, following, last, longer⟩ :=
      pushed_gives hooks core token depth later (applies.trans ran) plain
    obtain ⟨site, continues⟩ := evaluate_call_applies (token 35) function selfUsable
      (.next shorter rfl (.next longer rfl (.none following)))
      (of_decide_eq_true rfl)
    exact ⟨left, new, some site, following, last, continues⟩

/-- Of an empty array nothing is left to be done. -/
theorem choice_done
    (inside : Inside before.scopes scope (.array arrayId []) collected callee self) :
    ∃ after, before.Onward after ∧
      (evaluate setting (depth + 4) (choice token) scope before).ending =
        .ok (some collected) after := by
  obtain ⟨middle, onward, empty⟩ := isEmpty_gives hooks core token depth inside
  obtain ⟨logged, further, gives⟩ := statements_alone hooks
    (.expressionStatement (token 30) (use token 30 "acc")) (of_decide_eq_true rfl)
    (evaluate setting (depth + 3)) scope middle
  have reached := onward.trans further
  have last := gives collected logged (evaluate_identifier ((inside.persist reached.scopes).means rfl))
  exact ⟨logged, reached, evaluate_consequence empty last⟩

theorem choice_again
    (inside : Inside before.scopes scope (.array arrayId (item :: items)) collected callee self) :
    ∃ logged, before.Onward logged ∧ ∀ value after,
      (evaluate setting (depth + 5) (again token) scope logged).ending = .ok (some value) after →
      (evaluate setting (depth + 6) (choice token) scope before).ending = .ok (some value) after := by
  obtain ⟨middle, onward, filled⟩ := isEmpty_gives hooks core token (depth + 2) inside
  obtain ⟨logged, further, gives⟩ := statements_alone hooks
    (.expressionStatement (token 34) (again token))
    (of_decide_eq_true rfl)
    (evaluate setting (depth + 5)) scope middle
  exact ⟨logged, onward.trans further, fun value after ran =>
    evaluate_alternative filled (gives value after ran)⟩

end Parts

section Iterations

variable {setting : Setting} (hooks : ∀ event, setting.hooks.of event = [])
  (core : setting.builtins = Builtin.core) {token : Nat → Token} {depth : Nat} {outer : ScopeId}
  {callee : Value} {selfId : ObjectId}

/-- `iter` as a value, in the scope of a call of `map`. -/
def inner (token : Nat → Token) (id : ObjectId) (outer : ScopeId) : Value :=
  .function id (innerParameters token) (innerBody token) outer

variable {before : Machine}

include hooks

theorem inner_opens (depth : Nat) {array collected : Value}
    (around : Around before.scopes outer callee (inner token selfId outer))
    (usable : ∀ argument ∈ [array, collected], argument.isSignal = false) (name : String)
    (site : Option Location) :
    ∃ scope entered, before.Onward entered ∧
      Inside entered.scopes scope array collected callee (inner token selfId outer) ∧
      ∀ value after,
        (evaluate setting depth (choice token) scope entered).ending = .ok (some value) after →
        ∃ final, after.Unwound final ∧
          (apply setting (depth + 1) (inner token selfId outer) [array, collected] name site
            before).ending = .ok (some (Eval.callResult (some value))) final := by
  have older : outer < before.scopes.size := by
    obtain ⟨_, _, _, layers⟩ := around
    exact layers.within
  obtain ⟨opened, onward, written, runs⟩ := apply_opens hooks depth selfId (innerParameters token)
    (innerBody token) outer usable name site before
  obtain ⟨logged, further, gives⟩ := statements_alone hooks
    (.expressionStatement (token 20) (choice token))
    (of_decide_eq_true rfl)
    (evaluate setting depth) before.scopes.size opened
  have inside := (around.persist onward.scopes).inside written older
  exact ⟨before.scopes.size, logged, onward.trans further, inside.persist further.scopes,
    fun value after ran => runs _ after (gives value after ran)⟩

include core

/-- The last iteration gives what has been collected. -/
theorem inner_finishes {collected : List Value}
    (around : Around before.scopes outer callee (inner token selfId outer)) (left made : ObjectId)
    (name : String) (site : Option Location) :
    ∃ after final, before.Onward after ∧ after.Unwound final ∧
      (apply setting (depth + 5) (inner token selfId outer) [.array left [], .array made collected] name
        site before).ending = .ok (some (.array made collected)) final := by
  have usable : ∀ argument ∈ [Value.array left [], .array made collected],
      argument.isSignal = false := by simp [Value.isSignal]
  obtain ⟨scope, entered, onward, inside, runs⟩ :=
    inner_opens hooks (depth + 4) around usable name site
  obtain ⟨after, further, chosen⟩ := choice_done hooks core token depth inside
  obtain ⟨final, closed, result⟩ := runs _ after chosen
  exact ⟨after, final, onward.trans further, closed, result⟩

/-- Any other iteration applies the function to the first item left.  A signal that this gives is the
result; with any other value collected, and the items behind, the next iteration ends like this one. -/
theorem inner_iterates (depth : Nat) {item : Value} {items collected : List Value}
    (usable : callee.isSignal = false) (ordinary : item.isSignal = false)
    (around : Around before.scopes outer callee (inner token selfId outer)) (left made : ObjectId)
    (name : String) (site : Option Location) :
    let whole := (apply setting (depth + 7) (inner token selfId outer)
      [.array left (item :: items), .array made collected] name site before).ending
    ∃ place called, before.Onward called ∧ ∀ value between,
      (apply setting (depth + 2) callee [item] "f" place called).ending = .ok (some value) between →
      (value.isSignal = true → ∃ final, between.Unwound final ∧
        whole = .ok (some (Eval.callResult (some value))) final) ∧
      (value.isSignal = false → ∃ shorter longer place following, between.Onward following ∧
        ∀ result after, (apply setting (depth + 4) (inner token selfId outer)
            [.array shorter items, .array longer (collected ++ [value])] "iter" place
            following).ending = .ok (some result) after →
          ∃ final, after.Unwound final ∧
            whole = .ok (some (Eval.callResult (some result))) final) := by
  have arguments : ∀ argument ∈ [Value.array left (item :: items), .array made collected],
      argument.isSignal = false := by simp [Value.isSignal]
  obtain ⟨scope, entered, onward, inside, runs⟩ :=
    inner_opens hooks (depth + 6) around arguments name site
  obtain ⟨logged, further, chosen⟩ := choice_again hooks core token depth inside
  obtain ⟨place, called, last, applies⟩ := again_applies hooks core token depth
    (inside.persist further.scopes) ordinary usable rfl
  refine ⟨place, called, (onward.trans further).trans last, fun value between ran => ⟨?_, ?_⟩⟩
  · intro signal
    exact runs value between (chosen value between ((applies value between ran).1 signal))
  · intro plain
    obtain ⟨shorter, longer, place, following, prepared, continues⟩ :=
      (applies value between ran).2 plain
    exact ⟨shorter, longer, place, following, prepared, fun result after ends =>
      runs result after (chosen result after (continues.trans ends))⟩

/-- All iterations together, by induction on the items that are left. -/
theorem inner_ends {items collected : List Value} (usable : callee.isSignal = false)
    (ordinary : ∀ item ∈ items, item.isSignal = false)
    (around : Around before.scopes outer callee (inner token selfId outer))
    (left made : ObjectId) (name : String) (site : Option Location) :
    Ends setting callee collected (depth + 2) items before
      (apply setting depth (inner token selfId outer) [.array left items, .array made collected] name
        site before).ending := by
  induction items generalizing before collected left made name site depth with
  | nil =>
      rcases Nat.lt_or_ge depth 5 with cramped | room
      · exact .cramped (.inl (by omega))
      obtain ⟨depth, rfl⟩ := Nat.exists_eq_add_of_le' room
      obtain ⟨after, final, onward, closed, result⟩ :=
        inner_finishes hooks core around left made name site
      refine ⟨[], [], [], [], after, rfl, .done onward, ?_, fun _ => ?_⟩
      · rw [onward.printed, List.flatten_nil, List.append_nil]
      · rw [List.append_nil]
        exact ⟨made, final, closed, result⟩
  | cons item items ih =>
      obtain ⟨itemOrdinary, othersOrdinary⟩ := List.forall_mem_cons.mp ordinary
      rcases Nat.lt_or_ge depth 7 with cramped | room
      · exact .cramped (.inr ⟨List.cons_ne_nil _ _, by omega⟩)
      obtain ⟨depth, rfl⟩ := Nat.exists_eq_add_of_le' room
      obtain ⟨place, called, onward, iterates⟩ := inner_iterates hooks core depth usable
        itemOrdinary around left made name site
      by_cases given : ∃ value between, value.isSignal = false ∧
          (apply setting (depth + 2) callee [item] "f" place called).ending = .ok (some value) between
      · obtain ⟨value, between, plain, ran⟩ := given
        obtain ⟨shorter, longer, next, following, prepared, passes⟩ :=
          (iterates value between ran).2 plain
        obtain ⟨lines, printed⟩ :=
          (apply_prints (core ▸ fun _ => id) (depth + 2) callee [item] "f" place called).done _ _ ran
        have kept : called.scopes.PersistIn between.scopes :=
          ((apply_writes (fun _ member => .inl (core ▸ member)) (depth + 2) callee [item] "f" place
            called).done _ _ ran).persist
        have still := around.persist ((onward.scopes.trans kept).trans prepared.scopes)
        have ends : Ends setting callee (collected ++ [value]) (depth + 6) items following _ :=
          ih othersOrdinary still shorter longer "iter" next
        exact .next place onward ran plain (by rw [printed, Array.toList_append])
          ((ends.after_onward prepared).passed passes)
      · refine .stopped place onward (fun value after ran => ?_) fun failure after ran => ?_
        · cases signal : value.isSignal with
          | true => rfl
          | false => exact absurd ⟨value, after, signal, ran⟩ given
        · exact (iterates _ after ran).1 rfl

end Iterations

section Outside

variable {setting : Setting} (hooks : ∀ event, setting.hooks.of event = [])
  (core : setting.builtins = Builtin.core) {token : Nat → Token} {global : ScopeId}
  {callee : Value} {before : Machine}

/-- `map` as a value. -/
def outer (token : Nat → Token) (id : ObjectId) (global : ScopeId) : Value :=
  .function id (outerParameters token) (outerBody token) global

include hooks

/-- A call of the function outside first defines the one inside, in its own scope. -/
theorem outer_defines (depth : Nat) {array : Value} {bindings : List (String × Value)}
    (outermost : before.scopes.table[global]? = some ⟨none, bindings⟩)
    (usable : ∀ argument ∈ [array, callee], argument.isSignal = false) (id : ObjectId)
    (name : String) (site : Option Location) :
    ∃ scope selfId bound, before.Onward bound ∧
      bound.scopes.Layers scope
        [[("arr", array), ("f", callee), ("iter", inner token selfId scope)], bindings] ∧
      ∀ value after, (Eval.statements setting (evaluate setting (depth + 2)) scope
          [.expressionStatement (token 57) (started token)] none bound).ending =
          .ok (some value) after →
        ∃ final, after.Unwound final ∧
          (apply setting (depth + 3) (outer token id global) [array, callee] name site before).ending =
            .ok (some (Eval.callResult (some value))) final := by
  let scope := before.scopes.size
  obtain ⟨opened, onward, written, runs⟩ := apply_opens hooks (depth + 2) id (outerParameters token)
    (outerBody token) global usable name site before
  obtain ⟨logged, further, defines⟩ := statements_behind hooks
    (.letStatement (token 10) (word token 11 "iter")
      (.function (token 13) (innerParameters token) (innerBody token)))
    (of_decide_eq_true rfl) (evaluate setting (depth + 2)) scope
    [.expressionStatement (token 57) (started token)] opened
  let self := inner token logged.nextObject scope
  let created : Machine := { logged with nextObject := logged.nextObject + 1 }
  let bound : Machine := { created with scopes := created.scopes.bind scope "iter" self }
  have made : (evaluate setting (depth + 1)
      (.function (token 13) (innerParameters token) (innerBody token)) scope logged).ending =
      .ok (some self) created := rfl
  have defined := defines bound (evaluate_let (token 10) (word token 11 "iter") made rfl)
  have reached := (onward.trans further).trans logged.onward_created
  have toBound : before.Onward bound :=
    ⟨reached.scopes.bind (Nat.le_refl _) "iter" self, reached.printed⟩
  have found : bound.scopes.table[scope]? =
      some ⟨some global, [("arr", array), ("f", callee), ("iter", self)]⟩ := by
    have present : created.scopes.table[scope]? = _ := further.scopes _ _ written
    simp only [bound, Scopes.bind, Array.getElem?_modify, if_true, present, Option.map_some]
    rfl
  have layers : bound.scopes.Layers scope
      [[("arr", array), ("f", callee), ("iter", self)], bindings] :=
    .inner found (Scopes.within_of_found outermost) (.outermost (toBound.scopes _ _ outermost))
  exact ⟨scope, logged.nextObject, bound, toBound, layers, fun value after ran =>
    runs (some value) after (defined.trans ran)⟩

omit hooks in
theorem started_applies (depth : Nat) {array self : Value} {bindings : List (String × Value)}
    {scope : ScopeId}
    (layers : before.scopes.Layers scope
      [[("arr", array), ("f", callee), ("iter", self)], bindings])
    (usable : array.isSignal = false) (selfUsable : self.isSignal = false) :
    ∃ site made start, before.Onward start ∧
      (evaluate setting (depth + 2) (started token) scope before).ending =
        (apply setting (depth + 1) self [array, .array made []] "iter" site start).ending := by
  have function : (evaluate setting (depth + 1) (use token 57 "iter") scope before).ending =
      .ok (some self) before := evaluate_identifier ((layers.find? "iter").trans rfl)
  have whole : (evaluate setting (depth + 1) (use token 59 "arr") scope before).ending =
      .ok (some array) before := evaluate_identifier ((layers.find? "arr").trans rfl)
  have empty : (evaluate setting (depth + 1) (.array (token 61) []) scope before).ending =
      .ok (some (.array before.nextObject []))
        { before with nextObject := before.nextObject + 1 } :=
    evaluate_array (token 61) (.none before)
  obtain ⟨site, calls⟩ := evaluate_call_applies (token 58) function selfUsable
    (.next whole usable (.next empty rfl (.none _))) (of_decide_eq_true rfl)
  exact ⟨some site, before.nextObject, _, before.onward_created, calls⟩

/-- A call of the function outside ends like the first iteration, with nothing collected. -/
theorem outer_starts (depth : Nat) {array : Value} {bindings : List (String × Value)}
    (outermost : before.scopes.table[global]? = some ⟨none, bindings⟩)
    (unbound : ∀ name ∈ helpers, bindings.lookup name = none)
    (usable : ∀ argument ∈ [array, callee], argument.isSignal = false) (id : ObjectId)
    (name : String) (site : Option Location) :
    ∃ scope selfId made place start, before.Onward start ∧
      Around start.scopes scope callee (inner token selfId scope) ∧
      ∀ value after,
        (apply setting (depth + 1) (inner token selfId scope) [array, .array made []] "iter" place
          start).ending = .ok (some value) after →
        ∃ final, after.Unwound final ∧
          (apply setting (depth + 3) (outer token id global) [array, callee] name site before).ending =
            .ok (some (Eval.callResult (some value))) final := by
  obtain ⟨scope, selfId, bound, onward, layers, runs⟩ :=
    outer_defines hooks depth outermost usable id name site
  obtain ⟨ready, further, starts⟩ := statements_alone hooks
    (.expressionStatement (token 57) (started token)) (of_decide_eq_true rfl)
    (evaluate setting (depth + 2)) scope bound
  have seen := layers.persist further.scopes
  obtain ⟨place, made, start, last, calls⟩ :=
    started_applies depth seen (usable array List.mem_cons_self) rfl
  refine ⟨scope, selfId, made, place, start, (onward.trans further).trans last,
    ⟨array, bindings, unbound, seen.persist last.scopes⟩, fun value after ran => ?_⟩
  exact runs value after (starts value after (calls.trans ran))

/-- The text defines `map` and nothing else. -/
theorem text_defines (fresh : before.scopes.table[global]? = some ⟨none, []⟩) :
    ∃ token id defined, (setting.execute text global before).ending = .ok none defined ∧
      defined.scopes.table[global]? = some ⟨none, [("map", outer token id global)]⟩ := by
  obtain ⟨token, first, read⟩ := text_read
  let reading := before.reading text
  obtain ⟨logged, onward, defines⟩ := statements_behind hooks (definition token)
    (of_decide_eq_true rfl) (evaluate setting 9999) global [] reading
  let created : Machine := { logged with nextObject := logged.nextObject + 1 }
  let mapping := outer token logged.nextObject global
  have made : (evaluate setting 9998 (.function (token 3) (outerParameters token) (outerBody token))
      global logged).ending = .ok (some mapping) created := rfl
  have defined := defines _ (evaluate_let (token 0) (word token 1 "map") made rfl)
  have ran : (Eval.body setting (evaluate setting depthLimit) text global reading).ending =
      .ok none { created with scopes := created.scopes.bind global "map" mapping } :=
    (body_statements hooks read).trans defined
  refine ⟨token, logged.nextObject, _, execute_ok hooks ran, ?_⟩
  have present : created.scopes.table[global]? = _ := onward.scopes _ _ fresh
  simp only [Scopes.bind, Array.getElem?_modify, if_true, present, Option.map_some]
  rfl

include core

theorem outer_ends {bindings : List (String × Value)} {items : List Value}
    (outermost : before.scopes.table[global]? = some ⟨none, bindings⟩)
    (unbound : ∀ name ∈ helpers, bindings.lookup name = none) (usable : callee.isSignal = false)
    (ordinary : ∀ item ∈ items, item.isSignal = false)
    (id arrayId : ObjectId) (depth : Nat) (name : String) (site : Option Location) :
    Ends setting callee [] depth items before
      (apply setting depth (outer token id global) [.array arrayId items, callee] name site
        before).ending := by
  rcases Nat.lt_or_ge depth 3 with cramped | room
  · exact .cramped (.inl (by omega))
  obtain ⟨depth, rfl⟩ := Nat.exists_eq_add_of_le' room
  have arguments : ∀ argument ∈ [Value.array arrayId items, callee], argument.isSignal = false :=
    List.forall_mem_cons.mpr ⟨rfl, List.forall_mem_singleton.mpr usable⟩
  obtain ⟨scope, selfId, made, place, start, onward, around, passes⟩ :=
    outer_starts hooks depth outermost unbound arguments id name site
  have ends : Ends setting callee [] (depth + 3) items start _ :=
    inner_ends hooks core usable ordinary around arrayId made "iter" place
  exact (ends.after_onward onward).passed passes

end Outside

end Mapping

/-- The text that defines `map`, executed in an outermost scope in which nothing is bound, binds it
and nothing else.  Called from then on with an array and a value, wherever the builtins that it uses
are not rebound, it applies the value to the elements in turn.  Where all applications give values
that are no signals, it gives an array of just these values in their order; what is printed is what
the applications print, one after the other; and the first application that fails is the last one, no
step being logged after it, and its failure is the result.  No scope that there was before is
changed. -/
theorem mapping_applies_in_turn {setting : Setting} (hooks : ∀ event, setting.hooks.of event = [])
    (core : setting.builtins = Builtin.core) {start : Machine} {global : ScopeId}
    (fresh : start.scopes.table[global]? = some ⟨none, []⟩) :
    ∃ mapping defined, (setting.execute Mapping.text global start).ending = .ok none defined ∧
      defined.scopes.table[global]? = some ⟨none, [("map", mapping)]⟩ ∧
      ∀ {before : Machine} {bindings : List (String × Value)} {items : List Value} {callee : Value},
        before.scopes.table[global]? = some ⟨none, bindings⟩ →
        (∀ name ∈ Mapping.helpers, bindings.lookup name = none) →
        (∀ item ∈ items, item.isSignal = false) → callee.isSignal = false →
        ∀ id depth name site,
          let course := apply setting depth mapping [.array id items, callee] name site before
          Mapping.Ends setting callee [] depth items before course.ending ∧
            before.scopes.PersistIn course.machine.scopes := by
  obtain ⟨token, mapId, defined, executed, binds⟩ := Mapping.text_defines hooks fresh
  refine ⟨_, defined, executed, binds, ?_⟩
  intro before bindings items callee outermost unbound ordinary usable id depth name site course
  exact ⟨Mapping.outer_ends hooks core outermost unbound usable ordinary mapId id depth name site,
    (apply_writes (fun _ member => .inl (core ▸ member)) depth _ _ name site before).last.persist⟩

/-- Squares are mapped in turn; and a function that fails at the second of three elements has printed
two lines. -/
theorem mapping_applies_in_turn_squares :
    let setting : Setting := ⟨"<string>", false, Builtin.core, .none⟩
    let start : Machine := (Machine.initial setting).opened
    let items := [Value.string 7 "ab", .integer 8 5]
    let length := Value.builtin 0 "len" ⟨1, some 1⟩
    let squares := setting.execute (Mapping.text ++ "map([1, 2, 3], fn(x) \x7b x * x \x7d);") 0 start
    let failing := setting.execute
      (Mapping.text ++ "map([1, true, 3], fn(x) \x7b puts(x); x + 1 \x7d);") 0 start
    (∃ mapping defined, (setting.execute Mapping.text 0 start).ending = .ok none defined ∧
      Mapping.Ends setting length [] 20 items defined
        (apply setting 20 mapping [.array 9 items, length] "map" none defined).ending) ∧
      squares.shown = .ok (some ("ARRAY", "[1, 4, 9]")) ∧
      (failing.shown, failing.machine.printed.map Printed.text) =
        (.ok (some ("ERROR", "ERROR: type mismatch: BOOLEAN + INTEGER")), #["1", "true"]) := by
  intro setting start items length squares failing
  refine ⟨?_, by decide +kernel, by decide +kernel⟩
  obtain ⟨mapping, defined, executed, binds, ends⟩ :=
    @mapping_applies_in_turn setting (fun _ => rfl) rfl start 0 rfl
  refine ⟨mapping, defined, executed, (ends binds ?_ ?_ rfl 9 20 "map" none).1⟩
  · simp [Mapping.helpers]
  · simp [items, Value.isSignal]

end MonkeyLang
