import MonkeyLang.Proofs.Layout
import MonkeyLang.Proofs.Syntax.Pieces
import MonkeyLang.Proofs.Token.Joining

namespace MonkeyLang

open Grammar (Tokens)

/-! # Texts run piece by piece

A text whose tokens end with a semicolon and close all braces that they open may as well be run
together with what comes behind it.
-/

/-- A text whose last token is a semicolon, with as many closing braces as opening ones. -/
structure IsPiece (text : String) : Prop where
  ends : ∃ before semicolon finish, Token.scan text = before ++ [semicolon, finish] ∧
    semicolon.kind = .semicolon
  braces : (Token.scan text).countP (·.kind == .leftBrace) =
    (Token.scan text).countP (·.kind == .rightBrace)

theorem IsPiece.split {text : String} (piece : IsPiece text) :
    ∃ tokens finish, Token.scan text = tokens ++ [finish] ∧ finish.kind = .endOfInput ∧
      (∀ token ∈ tokens, token.kind ≠ .endOfInput) ∧ Parse.Piece tokens := by
  obtain ⟨tokens, finish, split, isEnd, proper⟩ := Token.scan_split text
  obtain ⟨before, semicolon, last, endsSame, isSemicolon⟩ := piece.ends
  have listed : tokens ++ [finish] = (before ++ [semicolon]) ++ [last] := by
    rw [← split, endsSame, List.append_assoc]
    rfl
  obtain ⟨tokensSame, -⟩ := List.append_inj' listed rfl
  refine ⟨tokens, finish, split, isEnd, proper, fun other isLast => ?_, ?_⟩
  · rw [tokensSame, List.getLast?_concat] at isLast
    exact Option.some.inj isLast ▸ isSemicolon
  · have braces := piece.braces
    rw [split] at braces
    simp only [List.countP_append, List.countP_singleton, isEnd] at braces
    exact Nat.le_of_eq braces

theorem placesOnly_append {text other : String} {parsed second : Parsed} (piece : IsPiece text)
    (read : Parsed.ofText text = .ok parsed) (clean : parsed.errors = [])
    (otherRead : Parsed.ofText other = .ok second) (otherClean : second.errors = []) :
    ∃ token bodies otherBodies,
      Parsed.ofText (text ++ "\n" ++ other) =
        .ok ⟨.program ⟨token, bodies ++ otherBodies⟩, []⟩ ∧
      List.Forall₂ (Node.Similar Leeway.placesOnly.Tokens) parsed.program.body bodies ∧
      List.Forall₂ (Node.Similar Leeway.placesOnly.Tokens) second.program.body otherBodies := by
  obtain ⟨tokens, finish, split, isEnd, proper, isPiece⟩ := piece.split
  have dropped : (Token.scan text).dropLast = tokens := by rw [split, List.dropLast_concat]
  have listed := Token.scan_append text other fun last isLast => by
    rw [dropped] at isLast
    rw [isPiece.ends last isLast]
    nofun
  rw [dropped] at listed
  obtain ⟨firsts, rests, whole, firstsSame, restsSame⟩ := List.map_eq_append_iff.mp listed
  have similar : ∀ {tokens others : List Token},
      others.map Token.spelling = tokens.map Token.spelling →
      List.Forall₂ Leeway.placesOnly.Tokens tokens others := fun same =>
    (Token.sameSpelling_of_spelling same.symm).imp fun _ _ => placesOnly_tokens
  have nonempty : rests ≠ [] := by
    rintro rfl
    obtain ⟨others, last, otherSplit, _⟩ := Token.scan_split other
    rw [otherSplit] at restsSame
    simp at restsSame
  unfold Parsed.ofText at read otherRead ⊢
  rw [whole]
  rw [split] at read
  exact Parsed.ofTokens_append Leeway.placesOnly.tokens_reflexive Leeway.placesOnly.tokens_spelled
    (fun left right => placesOnly_tokens (endings_spelled left right)) isPiece proper isEnd
    (similar firstsSame) (similar restsSame) nonempty read clean otherRead otherClean

section Statements

variable {setting : Setting} {evaluate : Evaluator} {scope : ScopeId} {before after : Machine}
  {body others : List Node}

/-- None of some statements gives a signal. -/
def Eval.Calm (setting : Setting) (evaluate : Evaluator) (scope : ScopeId) (before : Machine)
    (body : List Node) : Prop :=
  ∀ given after, Eval.Gives setting evaluate scope before body given after →
    ∀ value, some value ∈ given → value.isSignal = false

/-- A value that is no signal, if there is one. -/
def Unsignalled (result : Option Value) : Prop :=
  ∀ value, result = some value → value.isSignal = false

theorem unsignalled_none : Unsignalled none := nofun

theorem unsignalled_some {value : Value} (usable : value.isSignal = false) :
    Unsignalled (some value) := by
  rintro _ ⟨⟩
  exact usable

section Step

variable {statement : Node} {previous : Option Value}

theorem statements_broken {fault : Fault}
    (ran : (Eval.inStatement setting statement scope
      (evaluate (Eval.content statement) scope) before).ending = .error fault after) :
    (Eval.statements setting evaluate scope (statement :: others) previous before).ending =
      .error fault after := by
  rw [Eval.statements, Eval.bind_error ran]

theorem statements_usable {result : Option Value}
    (ran : (Eval.inStatement setting statement scope
      (evaluate (Eval.content statement) scope) before).ending = .ok result after)
    (usable : Unsignalled result) :
    (Eval.statements setting evaluate scope (statement :: others) previous before).ending =
      (Eval.statements setting evaluate scope others (result.or previous) after).ending := by
  rw [Eval.statements, Eval.bind_ok ran]
  cases result with
  | none => rfl
  | some value =>
      dsimp only
      rw [usable value rfl]
      rfl

theorem statements_signal {value : Value}
    (ran : (Eval.inStatement setting statement scope
      (evaluate (Eval.content statement) scope) before).ending = .ok (some value) after)
    (isSignal : value.isSignal = true) :
    (Eval.statements setting evaluate scope (statement :: others) previous before).ending =
      .ok (some value) after := by
  rw [Eval.statements, Eval.bind_ok ran]
  dsimp only
  rw [isSignal]
  rfl

/-- How a statement ends: broken off, with a result that is no signal, or with a signal. -/
theorem statement_cases (setting : Setting) (evaluate : Evaluator) (scope : ScopeId)
    (statement : Node) (before : Machine) :
    let ending := (Eval.inStatement setting statement scope
      (evaluate (Eval.content statement) scope) before).ending
    (∃ fault after, ending = .error fault after) ∨
      (∃ result after, ending = .ok result after ∧ Unsignalled result) ∨
      ∃ value after, ending = .ok (some value) after ∧ value.isSignal = true := by
  intro ending
  cases same : ending with
  | error fault after => exact .inl ⟨fault, after, rfl⟩
  | ok result after =>
      cases result with
      | none => exact .inr (.inl ⟨none, after, rfl, unsignalled_none⟩)
      | some value =>
          cases signal : value.isSignal with
          | false => exact .inr (.inl ⟨some value, after, rfl, unsignalled_some signal⟩)
          | true => exact .inr (.inr ⟨value, after, rfl, signal⟩)

end Step

/-- The statements end with what the last of them gives. -/
theorem statements_gives {previous result : Option Value}
    (ran : (Eval.statements setting evaluate scope body previous before).ending =
      .ok result after) :
    ∃ given, Eval.Gives setting evaluate scope before body given after ∧
      (result = previous ∨ result ∈ given) := by
  induction body generalizing before previous with
  | nil =>
      cases ran
      exact ⟨[], .none after, .inl rfl⟩
  | cons statement others ih =>
      rcases statement_cases setting evaluate scope statement before with
        ⟨fault, between, first⟩ | ⟨value, between, first, usable⟩ | ⟨value, between, first, signal⟩
      · rw [statements_broken first] at ran
        cases ran
      · rw [statements_usable first usable] at ran
        obtain ⟨given, gives, last⟩ := ih ran
        refine ⟨value :: given, .next first usable gives, ?_⟩
        rcases last with rfl | member
        · cases value with
          | none => exact .inl rfl
          | some value => exact .inr List.mem_cons_self
        · exact .inr (List.mem_cons_of_mem _ member)
      · rw [statements_signal first signal] at ran
        cases ran
        exact ⟨[some value], .signal first signal, .inr List.mem_cons_self⟩

theorem Eval.Gives.signalled {given : List (Option Value)} {value : Value}
    (gives : Eval.Gives setting evaluate scope before body given after)
    (member : some value ∈ given) (isSignal : value.isSignal = true) (previous : Option Value) :
    (Eval.statements setting evaluate scope body previous before).ending =
      .ok (some value) after := by
  induction gives generalizing previous with
  | none => cases member
  | next ran usable _ ih =>
      rcases List.mem_cons.mp member with rfl | later
      · exact nomatch isSignal.symm.trans (usable value rfl)
      · rw [statements_usable ran usable]
        exact ih later _
  | signal ran signal =>
      cases List.mem_singleton.mp member
      exact statements_signal ran signal

/-- Statements give no signal exactly if they do not end with one. -/
theorem calm_iff : Eval.Calm setting evaluate scope before body ↔
    ∀ value after, (Eval.statements setting evaluate scope body none before).ending =
      .ok (some value) after → value.isSignal = false := by
  constructor
  · intro calm value after ran
    obtain ⟨given, gives, same | member⟩ := statements_gives ran
    · cases same
    · exact calm given after gives value member
  · intro usable given after gives value member
    cases signal : value.isSignal with
    | false => rfl
    | true => exact signal.symm.trans (usable value after (gives.signalled member signal none))

instance (setting : Setting) (evaluate : Evaluator) (scope : ScopeId) (before : Machine)
    (body : List Node) : Decidable (Eval.Calm setting evaluate scope before body) :=
  match ended : (Eval.statements setting evaluate scope body none before).ending with
  | .ok (some value) after =>
      if signal : value.isSignal then
        .isFalse fun calm => nomatch signal.symm.trans (calm_iff.mp calm value after ended)
      else
        .isTrue <| calm_iff.mpr fun other last ran => by
          cases ended.symm.trans ran
          exact Bool.eq_false_iff.mpr signal
  | .ok none after => .isTrue <| calm_iff.mpr fun _ _ ran => nomatch ended.symm.trans ran
  | .error fault after => .isTrue <| calm_iff.mpr fun _ _ ran => nomatch ended.symm.trans ran

/-- Statements that end without a signal are followed by those behind them. -/
theorem statements_append {previous result : Option Value}
    (ran : (Eval.statements setting evaluate scope body previous before).ending = .ok result after)
    (calm : Unsignalled result) :
    (Eval.statements setting evaluate scope (body ++ others) previous before).ending =
      (Eval.statements setting evaluate scope others result after).ending := by
  induction body generalizing before previous with
  | nil =>
      cases ran
      rfl
  | cons statement body ih =>
      rw [List.cons_append]
      rcases statement_cases setting evaluate scope statement before with
        ⟨fault, between, first⟩ | ⟨value, between, first, usable⟩ | ⟨value, between, first, signal⟩
      · rw [statements_broken first] at ran
        cases ran
      · rw [statements_usable first usable] at ran ⊢
        exact ih ran
      · rw [statements_signal first signal] at ran
        cases ran
        exact nomatch signal.symm.trans (calm value rfl)

theorem statements_append_broken {previous : Option Value} {fault : Fault}
    (ran : (Eval.statements setting evaluate scope body previous before).ending =
      .error fault after) :
    (Eval.statements setting evaluate scope (body ++ others) previous before).ending =
      .error fault after := by
  induction body generalizing before previous with
  | nil => cases ran
  | cons statement body ih =>
      rw [List.cons_append]
      rcases statement_cases setting evaluate scope statement before with
        ⟨fault, between, first⟩ | ⟨value, between, first, usable⟩ | ⟨value, between, first, signal⟩
      · rw [statements_broken first] at ran ⊢
        exact ran
      · rw [statements_usable first usable] at ran ⊢
        exact ih ran
      · rw [statements_signal first signal] at ran
        cases ran

/-- An ending with another result. -/
def mapEnding {α β : Type} (change : α → β) :
    EStateM.Result Fault Machine α → EStateM.Result Fault Machine β
  | .ok result after => .ok (change result) after
  | .error fault after => .error fault after

/-- What stood before some statements is their result only if they have none of their own. -/
theorem statements_previous (previous earlier : Option Value) :
    (Eval.statements setting evaluate scope body (previous.or earlier) before).ending =
      mapEnding (·.or earlier)
        (Eval.statements setting evaluate scope body previous before).ending := by
  induction body generalizing before previous with
  | nil => rfl
  | cons statement body ih =>
      rcases statement_cases setting evaluate scope statement before with
        ⟨fault, between, first⟩ | ⟨value, between, first, usable⟩ | ⟨value, between, first, signal⟩
      · rw [statements_broken first, statements_broken first]
        rfl
      · rw [statements_usable first usable, statements_usable first usable, ← Option.or_assoc]
        exact ih _
      · rw [statements_signal first signal, statements_signal first signal]
        rfl

end Statements

/-! ## Texts in two parts -/

section Texts

variable {setting : Setting} (hooks : ∀ event, setting.hooks.of event = []) {text : String}
  {scope : ScopeId} {before after : Machine} {evaluate : Evaluator}

include hooks

theorem announce_ending (notice : Notice) :
    (Eval.announce setting.hooks notice before).ending = .ok () before := by
  unfold Eval.announce
  rw [hooks]
  rfl

theorem abandon_ending {α : Type} (failure : Failure) :
    (Eval.abandon setting failure before : Course α).ending =
      .error (.runtime (Eval.stamp before failure)) before := by
  have looked : ((MonadState.get : Eval Machine) before).ending = .ok before before := rfl
  rw [Eval.abandon, Eval.bind_ok looked, Eval.bind_ok (announce_ending hooks _)]
  rfl

/-- The body of a text without errors evaluates its program. -/
theorem body_ending {program : Node} (read : Parsed.ofText text = .ok ⟨program, []⟩) :
    (Eval.body setting evaluate text scope before).ending =
      (evaluate program scope before).ending := by
  have parsed : (Eval.parse setting text before).ending = .ok program before := by
    rw [parse_pure read rfl]
    rfl
  rw [Eval.body, Eval.bind_ok parsed, Eval.bind_ok (announce_ending hooks _)]

theorem execute_ok {result : Option Value}
    (ran : (Eval.body setting evaluate text scope (before.reading text)).ending =
      .ok result after) :
    (Eval.execute setting evaluate text scope before).ending =
      .ok (Eval.textResult result) after := by
  have settled : (Eval.settle setting (Eval.body setting evaluate text scope)
      (before.reading text)).ending = .ok result after := Eval.recover_ok ran
  rw [Eval.execute, Eval.bind_ok (reading_ending before text), Eval.bind_ok settled]
  dsimp only
  generalize Eval.textResult result = final
  split
  · rw [Eval.bind_ok (announce_ending hooks _), Eval.bind_ok (announce_ending hooks _)]
    rfl
  · rw [Eval.bind_ok (announce_ending hooks _)]
    rfl

theorem execute_error {fault : Fault}
    (ran : (Eval.body setting evaluate text scope (before.reading text)).ending =
      .error fault after) :
    ∃ final last, (Eval.execute setting evaluate text scope before).ending = .error final last := by
  have settled : ∃ final last, (Eval.settle setting (Eval.body setting evaluate text scope)
      (before.reading text)).ending = .error final last := by
    rw [Eval.settle, Eval.recover_error ran]
    cases fault with
    | unparsable file errors => exact ⟨_, _, rfl⟩
    | depth =>
        have noted : ((modify fun machine => { machine with exhausted := true } : Eval PUnit)
            after).ending = .ok ⟨⟩ { after with exhausted := true } := rfl
        exact ⟨_, _, (Eval.bind_ok noted).trans (abandon_ending hooks _)⟩
    | runtime | foreign | digits => exact ⟨_, _, abandon_ending hooks _⟩
  obtain ⟨final, last, ended⟩ := settled
  rw [Eval.execute, Eval.bind_ok (reading_ending before text), Eval.bind_error ended]
  exact ⟨final, last, rfl⟩

end Texts

theorem Setting.HasRoom.ending {setting : Setting} {depth : Nat} {text : String} {scope : ScopeId}
    {machine : Machine} (room : setting.HasRoom depth text scope machine) (after : Machine) :
    (Eval.body setting (evaluate setting depth) text scope (machine.reading text)).ending ≠
      .error .depth after := by
  intro ran
  refine room ?_
  rw [Course.outcome, ran]

theorem textResult_or (result : Option Value) {earlier : Option Value}
    (calm : Unsignalled earlier) :
    Eval.textResult (result.or earlier) = (Eval.textResult result).or earlier := by
  cases result with
  | some value => cases value <;> rfl
  | none =>
      cases earlier with
      | none => rfl
      | some value =>
          cases value with
          | returned inner => exact nomatch calm _ rfl
          | _ => rfl

theorem textResult_usable {result : Option Value} (calm : Unsignalled result) :
    Eval.textResult result = result :=
  textResult_or none calm

theorem Leeway.Results.or {leeway : Leeway} {left right earlier otherEarlier : Option Value}
    (results : leeway.Results left right) (before : leeway.Results earlier otherEarlier) :
    leeway.Results (left.or earlier) (right.or otherEarlier) := by
  cases results with
  | some values => exact .some values
  | none => exact before

theorem unsignalled_similar {leeway : Leeway} {result other : Option Value}
    (results : leeway.Results result other) (usable : Unsignalled result) : Unsignalled other := by
  cases results with
  | none => exact unsignalled_none
  | some values => exact unsignalled_some (values.isSignal ▸ usable _ rfl)

/-- Runs a text and the one behind it; the result is that of the second text if it has one. -/
def Eval.executeBoth (setting : Setting) (evaluate : Evaluator) (text other : String)
    (scope : ScopeId) : Eval (Option Value) := do
  let first ← execute setting evaluate text scope
  let second ← execute setting evaluate other scope
  return second.or first

/-- The statements of a text, one after the other. -/
abbrev Eval.series (setting : Setting) (depth : Nat) (scope : ScopeId) (body : List Node) :
    Eval (Option Value) :=
  statements setting (evaluate setting depth) scope body none

section Series

variable {setting : Setting} (hooks : ∀ event, setting.hooks.of event = [])
  (builtins : ∀ builtin ∈ setting.builtins, builtin ∈ Builtin.core ∨ builtin ∈ Builtin.strings)
  {text other whole : String} {depth : Nat} {scope : ScopeId}

include hooks

theorem body_statements {token : Token} {body : List Node} {before : Machine}
    (read : Parsed.ofText text = .ok ⟨.program ⟨token, body⟩, []⟩) :
    (Eval.body setting (evaluate setting (depth + 1)) text scope before).ending =
      (Eval.series setting depth scope body before).ending :=
  body_ending hooks read

theorem unhooked_settings : Leeway.placesOnly.Settings setting setting := by
  have watch : setting.hooks.Watch := by
    intro event hook member
    rw [hooks event] at member
    cases member
  exact ⟨rfl, rfl, .inl rfl, watch, watch⟩

/-- A text that is broken off like another one is not followed by anything. -/
theorem executes_broken {evaluate otherEvaluate : Evaluator} {first second before after : Machine}
    {fault otherFault : Fault} (faults : Leeway.placesOnly.Faults fault otherFault)
    (machines : Leeway.placesOnly.Machines before after)
    (ran : (Eval.body setting evaluate text scope (first.reading text)).ending =
      .error fault before)
    (otherRan : (Eval.body setting otherEvaluate other scope (second.reading other)).ending =
      .error otherFault after)
    (next : Option Value → Eval (Option Value)) :
    Leeway.placesOnly.Endings False Leeway.placesOnly.Results
      ((Eval.execute setting evaluate text scope >>= next) first).ending
      (Eval.execute setting otherEvaluate other scope second).ending := by
  have bodies : Leeway.placesOnly.Endings False Leeway.placesOnly.Results
      (Eval.body setting evaluate text scope (first.reading text)).ending
      (Eval.body setting otherEvaluate other scope (second.reading other)).ending := by
    rw [ran, otherRan]
    exact .broken faults machines
  have ended := Leeway.Agree.execute_at (unhooked_settings hooks) bodies
  obtain ⟨final, last, broken⟩ := execute_error hooks ran
  rw [broken] at ended
  rw [Eval.bind_error broken]
  generalize (Eval.execute setting otherEvaluate other scope second).ending = otherEnding at ended ⊢
  cases ended with
  | broken faults machines => exact .broken faults machines
  | left isExcused | right isExcused => exact isExcused.elim

include builtins

/-- Similar statements are evaluated in agreement. -/
theorem statements_similar {body others : List Node}
    (similar : List.Forall₂ (Node.Similar Leeway.placesOnly.Tokens) body others) :
    Leeway.placesOnly.Agree True Leeway.placesOnly.Results
      (Eval.series setting depth scope body)
      (Eval.series setting depth scope others) := by
  have settings := unhooked_settings hooks
  have evaluators := Leeway.Agree.evaluates settings (Builtin.plain_uniform builtins) depth depth
  exact Leeway.Agree.statements settings evaluators scope similar .none

section Second

variable {first second before : Machine} {result wholeResult : Option Value}
  {bodies others otherBodies : List Node} {otherToken wholeToken : Token}

/-- Where the second part of a text goes on from, the text of its own ends like the whole one. -/
theorem second_at
    (otherRead : Parsed.ofText other = .ok ⟨.program ⟨otherToken, others⟩, []⟩)
    (wholeRead : Parsed.ofText whole = .ok ⟨.program ⟨wholeToken, bodies ++ otherBodies⟩, []⟩)
    (similar : List.Forall₂ (Node.Similar Leeway.placesOnly.Tokens) others otherBodies)
    (results : Leeway.placesOnly.Results result wholeResult) (calm : Unsignalled wholeResult)
    (machines : Leeway.placesOnly.Machines first second)
    (ran : (Eval.series setting depth scope bodies (before.reading whole)).ending =
      .ok wholeResult second)
    (room : setting.HasRoom (depth + 1) other scope first)
    (wholeRoom : setting.HasRoom (depth + 1) whole scope before) :
    Leeway.placesOnly.Endings False Leeway.placesOnly.Results
      ((Eval.execute setting (evaluate setting (depth + 1)) other scope >>=
        fun last => pure (last.or result)) first).ending
      (Eval.execute setting (evaluate setting (depth + 1)) whole scope before).ending := by
  have wholeBody : (Eval.body setting (evaluate setting (depth + 1)) whole scope
      (before.reading whole)).ending =
      mapEnding (·.or wholeResult) (Eval.series setting depth scope otherBodies second).ending := by
    rw [body_statements hooks wholeRead, statements_append ran calm]
    exact statements_previous none wholeResult
  have otherBody : (Eval.body setting (evaluate setting (depth + 1)) other scope
      (first.reading other)).ending =
      (Eval.series setting depth scope others (first.reading other)).ending :=
    body_statements hooks otherRead
  have started : Leeway.placesOnly.Machines (first.reading other) second :=
    { machines with lines := .inl trivial }
  have ended : Leeway.placesOnly.Endings True Leeway.placesOnly.Results
      (Eval.series setting depth scope others (first.reading other)).ending
      (Eval.series setting depth scope otherBodies second).ending :=
    statements_similar hooks builtins similar _ _ started
  generalize (Eval.series setting depth scope others (first.reading other)).ending = ending,
    (Eval.series setting depth scope otherBodies second).ending = wholeEnding
    at ended otherBody wholeBody
  cases ended with
  | left => exact absurd otherBody (room.ending _)
  | right => exact absurd wholeBody (wholeRoom.ending _)
  | broken faults after => exact executes_broken hooks faults after otherBody wholeBody _
  | done lasts after =>
      rw [Eval.bind_ok (execute_ok hooks otherBody), execute_ok hooks wholeBody,
        textResult_or _ calm]
      exact .done ((Leeway.Agree.textResult lasts).or results) after

/-- Programs that make up a whole one are run one after the other like the whole one. -/
theorem both_at {body : List Node} {token : Token}
    (read : Parsed.ofText text = .ok ⟨.program ⟨token, body⟩, []⟩)
    (otherRead : Parsed.ofText other = .ok ⟨.program ⟨otherToken, others⟩, []⟩)
    (wholeRead : Parsed.ofText whole = .ok ⟨.program ⟨wholeToken, bodies ++ otherBodies⟩, []⟩)
    (similar : List.Forall₂ (Node.Similar Leeway.placesOnly.Tokens) body bodies)
    (otherSimilar : List.Forall₂ (Node.Similar Leeway.placesOnly.Tokens) others otherBodies)
    (calm : Eval.Calm setting (evaluate setting depth) scope (before.reading text) body)
    (room : setting.HasRoom (depth + 1) text scope before)
    (otherRoom : setting.HasRoom (depth + 1) other scope
      (Eval.execute setting (evaluate setting (depth + 1)) text scope before).machine)
    (wholeRoom : setting.HasRoom (depth + 1) whole scope before) :
    Leeway.placesOnly.Endings False Leeway.placesOnly.Results
      (Eval.executeBoth setting (evaluate setting (depth + 1)) text other scope before).ending
      (Eval.execute setting (evaluate setting (depth + 1)) whole scope before).ending := by
  have started : Leeway.placesOnly.Machines (before.reading text) (before.reading whole) :=
    { Leeway.placesOnly.machines_refl before with lines := .inl trivial }
  have ended : Leeway.placesOnly.Endings True Leeway.placesOnly.Results
      (Eval.series setting depth scope body (before.reading text)).ending
      (Eval.series setting depth scope bodies (before.reading whole)).ending :=
    statements_similar hooks builtins similar _ _ started
  have firstBody : (Eval.body setting (evaluate setting (depth + 1)) text scope
      (before.reading text)).ending =
      (Eval.series setting depth scope body (before.reading text)).ending :=
    body_statements hooks read
  generalize ran : (Eval.series setting depth scope body (before.reading text)).ending = ending,
    wholeRan : (Eval.series setting depth scope bodies (before.reading whole)).ending = wholeEnding
    at ended firstBody
  have wholeBroken : ∀ {fault after}, wholeEnding = .error fault after →
      (Eval.body setting (evaluate setting (depth + 1)) whole scope
        (before.reading whole)).ending = .error fault after := by
    intro fault after same
    rw [body_statements hooks wholeRead]
    exact statements_append_broken (wholeRan.trans same)
  -- The second part starts only where the first one has ended, in states that differ in places.
  unfold Eval.executeBoth
  cases ended with
  | left => exact absurd firstBody (room.ending _)
  | right => exact absurd (wholeBroken rfl) (wholeRoom.ending _)
  | broken faults machines =>
      exact executes_broken hooks faults machines firstBody (wholeBroken rfl) _
  | @done result wholeResult first second results machines =>
      have usable : Unsignalled result := by
        rintro value rfl
        exact calm_iff.mp calm value first ran
      have executed := execute_ok hooks firstBody
      rw [textResult_usable usable] at executed
      rw [Eval.bind_ok executed]
      have left : (Eval.execute setting (evaluate setting (depth + 1)) text scope before).machine =
          first := by
        rw [Course.machine, executed]
      rw [left] at otherRoom
      exact second_at hooks builtins otherRead wholeRead otherSimilar results
        (unsignalled_similar results usable) machines wholeRan otherRoom wholeRoom

end Second

/-- A text whose tokens end with a semicolon and close all braces that they open, and a text behind
it, both of them without errors, make up a text without errors.  If no statement of the first one
gives a failure or a returned value, and nothing is broken off for its depth, then to run one after
the other is to run both as one: with the same result or fault, output, scopes and step count, except
for the places in them. -/
theorem pieces_run_as_one {machine : Machine} (piece : IsPiece text) {parsed otherParsed : Parsed}
    (read : Parsed.ofText text = .ok parsed) (clean : parsed.errors = [])
    (otherRead : Parsed.ofText other = .ok otherParsed) (otherClean : otherParsed.errors = [])
    (calm : Eval.Calm setting (evaluate setting (depth - 1)) scope (machine.reading text)
      parsed.program.body)
    (room : setting.HasRoom depth text scope machine)
    (otherRoom : setting.HasRoom depth other scope
      (Eval.execute setting (evaluate setting depth) text scope machine).machine)
    (wholeRoom : setting.HasRoom depth (text ++ "\n" ++ other) scope machine) :
    (∃ whole, Parsed.ofText (text ++ "\n" ++ other) = .ok whole ∧ whole.errors = []) ∧
      Leeway.placesOnly.Courses
        (Eval.executeBoth setting (evaluate setting depth) text other scope machine)
        (Eval.execute setting (evaluate setting depth) (text ++ "\n" ++ other) scope machine) := by
  obtain ⟨wholeToken, bodies, otherBodies, wholeRead, similar, otherSimilar⟩ :=
    placesOnly_append piece read clean otherRead otherClean
  refine ⟨⟨_, wholeRead, rfl⟩, ?_⟩
  obtain ⟨token, body, program, _⟩ := Parsed.proper read clean
  obtain ⟨otherToken, others, otherProgram, _⟩ := Parsed.proper otherRead otherClean
  obtain ⟨_, _⟩ := parsed
  obtain ⟨_, _⟩ := otherParsed
  subst program otherProgram clean otherClean
  cases depth with
  | zero => exact absurd (body_ending hooks read) (room.ending _)
  | succ depth =>
      have ended := both_at hooks builtins read otherRead wholeRead similar otherSimilar calm room
        otherRoom wholeRoom
      exact ended.courses

end Series

/-- A function that is defined and called in the first text, and called in the second, which has no
value of its own. -/
theorem pieces_run_as_one_function :
    let setting : Setting := ⟨"<string>", false, Builtin.core, .none⟩
    let machine := (Machine.initial setting).opened
    let text := "let f = fn(x) \x7b\n  puts(x);\n  x\n\x7d;\nf(1);"
    let other := "let y =\n  f(2)"
    let whole := Eval.execute setting (evaluate setting 20) (text ++ "\n" ++ other) 0 machine
    Leeway.placesOnly.Courses
        (Eval.executeBoth setting (evaluate setting 20) text other 0 machine) whole ∧
      whole.shown = .ok (some ("INTEGER", "1")) := by
  intro setting machine text other whole
  have piece : IsPiece text := by
    refine ⟨⟨(Token.scan text).dropLast.dropLast, (Token.scan text).dropLast.getLast!,
      (Token.scan text).getLast!, ?_, ?_⟩, ?_⟩
    all_goals decide +kernel
  have calm : (match Parsed.ofText text with
      | .ok parsed => parsed.errors.isEmpty &&
          Eval.Calm setting (evaluate setting 19) 0 (machine.reading text) parsed.program.body
      | .error _ => false) = true := by decide +kernel
  have otherReads : (match Parsed.ofText other with
      | .ok parsed => parsed.errors.isEmpty
      | .error _ => false) = true := by decide +kernel
  cases read : Parsed.ofText text with
  | error reason => rw [read] at calm; cases calm
  | ok parsed =>
      cases otherRead : Parsed.ofText other with
      | error reason => rw [otherRead] at otherReads; cases otherReads
      | ok otherParsed =>
          rw [read] at calm
          rw [otherRead] at otherReads
          obtain ⟨clean, calm⟩ := Bool.and_eq_true_iff.mp calm
          have room : setting.HasRoom 20 text 0 machine := by decide +kernel
          have otherRoom : setting.HasRoom 20 other 0
              (Eval.execute setting (evaluate setting 20) text 0 machine).machine := by
            decide +kernel
          have wholeRoom : setting.HasRoom 20 (text ++ "\n" ++ other) 0 machine := by
            decide +kernel
          obtain ⟨_, courses⟩ := pieces_run_as_one (fun _ => rfl) (fun _ => .inl) piece read
            (List.isEmpty_iff.mp clean) otherRead (List.isEmpty_iff.mp otherReads)
            (of_decide_eq_true calm) room otherRoom wholeRoom
          exact ⟨courses, by decide +kernel⟩

end MonkeyLang
