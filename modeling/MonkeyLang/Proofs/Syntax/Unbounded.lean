import MonkeyLang.Syntax.Parse

namespace MonkeyLang.Parse

/-! # Reading without bounds

The forms of the grammar once more, as code that looks at tokens, moves on and asks for other forms.
Its loops ask for themselves: no number of turns and no number of tokens left bounds them, and the
tokens come from a stream that never ends.  A run of such code is a finite derivation.  Code that reads
on for ever has none.
-/

/-- What code may ask for: its loops, and expressions. -/
inductive Form : Type → Type where
  | statements (closes : Token.Kind → Bool) (found : Array Node) : Form (Array Node)
  | moreExpressions (found : Array Node) : Form (Array Node)
  | pairs (found : Array (Node × Node)) : Form (Array (Node × Node))
  | moreParameters (found : Array Identifier) : Form (Array Identifier)
  | extensions (power : Nat) (left : Node) : Form Node
  | expression (power : Nat) : Form Node

inductive Code (α : Type) : Type 1 where
  | done (result : α)
  | stop (reason : Stop)
  | look (next : Token → Code α)
  | lookAhead (next : Token → Code α)
  | move (next : Code α)
  | call {β : Type} (form : Form β) (next : β → Code α)
  /-- Asks for a statement, which may be dropped. -/
  | attempt (next : Option Node → Code α)

namespace Code

def bind {α β : Type} : Code α → (α → Code β) → Code β
  | .done result, next => next result
  | .stop reason, _ => .stop reason
  | .look onward, next => .look fun token => (onward token).bind next
  | .lookAhead onward, next => .lookAhead fun token => (onward token).bind next
  | .move onward, next => .move (onward.bind next)
  | .call form onward, next => .call form fun result => (onward result).bind next
  | .attempt onward, next => .attempt fun result => (onward result).bind next

instance : Monad Code where
  pure := .done
  bind := bind

def refuse {α : Type} (error : SyntaxError) : Code α := .stop (.refused error)

def current : Code Token := .look .done

def upcoming : Code Token := .lookAhead .done

def advance : Code Unit := .move (.done ())

def ask {α : Type} (form : Form α) : Code α := .call form .done

def statement : Code (Option Node) := .attempt .done

def expression (power : Nat) : Code Node := ask (.expression power)

def expect (wanted : Token.Kind) : Code Unit := do
  let found := (← upcoming).kind
  if found = wanted then advance else refuse (.unexpected wanted found)

def skipSemicolon : Code Unit := do
  if (← upcoming).kind = .semicolon then advance

def letStatement (token : Token) : Code Node := do
  expect .identifier
  let name ← current
  expect .assign
  advance
  let value ← expression loosest
  skipSemicolon
  return .letStatement token ⟨name, name.literal⟩ value

def returnStatement (token : Token) : Code Node := do
  advance
  let value ← expression loosest
  skipSemicolon
  return .returnStatement token value

def expressionStatement (token : Token) : Code Node := do
  let value ← expression loosest
  skipSemicolon
  return .expressionStatement token value

def statementForm : Code Node := do
  let token ← current
  match token.kind with
  | .letKeyword => letStatement token
  | .returnKeyword => returnStatement token
  | _ => expressionStatement token

def statements (closes : Token.Kind → Bool) (found : Array Node) : Code (Array Node) := do
  let kind := (← current).kind
  if closes kind || kind == .endOfInput then return found
  else
    let next ← statement
    advance
    ask (.statements closes (match next with | some node => found.push node | none => found))

def block : Code (Block Node) := do
  let token ← current
  advance
  let body ← ask (.statements (· == .rightBrace) #[])
  return ⟨token, body.toList⟩

def moreExpressions (found : Array Node) : Code (Array Node) := do
  if (← upcoming).kind = .comma then
    advance
    advance
    let item ← expression loosest
    ask (.moreExpressions (found.push item))
  else return found

def expressions (closing : Token.Kind) : Code (List Node) := do
  if (← upcoming).kind = closing then
    advance
    return []
  else
    advance
    let first ← expression loosest
    let items ← ask (.moreExpressions #[first])
    expect closing
    return items.toList

def pairs (found : Array (Node × Node)) : Code (Array (Node × Node)) := do
  if (← upcoming).kind = .rightBrace then return found
  else
    advance
    let key ← expression loosest
    expect .colon
    advance
    let value ← expression loosest
    if (← upcoming).kind ≠ .rightBrace then expect .comma
    ask (.pairs (found.push (key, value)))

def hash (token : Token) : Code Node := do
  let found ← ask (.pairs #[])
  expect .rightBrace
  return .hash token found.toList

def parameter : Code Identifier := do
  expect .identifier
  let token ← current
  return ⟨token, token.literal⟩

def moreParameters (found : Array Identifier) : Code (Array Identifier) := do
  if (← upcoming).kind = .comma then
    advance
    let next ← parameter
    ask (.moreParameters (found.push next))
  else return found

def parameters : Code (List Identifier) := do
  if (← upcoming).kind = .rightParen then
    advance
    return []
  else
    let first ← parameter
    let names ← ask (.moreParameters #[first])
    expect .rightParen
    return names.toList

def integer (token : Token) : Code Node :=
  let digits := token.literal.toList
  if digits.isEmpty || !digits.all Token.isDigit then refuse (.notAnInteger token.literal)
  else if digitLimit < digits.length then .stop (.broken (.tooManyDigits digits.length))
  else
    let value : Nat := digits.foldl (fun value digit => 10 * value + (digit.toNat - 48)) 0
    if greatestInteger < value then refuse (.notAnInteger token.literal)
    else return .integer token value

def grouped : Code Node := do
  advance
  let inner ← expression loosest
  expect .rightParen
  return inner

def conditional (token : Token) : Code Node := do
  expect .leftParen
  advance
  let condition ← expression loosest
  expect .rightParen
  expect .leftBrace
  let consequence ← block
  if (← upcoming).kind = .elseKeyword then
    advance
    expect .leftBrace
    let alternative ← block
    return .conditional token condition consequence (some alternative)
  else return .conditional token condition consequence none

def function (token : Token) : Code Node := do
  expect .leftParen
  let names ← parameters
  expect .leftBrace
  let body ← block
  return .function token names body

def unary (token : Token) : Code Node := do
  advance
  let operand ← expression unaryPower
  return .unary token token.literal operand

def operand : Code Node := do
  let token ← current
  match token.kind with
  | .identifier => return .identifier ⟨token, token.literal⟩
  | .integer => integer token
  | .string => return .string token token.literal
  | .trueKeyword => return .boolean token true
  | .falseKeyword => return .boolean token false
  | .bang | .minus => unary token
  | .leftParen => grouped
  | .ifKeyword => conditional token
  | .fnKeyword => function token
  | .leftBracket => return .array token (← expressions .rightBracket)
  | .leftBrace => hash token
  | kind => refuse (.noExpression kind)

def extension (left : Node) : Code Node := do
  let token ← current
  match token.kind with
  | .leftParen => return .call token left (← expressions .rightParen)
  | .leftBracket => do
      advance
      let position ← expression loosest
      expect .rightBracket
      return .index token left position
  | kind => do
      advance
      let right ← expression (bindingPower kind)
      return .binary token token.literal left right

def extensions (power : Nat) (left : Node) : Code Node := do
  if power < bindingPower (← upcoming).kind then
    advance
    let longer ← extension left
    ask (.extensions power longer)
  else return left

def program : Code Node := do
  let token ← current
  let body ← ask (.statements (fun _ => false) #[])
  return .program ⟨token, body.toList⟩

end Code

namespace Form

def code {α : Type} : Form α → Code α
  | statements closes found => Code.statements closes found
  | moreExpressions found => Code.moreExpressions found
  | pairs found => Code.pairs found
  | moreParameters found => Code.moreParameters found
  | extensions power left => Code.extensions power left
  | expression power => do
      let first ← Code.operand
      Code.ask (extensions power first)

/-- The room that is left inside a form.  Expressions alone take any. -/
def room {α : Type} : Form α → Nat → Option Nat
  | expression _, 0 => none
  | expression _, depth + 1 => some depth
  | _, depth => some depth

end Form

/-! ## Runs -/

/-- A place in a stream, with the errors found so far. -/
structure Spot where
  place : Nat
  errors : Array SyntaxError

namespace Spot

def start : Spot := ⟨0, #[]⟩

def advance (spot : Spot) : Spot := { spot with place := spot.place + 1 }

def report (spot : Spot) (error : SyntaxError) : Spot :=
  { spot with errors := spot.errors.push error }

end Spot

/-- A run of code on a stream with room for expressions to nest: the places at which it asks for a
statement, one by one, and how it ends. -/
inductive Runs (stream : Nat → Token) :
    {α : Type} → Nat → Code α → Spot → List Nat → EStateM.Result Stop Spot α → Prop where
  | done {α : Type} {depth : Nat} (result : α) (spot : Spot) :
      Runs stream depth (.done result) spot [] (.ok result spot)
  | stop {α : Type} {depth : Nat} (reason : Stop) (spot : Spot) :
      Runs stream depth (.stop reason : Code α) spot [] (.error reason spot)
  | look {α : Type} {depth : Nat} {next : Token → Code α} {spot : Spot} {starts : List Nat}
      {ending : EStateM.Result Stop Spot α}
      (onward : Runs stream depth (next (stream spot.place)) spot starts ending) :
      Runs stream depth (.look next) spot starts ending
  | lookAhead {α : Type} {depth : Nat} {next : Token → Code α} {spot : Spot} {starts : List Nat}
      {ending : EStateM.Result Stop Spot α}
      (onward : Runs stream depth (next (stream (spot.place + 1))) spot starts ending) :
      Runs stream depth (.lookAhead next) spot starts ending
  | move {α : Type} {depth : Nat} {next : Code α} {spot : Spot} {starts : List Nat}
      {ending : EStateM.Result Stop Spot α} (onward : Runs stream depth next spot.advance starts ending) :
      Runs stream depth (.move next) spot starts ending
  | called {α β : Type} {depth inner : Nat} {form : Form β} {next : β → Code α} {spot between : Spot}
      {starts others : List Nat} {result : β} {ending : EStateM.Result Stop Spot α}
      (room : form.room depth = some inner)
      (first : Runs stream inner form.code spot starts (.ok result between))
      (onward : Runs stream depth (next result) between others ending) :
      Runs stream depth (.call form next) spot (starts ++ others) ending
  | stopped {α β : Type} {depth inner : Nat} {form : Form β} {next : β → Code α} {spot after : Spot}
      {starts : List Nat} {reason : Stop} (room : form.room depth = some inner)
      (first : Runs stream inner form.code spot starts (.error reason after)) :
      Runs stream depth (.call form next) spot starts (.error reason after)
  | full {α β : Type} {depth : Nat} {form : Form β} {next : β → Code α} {spot : Spot}
      (room : form.room depth = none) :
      Runs stream depth (.call form next) spot [] (.error (.broken .tooDeep) spot)
  | kept {α : Type} {depth : Nat} {next : Option Node → Code α} {spot between : Spot}
      {starts others : List Nat} {node : Node} {ending : EStateM.Result Stop Spot α}
      (first : Runs stream depth Code.statementForm spot starts (.ok node between))
      (onward : Runs stream depth (next (some node)) between others ending) :
      Runs stream depth (.attempt next) spot (spot.place :: (starts ++ others)) ending
  | dropped {α : Type} {depth : Nat} {next : Option Node → Code α} {spot between : Spot}
      {starts others : List Nat} {error : SyntaxError} {ending : EStateM.Result Stop Spot α}
      (first : Runs stream depth Code.statementForm spot starts (.error (.refused error) between))
      (onward : Runs stream depth (next none) (between.report error) others ending) :
      Runs stream depth (.attempt next) spot (spot.place :: (starts ++ others)) ending
  | broken {α : Type} {depth : Nat} {next : Option Node → Code α} {spot after : Spot}
      {starts : List Nat} {reason : Breakoff}
      (first : Runs stream depth Code.statementForm spot starts (.error (.broken reason) after)) :
      Runs stream depth (.attempt next) spot (spot.place :: starts) (.error (.broken reason) after)

namespace Runs

variable {stream : Nat → Token} {α β : Type} {depth : Nat} {code : Code α} {spot between after : Spot}
  {starts others : List Nat} {ending last : EStateM.Result Stop Spot α}

/-- Code has one run at most. -/
theorem unique (run : Runs stream depth code spot starts ending)
    (other : Runs stream depth code spot others last) : starts = others ∧ ending = last := by
  induction run generalizing others with
  | done | stop =>
      cases other
      exact ⟨rfl, rfl⟩
  | look _ ih | lookAhead _ ih | move _ ih =>
      cases other with | _ onward
      exact ih onward
  | called room first onward firstIH ih =>
      cases other with
      | called otherRoom otherFirst otherOnward =>
          cases room.symm.trans otherRoom
          obtain ⟨rfl, same⟩ := firstIH otherFirst
          cases same
          obtain ⟨rfl, rfl⟩ := ih otherOnward
          exact ⟨rfl, rfl⟩
      | stopped otherRoom otherFirst =>
          cases room.symm.trans otherRoom
          cases (firstIH otherFirst).2
      | full otherRoom => cases room.symm.trans otherRoom
  | stopped room first firstIH =>
      cases other with
      | called otherRoom otherFirst =>
          cases room.symm.trans otherRoom
          cases (firstIH otherFirst).2
      | stopped otherRoom otherFirst =>
          cases room.symm.trans otherRoom
          obtain ⟨rfl, same⟩ := firstIH otherFirst
          cases same
          exact ⟨rfl, rfl⟩
      | full otherRoom => cases room.symm.trans otherRoom
  | full room =>
      cases other with
      | called otherRoom | stopped otherRoom => cases room.symm.trans otherRoom
      | full => exact ⟨rfl, rfl⟩
  | kept first onward firstIH ih =>
      cases other with
      | kept otherFirst otherOnward =>
          obtain ⟨rfl, same⟩ := firstIH otherFirst
          cases same
          obtain ⟨rfl, rfl⟩ := ih otherOnward
          exact ⟨rfl, rfl⟩
      | dropped otherFirst | broken otherFirst => cases (firstIH otherFirst).2
  | dropped first onward firstIH ih =>
      cases other with
      | dropped otherFirst otherOnward =>
          obtain ⟨rfl, same⟩ := firstIH otherFirst
          cases same
          obtain ⟨rfl, rfl⟩ := ih otherOnward
          exact ⟨rfl, rfl⟩
      | kept otherFirst | broken otherFirst => cases (firstIH otherFirst).2
  | broken first firstIH =>
      cases other with
      | broken otherFirst =>
          obtain ⟨rfl, same⟩ := firstIH otherFirst
          cases same
          exact ⟨rfl, rfl⟩
      | kept otherFirst | dropped otherFirst => cases (firstIH otherFirst).2

theorem bind_ok {next : α → Code β} {result : α} {ending : EStateM.Result Stop Spot β}
    (run : Runs stream depth code spot starts (.ok result between))
    (onward : Runs stream depth (next result) between others ending) :
    Runs stream depth (code >>= next) spot (starts ++ others) ending := by
  change Runs stream depth (code.bind next) spot _ ending
  generalize ended : EStateM.Result.ok result between = first at run
  induction run with
  | done result spot =>
      cases ended
      exact onward
  | look _ ih => exact .look (ih onward ended)
  | lookAhead _ ih => exact .lookAhead (ih onward ended)
  | move _ ih => exact .move (ih onward ended)
  | called room first _ _ ih =>
      rw [List.append_assoc]
      exact .called room first (ih onward ended)
  | kept first _ _ ih =>
      rw [List.cons_append, List.append_assoc]
      exact .kept first (ih onward ended)
  | dropped first _ _ ih =>
      rw [List.cons_append, List.append_assoc]
      exact .dropped first (ih onward ended)
  | stop | stopped | full | broken => cases ended

theorem bind_error {next : α → Code β} {reason : Stop}
    (run : Runs stream depth code spot starts (.error reason after)) :
    Runs stream depth (code >>= next) spot starts (.error reason after) := by
  change Runs stream depth (code.bind next) spot _ _
  generalize ended : EStateM.Result.error reason after = first at run
  induction run with
  | stop reason spot =>
      cases ended
      exact .stop _ _
  | look _ ih => exact .look (ih ended)
  | lookAhead _ ih => exact .lookAhead (ih ended)
  | move _ ih => exact .move (ih ended)
  | called room first _ _ ih => exact .called room first (ih ended)
  | stopped room first =>
      cases ended
      exact .stopped room first
  | full room =>
      cases ended
      exact .full room
  | kept first _ _ ih => exact .kept first (ih ended)
  | dropped first _ _ ih => exact .dropped first (ih ended)
  | broken first =>
      cases ended
      exact .broken first
  | done => cases ended

theorem ask {inner : Nat} {form : Form α} (room : form.room depth = some inner)
    (run : Runs stream inner form.code spot starts ending) :
    Runs stream depth (Code.ask form) spot starts ending := by
  cases ending with
  | error reason after => exact .stopped room run
  | ok result after =>
      have whole : Runs stream depth (Code.ask form) spot (starts ++ []) (.ok result after) :=
        .called room run (.done result after)
      rwa [List.append_nil] at whole

theorem expected {wanted : Token.Kind} (isWanted : (stream (spot.place + 1)).kind = wanted) :
    Runs stream depth (Code.expect wanted) spot [] (.ok () spot.advance) := by
  refine .lookAhead ?_
  rw [Code.bind, if_pos isWanted]
  exact .move (.done () _)

theorem unexpected {wanted : Token.Kind} (isOther : (stream (spot.place + 1)).kind ≠ wanted) :
    Runs stream depth (Code.expect wanted) spot []
      (.error (.refused (.unexpected wanted (stream (spot.place + 1)).kind)) spot) := by
  refine .lookAhead ?_
  rw [Code.bind, if_neg isOther]
  exact .stop _ _

theorem semicolon (isSemicolon : (stream (spot.place + 1)).kind = .semicolon) :
    Runs stream depth Code.skipSemicolon spot [] (.ok () spot.advance) := by
  refine .lookAhead ?_
  rw [Code.bind, if_pos isSemicolon]
  exact .move (.done () _)

theorem noSemicolon (isOther : (stream (spot.place + 1)).kind ≠ .semicolon) :
    Runs stream depth Code.skipSemicolon spot [] (.ok () spot) := by
  refine .lookAhead ?_
  rw [Code.bind, if_neg isOther]
  exact .done () spot

section Statements

variable {closes : Token.Kind → Bool} {found : Array Node}
  {ending : EStateM.Result Stop Spot (Array Node)}

theorem ended
    (stops : (closes (stream spot.place).kind || (stream spot.place).kind == .endOfInput) = true) :
    Runs stream depth (Code.ask (.statements closes found)) spot [] (.ok found spot) := by
  refine .ask rfl (.look ?_)
  rw [Code.bind, if_pos stops]
  exact .done found spot

variable
  (goesOn : (closes (stream spot.place).kind || (stream spot.place).kind == .endOfInput) = false)

include goesOn

theorem turn
    (attempt : Runs stream depth (Code.statement >>= fun next => Code.advance >>= fun _ =>
      Code.ask (.statements closes (match next with | some node => found.push node | none => found)))
      spot starts ending) :
    Runs stream depth (Code.ask (.statements closes found)) spot starts ending := by
  refine .ask rfl (.look ?_)
  rw [Code.bind, if_neg (ne_true_of_eq_false goesOn)]
  exact attempt

theorem next_kept {node : Node}
    (first : Runs stream depth Code.statementForm spot starts (.ok node between))
    (onward : Runs stream depth (Code.ask (.statements closes (found.push node))) between.advance
      others ending) :
    Runs stream depth (Code.ask (.statements closes found)) spot (spot.place :: (starts ++ others))
      ending :=
  turn goesOn (.kept first (.move onward))

theorem next_dropped {error : SyntaxError}
    (first : Runs stream depth Code.statementForm spot starts (.error (.refused error) between))
    (onward : Runs stream depth (Code.ask (.statements closes found)) (between.report error).advance
      others ending) :
    Runs stream depth (Code.ask (.statements closes found)) spot (spot.place :: (starts ++ others))
      ending :=
  turn goesOn (.dropped first (.move onward))

theorem next_broken {reason : Breakoff}
    (first : Runs stream depth Code.statementForm spot starts (.error (.broken reason) after)) :
    Runs stream depth (Code.ask (.statements closes found)) spot (spot.place :: starts)
      (.error (.broken reason) after) :=
  turn goesOn (.broken first)

end Statements

end Runs

end MonkeyLang.Parse
