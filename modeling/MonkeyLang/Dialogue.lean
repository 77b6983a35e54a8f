import MonkeyLang.Report

namespace MonkeyLang

/-! The dialogue: texts entered line by line.

A line that parses by itself and does not end with an opening brace is run at once.  Any other line
opens a group, which runs until a blank line and is then run as one text.
-/

/-- Whether a text does not parse.  One that is too deep to be parsed does not count. -/
def Parsed.isIncomplete (text : String) : Except Fault Bool :=
  match Parsed.ofText text with
  | .ok parsed => .ok !parsed.errors.isEmpty
  | .error .tooDeep => .ok false
  | .error (.tooManyDigits count) => .error (.digits count)

/-- What is written to the two outputs. -/
structure Written where
  output : String
  errors : String
deriving DecidableEq, Repr

namespace Written

def nothing : Written := ⟨"", ""⟩

def append (first second : Written) : Written :=
  ⟨first.output ++ second.output, first.errors ++ second.errors⟩

instance : Append Written := ⟨append⟩

def line (text : String) : Written := ⟨text ++ "\n", ""⟩

def errorLine (text : String) : Written := ⟨"", text ++ "\n"⟩

/-- The lines that a machine printed. -/
def printed (machine : Machine) : Written :=
  ⟨String.join (machine.printed.toList.map (·.text ++ "\n")), ""⟩

def syntaxErrors (errors : List SyntaxError) : Written :=
  ⟨"", String.join (errors.map fun error => "ParseError: " ++ error.message ++ "\n")⟩

/-- The traceback of a failure, with its document if asked for. -/
def traceback (setting : Setting) (machine : Machine) (json : Bool) (kind : FailureClass)
    (failure : Failure) : Written :=
  let calls := if failure.calls.isEmpty then machine.openCalls else failure.calls
  errorLine (Traceback.text setting.verbose kind failure.message calls) ++
    if json then errorLine (Traceback.json kind failure calls) else nothing

end Written

structure Dialogue where
  setting : Setting
  machine : Machine
  scope : ScopeId
  /-- The lines of the open group. -/
  group : List String

namespace Dialogue

def banner : String := "Monkey REPL. Enter statements, blank line to run buffer."

/-- A dialogue with a top-level frame that stays open. -/
def start (setting : Setting) : Dialogue :=
  let session := Session.start setting true
  ⟨setting, session.machine, session.scope, []⟩

def prompt (dialogue : Dialogue) : String :=
  if dialogue.group.isEmpty then ">> " else ".. "

/-- Closes all frames but the outermost. -/
def keepOutermost (machine : Machine) : Machine :=
  { machine with stack := machine.stack.getLast?.toList }

/-- How deep a result may be that is shown.  Its text is made when the run is over, in less room than
the run had. -/
def shownLimit : Nat := 330

def show? : Option Value → Except Fault Written
  | none => .ok .nothing
  | some value => if value.depth ≤ shownLimit then .ok (.line value.inspect) else .error .depth

/-- The answer to a line: what is written, and how the dialogue goes on unless a fault ends it. -/
structure Answer where
  written : Written
  next : Except Fault Dialogue

/-- Runs a text with the group closed. -/
def run (dialogue : Dialogue) (text : String) : Answer :=
  let machine := { dialogue.machine with printed := #[], recorded := #[] }
  match dialogue.setting.execute text dialogue.scope machine with
  | .ok result after =>
      match show? result with
      | .ok shown =>
          ⟨.printed after ++ shown, .ok { dialogue with machine := keepOutermost after, group := [] }⟩
      | .error fault => ⟨.printed after, .error fault⟩
  | .error (.unparsable _ errors) after =>
      ⟨.printed after ++ .syntaxErrors errors,
        .ok { dialogue with machine := keepOutermost after, group := [] }⟩
  | .error (.runtime failure) after =>
      ⟨.printed after ++ .traceback dialogue.setting after false .host failure,
        .ok { dialogue with machine := keepOutermost after, group := [] }⟩
  | .error fault after => ⟨.printed after, .error fault⟩

/-- Takes one line, without its newline. -/
def enter (dialogue : Dialogue) (line : String) : Answer :=
  let content := Text.trimmed line.toList
  let grouped : Dialogue := { dialogue with group := dialogue.group ++ [line] }
  if content.isEmpty then
    if dialogue.group.isEmpty then ⟨.nothing, .ok dialogue⟩
    else dialogue.run ("\n".intercalate dialogue.group)
  else if dialogue.group.isEmpty && content.getLast? != some '{' then
    match Parsed.isIncomplete line with
    | .error fault => ⟨.nothing, .error fault⟩
    | .ok true => ⟨.nothing, .ok grouped⟩
    | .ok false => dialogue.run line
  else ⟨.nothing, .ok grouped⟩

/-- The lines of an input; a last one without newline counts if it is not empty. -/
def inputLines (input : String) : List String :=
  let pieces := Text.pieces (· == '\n') input.toList
  (if pieces.getLast? == some [] then pieces.dropLast else pieces).map String.ofList

/-- The whole dialogue over some lines: what is written, with a prompt before every line and before
the end of the input, and the fault that ended it early, if one did. -/
def converse : Dialogue → List String → Written × Option Fault
  | dialogue, [] => (⟨dialogue.prompt ++ "\n", ""⟩, none)
  | dialogue, line :: lines =>
      let answer := dialogue.enter line
      let written := ⟨dialogue.prompt, ""⟩ ++ answer.written
      match answer.next with
      | .error fault => (written, some fault)
      | .ok next =>
          let (rest, fault) := next.converse lines
          (written ++ rest, fault)

end Dialogue

end MonkeyLang
