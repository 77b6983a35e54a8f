import MonkeyLang.CommandLine.Files
import MonkeyLang.CommandLine.Options
import MonkeyLang.Dialogue
import MonkeyLang.Extension.Catalogue

namespace MonkeyLang.CommandLine

/-! What the command line does with its arguments. -/

/-- How a command ends. -/
inductive Ending where
  | code (code : Nat)
  /-- A fault that nothing catches. -/
  | escaped (fault : Fault)
  /-- A program file that is no UTF-8. -/
  | undecodable
  /-- An extension that is refused when the dialogue has begun. -/
  | refused (error : ExtensionError)

structure Result where
  written : Written
  ending : Ending

namespace Result

def output (result : Result) : String := result.written.output

def errors (result : Result) : String := result.written.errors

/-- Ends with code 1 and one line of error output. -/
def complaint (text : String) : Result := ⟨.errorLine text, .code 1⟩

def extensionComplaint (error : ExtensionError) : Result :=
  complaint ("ExtensionError: " ++ error.message)

end Result

/-- A command is finished, or it is a dialogue that waits for lines. -/
inductive Course where
  | finished (result : Result)
  | dialogue (written : Written) (dialogue : Dialogue)

/-- Runs the text of a program. -/
def runProgram (setting : Setting) (json : Bool) (text : String) : Result :=
  match setting.run text (Machine.initial setting) with
  | .ok (some (.failed failure)) after =>
      ⟨.printed after ++ .traceback setting after json .language failure, .code 1⟩
  | .ok _ after => ⟨.printed after, .code 0⟩
  | .error (.unparsable _ errors) after => ⟨.printed after ++ .syntaxErrors errors, .code 1⟩
  | .error (.runtime failure) after =>
      ⟨.printed after ++ .traceback setting after json .host failure, .code 1⟩
  | .error fault after => ⟨.printed after, .escaped fault⟩

/-- Runs a text that comes from the named file. -/
def runText (services : Services) (directory file : String) (options : Options) (text : String) :
    Result :=
  match Setting.ofServices services directory file options.verbose with
  | .error error => .extensionComplaint error
  | .ok setting => runProgram setting options.json text

/-- Runs the program in a file. -/
def runFile (services : Services) (files : Files) (options : Options) (path : String) : Result :=
  if path.toList.contains (Char.ofNat 0) then
    ⟨.nothing, .escaped (.foreign .value "embedded null byte")⟩
  else
    match files.read path with
    | .error error => .complaint ("Failed to read " ++ path ++ ": " ++ error.message path)
    | .ok bytes =>
        match decodeText? bytes with
        | none => ⟨.nothing, .undecodable⟩
        | some text => runText services files.directory path options text

/-- Begins a dialogue. -/
def beginDialogue (services : Services) (files : Files) (options : Options) : Course :=
  match Setting.ofServices services files.directory Setting.unnamedFile options.verbose with
  | .error error => .finished ⟨.line Dialogue.banner, .refused error⟩
  | .ok setting => .dialogue (.line Dialogue.banner) (.start setting)

/-- What the options ask for. -/
def dispatch (files : Files) (options : Options) : Course :=
  match Services.load files.isFile files.directory options.extensions files.extension? with
  | .error error => .finished (.extensionComplaint error)
  | .ok services =>
      match options.program, options.source with
      | none, true => .finished (.complaint "-source requires a program string")
      | none, false => beginDialogue services files options
      | some text, true =>
          .finished (runText services files.directory Setting.unnamedFile options text)
      | some path, false => .finished (runFile services files options path)

/-- The course of a command. -/
def course (files : Files) (arguments : List String) : Course :=
  match Options.ofArguments arguments with
  | .ok options => dispatch files options
  | .error .help => .finished ⟨⟨help, ""⟩, .code 0⟩
  | .error (.usage error) =>
      .finished ⟨⟨"", usage ++ programName ++ ": error: " ++ error.message ++ "\n"⟩, .code 2⟩

/-- A whole command, with all of its input at hand. -/
def run (files : Files) (arguments : List String) (input : String) : Result :=
  match course files arguments with
  | .finished result => result
  | .dialogue written dialogue =>
      let input := String.ofList (Text.unifyNewlines input.toList)
      let (rest, fault) := dialogue.converse (Dialogue.inputLines input)
      ⟨written ++ rest, match fault with
        | some fault => .escaped fault
        | none => .code 0⟩

end MonkeyLang.CommandLine
