import MonkeyLang.CommandLine.Dispatch

/-! The command: reads what it is told to read, and writes what the command line gives. -/

namespace MonkeyLang.CommandLine

def write (written : Written) : IO Unit := do
  IO.print written.output
  (← IO.getStdout).flush
  IO.eprint written.errors

def openError : IO.Error → OpenError
  | .noFileOrDirectory .. => .missing
  | .permissionDenied .. => .denied
  | .inappropriateType _ 21 _ => .isADirectory
  | .inappropriateType .. => .notADirectory
  | error => .other 5 (toString error)

/-- The paths that arguments name. -/
def paths (arguments : List String) : List String :=
  match Options.ofArguments arguments with
  | .ok options => options.extensions ++ if options.source then [] else options.program.toList
  | .error _ => []

/-- The files of the host, as far as they are asked for. -/
def hostFiles (paths : List String) : IO Files := do
  let directory := (← IO.currentDir).toString
  let contents ← paths.mapM fun (path : String) => do
    let content ← (IO.FS.readBinFile path).toBaseIO
    return (path, content.mapError openError)
  return {
    directory := directory
    read := fun path => (contents.lookup path).getD (.error .missing)
    isFile := fun place => contents.any fun (path, content) =>
      Path.absolute directory path == place && content.toOption.isSome
    extension? := fun _ => none }

/-- The next line of input, and the lines that were read with it. -/
def nextLine : List String → IO (Option (String × List String))
  | line :: lines => return some (line, lines)
  | [] => do
      let text ← (← IO.getStdin).getLine
      match Dialogue.inputLines (String.ofList (Text.unifyNewlines text.toList)) with
      | line :: lines => return some (line, lines)
      | [] => return none

def finish : Ending → IO UInt32
  | .code code => return code.toUInt32
  | .escaped fault => do
      IO.eprintln fault.message
      return 1
  | .undecodable => do
      IO.eprintln "the program is no UTF-8 text"
      return 1
  | .refused error => do
      IO.eprintln error.message
      return 1

partial def converse (dialogue : Dialogue) (pending : List String) : IO UInt32 := do
  write ⟨dialogue.prompt, ""⟩
  match ← nextLine pending with
  | none => do
      write (.line "")
      return 0
  | some (line, pending) => do
      let answer := dialogue.enter line
      write answer.written
      match answer.next with
      | .ok next => converse next pending
      | .error fault => finish (.escaped fault)

def command (arguments : List String) : IO UInt32 := do
  match course (← hostFiles (paths arguments)) arguments with
  | .finished result => do
      write result.written
      finish result.ending
  | .dialogue written dialogue => do
      write written
      converse dialogue []

end MonkeyLang.CommandLine

def main (arguments : List String) : IO UInt32 :=
  MonkeyLang.CommandLine.command arguments
