import MonkeyLang.Extension.Catalogue
import MonkeyLang.Text.Lines
import MonkeyLang.Text.Quoted

namespace MonkeyLang.CommandLine

/-! The files that a program and its extensions may be read from. -/

/-- Why a file could not be opened. -/
inductive OpenError where
  | missing | denied | notADirectory | isADirectory | nameTooLong
  | other (number : Nat) (reason : String)
deriving DecidableEq, Repr

namespace OpenError

def number : OpenError → Nat
  | missing => 2
  | denied => 13
  | notADirectory => 20
  | isADirectory => 21
  | nameTooLong => 36
  | other number _ => number

def reason : OpenError → String
  | missing => "No such file or directory"
  | denied => "Permission denied"
  | notADirectory => "Not a directory"
  | isADirectory => "Is a directory"
  | nameTooLong => "File name too long"
  | other _ reason => reason

def message (error : OpenError) (path : String) : String :=
  "[Errno " ++ toString error.number ++ "] " ++ error.reason ++ ": " ++ Text.quoted path

end OpenError

/-- Files as a command sees them: the working directory, the content of the file at a path, whether an
absolute path is that of a file, and what such a file holds as an extension. -/
structure Files where
  directory : String
  read : String → Except OpenError ByteArray
  isFile : String → Bool
  extension? : String → Option ExtensionFile

/-- The text that bytes stand for in UTF-8, its newlines unified. -/
def decodeText? (bytes : ByteArray) : Option String :=
  (String.fromUTF8? bytes).map fun text => String.ofList (Text.unifyNewlines text.toList)

end MonkeyLang.CommandLine
