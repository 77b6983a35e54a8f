namespace MonkeyLang.Path

/-! Absolute paths in normal form.

Empty parts and `.` vanish and `..` takes the part before it away, none at the root.  Exactly two
slashes in front are kept as they are; any other number of them is one.
-/

def separator : Char := '/'

/-- The parts between the slashes, empty ones included. -/
def parts : List Char → List (List Char)
  | [] => [[]]
  | character :: rest =>
      if character == separator then [] :: parts rest
      else
        match parts rest with
        | [] => [[character]]
        | part :: others => (character :: part) :: others

/-- Adds one part to the reversed list of parts before it. -/
def enter (before : List (List Char)) (part : List Char) : List (List Char) :=
  if part == [] || part == ['.'] then before
  else if part == ['.', '.'] then before.tail
  else part :: before

def spell : List (List Char) → List Char
  | [] => []
  | [part] => part
  | part :: others => part ++ separator :: spell others

def leadingSlashes (path : List Char) : List Char :=
  match path with
  | '/' :: '/' :: '/' :: _ => ['/']
  | '/' :: '/' :: _ => ['/', '/']
  | _ => ['/']

/-- The normal form of a path that starts with a slash. -/
def normal (path : List Char) : List Char :=
  leadingSlashes path ++ spell ((parts path).foldl enter []).reverse

def isAbsolute (path : List Char) : Bool :=
  path.head? == some separator

/-- The normal form of a path as seen from a directory. -/
def absoluteChars (directory path : List Char) : List Char :=
  if isAbsolute path then normal path
  else normal (directory ++ separator :: path)

def absolute (directory path : String) : String :=
  String.ofList (absoluteChars directory.toList path.toList)

end MonkeyLang.Path
