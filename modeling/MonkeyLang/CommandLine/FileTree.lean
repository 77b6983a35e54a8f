import MonkeyLang.CommandLine.Files
import MonkeyLang.Path

namespace MonkeyLang.CommandLine

/-! Files kept in memory, found along their paths. -/

/-- Files by their absolute places, the directory from which paths are seen, and what a content is as
an extension. -/
structure FileTree where
  directory : String
  contents : List (List (List Char) × ByteArray)
  extension? : ByteArray → Option ExtensionFile

namespace FileTree

/-- The parts of an absolute path, outermost first. -/
def place (path : String) : List (List Char) :=
  ((Path.parts path.toList).foldl Path.enter []).reverse

/-- Files given by paths as seen from the directory. -/
def ofList (directory : String) (files : List (String × ByteArray))
    (extension? : ByteArray → Option ExtensionFile := fun _ => none) : FileTree where
  directory := directory
  contents := files.map fun (path, content) => (place (Path.absolute directory path), content)
  extension? := extension?

/-- A directory is the working directory, one that contains it, or one that contains a file. -/
def isDirectory (tree : FileTree) (parts : List (List Char)) : Bool :=
  parts.isPrefixOf (place tree.directory) ||
    tree.contents.any fun (file, _) => parts.isPrefixOf file && parts.length < file.length

def content? (tree : FileTree) (parts : List (List Char)) : Option ByteArray :=
  tree.contents.lookup parts

/-- Longest name of a file, in bytes. -/
def nameLimit : Nat := 255

/-- Longest path, in bytes. -/
def pathLimit : Nat := 4095

/-- Goes down from a place along the parts of a path.  Only a directory has anything below it, be it
itself. -/
def walk (tree : FileTree) (parts : List (List Char)) :
    List (List Char) → Except OpenError (List (List Char))
  | [] => .ok parts
  | part :: others =>
      if !tree.isDirectory parts then .error .notADirectory
      else if part == [] || part == ['.'] then tree.walk parts others
      else if part == ['.', '.'] then tree.walk parts.dropLast others
      else if nameLimit < (String.ofList part).utf8ByteSize then .error .nameTooLong
      else
        let next := parts ++ [part]
        if tree.isDirectory next || (tree.content? next).isSome then tree.walk next others
        else .error .missing

/-- The content of the file at a path. -/
def read (tree : FileTree) (path : String) : Except OpenError ByteArray :=
  if path.isEmpty then .error .missing
  else if pathLimit < path.utf8ByteSize then .error .nameTooLong
  else
    let start := if Path.isAbsolute path.toList then [] else place tree.directory
    match tree.walk start (Path.parts path.toList) with
    | .error error => .error error
    | .ok parts =>
        match tree.content? parts with
        | some content => .ok content
        | none => .error .isADirectory

/-- Whether an absolute path is that of a file. -/
def isFile (tree : FileTree) (path : String) : Bool :=
  (tree.content? (place path)).isSome

/-- The tree as a command sees it. -/
def files (tree : FileTree) : Files where
  directory := tree.directory
  read := tree.read
  isFile := tree.isFile
  extension? path := (tree.content? (place path)).bind tree.extension?

end FileTree

end MonkeyLang.CommandLine
