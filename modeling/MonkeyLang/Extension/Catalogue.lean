import MonkeyLang.Arithmetic
import MonkeyLang.Builtin.Text
import MonkeyLang.Extension.Registry

namespace MonkeyLang

/-! The extensions that can be loaded: those with a name of their own, written with an at sign, which
are the string builtins and small ones that trace, double, fail or are refused, and those in files. -/

/-- What an extension file holds. -/
inductive ExtensionFile where
  /-- Nothing that could be called to register. -/
  | silent
  /-- An extension with its name, the interface version it wants, and what it registers. -/
  | extension (name : String) (api : Int) (registrations : List Registration)

namespace ExtensionFile

def strings : ExtensionFile :=
  .extension "strings" hostApi
    (.metadata ⟨"strings", "0.1.0", hostApi⟩ :: Builtin.strings.map .builtin)

def identity (name : String) : Builtin where
  name := name
  arity := ⟨1, some 1⟩
  run := fun arguments => .give (some (arguments.headD .null))

/-- Doubles an integer. -/
def double : Builtin where
  name := "twice"
  arity := ⟨1, some 1⟩
  run
    | .integer _ value :: _ => .giveNew (.integer · (wrap (2 * value)))
    | _ => .raise (.foreign .type "twice wants INTEGER")

/-- Applies its argument, and gives `null` where the application is broken off. -/
def attempt : Builtin where
  name := "attempt"
  arity := ⟨1, some 1⟩
  run := fun arguments =>
    .apply (arguments.headD .null) [] anonymous none (fun _ => true) fun
      | .ok result => .give result
      | .error _ => .give (some .null)

def traceOpening (_ : Circumstance) : Notice → Reaction
  | .beforeCall name arguments _ _ => .print ("> " ++ name ++ "/" ++ toString arguments.length)
  | _ => .ignore

def traceClosing (_ : Circumstance) : Notice → Reaction
  | .afterCall name result _ _ =>
      .print ("< " ++ name ++ " = " ++ (result.map (·.inspect)).getD "null")
  | _ => .ignore

/-- Fails at every statement inside a call. -/
def failInside (circumstance : Circumstance) (_ : Notice) : Reaction :=
  if 1 < circumstance.frames then .raise (.foreign .value "inside") else .ignore

def ofName? (name : String) : Option ExtensionFile :=
  match name with
  | "@strings" => some strings
  | "@empty" | "@notcallable" => some .silent
  | "@future" => some (.extension "future" 99 [])
  | "@meta" => some (.extension "metaext" hostApi [.metadata ⟨"meta", "0.0.0", 2⟩])
  | "@override" => some (.extension "override" hostApi [.builtin (identity "len")])
  | "@upper" => some (.extension "upper" hostApi [.builtin (identity "upper")])
  | "@twice" =>
      some (.extension "twicer" hostApi [.metadata ⟨"twicer", "1.2.3", hostApi⟩, .builtin double])
  | "@tracer" =>
      some (.extension "tracer" hostApi
        [.hook "before_call" 0 traceOpening, .hook "after_call" 5 traceClosing])
  | "@tick" => some (.extension "tick" hostApi [.hook "on_tick" 0 fun _ _ => .ignore])
  | "@badhook" => some (.extension "bad" hostApi [.hook "before_statement" 0 failInside])
  | _ => none

end ExtensionFile

namespace Services

/-- Takes what an extension file holds that was asked for by a path. -/
def take (services : Services) (path : String) : ExtensionFile → Except ExtensionError Services
  | .silent => .error (.registersNothing path)
  | .extension name api registrations => do
      checkApi name api
      services.registerAll name registrations

/-- Loads one extension.  Any other path than a known name is taken from `directory`.  What is no file
there is not found, and a file can be loaded if it is known what it `holds` as an extension. -/
def loadOne (services : Services) (isFile : String → Bool) (directory path : String)
    (holds : String → Option ExtensionFile) : Except ExtensionError Services :=
  match ExtensionFile.ofName? path with
  | some file => services.take path file
  | Option.none =>
      let absolute := Path.absolute directory path
      if isFile absolute then
        match holds absolute with
        | some file => services.take path file
        | Option.none => .error (.unloadable absolute)
      else .error (.notFound absolute)

/-- Loads extensions in order. -/
def load (isFile : String → Bool) (directory : String) (paths : List String)
    (holds : String → Option ExtensionFile := fun _ => Option.none) :
    Except ExtensionError Services :=
  paths.foldlM (fun services path => services.loadOne isFile directory path holds) none

end Services

end MonkeyLang
