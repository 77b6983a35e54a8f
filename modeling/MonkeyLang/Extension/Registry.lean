import MonkeyLang.Builtin.Core
import MonkeyLang.Path
import MonkeyLang.Setting

namespace MonkeyLang

/-! What extensions contribute: metadata, builtins and hooks.

A contribution that is refused changes nothing.  The names of builtins are not empty and differ from
one another; that they differ from the core builtins is asked only when a run is set up.
-/

/-- The version of the extension interface. -/
def hostApi : Int := 1

inductive ExtensionError where
  | emptyName
  | registeredTwice (builtin : String)
  | unknownEvent (name : String)
  | wrongApi (extension : String) (wanted : Int)
  | overridesCore (builtin : String)
  | notFound (path : String)
  | unloadable (path : String)
  | registersNothing (path : String)
deriving DecidableEq, Repr

def ExtensionError.message : ExtensionError → String
  | emptyName => "Builtin name must be non-empty"
  | registeredTwice builtin => "Builtin '" ++ builtin ++ "' registered twice"
  | unknownEvent name =>
      "Unknown event '" ++ name ++ "' (expected one of: " ++
        ", ".intercalate (Event.all.map (·.name)) ++ ")"
  | wrongApi extension wanted =>
      "Extension '" ++ extension ++ "' requires API " ++ toString wanted ++ ", host supports " ++
        toString hostApi
  | overridesCore builtin => "Cannot override existing builtin '" ++ builtin ++ "'"
  | notFound path => "Extension not found: " ++ path
  | unloadable path => "Failed to load extension module: " ++ path
  | registersNothing path => "Extension " ++ path ++ " must define callable monkey_register(ext)"

structure Metadata where
  name : String
  version : String
  api : Int
deriving DecidableEq, Repr

/-- What the extensions loaded so far have registered, in order. -/
structure Services where
  metadata : List Metadata
  builtins : List Builtin
  hooks : Hooks

/-- One call by which an extension registers something. -/
inductive Registration where
  | metadata (metadata : Metadata)
  | builtin (builtin : Builtin)
  | hook (event : String) (priority : Int) (react : Circumstance → Notice → Reaction)

def checkApi (extension : String) (wanted : Int) : Except ExtensionError Unit :=
  if wanted = hostApi then .ok () else .error (.wrongApi extension wanted)

namespace Services

def none : Services := ⟨[], [], .none⟩

def addMetadata (services : Services) (metadata : Metadata) : Except ExtensionError Services := do
  checkApi metadata.name metadata.api
  return { services with metadata := services.metadata ++ [metadata] }

def addBuiltin (services : Services) (builtin : Builtin) : Except ExtensionError Services :=
  if builtin.name.isEmpty then .error .emptyName
  else if services.builtins.any (·.name == builtin.name) then .error (.registeredTwice builtin.name)
  else .ok { services with builtins := services.builtins ++ [builtin] }

def addHook (services : Services) (extension event : String) (priority : Int)
    (react : Circumstance → Notice → Reaction) : Except ExtensionError Services :=
  match Event.ofName? event with
  | some event => .ok { services with hooks := services.hooks.add event extension priority react }
  | Option.none => .error (.unknownEvent event)

/-- Takes one registration by the named extension. -/
def register (services : Services) (extension : String) :
    Registration → Except ExtensionError Services
  | .metadata metadata => services.addMetadata metadata
  | .builtin builtin => services.addBuiltin builtin
  | .hook event priority react => services.addHook extension event priority react

/-- Takes registrations until one is refused. -/
def registerAll (services : Services) (extension : String) :
    List Registration → Except ExtensionError Services
  | [] => .ok services
  | registration :: others => do
      let services ← services.register extension registration
      services.registerAll extension others

end Services

namespace Setting

/-- The core builtins with those of extensions behind them, unless one has the name of a core
builtin. -/
def builtinTable (contributed : List Builtin) : Except ExtensionError (List Builtin) :=
  match contributed.find? fun builtin => Builtin.core.any (·.name == builtin.name) with
  | some builtin => .error (.overridesCore builtin.name)
  | none => .ok (Builtin.core ++ contributed)

/-- The name of a text that comes from no file. -/
def unnamedFile : String := "<string>"

/-- The setting of a run under the given services, for a text from a file named as seen from a
directory. -/
def ofServices (services : Services) (directory file : String) (verbose : Bool) :
    Except ExtensionError Setting := do
  let builtins ← builtinTable services.builtins
  let file := if file == unnamedFile then file else Path.absolute directory file
  return ⟨file, verbose, builtins, services.hooks⟩

/-- The setting without extensions, for a text from no file. -/
def plain : Setting := ⟨unnamedFile, false, Builtin.core, .none⟩

end Setting

end MonkeyLang
