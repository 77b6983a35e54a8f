import MonkeyLang.Text.DigitTable
import MonkeyLang.Text.Quoted

namespace MonkeyLang.CommandLine

/-! Command line arguments.

A switch may be shortened to any beginning that no other switch shares, and may have an argument
attached behind an equals sign.  What looks like a negative number or holds a blank is never taken
for an unknown switch, and nothing behind two dashes is a switch.
-/

inductive Switch where
  | help | source | verbose | json | extension
deriving DecidableEq, Repr

namespace Switch

/-- All spellings, in the order in which they are listed. -/
def spellings : List (String × Switch) :=
  [("-h", help), ("--help", help), ("-source", source), ("--source", source),
    ("-verbose", verbose), ("--verbose", verbose), ("--traceback-json", json),
    ("--ext", extension)]

def ofSpelling? (spelling : String) : Option Switch := spellings.lookup spelling

/-- The switch's name in messages. -/
def name (switch : Switch) : String :=
  "/".intercalate ((spellings.filter (·.2 == switch)).map (·.1))

end Switch

inductive UsageError where
  | ambiguous (argument : String) (candidates : List String)
  | superfluous (switch : Switch) (attached : String)
  | incomplete (switch : Switch)
  | unrecognized (arguments : List String)
deriving DecidableEq, Repr

def UsageError.message : UsageError → String
  | ambiguous argument candidates =>
      "ambiguous option: " ++ argument ++ " could match " ++ ", ".intercalate candidates
  | superfluous switch attached =>
      "argument " ++ switch.name ++ ": ignored explicit argument " ++ Text.quoted attached
  | incomplete switch => "argument " ++ switch.name ++ ": expected one argument"
  | unrecognized arguments => "unrecognized arguments: " ++ " ".intercalate arguments

/-- An argument attached to a switch, behind an equals sign or directly. -/
structure Attachment where
  text : String
  behindEquals : Bool
deriving DecidableEq, Repr

/-- What an argument is by its looks. -/
inductive Word where
  | switch (switch : Switch) (attached : Option Attachment)
  | unknown (text : String)
  | plain (text : String)
  | dashes
deriving DecidableEq, Repr

namespace Word

def isDecimal (character : Char) : Bool :=
  Text.inRanges Text.decimalRanges character.toNat

/-- Digits, or digits around a point with at least one behind it; a line feed may follow. -/
def isNumeral (text : List Char) : Bool :=
  let text := if text.getLast? == some '\n' then text.dropLast else text
  let behind := text.dropWhile isDecimal
  match behind with
  | [] => !text.isEmpty
  | '.' :: decimals => !decimals.isEmpty && decimals.all isDecimal
  | _ => false

/-- The part before the first equals sign, and the part behind it if there is one. -/
def atEquals (text : String) : String × Option String :=
  let before := text.toList.takeWhile (· != '=')
  match text.toList.drop before.length with
  | [] => (text, none)
  | _ :: behind => (String.ofList before, some (String.ofList behind))

def behindEquals (text : Option String) : Option Attachment := text.map (⟨·, true⟩)

/-- The switches that an argument may stand for: spelling, switch, attached argument. -/
def candidates (argument : String) : List (String × Switch × Option Attachment) :=
  match argument.toList with
  | '-' :: '-' :: _ =>
      let (beginning, attached) := atEquals argument
      (Switch.spellings.filter fun (spelling, _) => beginning.isPrefixOf spelling).map
        fun (spelling, which) => (spelling, which, behindEquals attached)
  | '-' :: letter :: rest =>
      Switch.spellings.filterMap fun (spelling, which) =>
        if spelling == String.ofList ['-', letter] then
          some (spelling, which, some ⟨String.ofList rest, false⟩)
        else if argument.isPrefixOf spelling then some (spelling, which, none)
        else none
  | _ => []

/-- An argument that begins with a dash and is no spelling of a switch. -/
def ofDashed (argument : String) : Except UsageError Word :=
  match candidates argument with
  | [(_, which, attached)] => .ok (.switch which attached)
  | [] =>
      if isNumeral argument.toList.tail || argument.toList.contains ' ' then .ok (.plain argument)
      else .ok (.unknown argument)
  | several => .error (.ambiguous argument (several.map (·.1)))

/-- An argument that no two dashes precede. -/
def ofArgument (argument : String) : Except UsageError Word :=
  match argument.toList with
  | '-' :: _ :: _ =>
      match Switch.ofSpelling? argument with
      | some which => .ok (.switch which none)
      | none =>
          match atEquals argument with
          | (spelling, some attached) =>
              match Switch.ofSpelling? spelling with
              | some which => .ok (.switch which (some ⟨attached, true⟩))
              | none => ofDashed argument
          | _ => ofDashed argument
  | _ => .ok (.plain argument)

def ofArguments : List String → Except UsageError (List Word)
  | [] => .ok []
  | "--" :: arguments => .ok (.dashes :: arguments.map .plain)
  | argument :: arguments => do
      let word ← ofArgument argument
      let words ← ofArguments arguments
      return word :: words

/-- The argument that the word was. -/
def spell : Word → List String
  | switch .. => []
  | unknown text | plain text => [text]
  | dashes => ["--"]

end Word

structure Options where
  program : Option String
  source : Bool
  verbose : Bool
  json : Bool
  extensions : List String
deriving DecidableEq, Repr

/-- Why there are no options. -/
inductive Refusal where
  | help
  | usage (error : UsageError)
deriving DecidableEq, Repr

namespace Options

def none : Options := ⟨Option.none, false, false, false, []⟩

/-- Options found so far: whether the place of the program is taken, and what was not understood. -/
structure Progress where
  options : Options
  placed : Bool
  extras : List String
deriving DecidableEq, Repr

/-- The help switch with letters attached to its short form: it stands for itself as long as only
further help switches follow, and an argument behind it is superfluous. -/
def helpWith : Bool → List Char → Refusal
  | true, attached => .usage (.superfluous .help (String.ofList attached))
  | false, [] => .usage (.superfluous .help "")
  | false, '-' :: attached => .usage (.superfluous .help (String.ofList ('-' :: attached)))
  | false, ['h'] => .help
  | false, 'h' :: '=' :: attached => .usage (.superfluous .help (String.ofList attached))
  | false, 'h' :: attached => helpWith false attached
  | false, _ => .help

def takeHelp : Option Attachment → Refusal
  | Option.none => .help
  | some attached => helpWith attached.behindEquals attached.text.toList

def set (options : Options) : Switch → Options
  | .source => { options with source := true }
  | .verbose => { options with verbose := true }
  | .json => { options with json := true }
  | .help | .extension => options

def addExtension (options : Options) (path : String) : Options :=
  { options with extensions := options.extensions ++ [path] }

/-- Takes the words from the left.  The first plain word is the program; further ones are extras, and
so are unknown switches. -/
def take : Progress → List Word → Except Refusal Progress
  | progress, [] => .ok progress
  | progress, .unknown text :: words =>
      take { progress with extras := progress.extras ++ [text] } words
  | _, .switch .help attached :: _ => .error (takeHelp attached)
  | progress, .switch .extension (some attached) :: words =>
      take { progress with options := progress.options.addExtension attached.text } words
  | progress, .switch .extension Option.none :: .plain path :: words =>
      take { progress with options := progress.options.addExtension path } words
  | _, .switch .extension Option.none :: _ => .error (.usage (.incomplete .extension))
  | _, .switch which (some attached) :: _ => .error (.usage (.superfluous which attached.text))
  | progress, .switch which Option.none :: words =>
      take { progress with options := progress.options.set which } words
  | progress, .plain text :: words =>
      if progress.placed then take { progress with extras := progress.extras ++ [text] } words
      else
        let placed :=
          { progress with options := { progress.options with program := some text }, placed := true }
        match words with
        | .dashes :: words => take placed words
        | words => take placed words
  | progress, .dashes :: words =>
      if progress.placed then take { progress with extras := progress.extras ++ ["--"] } words
      else take progress words

def ofArguments (arguments : List String) : Except Refusal Options :=
  match Word.ofArguments arguments with
  | .error error => .error (.usage error)
  | .ok words =>
      match take ⟨none, false, []⟩ words with
      | .error refusal => .error refusal
      | .ok progress =>
          if progress.extras.isEmpty then .ok progress.options
          else .error (.usage (.unrecognized progress.extras))

end Options

def programName : String := "monkey"

def usage : String :=
  "usage: monkey [-h] [-source] [-verbose] [--traceback-json] [--ext PATH]\n" ++
  "              [program]\n"

def help : String :=
  usage ++
  "\nMonkey tree-walking interpreter\n" ++
  "\npositional arguments:\n" ++
  "  program              Source file path or literal source with -source\n" ++
  "\noptions:\n" ++
  "  -h, --help           show this help message and exit\n" ++
  "  -source, --source    Treat program argument as literal source text\n" ++
  "  -verbose, --verbose  Emit env snapshots in tracebacks\n" ++
  "  --traceback-json     Also emit JSON traceback\n" ++
  "  --ext PATH           Load an extension module (repeatable)\n"

end MonkeyLang.CommandLine
