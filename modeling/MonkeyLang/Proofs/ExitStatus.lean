import MonkeyLang.CommandLine.Dispatch
import MonkeyLang.CommandLine.FileTree
import MonkeyLang.Proofs.Lasting

namespace MonkeyLang

/-! # The exit status of a command

A command without extensions that is given a program ends with code 0 exactly if the program can be
read, parses, and runs to an end that is no failure.  Otherwise it ends with code 1 and writes why, but
for a path that holds a null character and a file that is no UTF-8, which nothing catches.
-/

/-- A text without errors of syntax. -/
def Parses (text : String) : Prop :=
  ∃ parsed, Parsed.ofText text = .ok parsed ∧ parsed.errors = []

/-- A fault that names what is wrong with a text, if it is one of syntax. -/
def Fault.Specific (fault : Fault) : Prop :=
  ∀ file errors, fault = .unparsable file errors → errors ≠ []

section Runs

variable {setting : Setting} (hooks : ∀ event, setting.hooks.of event = [])
  (builtins : ∀ builtin ∈ setting.builtins, builtin ∈ Builtin.core ∨ builtin ∈ Builtin.strings)

include hooks builtins

theorem body_parses (depth : Nat) (text : String) (scope : ScopeId) {before : Machine}
    (bound : before.scopes.Bind (Value.Sound setting)) :
    (Eval.body setting (evaluate setting depth) text scope before).Meets (fun _ => True)
      (fun _ _ => Parses text) fun fault _ => fault.Specific := by
  have unread : ∀ {fault : Fault} {next : Node → Eval (Option Value)}, fault.Specific →
      ((Eval.raise fault >>= next) before).Meets (fun _ => True) (fun _ _ => Parses text)
        fun fault _ => fault.Specific := by
    intro fault next specific
    have raised : ((Eval.raise fault : Eval Node) before).Meets (fun _ => True) (fun _ _ => False)
        fun fault _ => fault.Specific := .raise trivial specific
    exact raised.bind fun _ _ => False.elim
  cases read : Parsed.ofText text with
  | error reason =>
      simp only [Eval.body, Eval.parse, read]
      refine unread fun file errors same => ?_
      cases reason <;> cases same
  | ok parsed =>
      cases clean : parsed.errors with
      | nil =>
          obtain ⟨token, body, program, _⟩ := Parsed.proper read clean
          refine (body_ends hooks builtins read clean program bound).leads
            (fun _ _ _ => ⟨parsed, read, clean⟩) ?_
          rintro _ _ rfl file errors same
          cases same
      | cons first others =>
          obtain ⟨program, errors⟩ := parsed
          cases clean
          simp only [Eval.body, Eval.parse, read]
          refine unread ?_
          rintro _ _ ⟨⟩
          exact List.cons_ne_nil _ _

/-- Only a text that parses runs to an end, and every other ends with a fault that is reported. -/
theorem run_parses (text : String) {before : Machine}
    (bound : before.scopes.Bind (Value.Sound setting)) :
    (setting.run text before).Meets (fun _ => True) (fun _ _ => Parses text)
      fun fault _ => fault.Settled Fault.Specific := by
  have opened : before.opened.scopes.Bind (Value.Sound setting) := bound.add none
  refine run_ends (execute_settles hooks ?_)
  exact body_parses hooks builtins depthLimit text before.scopes.size opened

end Runs

namespace CommandLine

/-- At least one line, and perhaps something behind it. -/
def HasLine (text : String) : Prop := ∃ line rest, text = line ++ "\n" ++ rest

theorem HasLine.append {text : String} (has : HasLine text) (behind : String) :
    HasLine (text ++ behind) := by
  obtain ⟨line, rest, rfl⟩ := has
  exact ⟨line, rest ++ behind, String.append_assoc⟩

theorem Result.complaint_hasLine (text : String) : HasLine (Result.complaint text).errors :=
  ⟨text, "", String.append_empty.symm⟩

theorem syntaxErrors_hasLine {errors : List SyntaxError} (some : errors ≠ []) :
    HasLine (Written.syntaxErrors errors).errors := by
  cases errors with
  | nil => exact absurd rfl some
  | cons first others =>
      exact ⟨"ParseError: " ++ first.message, _, String.join_cons⟩

theorem traceback_hasLine (setting : Setting) (machine : Machine) (json : Bool)
    (kind : FailureClass) (failure : Failure) :
    HasLine (Written.traceback setting machine json kind failure).errors :=
  HasLine.append ⟨_, "", String.append_empty.symm⟩ _

theorem printed_append_errors (machine : Machine) (written : Written) :
    (Written.printed machine ++ written).errors = written.errors :=
  String.empty_append

/-- A run that ends without a fault and without a failure. -/
def Succeeds (setting : Setting) (text : String) : Prop :=
  ∃ result after, (setting.run text (.initial setting)).ending = .ok result after ∧
    ∀ failure, result ≠ some (.failed failure)

/-- The setting of a command without extensions, for a text from the named file. -/
def bareSetting (directory file : String) (verbose : Bool) : Setting :=
  ⟨if file == Setting.unnamedFile then file else Path.absolute directory file, verbose,
    Builtin.core, .none⟩

/-- A result that tells whether a command came to a good end. -/
structure Result.Tells (result : Result) (good : Prop) : Prop where
  zero : result.ending = .code 0 ↔ good
  status : result.ending = .code 0 ∨ result.ending = .code 1
  complains : result.ending = .code 1 → HasLine result.errors

theorem Result.Tells.success {written : Written} {good : Prop} (holds : good) :
    (⟨written, .code 0⟩ : Result).Tells good where
  zero := ⟨fun _ => holds, fun _ => rfl⟩
  status := .inl rfl
  complains code := nomatch code

theorem Result.tells_failure {result : Result} {good : Prop} (code : result.ending = .code 1)
    (line : HasLine result.errors) (bad : ¬ good) : result.Tells good where
  zero := by simp [code, bad]
  status := .inr code
  complains _ := line

theorem runProgram_tells (directory file : String) (verbose json : Bool) (text : String) :
    let setting := bareSetting directory file verbose
    (runProgram setting json text).Tells (Parses text ∧ Succeeds setting text) := by
  intro setting
  have builtins : ∀ builtin ∈ setting.builtins,
      builtin ∈ Builtin.core ∨ builtin ∈ Builtin.strings := fun _ => .inl
  have hooks : ∀ event, setting.hooks.of event = [] := fun _ => rfl
  have parses := run_parses hooks builtins text (Machine.Reaches.sound builtins .start)
  unfold Succeeds runProgram
  generalize setting.run text (.initial setting) = course at parses ⊢
  obtain ⟨ending, passes, raised⟩ := course
  cases ending with
  | ok result after =>
      have parsed := parses.done result after rfl
      by_cases failed : ∃ failure, result = some (.failed failure)
      · obtain ⟨failure, rfl⟩ := failed
        refine Result.tells_failure rfl ?_ ?_
        · rw [Result.errors, printed_append_errors]
          exact traceback_hasLine ..
        · rintro ⟨_, _, _, ⟨⟩, unfailed⟩
          exact unfailed failure rfl
      · have unfailed : ∀ failure, result ≠ some (.failed failure) := by simpa using failed
        cases result with
        | none => exact .success ⟨parsed, none, after, rfl, unfailed⟩
        | some value =>
            cases value with
            | failed failure => exact absurd rfl (unfailed failure)
            | _ => exact .success ⟨parsed, _, after, rfl, unfailed⟩
  | error fault after =>
      cases parses.broken fault after rfl with
      | unparsable specific =>
          refine Result.tells_failure rfl ?_ fun good => nomatch good.2
          rw [Result.errors, printed_append_errors]
          exact syntaxErrors_hasLine (specific _ _ rfl)
      | runtime failure =>
          refine Result.tells_failure rfl ?_ fun good => nomatch good.2
          rw [Result.errors, printed_append_errors]
          exact traceback_hasLine ..

/-- The text of a program, where it can be read. -/
inductive Reads (files : Files) (options : Options) (program : String) : String → Prop
  | literal (given : options.source = true) : Reads files options program program
  | file {bytes : ByteArray} {text : String} (path : options.source = false)
      (proper : Char.ofNat 0 ∉ program.toList) (opened : files.read program = .ok bytes)
      (decoded : decodeText? bytes = some text) : Reads files options program text

/-- A path that is none, or a file that holds no text. -/
inductive Unreadable (files : Files) (options : Options) (program : String) : Prop
  | null (path : options.source = false) (null : Char.ofNat 0 ∈ program.toList)
  | undecodable {bytes : ByteArray} (path : options.source = false)
      (opened : files.read program = .ok bytes) (decoded : decodeText? bytes = none)

/-- The name of the file that a program comes from. -/
def Options.fileName (options : Options) (program : String) : String :=
  if options.source then Setting.unnamedFile else program

/-- A program that is read, parses, and runs to a good end. -/
def Good (files : Files) (options : Options) (program : String) : Prop :=
  ∃ text, Reads files options program text ∧ Parses text ∧
    Succeeds (bareSetting files.directory (options.fileName program) options.verbose) text

theorem Reads.of_source {files : Files} {options : Options} {program text : String}
    (literal : options.source = true) (reads : Reads files options program text) : text = program := by
  cases reads with
  | literal => rfl
  | file path => exact absurd (path.symm.trans literal) Bool.false_ne_true

theorem Reads.of_file {files : Files} {options : Options} {program text : String}
    (path : options.source = false) (reads : Reads files options program text) :
    Char.ofNat 0 ∉ program.toList ∧
      ∃ bytes, files.read program = .ok bytes ∧ decodeText? bytes = some text := by
  cases reads with
  | literal given => exact absurd (path.symm.trans given) Bool.false_ne_true
  | file _ proper opened decoded => exact ⟨proper, _, opened, decoded⟩

/-- The status tells the truth about the program where its text is the only one that could be read. -/
theorem runText_tells {files : Files} {options : Options} {program text : String}
    (reads : Reads files options program text)
    (only : ∀ other, Reads files options program other → other = text) :
    (runText .none files.directory (options.fileName program) options text).Tells
      (Good files options program) := by
  have told := runProgram_tells files.directory (options.fileName program) options.verbose
    options.json text
  have good : Good files options program ↔ Parses text ∧
      Succeeds (bareSetting files.directory (options.fileName program) options.verbose) text := by
    constructor
    · rintro ⟨other, readsOther, good⟩
      exact only other readsOther ▸ good
    · exact fun good => ⟨text, reads, good⟩
  rw [good]
  exact told

theorem runFile_tells {files : Files} {options : Options} {path : String}
    (isPath : options.source = false) (readable : ¬ Unreadable files options path) :
    (runFile .none files options path).Tells (Good files options path) := by
  have proper : Char.ofNat 0 ∉ path.toList := fun null => readable (.null isPath null)
  have named : options.fileName path = path := by rw [Options.fileName, isPath]; rfl
  unfold runFile
  rw [if_neg (by simpa using proper)]
  cases opened : files.read path with
  | error error =>
      refine Result.tells_failure rfl (Result.complaint_hasLine _) ?_
      rintro ⟨text, reads, _⟩
      obtain ⟨_, bytes, read, _⟩ := reads.of_file isPath
      exact nomatch opened.symm.trans read
  | ok bytes =>
      cases decoded : decodeText? bytes with
      | none => exact absurd (.undecodable isPath opened decoded) readable
      | some text =>
          have told := runText_tells (.file isPath proper opened decoded) fun other reads => ?_
          · rw [named] at told
            simpa only [decoded] using told
          · obtain ⟨_, _, read, decodedOther⟩ := reads.of_file isPath
            cases opened.symm.trans read
            exact Option.some.inj (decodedOther.symm.trans decoded)

/-- What nothing catches ends a command without a code. -/
theorem runFile_unreadable {files : Files} {options : Options} {path : String}
    (unreadable : Unreadable files options path) (code : Nat) :
    (runFile .none files options path).ending ≠ .code code := by
  unfold runFile
  split
  · exact nofun
  · rename_i proper
    cases unreadable with
    | null _ null => exact absurd (List.contains_iff_mem.mpr null) proper
    | undecodable _ opened decoded =>
        simp only [opened, decoded]
        exact nofun

/-- Without extensions, and given a program, a command ends with code 0 exactly if the program could be
read, parses, and ran to an end that is no failure, and with code 1 otherwise, having written at least
one line of errors; unless the path of the program holds a null character or its file is no UTF-8, in
which case there is no code at all. -/
theorem exit_status_truthful (files : Files) (options : Options) {program : String}
    (named : options.program = some program) (bare : options.extensions = []) :
    ∃ result, dispatch files options = .finished result ∧
      (¬ Unreadable files options program → result.Tells (Good files options program)) ∧
      (Unreadable files options program → ∀ code, result.ending ≠ .code code) := by
  have loaded : Services.load files.isFile files.directory options.extensions files.extension? =
      .ok .none := by
    rw [bare]
    rfl
  unfold dispatch
  simp only [loaded, named]
  cases literal : options.source with
  | true =>
      have fileName : options.fileName program = Setting.unnamedFile := by
        rw [Options.fileName, literal]
        rfl
      refine ⟨_, rfl, fun _ => ?_, fun unreadable => ?_⟩
      · rw [← fileName]
        exact runText_tells (.literal literal) fun _ reads => reads.of_source literal
      · cases unreadable with
        | null path | undecodable path => exact absurd (path.symm.trans literal) Bool.false_ne_true
  | false => exact ⟨_, rfl, runFile_tells literal, runFile_unreadable⟩

/-- The file of a program ends in a failure, with a document of it asked for. -/
theorem exit_status_truthful_failure :
    let files := (FileTree.ofList "/work" [("prog", "1 + true".toUTF8)]).files
    ∃ result, dispatch files ⟨some "prog", false, false, true, []⟩ = .finished result ∧
      result.ending = .code 1 ∧ HasLine result.errors := by
  intro files
  have readable : ¬ Unreadable files ⟨some "prog", false, false, true, []⟩ "prog" := by
    rintro (⟨_, null⟩ | ⟨_, opened, decoded⟩)
    · exact absurd null (by decide)
    · cases opened
      have valid : (decodeText? "1 + true".toUTF8).isSome = true := by decide +kernel
      rw [decoded] at valid
      cases valid
  obtain ⟨result, finished, tells, _⟩ :=
    exit_status_truthful files ⟨some "prog", false, false, true, []⟩ rfl rfl
  have ended : result.ending = .code 1 := by
    cases finished
    rfl
  exact ⟨result, finished, ended, (tells readable).complains ended⟩

/-- A file of one byte that is no UTF-8 ends a command without a code. -/
theorem undecodable_file_gives_no_code :
    let files := (FileTree.ofList "/work" [("prog", ⟨#[255]⟩)]).files
    dispatch files ⟨some "prog", false, false, false, []⟩ = .finished ⟨.nothing, .undecodable⟩ := by
  rfl

end CommandLine

end MonkeyLang
