import MonkeyLang.Text.Json
import MonkeyLang.Text.Lines
import MonkeyLang.Text.Blank
import MonkeyLang.Text.Separated
import MonkeyLang.Text.DigitTable
import MonkeyLang.Path
import MonkeyLang.Arithmetic
import MonkeyLang.Token.Scan
import MonkeyLang.Syntax.Render
import MonkeyLang.Syntax.Parse
import MonkeyLang.Scope
import MonkeyLang.Fault
import MonkeyLang.Trace.Steps
import MonkeyLang.Trace.Traceback
import MonkeyLang.Extension.Event
import MonkeyLang.Builtin.Core
import MonkeyLang.Builtin.Text
import MonkeyLang.Machine
import MonkeyLang.Evaluation.Evaluate
import MonkeyLang.Extension.Catalogue
import MonkeyLang.Extension.Behaviour
import MonkeyLang.Report
import MonkeyLang.CommandLine.Dispatch
import MonkeyLang.CommandLine.FileTree
import MonkeyLang.Main
import MonkeyLang.Proofs.Syntax.Parsing
import MonkeyLang.Proofs.Events
import MonkeyLang.Proofs.Frames
import MonkeyLang.Proofs.Signals
import MonkeyLang.Proofs.Writing
import MonkeyLang.Proofs.Calls
import MonkeyLang.Proofs.Faults
import MonkeyLang.Proofs.Announcements
import MonkeyLang.Proofs.Safety
import MonkeyLang.Proofs.Stamps
import MonkeyLang.Proofs.Observation
import MonkeyLang.Proofs.Pieces
import MonkeyLang.Proofs.Data
import MonkeyLang.Proofs.RoundTrip
import MonkeyLang.Proofs.Places
import MonkeyLang.Proofs.Token.Tiling
import MonkeyLang.Proofs.Syntax.Brackets
import MonkeyLang.Proofs.Turns
import MonkeyLang.Proofs.Lasting
import MonkeyLang.Proofs.ExitStatus
import MonkeyLang.Proofs.Bounds
import MonkeyLang.Proofs.Evaluation.Likeness
import MonkeyLang.Proofs.Uniform
import MonkeyLang.Proofs.Evaluation.Concord
import MonkeyLang.Proofs.Evaluation.Heap
import MonkeyLang.Proofs.Evaluation.Moves
import MonkeyLang.Proofs.Evaluation.Objects
import MonkeyLang.Proofs.Identity
import MonkeyLang.Proofs.Evaluation.Veil
import MonkeyLang.Proofs.Evaluation.Veiled
import MonkeyLang.Proofs.Unmentioned
import MonkeyLang.Proofs.Syntax.Formulas
import MonkeyLang.Proofs.Token.Respelling
import MonkeyLang.Proofs.Evaluation.Halting
import MonkeyLang.Proofs.Syntax.Dropping
import MonkeyLang.Proofs.Syntax.Reporting
import MonkeyLang.Proofs.Joining
import MonkeyLang.Proofs.Calculations
import MonkeyLang.Proofs.Division
import MonkeyLang.Proofs.HashLiterals
import MonkeyLang.Proofs.ScopeHistory
import MonkeyLang.Proofs.Mapping
import MonkeyLang.Proofs.Cutting
import MonkeyLang.Proofs.Registration
import MonkeyLang.Proofs.Tracebacks
