import ThreeAddress.CommandLine.FileTree
import ThreeAddress.CommandLine.Options
import ThreeAddress.Diagnostic.Render

/-!
# The command line

`run` reads a script, replays it on a fresh unit and writes the report, over any way to reach files
(`FileAccess`): `FileTree.access` keeps them in a value, so that the whole program is a function.

* A script that cannot be read, has a bad line or goes over the limit writes nothing but its fault.
* The printed lines come first; the report goes to standard output behind them, with an empty line between,
  or to a file of its own.
-/

namespace ThreeAddress.CommandLine
open Text

/-- How files are read and written; a failure is told by its cause. -/
structure FileAccess (m : Type → Type) where
  read : String → m (Except String ByteArray)
  write : String → ByteArray → m (Except String Unit)

def FileTree.access : FileAccess (StateM FileTree) where
  read path := do return ((← get).read path).mapError PathFault.message
  write path bytes := do
    match (← get).write path bytes with
    | .ok t => set t; return .ok ()
    | .error f => return .error f.message

/-- What a run leaves behind: its exit code and its two outputs. -/
structure Exit where
  code : Nat
  stdout : String := ""
  stderr : String := ""
deriving DecidableEq, Repr

def versionText : String := "quadc 0.1.0\n"

def usageText : String := "Usage: quadc [OPTIONS] <INPUT>"

def helpText : String := unlines [
  "Symbol table and three-address code back-end driver",
  "",
  usageText,
  "",
  "Arguments:",
  "  <INPUT>  Command script to replay",
  "",
  "Options:",
  "  -o, --output <OUTPUT>      Write the report to this file instead of stdout",
  "      --capacity <CAPACITY>  Maximum number of instructions [default: 1000]",
  "      --unbounded            Let the instruction store grow without limit",
  "      --symbols-only         Only print the symbol table",
  "      --code-only            Only print the intermediate code",
  "  -v, --verbose              Verbose output",
  "      --dump-tokens          Dump tokens (for debugging)",
  "  -h, --help                 Print help",
  "  -V, --version              Print version"]

def errorLine (text : String) : String := "error: " ++ text ++ "\n"

def Sections.report (u : CompilationUnit) : Sections → String
  | both => u.report
  | symbols => u.symbols.report
  | code => u.program.report

/-- The lines that go to standard error when progress is asked for. -/
def Options.tell (o : Options) (lines : List String) : String :=
  if o.verbosity.progress then unlines lines else ""

/-- The text of a script, or why there is none. -/
def decode (content : Except String ByteArray) : Except String String :=
  content.bind fun bytes =>
    match String.fromUTF8? bytes with
    | some text => .ok text
    | none => .error "stream did not contain valid UTF-8"

/-- The fault of a script that was read, shown in the file it stands in. -/
def faultText (o : Options) (source : String) (f : Fault) : String :=
  match f with
  | .script .. => f.diagnostic [⟨o.input, source⟩] 0 ++ errorLine "invalid command script"
  | _ => errorLine f.message

/-- Writes the report of a replayed script. -/
def publish {m : Type → Type} [Monad m] (files : FileAccess m) (o : Options) (log : String)
    (lines : List String) (u : CompilationUnit) : m Exit := do
  let report := o.sections.report u
  let summary :=
    Decimal.ofNat u.symbols.size ++ " symbols, " ++ Decimal.ofNat u.program.size ++ " instructions"
  match o.output with
  | none =>
    let gap := if lines = [] then "" else "\n"
    return ⟨0, unlines lines ++ gap ++ report, log ++ o.tell [summary]⟩
  | some path =>
    match ← files.write path report.toUTF8 with
    | .error cause =>
      return ⟨1, unlines lines, log ++ errorLine ("cannot write " ++ path ++ ": " ++ cause)⟩
    | .ok () => return ⟨0, unlines lines, log ++ o.tell ["Report written to " ++ path, summary]⟩

/-- Reads and replays a script, and writes the report if nothing fails. -/
def replayFile {m : Type → Type} [Monad m] (files : FileAccess m) (o : Options) : m Exit := do
  match decode (← files.read o.input) with
  | .error cause => return ⟨1, "", errorLine ("cannot read " ++ o.input ++ ": " ++ cause)⟩
  | .ok source =>
    let start := o.tell ["Replaying " ++ o.input ++ " (instruction limit: " ++ o.limit.describe ++ ")"]
    let r := replay o.verbosity source (.ofLimit o.limit)
    match r.result with
    | .error f => return ⟨1, "", start ++ r.log ++ faultText o source f⟩
    | .ok lines => publish files o (start ++ r.log) lines r.unit

def run {m : Type → Type} [Monad m] (files : FileAccess m) (args : List String) : m Exit :=
  match Options.ofArgs? args with
  | .ok o => replayFile files o
  | .error .version => return ⟨0, versionText, ""⟩
  | .error .help => return ⟨0, helpText, ""⟩
  | .error (.usage f) => return ⟨2, "", errorLine f.message ++ unlines ["", usageText]⟩

end ThreeAddress.CommandLine
