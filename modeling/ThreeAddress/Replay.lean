import ThreeAddress.Command.Reader
import ThreeAddress.CompilationUnit
import ThreeAddress.Symbol.Storage
import ThreeAddress.Token.Dump

/-!
# Replaying scripts

* `Command.run` : what one command prints under a grant of storage, and the unit after it; a command that fails changes
  nothing;
* `Command.runAll` : commands in order up to the first that fails, with a grant for each;
* `replay` : reads a whole script before any command of it is run, so that a script with a bad line has no
  effect at all.

Nothing is refused unless a grant says so.
-/

namespace ThreeAddress
open Text

/-- The line that a look-up of `name` prints. -/
def SymbolTable.answer (t : SymbolTable) (name : String) : String :=
  match t.lookup? name with
  | some s => "found " ++ s.name ++ ": " ++ s.type ++ " = " ++ Decimal.ofInt64 s.value
  | none => "not found: " ++ name

namespace Command

def run (u : CompilationUnit) (c : Command) (granted : Storage → Bool := fun _ => true) :
    Except Fault (List String) × CompilationUnit :=
  match c with
  | insert s =>
    match u.symbols.declare granted s with
    | (.ok _, t) => (.ok [], { u with symbols := t })
    | (.error f, t) => (.error f, { u with symbols := t })
  | lookup name => (.ok [u.symbols.answer name], u)
  | emit i =>
    match u.program.push i with
    | (.ok _, p) => (.ok [], { u with program := p })
    | (.error f, p) => (.error f, { u with program := p })
  | reset => (.ok [], u.reset)
  | print => (.ok ((lines u.report.toList).map String.ofList), u)

def runAll (u : CompilationUnit) (cs : List Command) (grants : Grants := []) :
    Except Fault (List String) × CompilationUnit :=
  match cs with
  | [] => (.ok [], u)
  | c :: cs =>
    match c.run u (grants.nth 0) with
    | (.error f, v) => (.error f, v)
    | (.ok out, v) =>
      match runAll v cs grants.tail with
      | (.error f, w) => (.error f, w)
      | (.ok outs, w) => (.ok (out ++ outs), w)

end Command

/-- What a replay writes to its log. -/
structure Verbosity where
  tokens : Bool := false
  progress : Bool := false
deriving DecidableEq, Repr

/-- The printed lines or the first fault, the unit afterwards, and the log. -/
structure Replay where
  result : Except Fault (List String)
  unit : CompilationUnit
  log : String

def replay (tell : Verbosity) (text : String) (u : CompilationUnit) (grants : Grants := []) : Replay :=
  let dump := if tell.tokens then Token.dumpText (Token.ofText text) else ""
  match Statement.ofText? text with
  | .error f => ⟨.error f.toFault, u, dump⟩
  | .ok statements =>
    let parsed := "Parsed " ++ Decimal.ofNat statements.length ++ " commands\n"
    let (result, v) := Command.runAll u (statements.map (·.command)) grants
    ⟨result, v, dump ++ if tell.progress then parsed else ""⟩

end ThreeAddress
