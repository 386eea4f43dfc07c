import ThreeAddress.Code.Program
import ThreeAddress.Replay

/-!
# Options of the command line

Arguments are taken from left to right, one state after the other (`Draft.step`):

* an option begins with a dash; a single dash alone is an ordinary word, and behind `--` every argument is;
* a long option may carry its value behind `=`, a short one behind its letter with or without `=`; otherwise
  the next argument is the value, unless it looks like an option itself;
* letters of options without a value may be bundled, the last letter of a bundle may take a value;
* no option may be given twice, and there is exactly one script;
* `--version` and `--help` answer at once, whatever comes behind them.

What does not go together is found at the end (`Draft.finish`).
-/

namespace ThreeAddress.CommandLine
open Text

/-- The parts of the report that are written. -/
inductive Sections where
  | both
  | symbols
  | code
deriving DecidableEq, Repr

structure Options where
  input : String
  output : Option String
  limit : Limit
  sections : Sections
  verbosity : Verbosity
deriving DecidableEq, Repr

/-- What is wrong with the arguments. -/
inductive UsageFault where
  | unknownOption (arg : String)
  | surplusValue (option : String)
  | missingValue (option : String)
  | badValue (option value : String)
  | repeated (option : String)
  | conflict (option other : String)
  | surplusInput (arg : String)
  | missingInput
deriving DecidableEq, Repr

namespace UsageFault

def message : UsageFault → String
  | unknownOption a | surplusInput a => "unexpected argument '" ++ a ++ "' found"
  | surplusValue o => "unexpected value for '" ++ o ++ "' found; no more were expected"
  | missingValue o => "a value is required for '" ++ o ++ "' but none was supplied"
  | badValue o v => "invalid value '" ++ v ++ "' for '" ++ o ++ "'"
  | repeated o => "the argument '" ++ o ++ "' cannot be used multiple times"
  | conflict o p => "the argument '" ++ o ++ "' cannot be used with '" ++ p ++ "'"
  | missingInput => "the following required arguments were not provided: <INPUT>"

end UsageFault

/-- Why no options are read: an answer is due at once, or the arguments are wrong. -/
inductive Stop where
  | version
  | help
  | usage (f : UsageFault)
deriving DecidableEq, Repr

inductive Flag where
  | unbounded
  | symbolsOnly
  | codeOnly
  | verbose
  | dumpTokens
deriving DecidableEq, Repr

def Flag.long : Flag → String
  | unbounded => "unbounded"
  | symbolsOnly => "symbols-only"
  | codeOnly => "code-only"
  | verbose => "verbose"
  | dumpTokens => "dump-tokens"

/-- An option that takes a value. -/
inductive Setting where
  | output
  | capacity
deriving DecidableEq, Repr

def Setting.long : Setting → String
  | output => "output"
  | capacity => "capacity"

inductive Choice where
  | flag (f : Flag)
  | setting (s : Setting)
  | version
  | help
deriving DecidableEq, Repr

namespace Choice

def all : List Choice :=
  [.flag .unbounded, .flag .symbolsOnly, .flag .codeOnly, .flag .verbose, .flag .dumpTokens,
   .setting .output, .setting .capacity, .version, .help]

def long : Choice → String
  | flag f => f.long
  | setting s => s.long
  | version => "version"
  | help => "help"

def ofLong? (name : String) : Option Choice := all.find? (·.long = name)

def ofLetter? : Char → Option Choice
  | 'o' => some (.setting .output)
  | 'v' => some (.flag .verbose)
  | 'V' => some .version
  | 'h' => some .help
  | _ => none

end Choice

/-! ## Reading the arguments -/

/-- What the arguments so far have set. -/
structure Draft where
  input : Option String := none
  output : Option String := none
  capacity : Option Nat := none
  flags : List Flag := []
  /-- The option whose value must come next. -/
  pending : Option Setting := none
  /-- A `--` has been passed. -/
  wordsOnly : Bool := false
deriving DecidableEq, Repr

namespace Draft

abbrev Step := Except Stop Draft

def fail (f : UsageFault) : Step := .error (.usage f)

def raise (d : Draft) (f : Flag) : Step :=
  if f ∈ d.flags then fail (.repeated f.long) else .ok { d with flags := f :: d.flags }

/-- Gives a setting its value; paths are not empty. -/
def assign (d : Draft) (s : Setting) (value : String) : Step :=
  match s with
  | .output =>
    if value = "" then fail (.badValue s.long value)
    else if d.output.isSome then fail (.repeated s.long)
    else .ok { d with output := some value, pending := none }
  | .capacity =>
    match Decimal.nat64? value.toList with
    | none => fail (.badValue s.long value)
    | some n =>
      if d.capacity.isSome then fail (.repeated s.long)
      else .ok { d with capacity := some n, pending := none }

def addInput (d : Draft) (arg : String) : Step :=
  if d.input.isSome then fail (.surplusInput arg)
  else if arg = "" then fail (.badValue "<INPUT>" arg)
  else .ok { d with input := some arg }

/-- A long option, with the part behind `=` if there is one. -/
def takeLong (d : Draft) (name : String) (value : Option String) : Step :=
  match Choice.ofLong? name, value with
  | none, _ => fail (.unknownOption ("--" ++ name))
  | some (.setting s), some v => d.assign s v
  | some (.setting s), none => .ok { d with pending := some s }
  | some c, some _ => fail (.surplusValue c.long)
  | some (.flag f), none => d.raise f
  | some .version, none => .error .version
  | some .help, none => .error .help

/-- The letters behind a single dash. -/
def takeLetters (d : Draft) : List Char → Step
  | [] => .ok d
  | c :: cs =>
    match Choice.ofLetter? c with
    | none => fail (.unknownOption (String.ofList ['-', c]))
    | some (.flag f) => (d.raise f).bind (takeLetters · cs)
    | some (.setting s) =>
      match cs with
      | [] => .ok { d with pending := some s }
      | '=' :: value => d.assign s (String.ofList value)
      | value => d.assign s (String.ofList value)
    | some .version => .error .version
    | some .help => .error .help

/-- The name of a long option, and its value if there is a `=`. -/
def splitLong (cs : List Char) : String × Option String :=
  (String.ofList (cs.takeWhile (· ≠ '=')),
    if '=' ∈ cs then some (String.ofList (cs.dropWhile (· ≠ '=')).tail) else none)

def looksLikeOption (arg : String) : Bool := arg.toList.head? = some '-' && arg ≠ "-"

/-- An argument that looks like an option, at a place where no value is due. -/
def takeOption (d : Draft) (arg : String) : Step :=
  match arg.toList with
  | ['-', '-'] => .ok { d with wordsOnly := true }
  | '-' :: '-' :: cs => d.takeLong (splitLong cs).1 (splitLong cs).2
  | cs => d.takeLetters cs.tail

def step (d : Draft) (arg : String) : Step :=
  if d.wordsOnly then d.addInput arg
  else
    match d.pending, looksLikeOption arg with
    | none, true => d.takeOption arg
    | none, false => d.addInput arg
    | some s, true => fail (.missingValue s.long)
    | some s, false => d.assign s arg

/-- The options that a complete draft stands for. -/
def finish (d : Draft) : Except Stop Options :=
  let unbounded := d.flags.contains .unbounded
  let symbolsOnly := d.flags.contains .symbolsOnly
  let codeOnly := d.flags.contains .codeOnly
  if let some s := d.pending then .error (.usage (.missingValue s.long))
  else if d.capacity.isSome && unbounded then .error (.usage (.conflict "capacity" "unbounded"))
  else if symbolsOnly && codeOnly then .error (.usage (.conflict "symbols-only" "code-only"))
  else
    match d.input with
    | none => .error (.usage .missingInput)
    | some input => .ok {
        input
        output := d.output
        limit := if unbounded then .unbounded else (d.capacity.map Limit.bounded).getD .default
        sections := if symbolsOnly then .symbols else if codeOnly then .code else .both
        verbosity := ⟨d.flags.contains .dumpTokens, d.flags.contains .verbose⟩ }

end Draft

/-- The options that the arguments ask for. -/
def Options.ofArgs? (args : List String) : Except Stop Options :=
  (args.foldlM Draft.step {}).bind Draft.finish

end ThreeAddress.CommandLine
