import ThreeAddress.Code.Program
import ThreeAddress.Symbol.Table
import ThreeAddress.Text.Blank

/-!
# Reading printed reports

A report text is read line by line. A title opens its section and everything before the first title is
passed over; blanks at the two ends of a line do not count.

* `ReportLine.ofText` : what one line says in the section it stands in. A row of symbols whose text has a tab
  is split at its first two tabs, so that a type may hold blanks; any other row is split at blanks. Rows of
  fewer than three fields are passed over.
* `Report.ofText?` : all rows and instructions, in order, or the first row whose value is no integer of 64
  bits.
-/

namespace ThreeAddress
open Text

inductive Section where
  | symbols
  | code
deriving DecidableEq, Repr

def Section.title : Section → String
  | symbols => SymbolTable.title
  | code => Program.title

structure Report where
  symbols : List Symbol := []
  code : List String := []
deriving DecidableEq, Repr

inductive ReportLine where
  | title (s : Section)
  | nothing
  | row (symbol : Symbol)
  | badValue (text : String)
  | instruction (text : String)
deriving DecidableEq, Repr

namespace ReportLine

/-- The column names in any spacing, or a rule of dashes. -/
def isTableHead (line : List Char) : Bool :=
  words line = words SymbolTable.columns.toList || line.all (· = '-')

/-- At most three parts: the third holds everything behind the second tab. -/
def splitAtTabs (line : List Char) : List (List Char) :=
  match line.splitOn '\t' with
  | name :: type :: rest@(_ :: _) => [name, type, ['\t'].intercalate rest]
  | parts => parts

def rowFields (line : List Char) : List (List Char) :=
  if '\t' ∈ line then (splitAtTabs line).map trim else (words line).take 3

def ofRow (line : List Char) : ReportLine :=
  match rowFields line with
  | [name, type, value] =>
    match Decimal.int64? value with
    | some v => row ⟨String.ofList name, String.ofList type, v⟩
    | none => badValue (String.ofList value)
  | _ => nothing

def ofText (current : Option Section) (text : List Char) : ReportLine :=
  let line := trim text
  if line = Section.symbols.title.toList then title .symbols
  else if line = Section.code.title.toList then title .code
  else if line = [] then nothing
  else
    match current with
    | none => nothing
    | some .symbols => if isTableHead line then nothing else ofRow line
    | some .code => instruction (String.ofList line)

end ReportLine

/-- A row whose value cannot be read, by the number of its line. -/
structure BadRow where
  line : Nat
  value : String
deriving DecidableEq, Repr

def BadRow.toFault (b : BadRow) : Fault := .report b.line ("invalid symbol value '" ++ b.value ++ "'")

namespace Report

/-- Reads lines in the section `current`, the first of them with the number `n`. -/
def ofLines? (current : Option Section) (n : Nat) : List (List Char) → Except BadRow Report
  | [] => .ok {}
  | text :: rest =>
    match ReportLine.ofText current text with
    | .title s => ofLines? (some s) (n + 1) rest
    | .nothing => ofLines? current (n + 1) rest
    | .row s => (ofLines? current (n + 1) rest).map fun r => { r with symbols := s :: r.symbols }
    | .instruction i => (ofLines? current (n + 1) rest).map fun r => { r with code := i :: r.code }
    | .badValue value => .error ⟨n, value⟩

def ofText? (text : String) : Except BadRow Report := ofLines? none 1 (lines text.toList)

end Report

end ThreeAddress
