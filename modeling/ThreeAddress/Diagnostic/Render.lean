import ThreeAddress.Diagnostic.Snippet
import ThreeAddress.Fault

/-!
# Showing faults

A heading, then the snippet of a fault that has a place in a file or the note that goes with its kind, then
an empty line. A place in a file that does not exist shows nothing at all.
-/

namespace ThreeAddress
open Text

namespace Fault

/-- The heading of a fault without a place. -/
def summary : Fault → String
  | capacityExceeded n => "instruction store full (" ++ Decimal.ofNat n ++ " instructions)"
  | script .. => "Script error"
  | f => f.message

/-- Advice on a fault. -/
def notes : Fault → List String
  | outOfMemory _ => ["the compilation was aborted"]
  | capacityExceeded _ => ["rerun with a larger --capacity or with --unbounded"]
  | _ => []

def heading (f : Fault) : String := "error: " ++ f.summary

/-- What is shown for a fault whose place, if it has one, is in the file of the index `file`. -/
def diagnostic (files : List SourceFile) (file : Nat) (f : Fault) : String :=
  match f with
  | script message span =>
    match files[file]? with
    | some source => unlines (f.heading :: Snippet.rows source span message ++ [""])
    | none => ""
  | _ => unlines (f.heading :: f.notes.map (" = " ++ ·) ++ [""])

end Fault

end ThreeAddress
