import ThreeAddress.Text.Decimal
import ThreeAddress.Text.Span

/-!
# Faults

What can go wrong while a unit is built, a script is replayed or a report is read, with one line of text
for each (`Fault.message`). A fault is fatal when the unit cannot be used any more.
-/

namespace ThreeAddress
open Text

inductive Fault where
  | outOfMemory (name : String)
  | capacityExceeded (capacity : Nat)
  | script (message : String) (span : Span)
  | report (line : Nat) (message : String)
  | io (message : String)
deriving DecidableEq, Repr

/-- A span as fault messages spell it. -/
def Span.describe (s : Span) : String :=
  "Span \x7b start: " ++ Decimal.ofNat s.start ++ ", end: " ++ Decimal.ofNat s.stop ++ " \x7d"

namespace Fault

def message : Fault → String
  | outOfMemory name => "out of memory while inserting symbol '" ++ name ++ "'"
  | capacityExceeded n =>
    "instruction store full: capacity of " ++ Decimal.ofNat n ++ " instructions exceeded"
  | script text span => "Script error at " ++ span.describe ++ ": " ++ text
  | report line text => "Report error on line " ++ Decimal.ofNat line ++ ": " ++ text
  | io text => "IO error: " ++ text

def isFatal : Fault → Bool
  | outOfMemory _ | io _ => true
  | capacityExceeded _ | script .. | report .. => false

end Fault

end ThreeAddress
