import ThreeAddress.Text.Decimal

/-!
# Symbols

A declared name with an opaque type label and a value of 64 bits; a row of a printed table is its three
fields with a tab between.
-/

namespace ThreeAddress
open Text

structure Symbol where
  name : String
  type : String
  value : Int64
deriving DecidableEq, Repr

def Symbol.row (s : Symbol) : String := s.name ++ "\t" ++ s.type ++ "\t" ++ Decimal.ofInt64 s.value

end ThreeAddress
