import ThreeAddress.Text.Quoted
import ThreeAddress.Text.Decimal
import ThreeAddress.Text.Lines
import ThreeAddress.Token.Scanner

/-!
# Token dumps

One line for each token, between a header and a footer: the name of its kind, the quoted text of kinds that
carry one, and the place.
-/

namespace ThreeAddress
open Text

def Keyword.label : Keyword → String
  | insert => "Insert"
  | lookup => "Lookup"
  | emit => "Emit"
  | reset => "Reset"
  | print => "Print"

def Kind.label : Kind → String
  | keyword k => k.label
  | identifier _ => "Identifier"
  | integer _ => "IntLiteral"
  | operator _ => "Operator"
  | word _ => "Word"
  | newline => "Newline"
  | endOfText => "Eof"

def Kind.dump (k : Kind) : String :=
  match k with
  | keyword _ | newline | endOfText => k.label
  | identifier s | integer s | operator s | word s => k.label ++ "(" ++ Quoted.quote s ++ ")"

/-- Like `3..5`. -/
def Span.dump (s : Span) : String := Decimal.ofNat s.start ++ ".." ++ Decimal.ofNat s.stop

def Token.dump (t : Token) : String := "  " ++ t.kind.dump ++ " @ " ++ t.span.dump

def Token.dumpLines (ts : List Token) : List String :=
  "=== Tokens ===" :: ts.map Token.dump ++ ["=== End Tokens ===", ""]

def Token.dumpText (ts : List Token) : String := unlines (dumpLines ts)

end ThreeAddress
