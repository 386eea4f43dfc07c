import ThreeAddress.Command.Basic
import ThreeAddress.Text.Decimal
import ThreeAddress.Token.Basic

/-!
# The grammar of command lines

A line is a keyword and then one token for each of its fields:

```text
insert <name> <type> <integer>
lookup <name>
emit <operator> <operand> <operand or _> <result>
reset
print
```

* `Expected` : what a place in a line calls for;
* `Field` : a place that takes any word, the command words included, or one that takes an integer;
* `Keyword.fields` : the fields behind a keyword; `Keyword.command` : the command that their values make.
-/

namespace ThreeAddress
open Text

inductive Expected where
  | command
  | symbolName
  | type
  | integer
  | operator
  | operand
  | operandOrBlank
  | resultName
  | endOfLine
deriving DecidableEq, Repr

def Expected.describe : Expected → String
  | command => "a command"
  | symbolName => "a symbol name"
  | type => "a type"
  | integer => "an integer value"
  | operator => "an operator"
  | operand => "an operand"
  | operandOrBlank => "an operand or '_'"
  | resultName => "a result name"
  | endOfLine => "end of line"

inductive Field where
  | word (role : Expected)
  | integer
deriving DecidableEq, Repr

abbrev Field.Value : Field → Type
  | word _ => String
  | integer => Int64

/-- One value for each of the fields. -/
abbrev Field.Values : List Field → Type
  | [] => Unit
  | f :: fs => f.Value × Values fs

def Keyword.fields : Keyword → List Field
  | insert => [.word .symbolName, .word .type, .integer]
  | lookup => [.word .symbolName]
  | emit => [.word .operator, .word .operand, .word .operandOrBlank, .word .resultName]
  | reset | print => []

/-- A second operand spelled `_` is no operand; no other value is changed. -/
def Keyword.command : (k : Keyword) → Field.Values k.fields → Command
  | insert, (name, type, value, ()) => .insert ⟨name, type, value⟩
  | lookup, (name, ()) => .lookup name
  | emit, (op, arg1, arg2, result, ()) =>
    .emit ⟨op, arg1, if arg2 = Command.blankOperand then "" else arg2, result⟩
  | reset, () => .reset
  | print, () => .print

end ThreeAddress
