import ThreeAddress.Command.Grammar

/-!
# Writing commands

* `Command.line` : the line of a script that asks for a command, its words with one blank between;
* `Command.script` : the lines of several commands.
-/

namespace ThreeAddress
open Text

namespace Command

def keyword : Command → Keyword
  | insert _ => .insert
  | lookup _ => .lookup
  | emit _ => .emit
  | reset => .reset
  | print => .print

/-- The words behind the keyword. An empty second operand is spelled as the blank one. -/
def operands : Command → List String
  | insert s => [s.name, s.type, Decimal.ofInt64 s.value]
  | lookup name => [name]
  | emit i => [i.op, i.arg1, if i.arg2 = "" then blankOperand else i.arg2, i.result]
  | reset | print => []

def line (c : Command) : String := String.intercalate " " (c.keyword.spelling :: c.operands)

def script (cs : List Command) : String := String.intercalate "\n" (cs.map line)

end Command

end ThreeAddress
