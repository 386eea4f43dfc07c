import ThreeAddress.Code.Instruction
import ThreeAddress.Symbol.Basic
import ThreeAddress.Text.Span

/-!
# Commands

* `Command` : what one line of a script asks for;
* `Statement` : a command and the place of its words;
* `blankOperand` : how a script spells a second operand that is not there.
-/

namespace ThreeAddress

inductive Command where
  | insert (symbol : Symbol)
  | lookup (name : String)
  | emit (instruction : Instruction)
  | reset
  | print
deriving DecidableEq, Repr

def Command.blankOperand : String := "_"

structure Statement where
  command : Command
  span : Span
deriving DecidableEq, Repr

end ThreeAddress
