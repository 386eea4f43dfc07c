import ThreeAddress.Code.FreshNames
import ThreeAddress.Code.Program
import ThreeAddress.Symbol.Table

/-!
# Compilation units

The symbols, the instructions and the fresh names of one compilation. Units share nothing.
-/

namespace ThreeAddress
open Text

structure CompilationUnit where
  symbols : SymbolTable := .empty
  program : Program := {}
  names : FreshNames := {}

namespace CompilationUnit

/-- An empty unit under a limit. -/
def ofLimit (limit : Limit) : CompilationUnit := { program := { limit } }

/-- Empties every part and keeps the limit. -/
def reset (u : CompilationUnit) : CompilationUnit where
  symbols := .empty
  program := u.program.clear
  names := {}

/-- Both reports, with an empty line between. -/
def reportLines (u : CompilationUnit) : List String :=
  u.symbols.reportLines ++ "" :: u.program.reportLines

def report (u : CompilationUnit) : String := unlines u.reportLines

theorem reset_eq (u : CompilationUnit) : u.reset = ofLimit u.program.limit := rfl

end CompilationUnit

end ThreeAddress
