/-!
# Three-address instructions

`result = arg1 op arg2`, every field as its writer spelled it. An empty `arg2` means that there is no second
operand; with the operator `=` that is a copy, which is printed without its operator.
-/

namespace ThreeAddress

structure Instruction where
  op : String
  arg1 : String
  arg2 : String
  result : String
deriving DecidableEq, Repr

namespace Instruction

/-- The operator of copies. -/
def assign : String := "="

def copy (source result : String) : Instruction := ⟨assign, source, "", result⟩

def isCopy (i : Instruction) : Bool := i.op = assign && i.arg2 = ""

def render (i : Instruction) : String :=
  if i.isCopy then i.result ++ " = " ++ i.arg1
  else i.result ++ " = " ++ i.arg1 ++ " " ++ i.op ++ " " ++ i.arg2

@[simp] theorem isCopy_copy (source result : String) : (copy source result).isCopy = true := by
  simp [isCopy, copy]

theorem render_copy (source result : String) :
    (copy source result).render = result ++ " = " ++ source := by
  simp [render, copy, isCopy]

end Instruction

end ThreeAddress
