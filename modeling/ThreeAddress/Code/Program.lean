import ThreeAddress.Code.Instruction
import ThreeAddress.Fault
import ThreeAddress.Text.Lines

/-!
# Programs: instructions in order, up to a limit

* `Limit` : how many instructions a program may hold, 1000 unless something else is said;
* `Program.push` : appends one instruction and gives its position, or refuses it when the limit is reached
  (`push_of_hasRoom`, `push_of_full`); `Program.emit` does so with its four fields;
* `Program.remaining?` : how many more fit.
-/

namespace ThreeAddress
open Text

inductive Limit where
  | bounded (capacity : Nat)
  | unbounded
deriving DecidableEq, Repr

namespace Limit

def default : Limit := bounded 1000

def capacity? : Limit → Option Nat
  | bounded n => some n
  | unbounded => none

/-- The number, or the word for none. -/
def describe : Limit → String
  | bounded n => Decimal.ofNat n
  | unbounded => "unbounded"

end Limit

structure Program where
  limit : Limit := .default
  code : Array Instruction := #[]
deriving DecidableEq, Repr

namespace Program

def size (p : Program) : Nat := p.code.size

def isEmpty (p : Program) : Bool := p.code.isEmpty

def get? (p : Program) (i : Nat) : Option Instruction := p.code[i]?

def remaining? (p : Program) : Option Nat := p.limit.capacity?.map (· - p.size)

/-- The limit leaves room for one more instruction. -/
def HasRoom (p : Program) : Prop := ∀ n, p.limit = .bounded n → p.size < n

/-- Appends an instruction at the position given; a full program stays as it is. -/
def push (p : Program) (i : Instruction) : Except Fault Nat × Program :=
  match p.limit with
  | .bounded n =>
    if p.size < n then (.ok p.size, { p with code := p.code.push i })
    else (.error (.capacityExceeded n), p)
  | .unbounded => (.ok p.size, { p with code := p.code.push i })

/-- Appends `result = arg1 op arg2`. -/
def emit (p : Program) (op arg1 arg2 result : String) : Except Fault Nat × Program := p.push ⟨op, arg1, arg2, result⟩

/-- Drops every instruction and keeps the limit. -/
def clear (p : Program) : Program := { p with code := #[] }

theorem not_hasRoom_iff {p : Program} : ¬p.HasRoom ↔ ∃ n, p.limit = .bounded n ∧ n ≤ p.size := by
  simp [HasRoom]

theorem push_of_hasRoom {p : Program} (h : p.HasRoom) (i : Instruction) :
    p.push i = (.ok p.size, { p with code := p.code.push i }) := by
  unfold push
  split
  · rw [if_pos (h _ ‹_›)]
  · rfl

theorem push_of_full {p : Program} {n : Nat} (h : p.limit = .bounded n) (hn : n ≤ p.size)
    (i : Instruction) : p.push i = (.error (.capacityExceeded n), p) := by
  simp [push, h, Nat.not_lt.2 hn]

@[simp] theorem limit_push (p : Program) (i : Instruction) : (p.push i).2.limit = p.limit := by
  unfold push
  split
  · split <;> rfl
  · rfl

/-! ## The printed program -/

def title : String := "Intermediate Code:"

def reportLines (p : Program) : List String := title :: p.code.toList.map Instruction.render

def report (p : Program) : String := unlines p.reportLines

end Program

end ThreeAddress
