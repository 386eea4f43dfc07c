import Std.Data.HashMap
import ThreeAddress.Symbol.Basic
import ThreeAddress.Text.Lines

/-!
# The symbol table

Every declaration is kept, in order; a later one of the same name shadows the earlier ones. For each name a
stack holds the positions of its declarations, the newest last, so that a name is resolved without a search.

* `SymbolTable.chain` : all declarations, the newest first, the view in which the rest is stated;
* `SymbolTable.lookup?` : the newest declaration of a name;
* `SymbolTable.shadowed` : all declarations of a name, the newest first;
* `SymbolTable.live` : the declarations that no later one shadows, the newest first.
-/

namespace ThreeAddress
open Text

structure SymbolTable where
  history : Array Symbol := #[]
  positions : Std.HashMap String (Array Nat) := ∅

namespace SymbolTable

def empty : SymbolTable := {}

/-- Declares a symbol; its position goes on the stack of its name. -/
def insert (t : SymbolTable) (s : Symbol) : SymbolTable where
  history := t.history.push s
  positions := t.positions.alter s.name fun stack => some ((stack.getD #[]).push t.history.size)

def size (t : SymbolTable) : Nat := t.history.size

def isEmpty (t : SymbolTable) : Bool := t.history.isEmpty

def chain (t : SymbolTable) : List Symbol := t.history.toList.reverse

/-- The position of the newest declaration of a name. -/
def newest? (t : SymbolTable) (name : String) : Option Nat := t.positions[name]?.bind Array.back?

def lookup? (t : SymbolTable) (name : String) : Option Symbol := (t.newest? name).bind (t.history[·]?)

def shadowed (t : SymbolTable) (name : String) : List Symbol :=
  ((t.positions.getD name #[]).toList.reverse).filterMap (t.history[·]?)

def live (t : SymbolTable) : List Symbol :=
  (t.history.toList.zipIdx.reverse.filter fun p => t.newest? p.1.name = some p.2).map (·.1)

/-! ## The printed table -/

def title : String := "Symbol Table:"
def columns : String := "Name    Type    Value"
def rule : String := "-------------------------"

def reportLines (t : SymbolTable) : List String := title :: columns :: rule :: t.chain.map Symbol.row

def report (t : SymbolTable) : String := unlines t.reportLines

/-! ## The chain -/

@[simp] theorem chain_empty : empty.chain = [] := rfl

@[simp] theorem chain_insert (t : SymbolTable) (s : Symbol) : (t.insert s).chain = s :: t.chain := by
  simp [chain, insert]

@[simp] theorem length_chain (t : SymbolTable) : t.chain.length = t.size := by
  simp [chain, size]

theorem mem_chain_of_lookup? {t : SymbolTable} {name : String} {s : Symbol} (h : t.lookup? name = some s) :
    s ∈ t.chain := by
  obtain ⟨i, -, hi⟩ := Option.bind_eq_some_iff.1 h
  rw [chain, List.mem_reverse]
  exact Array.mem_toList_iff.2 (Array.mem_of_getElem? hi)

theorem lookup?_insert_self (t : SymbolTable) (s : Symbol) : (t.insert s).lookup? s.name = some s := by
  have hnewest : (t.insert s).newest? s.name = some t.history.size := by
    rw [newest?, insert, Std.HashMap.getElem?_alter_self]
    simp
  rw [lookup?, hnewest]
  simp [insert]

end SymbolTable

end ThreeAddress
