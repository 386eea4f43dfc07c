import ThreeAddress.Fault
import ThreeAddress.Symbol.Table

/-!
# Declarations that may run out of storage

A declaration reserves all the storage that it takes before it changes the table.

* `Storage` : the pieces of storage; `SymbolTable.needs` lists those that a declaration of a name takes;
* `Grants` : a grant of storage for each of several calls;
* `SymbolTable.declare` : a declaration under any grant of storage, answered with the entry at its position;
* `SymbolTable.declare_eq` : it is the insertion of the symbol, or it fails and leaves the table as it is.
-/

namespace ThreeAddress

/-- An entry of the history with its two texts; a place on a stack that there is; and what a new stack takes: a slot
among the stacks, its first place and a copy of the name that leads to it. -/
inductive Storage where
  | entry
  | name
  | type
  | place
  | slot
  | firstPlace
  | key
deriving DecidableEq, Repr

/-- What is granted to one call after the other; nothing is refused behind the last of them. -/
abbrev Grants := List (Storage → Bool)

namespace Grants

def nth (grants : Grants) (k : Nat) : Storage → Bool := grants.getD k fun _ => true

@[simp] theorem nth_nil (k : Nat) : nth [] k = fun _ => true := rfl

@[simp] theorem nth_tail (grants : Grants) (k : Nat) : nth grants.tail k = nth grants (k + 1) := by
  cases grants <;> rfl

end Grants

namespace SymbolTable

def entryNeeds : List Storage := [.entry, .name, .type]

/-- What the stack of a name takes for one more position. -/
def stackNeeds (t : SymbolTable) (name : String) : List Storage :=
  if name ∈ t.positions then [.place] else [.slot, .firstPlace, .key]

def needs (t : SymbolTable) (name : String) : List Storage := entryNeeds ++ t.stackNeeds name

/-- Reserves pieces of storage for a declaration of `name`, if all of them are to be had. -/
def reserve (granted : Storage → Bool) (name : String) (pieces : List Storage) : Except Fault Unit :=
  if pieces.all granted then .ok () else .error (.outOfMemory name)

/-- Puts a position on the stack of a name. -/
def stackUp (t : SymbolTable) (name : String) (position : Nat) : SymbolTable :=
  { t with positions := t.positions.alter name fun stack => some ((stack.getD #[]).push position) }

/-- Declares a symbol as far as storage is granted. The answer is what stands at its position afterwards. -/
def declare (t : SymbolTable) (granted : Storage → Bool) (s : Symbol) : Except Fault (Option Symbol) × SymbolTable :=
  match reserve granted s.name entryNeeds with
  | .error f => (.error f, t)
  | .ok () =>
    match reserve granted s.name (t.stackNeeds s.name) with
    | .error f => (.error f, t)
    | .ok () =>
      let stacked := t.stackUp s.name t.size
      let declared := { stacked with history := stacked.history.push s }
      (.ok declared.history[t.size]?, declared)

theorem declare_eq (t : SymbolTable) (granted : Storage → Bool) (s : Symbol) :
    t.declare granted s =
      if (t.needs s.name).all granted then (.ok (some s), t.insert s) else (.error (.outOfMemory s.name), t) := by
  have hentry : (t.insert s).history[t.size]? = some s := by simp [insert, size]
  unfold declare reserve needs
  rw [List.all_append, ← hentry]
  cases entryNeeds.all granted with
  | false => rfl
  | true =>
    cases (t.stackNeeds s.name).all granted with
    | false => rfl
    | true => rfl

end SymbolTable

end ThreeAddress
