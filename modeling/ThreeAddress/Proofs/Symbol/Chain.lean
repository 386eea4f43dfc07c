import ThreeAddress.Proofs.Symbol.Index

/-!
# A symbol table behaves as a linked chain

A chain is a list of symbols with the newest at its head: a declaration puts a new head in front, starting
over leaves nothing.

* `Change` : a call that changes a table; `SymbolTable.run` and `Change.chain` make a sequence of them on a
  table and on a chain;
* `Tracks t c` : the table `t` stands for the chain `c`; one change keeps it (`Tracks.apply`) and so does a
  run (`tracks_run`);
* `readers_run` : after every run each reader of the table answers from the chain alone.
-/

namespace ThreeAddress
namespace SymbolTable

inductive Change where
  | insert (symbol : Symbol)
  | init
deriving DecidableEq, Repr

def apply (t : SymbolTable) : Change → SymbolTable
  | .insert s => t.insert s
  | .init => .empty

/-- The table after a sequence of changes, from the empty one. -/
def run (changes : List Change) : SymbolTable := changes.foldl apply empty

namespace Change

def onChain (c : List Symbol) : Change → List Symbol
  | insert s => s :: c
  | init => []

/-- The symbols inserted since the last start over, the newest first. -/
def chain (changes : List Change) : List Symbol := changes.foldl onChain []

end Change

/-! ## The simulation -/

structure Tracks (t : SymbolTable) (c : List Symbol) : Prop where
  chain : t.chain = c
  indexed : t.Indexed

theorem tracks_empty : Tracks empty [] := ⟨rfl, indexed_empty⟩

theorem Tracks.apply {t : SymbolTable} {c : List Symbol} (h : Tracks t c) (change : Change) :
    Tracks (t.apply change) (change.onChain c) := by
  cases change with
  | insert s => exact ⟨by rw [SymbolTable.apply, chain_insert, h.chain]; rfl, h.indexed.insert s⟩
  | init => exact tracks_empty

theorem Tracks.foldl {t : SymbolTable} {c : List Symbol} (h : Tracks t c) (changes : List Change) :
    Tracks (changes.foldl SymbolTable.apply t) (changes.foldl Change.onChain c) := by
  induction changes generalizing t c with
  | nil => exact h
  | cons change changes ih => exact ih (h.apply change)

theorem tracks_run (changes : List Change) : Tracks (run changes) (Change.chain changes) :=
  tracks_empty.foldl changes

/-- **Every reader of a table answers from the chain.** A prefix of a run is a run, so this holds after each
of its changes. -/
theorem readers_run (changes : List Change) (n : String) :
    (run changes).chain = Change.chain changes ∧
    (run changes).lookup? n = (Change.chain changes).find? (·.name = n) ∧
    (run changes).shadowed n = (Change.chain changes).filter (·.name = n) ∧
    (run changes).live = unshadowed (Change.chain changes) := by
  obtain ⟨hchain, hindexed⟩ := tracks_run changes
  refine ⟨hchain, ?_, ?_, ?_⟩
  · rw [hindexed.lookup?_eq, hchain]
  · rw [hindexed.shadowed_eq, hchain]
  · rw [hindexed.live_eq, hchain]

end SymbolTable
end ThreeAddress
