import ThreeAddress.Proofs.Symbol.Partition
import ThreeAddress.Symbol.Storage

/-!
# The stacks of a symbol table partition its history

* `SymbolTable.IsStack t n stack` : what may stand on the stack of a declared name, said by the history alone;
* `Indexed.isStack`, `Indexed.mem_positions_iff`, `Indexed.perm_stacks` : an indexed table has a stack for each declared
  name and for no other, and each position of the history is on one of them, once;
* `Indexed.map_getElem?_stack`, `Indexed.lookup?_eq_none_iff` : no reader of a stack meets a position that the history
  does not have;
* `Call` : a declaration under some grant of storage, or a start over. Refused declarations leave no trace, so a sequence
  of calls comes to a table that a `run` without refusals comes to (`exists_run_eq_after`);
* `stacks_partition_history` : all this for the table after any calls, and what the next declaration answers.
-/

namespace ThreeAddress
namespace SymbolTable

/-- Where every look-up succeeds, none is passed over. -/
theorem map_eq_map_some_filterMap {α β : Type} {f : α → Option β} {as : List α} (h : ∀ a ∈ as, (f a).isSome) :
    as.map f = (as.filterMap f).map some := by
  induction as with
  | nil => rfl
  | cons a as ih =>
    obtain ⟨b, hb⟩ := Option.isSome_iff_exists.1 (h a List.mem_cons_self)
    rw [List.filterMap_cons_some hb, List.map_cons, List.map_cons, hb, ih fun c hc => h c (List.mem_cons_of_mem a hc)]

/-! ## The stack of a name -/

/-- The positions of all declarations of a name that is declared, each once and the newest last. -/
structure IsStack (t : SymbolTable) (n : String) (stack : Array Nat) : Prop where
  ne_empty : stack ≠ #[]
  ascending : stack.toList.Pairwise (· < ·)
  mem_iff (i : Nat) : i ∈ stack ↔ ∃ hi : i < t.history.size, t.history[i].name = n

section Indexed
variable {t : SymbolTable} (h : t.Indexed)
include h

theorem Indexed.getElem?_eq_some_iff {n : String} {stack : Array Nat} :
    t.positions[n]? = some stack ↔ places t.history.toList n ≠ [] ∧ stack = (places t.history.toList n).toArray := by
  rw [h n]
  by_cases hp : places t.history.toList n = [] <;> simp [hp, eq_comm]

theorem Indexed.mem_positions_iff (n : String) : n ∈ t.positions ↔ ∃ s ∈ t.history, s.name = n := by
  simp only [← Array.mem_toList_iff]
  rw [Std.HashMap.mem_iff_isSome_getElem?, h n, ← places_ne_nil_iff]
  by_cases hp : places t.history.toList n = [] <;> simp [hp]

theorem Indexed.isStack {n : String} {stack : Array Nat} (hstack : t.positions[n]? = some stack) :
    t.IsStack n stack := by
  obtain ⟨hne, rfl⟩ := h.getElem?_eq_some_iff.1 hstack
  refine ⟨by simpa using hne, pairwise_places _ n, fun i => ?_⟩
  rw [List.mem_toArray, mem_places_iff]
  simp only [Array.getElem?_toList, Array.getElem?_eq_some_iff]
  constructor
  · rintro ⟨s, ⟨hi, rfl⟩, hname⟩
    exact ⟨hi, hname⟩
  · rintro ⟨hi, hname⟩
    exact ⟨_, ⟨hi, rfl⟩, hname⟩

/-- The stacks one behind the other are the positions of the history in some order: none is missing, none is on two
stacks or twice on one. -/
theorem Indexed.perm_stacks :
    (t.positions.toList.flatMap (·.2.toList)).Perm (List.range t.history.size) := by
  have hstacks : ∀ p ∈ t.positions.toList, p.2.toList = places t.history.toList p.1 := by
    intro p hp
    rw [(h.getElem?_eq_some_iff.1 (Std.HashMap.mem_toList_iff_getElem?_eq_some.1 hp)).2]
  have hcover : ∀ q ∈ t.history.toList.zipIdx, q.1.name ∈ t.positions.keys := by
    intro q hq
    have hs := List.mem_of_getElem? (List.mem_zipIdx_iff_getElem?.1 hq)
    exact Std.HashMap.mem_keys.2 ((h.mem_positions_iff _).2 ⟨q.1, Array.mem_toList_iff.1 hs, rfl⟩)
  have hperm := (perm_flatMap_filter (fun q : Symbol × Nat => q.1.name) Std.HashMap.nodup_keys hcover).map Prod.snd
  rw [List.zipIdx_map_snd, ← List.range_eq_range', Array.length_toList, List.map_flatMap,
    ← Std.HashMap.map_fst_toList_eq_keys, List.flatMap_map] at hperm
  rw [List.flatMap_def, List.map_congr_left hstacks, ← List.flatMap_def]
  exact hperm

/-- What a name shadows is read off its stack position by position, each of them in range. -/
theorem Indexed.map_getElem?_stack (n : String) :
    (t.positions.getD n #[]).toList.reverse.map (t.history[·]?) = (t.shadowed n).map some := by
  unfold shadowed
  refine map_eq_map_some_filterMap fun i hi => ?_
  rw [h.getD_positions, List.mem_reverse] at hi
  obtain ⟨s, hs, -⟩ := mem_places_iff.1 hi
  rw [← Array.getElem?_toList, hs]
  rfl

theorem Indexed.lookup?_eq_none_iff (n : String) : t.lookup? n = none ↔ n ∉ t.positions := by
  rw [h.lookup?_eq, h.mem_positions_iff, List.find?_eq_none]
  simp [chain]

end Indexed

/-! ## Calls -/

inductive Call where
  | declare (symbol : Symbol) (granted : Storage → Bool)
  | init

def afterCall (t : SymbolTable) : Call → SymbolTable
  | .declare s granted => (t.declare granted s).2
  | .init => .empty

/-- The table after a sequence of calls, from the empty one. -/
def after (calls : List Call) : SymbolTable := calls.foldl afterCall empty

/-- A declaration that is refused leaves no trace, so the refused ones can be left out. -/
theorem exists_run_eq_after (calls : List Call) : ∃ changes, after calls = run changes := by
  suffices h : ∀ changes, ∃ changes', calls.foldl afterCall (run changes) = run changes' from h []
  induction calls with
  | nil => exact fun changes => ⟨changes, rfl⟩
  | cons call calls ih =>
    intro changes
    rw [List.foldl_cons]
    obtain ⟨changes', h⟩ : ∃ changes', afterCall (run changes) call = run changes' := by
      cases call with
      | init => exact ⟨[], rfl⟩
      | declare s granted =>
        rw [afterCall, declare_eq]
        split
        · exact ⟨changes ++ [.insert s], by rw [run, run, List.foldl_append]; rfl⟩
        · exact ⟨changes, rfl⟩
    rw [h]
    exact ih changes'

/-- **The stacks partition the history**, after any declarations, refused ones among them, and starts over. A name has a
stack if and only if it is declared, with the positions of its declarations, in order and not one of them missing; so
each position of the history is on exactly one stack. What a name shadows is read off its stack without leaving the
history. A declaration is answered with the entry that it puts there, or refused, and then nothing changes. A look-up is
in vain only for a name without a stack. -/
theorem stacks_partition_history (calls : List Call) :
    (∀ n, n ∈ (after calls).positions ↔ ∃ s ∈ (after calls).history, s.name = n) ∧
    (∀ n stack, (after calls).positions[n]? = some stack → (after calls).IsStack n stack) ∧
    ((after calls).positions.toList.flatMap (·.2.toList)).Perm (List.range (after calls).history.size) ∧
    (∀ n, ((after calls).positions.getD n #[]).toList.reverse.map ((after calls).history[·]?) =
      ((after calls).shadowed n).map some) ∧
    (∀ granted s, (after calls).declare granted s =
      if ((after calls).needs s.name).all granted then (.ok (some s), (after calls).insert s)
      else (.error (.outOfMemory s.name), after calls)) ∧
    ∀ n, (after calls).lookup? n = none ↔ n ∉ (after calls).positions := by
  obtain ⟨changes, hrun⟩ := exists_run_eq_after calls
  have h : (after calls).Indexed := by
    rw [hrun]
    exact (tracks_run changes).indexed
  exact ⟨h.mem_positions_iff, fun n stack => h.isStack, h.perm_stacks, h.map_getElem?_stack,
    (after calls).declare_eq, h.lookup?_eq_none_iff⟩

/-- A name declared twice, with a refused declaration of another name between, behind a start over. -/
theorem stacks_partition_history_refusedBetween :
    let calls : List Call := [.declare ⟨"z", "int", 0⟩ fun _ => true, .init, .declare ⟨"x", "int", 1⟩ fun _ => true,
      .declare ⟨"y", "int", 2⟩ (· ≠ .type), .declare ⟨"y", "int", 3⟩ fun _ => true,
      .declare ⟨"x", "int", 4⟩ fun _ => true]
    (after calls).positions["x"]? = some #[0, 2] ∧ (after calls).IsStack "x" #[0, 2] ∧
      ((after calls).positions.toList.flatMap (·.2.toList)).Perm [0, 1, 2] ∧ "z" ∉ (after calls).positions := by
  intro calls
  have hrun : after calls =
      run [.insert ⟨"x", "int", 1⟩, .insert ⟨"y", "int", 3⟩, .insert ⟨"x", "int", 4⟩] := by
    simp [calls, after, afterCall, declare_eq, run, apply, needs, entryNeeds]
  have hx : (after calls).positions["x"]? = some #[0, 2] := by
    rw [hrun, (tracks_run _).indexed "x"]
    decide
  obtain ⟨hdeclared, hstack, hperm, -⟩ := stacks_partition_history calls
  refine ⟨hx, hstack "x" _ hx, ?_, ?_⟩
  · rw [hrun] at hperm ⊢
    exact hperm
  · rw [hdeclared, hrun]
    decide

end SymbolTable
end ThreeAddress
