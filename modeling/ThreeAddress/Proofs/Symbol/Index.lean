import ThreeAddress.Symbol.Table

/-!
# The stacks of a symbol table follow its history

* `places h n` : the positions in the history `h` that declare `n`, the oldest first;
* `SymbolTable.Indexed` : every declared name has its places on its stack, and no other name has a stack. The
  empty table is indexed and stays so under every declaration (`Indexed.insert`).
* In an indexed table the readers of the stacks read the chain: `Indexed.lookup?_eq`, `Indexed.shadowed_eq`,
  `Indexed.live_eq` with `unshadowed` for the entries of a chain that have no newer one of their name.
-/

namespace ThreeAddress
namespace SymbolTable

def places (history : List Symbol) (n : String) : List Nat :=
  (history.zipIdx.filter (·.1.name = n)).map (·.2)

def Indexed (t : SymbolTable) : Prop :=
  ∀ n, t.positions[n]? = if places t.history.toList n = [] then none else some (places t.history.toList n).toArray

/-- A newest-first chain without the entries that have an earlier entry of the same name in it. -/
def unshadowed (chain : List Symbol) : List Symbol :=
  (chain.zipIdx.filter fun p => (chain.take p.2).all (·.name ≠ p.1.name)).map (·.1)

/-! ## Places -/

theorem places_append_singleton (h : List Symbol) (s : Symbol) (n : String) :
    places (h ++ [s]) n = places h n ++ if s.name = n then [h.length] else [] := by
  unfold places
  rw [List.zipIdx_append, List.filter_append, List.map_append]
  congr 1
  by_cases hs : s.name = n <;> simp [hs]

theorem places_toList_insert (t : SymbolTable) (s : Symbol) (n : String) :
    places (t.insert s).history.toList n =
      places t.history.toList n ++ if s.name = n then [t.size] else [] := by
  unfold insert size
  rw [Array.toList_push, places_append_singleton, Array.length_toList]

/-- The places of a name are in the range of the history, and all its declarations stand there. -/
theorem mem_places_iff {h : List Symbol} {n : String} {i : Nat} :
    i ∈ places h n ↔ ∃ s, h[i]? = some s ∧ s.name = n := by
  constructor
  · intro hi
    obtain ⟨p, hp, rfl⟩ := List.mem_map.1 hi
    obtain ⟨hmem, hn⟩ := List.mem_filter.1 hp
    exact ⟨p.1, List.mem_zipIdx_iff_getElem?.1 hmem, of_decide_eq_true hn⟩
  · rintro ⟨s, hs, rfl⟩
    exact List.mem_map.2 ⟨(s, i), List.mem_filter.2 ⟨List.mem_zipIdx_iff_getElem?.2 hs, decide_eq_true rfl⟩, rfl⟩

theorem places_ne_nil_iff {h : List Symbol} {n : String} : places h n ≠ [] ↔ ∃ s ∈ h, s.name = n := by
  constructor
  · intro hne
    obtain ⟨i, hi⟩ := List.exists_mem_of_ne_nil _ hne
    obtain ⟨s, hs, hname⟩ := mem_places_iff.1 hi
    exact ⟨s, List.mem_of_getElem? hs, hname⟩
  · rintro ⟨s, hs, hname⟩
    obtain ⟨i, hi⟩ := List.mem_iff_getElem?.1 hs
    exact List.ne_nil_of_mem (mem_places_iff.2 ⟨s, hi, hname⟩)

theorem pairwise_snd_zipIdx (h : List Symbol) : (h.zipIdx.map (·.2)).Pairwise (· < ·) := by
  rw [List.zipIdx_map_snd]
  exact List.pairwise_lt_range'

theorem pairwise_places (h : List Symbol) (n : String) : (places h n).Pairwise (· < ·) :=
  (pairwise_snd_zipIdx h).sublist (List.filter_sublist.map _)

/-- Positions taken from a history lead back to the symbols they were taken with. -/
theorem filterMap_getElem?_map_snd (h : List Symbol) {ps : List (Symbol × Nat)}
    (hps : ∀ p ∈ ps, p ∈ h.zipIdx) : (ps.map (·.2)).filterMap (h[·]?) = ps.map (·.1) := by
  induction ps with
  | nil => rfl
  | cons p ps ih =>
    have hp := List.mem_zipIdx_iff_getElem?.1 (hps p (by simp))
    rw [List.map_cons, List.filterMap_cons, hp, List.map_cons, ih fun q hq => hps q (by simp [hq])]

/-- The symbols at the places of a name are its declarations. -/
theorem filterMap_places (h : List Symbol) (n : String) :
    (places h n).filterMap (h[·]?) = h.filter (·.name = n) := by
  rw [places, filterMap_getElem?_map_snd h fun p hp => (List.mem_filter.1 hp).1]
  have hfst := List.zipIdx_map_fst 0 h
  rw [← congrArg (List.filter _) hfst, List.filter_map]
  rfl

/-! ## Entries without a newer one of their name -/

theorem unshadowed_cons (s : Symbol) (c : List Symbol) :
    unshadowed (s :: c) = s :: (unshadowed c).filter (·.name ≠ s.name) := by
  unfold unshadowed
  rw [List.zipIdx_cons, List.filter_cons_of_pos (by simp), List.map_cons, List.zipIdx_succ, List.filter_map,
    List.map_map, List.filter_map, List.filter_filter]
  congr 2
  refine List.filter_congr fun p _ => ?_
  simp [eq_comm]

/-- The newest place of a name is what makes its declaration the first of its name in the chain. -/
theorem map_fst_filter_places (c : List Symbol) :
    (c.reverse.zipIdx.reverse.filter fun p => (places c.reverse p.1.name).getLast? = some p.2).map (·.1) =
      unshadowed c := by
  induction c with
  | nil => rfl
  | cons s c ih =>
    rw [unshadowed_cons, ← ih, List.reverse_cons, List.zipIdx_append, List.reverse_append, List.filter_append,
      List.map_append, List.filter_map, List.filter_filter]
    have hold : ∀ p ∈ c.reverse.zipIdx.reverse,
        decide ((places (c.reverse ++ [s]) p.1.name).getLast? = some p.2) =
          (decide (p.1.name ≠ s.name) && decide ((places c.reverse p.1.name).getLast? = some p.2)) := by
      intro p hp
      have hlt : p.2 < c.reverse.length := by
        have := List.mem_zipIdx (List.mem_reverse.1 hp)
        omega
      rw [places_append_singleton]
      by_cases hs : s.name = p.1.name
      · simp [hs]
        simp at hlt
        omega
      · simp [hs, Ne.symm hs]
    rw [List.filter_congr hold]
    simp [places_append_singleton]

/-! ## The invariant -/

theorem indexed_empty : empty.Indexed := by
  intro n
  rw [show places empty.history.toList n = [] from rfl, if_pos rfl]
  exact Std.HashMap.getElem?_empty

theorem Indexed.insert {t : SymbolTable} (h : t.Indexed) (s : Symbol) : (t.insert s).Indexed := by
  intro n
  have hn := h n
  rw [places_toList_insert]
  unfold SymbolTable.insert
  rw [Std.HashMap.getElem?_alter]
  by_cases hs : s.name = n
  · subst hs
    simp only [beq_self_eq_true, if_true, hn]
    by_cases hp : places t.history.toList s.name = []
    · simp [hp, size]
    · simp [hp, size]
  · simpa [hs] using hn

/-! ## The readers of the stacks -/

section Readers
variable {t : SymbolTable} (h : t.Indexed)
include h

theorem Indexed.getD_positions (n : String) :
    t.positions.getD n #[] = (places t.history.toList n).toArray := by
  rw [Std.HashMap.getD_eq_getD_getElem?, h n]
  by_cases hp : places t.history.toList n = [] <;> simp [hp]

theorem Indexed.newest?_eq (n : String) : t.newest? n = (places t.history.toList n).getLast? := by
  unfold newest?
  rw [h n]
  by_cases hp : places t.history.toList n = [] <;> simp [hp]

theorem Indexed.shadowed_eq (n : String) : t.shadowed n = t.chain.filter (·.name = n) := by
  unfold shadowed chain
  rw [h.getD_positions, List.filter_reverse, ← filterMap_places, ← List.filterMap_reverse]
  simp

/-- Every place is in range, so the newest one is the first that `shadowed` visits. -/
theorem Indexed.lookup?_eq_head?_shadowed (n : String) : t.lookup? n = (t.shadowed n).head? := by
  unfold lookup? shadowed
  rw [h.newest?_eq, h.getD_positions, ← List.head?_reverse]
  cases hp : (places t.history.toList n).reverse with
  | nil => rfl
  | cons i is =>
    have hi : i ∈ places t.history.toList n := by
      rw [← List.mem_reverse, hp]
      exact List.mem_cons_self
    obtain ⟨s, hs, -⟩ := mem_places_iff.1 hi
    rw [Array.getElem?_toList] at hs
    simp [hs]

theorem Indexed.lookup?_eq (n : String) : t.lookup? n = t.chain.find? (·.name = n) := by
  rw [h.lookup?_eq_head?_shadowed, h.shadowed_eq, List.head?_filter]

theorem Indexed.live_eq : t.live = unshadowed t.chain := by
  unfold live
  rw [← map_fst_filter_places, chain, List.reverse_reverse]
  simp only [h.newest?_eq]

end Readers

end SymbolTable
end ThreeAddress
