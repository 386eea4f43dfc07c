import ThreeAddress.Proofs.Symbol.Chain

/-!
# Live declarations stand for the whole table

Of the declarations of one name exactly one is live, the newest, and with those that it shadows it makes up all of them.

* `SymbolTable.unshadowed` as a set of declarations (`mem_unshadowed_iff`), with their names (`nodup_names_unshadowed`,
  `mem_names_unshadowed_iff`) and their places (`exists_places_unshadowed`);
* `perm_flatMap_filter` : the classes of a list by a key, one for each of the keys, are the list in some order;
* `Indexed.lookup?_insert`, `Indexed.shadowed_insert`, `Indexed.live_insert` : what a declaration changes for other
  names;
* `SymbolTable.live_partition_chain` : all this for the table after any run.
-/

namespace ThreeAddress
namespace SymbolTable

/-! ## Entries without a newer one of their name -/

section Unshadowed
variable {c : List Symbol}

/-- An entry is unshadowed exactly when a search for its name finds it first. -/
theorem mem_unshadowed_iff {s : Symbol} : s ∈ unshadowed c ↔ c.find? (·.name = s.name) = some s := by
  induction c with
  | nil => exact iff_of_false List.not_mem_nil fun h => by cases h
  | cons t c ih =>
    rw [unshadowed_cons, List.mem_cons, List.mem_filter, ih]
    by_cases ht : t.name = s.name
    · have hnone : ¬decide (s.name ≠ t.name) = true := by simp [ht]
      rw [List.find?_cons_of_pos (by simpa using ht), Option.some.injEq]
      exact ⟨fun h => (h.resolve_right fun hc => hnone hc.2).symm, fun h => .inl h.symm⟩
    · rw [List.find?_cons_of_neg (by simpa using ht)]
      constructor
      · rintro (rfl | h)
        · exact absurd rfl ht
        · exact h.1
      · exact fun h => .inr ⟨h, decide_eq_true (Ne.symm ht)⟩

theorem nodup_names_unshadowed (c : List Symbol) : ((unshadowed c).map (·.name)).Nodup := by
  induction c with
  | nil => exact .nil
  | cons t c ih =>
    rw [unshadowed_cons, List.map_cons, List.nodup_cons]
    constructor
    · intro h
      obtain ⟨s, hs, hname⟩ := List.mem_map.1 h
      exact of_decide_eq_true (List.mem_filter.1 hs).2 hname
    · exact ih.sublist (List.filter_sublist.map _)

theorem mem_names_unshadowed_iff {n : String} : n ∈ (unshadowed c).map (·.name) ↔ n ∈ c.map (·.name) := by
  rw [List.mem_map, List.mem_map]
  constructor
  · rintro ⟨s, hs, rfl⟩
    exact ⟨s, List.mem_of_find?_eq_some (mem_unshadowed_iff.1 hs), rfl⟩
  · rintro ⟨t, ht, rfl⟩
    obtain ⟨s, hs⟩ := Option.isSome_iff_exists.1 (List.find?_isSome.2 ⟨t, ht, by simp⟩ :
      (c.find? (·.name = t.name)).isSome = true)
    have hname : s.name = t.name := by simpa using List.find?_some hs
    exact ⟨s, mem_unshadowed_iff.2 (by rwa [hname]), hname⟩

/-- They stand in the order of the chain, each at the first place of its name. -/
theorem exists_places_unshadowed (chain : List Symbol) :
    ∃ ps : List (Symbol × Nat), unshadowed chain = ps.map (·.1) ∧ ps.Pairwise (fun p q => p.2 < q.2) ∧
      ∀ p ∈ ps, chain[p.2]? = some p.1 ∧ ∀ s ∈ chain.take p.2, s.name ≠ p.1.name := by
  refine ⟨_, rfl, ?_, fun p hp => ?_⟩
  · exact (List.pairwise_map.1 (pairwise_snd_zipIdx chain)).sublist List.filter_sublist
  · obtain ⟨hplace, hfirst⟩ := List.mem_filter.1 hp
    exact ⟨List.mem_zipIdx_iff_getElem?.1 hplace, fun s hs => of_decide_eq_true (List.all_eq_true.1 hfirst s hs)⟩

end Unshadowed

/-- Taken key by key, a list keeps all its entries, also those that are in it more than once. -/
theorem perm_flatMap_filter {α β : Type} [DecidableEq β] (key : α → β) {ks : List β} (hks : ks.Nodup) {as : List α}
    (h : ∀ a ∈ as, key a ∈ ks) : (ks.flatMap fun k => as.filter (key · = k)).Perm as := by
  induction ks generalizing as with
  | nil =>
    rw [List.eq_nil_iff_forall_not_mem.2 fun a ha => List.not_mem_nil (h a ha)]
    exact .nil
  | cons k ks ih =>
    obtain ⟨hk, hnodup⟩ := List.nodup_cons.1 hks
    have hothers : ∀ a ∈ as.filter (fun a => !decide (key a = k)), key a ∈ ks := by
      intro a ha
      obtain ⟨hmem, hne⟩ := List.mem_filter.1 ha
      exact (List.mem_cons.1 (h a hmem)).resolve_left (by simpa using hne)
    have hclass : ∀ l ∈ ks, as.filter (key · = l) = (as.filter (fun a => !decide (key a = k))).filter (key · = l) := by
      intro l hl
      rw [List.filter_filter]
      refine List.filter_congr fun a _ => ?_
      by_cases hal : key a = l
      · have hne : key a ≠ k := by
          rintro rfl
          exact hk (hal ▸ hl)
        simp [hne]
      · simp [hal]
    rw [List.flatMap_cons, List.flatMap_def, List.map_congr_left hclass, ← List.flatMap_def]
    exact ((ih hnodup hothers).append_left _).trans (List.filter_append_perm _ as)

/-! ## One more declaration -/

section Insert
variable {t : SymbolTable} (h : t.Indexed) (s : Symbol)
include h

theorem Indexed.lookup?_insert {n : String} (hn : n ≠ s.name) : (t.insert s).lookup? n = t.lookup? n := by
  rw [(h.insert s).lookup?_eq, h.lookup?_eq, chain_insert, List.find?_cons_of_neg (by simpa using hn.symm)]

theorem Indexed.shadowed_insert {n : String} (hn : n ≠ s.name) : (t.insert s).shadowed n = t.shadowed n := by
  rw [(h.insert s).shadowed_eq, h.shadowed_eq, chain_insert, List.filter_cons_of_neg (by simpa using hn.symm)]

/-- A new declaration comes first, and of the others only one of its name is gone. -/
theorem Indexed.live_insert : (t.insert s).live = s :: t.live.filter (·.name ≠ s.name) := by
  rw [(h.insert s).live_eq, h.live_eq, chain_insert, unshadowed_cons]

end Insert

/-- **The live declarations partition the table.** There is one for each name that is declared, the one that the name is
resolved to, and no other. They stand in the order of the chain, each at the first place of its name. Each with those
that it shadows, they are the declarations of the table, none lost and none twice. A new declaration changes nothing of
what other names are resolved to or shadow, nor the order of their live declarations. -/
theorem live_partition_chain (changes : List Change) :
    ((run changes).live.map (·.name)).Nodup ∧
    (∀ n, n ∈ (run changes).live.map (·.name) ↔ n ∈ (run changes).chain.map (·.name)) ∧
    (∀ s ∈ (run changes).live, (run changes).lookup? s.name = some s) ∧
    (∃ ps : List (Symbol × Nat), (run changes).live = ps.map (·.1) ∧ ps.Pairwise (fun p q => p.2 < q.2) ∧
      ∀ p ∈ ps, (run changes).chain[p.2]? = some p.1 ∧ ∀ s ∈ (run changes).chain.take p.2, s.name ≠ p.1.name) ∧
    ((run changes).live.flatMap fun s => (run changes).shadowed s.name).Perm (run changes).chain ∧
    ∀ s : Symbol,
      (∀ n ≠ s.name, ((run changes).insert s).lookup? n = (run changes).lookup? n ∧
        ((run changes).insert s).shadowed n = (run changes).shadowed n) ∧
      ((run changes).insert s).live = s :: (run changes).live.filter (·.name ≠ s.name) := by
  have h := (tracks_run changes).indexed
  refine ⟨?nodup, fun n => ?names, fun s hs => ?newest, ?order, ?perm,
    fun s => ⟨fun n hn => ⟨h.lookup?_insert s hn, h.shadowed_insert s hn⟩, h.live_insert s⟩⟩
  case nodup =>
    rw [h.live_eq]
    exact nodup_names_unshadowed _
  case names =>
    rw [h.live_eq]
    exact mem_names_unshadowed_iff
  case newest =>
    rw [h.live_eq] at hs
    rw [h.lookup?_eq]
    exact mem_unshadowed_iff.1 hs
  case order =>
    rw [h.live_eq]
    exact exists_places_unshadowed _
  case perm =>
    have hcover : ∀ s ∈ (run changes).chain, s.name ∈ (unshadowed (run changes).chain).map (·.name) := fun s hs =>
      mem_names_unshadowed_iff.2 (List.mem_map_of_mem hs)
    have hperm := perm_flatMap_filter Symbol.name (nodup_names_unshadowed (run changes).chain) hcover
    rw [List.flatMap_map] at hperm
    simpa only [h.live_eq, h.shadowed_eq] using hperm

/-- The same declaration twice, with another between them, behind a start over. -/
theorem live_partition_chain_declaredAgain :
    let x : Symbol := ⟨"x", "int", 1⟩
    let y : Symbol := ⟨"y", "int", 2⟩
    let t := run [.insert ⟨"z", "int", 0⟩, .init, .insert x, .insert y, .insert x]
    x ∈ t.live ∧ t.lookup? "x" = some x ∧ (t.live.flatMap fun s => t.shadowed s.name).Perm [x, y, x] ∧
      "y" ≠ "x" ∧ (t.insert x).lookup? "y" = t.lookup? "y" ∧ (t.insert x).live = x :: t.live.filter (·.name ≠ "x") := by
  intro x y t
  obtain ⟨-, -, hnewest, -, hperm, hinsert⟩ :=
    live_partition_chain [.insert ⟨"z", "int", 0⟩, .init, .insert x, .insert y, .insert x]
  have hx : x ∈ t.live := by
    rw [(tracks_run _).indexed.live_eq]
    decide
  have hy : "y" ≠ "x" := by decide
  exact ⟨hx, hnewest x hx, hperm, hy, ((hinsert x).1 "y" hy).1, (hinsert x).2⟩

end SymbolTable
end ThreeAddress
