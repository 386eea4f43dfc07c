/-!
# Classes of characters, given by closed ranges of code points

* `inRanges rs c` : the code point of `c` lies in one of the ranges `rs`;
* `EndsRun p cs` : no run of the class `p` goes on into `cs`, so that the run ends there (`append_inj_of_endsRun`);
* `runs sep cs` : the maximal runs of `cs` between separators, of characters or of anything else, in order
  (`runs_append_cons`, `runs_of_forall`, `runs_append`, `runs_eq_cons`, `of_mem_runs`).
-/

namespace ThreeAddress.Text

abbrev Ranges := List (Nat × Nat)

def inRanges (rs : Ranges) (c : Char) : Bool := rs.any fun r => r.1 ≤ c.toNat && c.toNat ≤ r.2

theorem inRanges_iff {rs : Ranges} {c : Char} :
    inRanges rs c = true ↔ ∃ r ∈ rs, r.1 ≤ c.toNat ∧ c.toNat ≤ r.2 := by
  simp [inRanges]

/-! ## Runs -/

section Runs
variable {α : Type} {p q sep : α → Bool}

/-- What stands before `cs` is at most the end of a run of the class `p`. -/
def EndsRun (p : α → Bool) (cs : List α) : Prop := ∀ c ∈ cs.head?, p c = false

instance (cs : List α) : Decidable (EndsRun p cs) := Option.decidableForallMem _

theorem endsRun_nil (p : α → Bool) : EndsRun p [] := fun _ hc => by cases hc

theorem endsRun_cons {c : α} (h : p c = false) (cs : List α) : EndsRun p (c :: cs) := fun d hd => by
  cases hd
  exact h

theorem endsRun_dropWhile (p : α → Bool) (cs : List α) : EndsRun p (cs.dropWhile p) := by
  intro c hc
  have h := List.head?_dropWhile_not p cs
  rw [Option.mem_def.1 hc] at h
  exact h

theorem EndsRun.mono {cs : List α} (h : EndsRun p cs) (hq : ∀ c, q c = true → p c = true) :
    EndsRun q cs := by
  intro c hc
  have hp := h c hc
  cases hqc : q c with
  | false => rfl
  | true => rw [hq c hqc] at hp; exact hp

theorem EndsRun.of_append {cs ds : List α} (h : EndsRun p (cs ++ ds)) : EndsRun p cs := by
  cases cs with
  | nil => exact endsRun_nil p
  | cons c cs => exact h

theorem EndsRun.append {cs : List α} (h : EndsRun p cs) (hne : cs ≠ []) (ds : List α) : EndsRun p (cs ++ ds) := by
  cases cs with
  | nil => exact absurd rfl hne
  | cons c cs => exact h

theorem endsRun_append {cs ds : List α} (hcs : EndsRun p cs) (hds : EndsRun p ds) : EndsRun p (cs ++ ds) := by
  by_cases hne : cs = []
  · rwa [hne, List.nil_append]
  · exact hcs.append hne ds

theorem endsRun_append_iff {cs : List α} (hne : cs ≠ []) {ds : List α} : EndsRun p (cs ++ ds) ↔ EndsRun p cs :=
  ⟨EndsRun.of_append, fun h => h.append hne ds⟩

theorem EndsRun.dropWhile_eq {cs : List α} (h : EndsRun p cs) : cs.dropWhile p = cs := by
  cases cs with
  | nil => rfl
  | cons c cs => exact List.dropWhile_cons_of_neg (by simp [h c (by simp)])

theorem takeWhile_append_of_endsRun {cs : List α} (h : EndsRun p cs) (w : List α) :
    (w ++ cs).takeWhile p = w.takeWhile p := by
  rw [List.takeWhile_append]
  split
  · have hnil : cs.takeWhile p = [] := by
      cases cs with
      | nil => rfl
      | cons c cs => exact List.takeWhile_cons_of_neg (by simp [h c (by simp)])
    rw [hnil, List.append_nil, (List.takeWhile_prefix p).eq_of_length ‹_›]
  · rfl

theorem dropWhile_append_of_endsRun {cs : List α} (h : EndsRun p cs) (w : List α) :
    (w ++ cs).dropWhile p = w.dropWhile p ++ cs := by
  rw [List.dropWhile_append]
  split
  · next hw => rw [h.dropWhile_eq, List.isEmpty_iff.1 hw, List.nil_append]
  · rfl

/-- A text falls into a run and what stands behind it in one way only. -/
theorem append_inj_of_endsRun {v w cs ds : List α} (hv : ∀ c ∈ v, p c = true) (hw : ∀ c ∈ w, p c = true)
    (hcs : EndsRun p cs) (hds : EndsRun p ds) (h : v ++ cs = w ++ ds) : v = w ∧ cs = ds := by
  have htake (x : List α) (hx : ∀ c ∈ x, p c = true) (es : List α) (hes : EndsRun p es) : (x ++ es).takeWhile p = x := by
    rw [takeWhile_append_of_endsRun hes, ← List.append_nil x, List.takeWhile_append_of_pos hx, List.takeWhile_nil]
  have hvw : v = w := by rw [← htake v hv cs hcs, h, htake w hw ds hds]
  rw [hvw] at h
  exact ⟨hvw, List.append_cancel_left h⟩

def runs (sep : α → Bool) (cs : List α) : List (List α) :=
  (cs.splitOnP sep).filter fun w => !w.isEmpty

@[simp] theorem runs_nil (sep : α → Bool) : runs sep [] = [] := rfl

/-- Runs end at a separator; everything about `runs` follows from this. -/
theorem runs_append_cons {c : α} (hc : sep c = true) (as bs : List α) :
    runs sep (as ++ c :: bs) = runs sep as ++ runs sep bs := by
  rw [runs, List.splitOnP_append_cons as bs hc, List.filter_append, runs, runs]

theorem runs_cons {c : α} (hc : sep c = true) (cs : List α) : runs sep (c :: cs) = runs sep cs := by
  rw [← List.nil_append (c :: cs), runs_append_cons hc, runs_nil, List.nil_append]

/-- A list without separators is one run. -/
theorem runs_of_forall {cs : List α} (h : cs ≠ []) (hc : ∀ c ∈ cs, sep c = false) : runs sep cs = [cs] := by
  rw [runs, List.splitOnP_eq_singleton hc]
  simp [h]

/-- A first run ends where a separator stands. -/
theorem runs_append {w cs : List α} (hw : w ≠ []) (hsep : ∀ c ∈ w, sep c = false)
    (hcs : ∀ c ∈ cs.head?, sep c = true) : runs sep (w ++ cs) = w :: runs sep cs := by
  cases cs with
  | nil => rw [List.append_nil, runs_of_forall hw hsep, runs_nil]
  | cons c cs =>
    have hc : sep c = true := hcs c (by simp)
    rw [runs_append_cons hc, runs_of_forall hw hsep, runs_cons hc, List.singleton_append]

/-- Where no separator stands in front, the first run goes on to the first one. -/
theorem runs_eq_cons {cs : List α} (h : cs ≠ []) (hc : EndsRun sep cs) :
    ∃ w rest, cs = w ++ rest ∧ EndsRun (!sep ·) rest ∧ runs sep cs = w :: runs sep rest := by
  refine ⟨cs.takeWhile (!sep ·), cs.dropWhile (!sep ·), List.takeWhile_append_dropWhile.symm,
    endsRun_dropWhile _ cs, ?_⟩
  have hw : cs.takeWhile (!sep ·) ≠ [] := by
    cases cs with
    | nil => exact absurd rfl h
    | cons c cs =>
      rw [List.takeWhile_cons_of_pos (by simpa using hc c rfl)]
      exact List.cons_ne_nil _ _
  have happ : runs sep (cs.takeWhile (!sep ·) ++ cs.dropWhile (!sep ·)) =
      cs.takeWhile (!sep ·) :: runs sep (cs.dropWhile (!sep ·)) := by
    refine runs_append hw (fun c hc => ?_) fun c hc => ?_
    · simpa using List.all_eq_true.1 List.all_takeWhile c hc
    · simpa using endsRun_dropWhile (!sep ·) cs c hc
  rwa [List.takeWhile_append_dropWhile] at happ

/-- A run holds nothing but elements of the list, and no separator. -/
theorem of_mem_runs {cs w : List α} (hw : w ∈ runs sep cs) {c : α} (hc : c ∈ w) : c ∈ cs ∧ sep c = false := by
  have hmem := (List.mem_filter.1 hw).1
  clear hw
  induction cs generalizing w with
  | nil =>
    rw [List.splitOnP_nil, List.mem_singleton] at hmem
    rw [hmem] at hc
    cases hc
  | cons d cs ih =>
    rw [List.splitOnP_cons_eq_if_modifyHead] at hmem
    split at hmem
    · rcases List.mem_cons.1 hmem with rfl | hmem
      · cases hc
      · exact (ih hc hmem).imp_left (List.mem_cons_of_mem _)
    · next hd =>
      obtain ⟨v, vs, hv⟩ := List.exists_cons_of_ne_nil (List.splitOnP_ne_nil sep cs)
      rw [hv] at hmem ih
      rcases List.mem_cons.1 hmem with rfl | hmem
      · rcases List.mem_cons.1 hc with rfl | hc
        · exact ⟨List.mem_cons_self, by simpa using hd⟩
        · exact (ih hc List.mem_cons_self).imp_left (List.mem_cons_of_mem _)
      · exact (ih hc (List.mem_cons_of_mem _ hmem)).imp_left (List.mem_cons_of_mem _)

end Runs

end ThreeAddress.Text
