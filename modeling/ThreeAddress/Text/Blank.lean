import ThreeAddress.Text.Class

/-!
# Blanks: the characters with the Unicode property White_Space

* `isBlank` : the 25 characters of the property, in ten ranges;
* `trim` : a text without the blanks at its two ends, the only part of it that begins and ends with no blank and
  has nothing but blanks around it (`exists_trim`, `trim_append`);
* `words` : the maximal runs of other characters, which blanks at the ends do not change (`words_trim`).
-/

namespace ThreeAddress.Text

def blankRanges : Ranges :=
  [(0x09, 0x0D), (0x20, 0x20), (0x85, 0x85), (0xA0, 0xA0), (0x1680, 0x1680), (0x2000, 0x200A),
   (0x2028, 0x2029), (0x202F, 0x202F), (0x205F, 0x205F), (0x3000, 0x3000)]

def isBlank (c : Char) : Bool := inRanges blankRanges c

def trimStart (cs : List Char) : List Char := cs.dropWhile isBlank

def trimEnd (cs : List Char) : List Char := (cs.reverse.dropWhile isBlank).reverse

def trim (cs : List Char) : List Char := trimEnd (trimStart cs)

def words (cs : List Char) : List (List Char) := runs isBlank cs

/-- No blank is among the visible characters of ASCII. -/
theorem isBlank_eq_false_of_bounds {c : Char} (hlow : 33 ≤ c.toNat) (hhigh : c.toNat ≤ 126) : isBlank c = false := by
  refine Bool.eq_false_iff.2 fun hc => ?_
  obtain ⟨r, hr, hr₁, hr₂⟩ := inRanges_iff.1 hc
  have houtside : ∀ r ∈ blankRanges, r.2 < 33 ∨ 126 < r.1 := by decide
  have := houtside r hr
  omega

theorem isBlank_of_isDigit {c : Char} (h : c.isDigit = true) : isBlank c = false := by
  obtain ⟨hlow, hhigh⟩ : 48 ≤ c.toNat ∧ c.toNat ≤ 57 := Char.isDigit_iff_toNat.1 h
  exact isBlank_eq_false_of_bounds (by omega) (by omega)

/-! ## Trimmed texts -/

/-- No blank stands at either end. -/
def Trimmed (cs : List Char) : Prop := EndsRun isBlank cs ∧ EndsRun isBlank cs.reverse

instance (cs : List Char) : Decidable (Trimmed cs) := instDecidableAnd

theorem trimmed_of_forall {cs : List Char} (h : ∀ c ∈ cs, isBlank c = false) : Trimmed cs := by
  refine ⟨fun c hc => h c (List.mem_of_mem_head? hc), fun c hc => h c ?_⟩
  rw [← List.mem_reverse]
  exact List.mem_of_mem_head? hc

/-- Only the outer parts decide. -/
theorem trimmed_append_iff {front mid back : List Char} (hfront : front ≠ []) (hback : back ≠ []) :
    Trimmed (front ++ mid ++ back) ↔ EndsRun isBlank front ∧ EndsRun isBlank back.reverse := by
  rw [Trimmed, List.append_assoc, endsRun_append_iff hfront, ← List.append_assoc, List.reverse_append,
    endsRun_append_iff (by simpa using hback)]

theorem trimStart_of_forall {cs : List Char} (h : ∀ c ∈ cs, isBlank c = true) : trimStart cs = [] := by
  rw [trimStart, ← List.append_nil cs, List.dropWhile_append_of_pos h, List.dropWhile_nil]

/-- A text is what `trim` leaves of it with blanks around. -/
theorem exists_trim (cs : List Char) : ∃ front back, cs = front ++ trim cs ++ back ∧
    (∀ c ∈ front, isBlank c = true) ∧ (∀ c ∈ back, isBlank c = true) ∧ Trimmed (trim cs) := by
  have hend : trimStart cs = trim cs ++ ((trimStart cs).reverse.takeWhile isBlank).reverse := by
    rw [trim, trimEnd, ← List.reverse_append, List.takeWhile_append_dropWhile, List.reverse_reverse]
  refine ⟨cs.takeWhile isBlank, ((trimStart cs).reverse.takeWhile isBlank).reverse, ?_, fun c hc => ?_,
    fun c hc => ?_, ?_, ?_⟩
  · rw [List.append_assoc, ← hend, trimStart, List.takeWhile_append_dropWhile]
  · exact List.all_eq_true.1 List.all_takeWhile c hc
  · exact List.all_eq_true.1 List.all_takeWhile c (List.mem_reverse.1 hc)
  · have hstart : EndsRun isBlank (trimStart cs) := endsRun_dropWhile isBlank cs
    rw [hend] at hstart
    exact hstart.of_append
  · rw [trim, trimEnd, List.reverse_reverse]
    exact endsRun_dropWhile isBlank _

theorem trimmed_trim (cs : List Char) : Trimmed (trim cs) := by
  obtain ⟨-, -, -, -, -, h⟩ := exists_trim cs
  exact h

/-- Blanks around a trimmed text come off. -/
theorem trim_append {front cs back : List Char} (hfront : ∀ c ∈ front, isBlank c = true)
    (hback : ∀ c ∈ back, isBlank c = true) (hcs : Trimmed cs) : trim (front ++ cs ++ back) = cs := by
  have hrest : trimStart (front ++ cs ++ back) = trimStart (cs ++ back) := by
    rw [trimStart, List.append_assoc, List.dropWhile_append_of_pos hfront, trimStart]
  rw [trim, hrest]
  cases cs with
  | nil =>
    rw [List.nil_append, trimStart_of_forall hback]
    rfl
  | cons c cs =>
    have hstart : trimStart (c :: cs ++ back) = c :: cs ++ back := EndsRun.dropWhile_eq hcs.1
    rw [hstart, trimEnd, List.reverse_append,
      List.dropWhile_append_of_pos fun c hc => hback c (List.mem_reverse.1 hc), hcs.2.dropWhile_eq,
      List.reverse_reverse]

theorem Trimmed.trim_eq {cs : List Char} (h : Trimmed cs) : trim cs = cs := by
  have : trim ([] ++ cs ++ []) = cs := trim_append (List.forall_mem_nil _) (List.forall_mem_nil _) h
  rwa [List.nil_append, List.append_nil] at this

theorem trim_eq_self_iff {cs : List Char} : trim cs = cs ↔ Trimmed cs := by
  refine ⟨fun h => ?_, Trimmed.trim_eq⟩
  rw [← h]
  exact trimmed_trim cs

theorem trim_eq_nil_iff {cs : List Char} : trim cs = [] ↔ ∀ c ∈ cs, isBlank c = true := by
  constructor
  · intro h
    obtain ⟨front, back, hcs, hfront, hback, -⟩ := exists_trim cs
    rw [h, List.append_nil] at hcs
    rw [hcs]
    exact fun c hc => (List.mem_append.1 hc).elim (hfront c) (hback c)
  · intro h
    rw [trim, trimStart_of_forall h]
    rfl

theorem mem_trim_of_mem {cs : List Char} {c : Char} (h : c ∈ cs) (hc : isBlank c = false) : c ∈ trim cs := by
  obtain ⟨front, back, hcs, hfront, hback, -⟩ := exists_trim cs
  rw [hcs, List.mem_append, List.mem_append] at h
  rcases h with (h | h) | h
  · rw [hfront c h] at hc
    cases hc
  · exact h
  · rw [hback c h] at hc
    cases hc

theorem mem_of_mem_trim {cs : List Char} {c : Char} (h : c ∈ trim cs) : c ∈ cs := by
  obtain ⟨front, back, hcs, -⟩ := exists_trim cs
  rw [hcs]
  simp [h]

/-- Nothing comes off in front of a first character that is no blank. -/
theorem head?_trim {c : Char} {cs : List Char} (h : cs.head? = some c) (hc : isBlank c = false) :
    (trim cs).head? = some c := by
  obtain ⟨front, back, hcs, hfront, hback, -⟩ := exists_trim cs
  have hblank : ∀ d ∈ front ++ back, d ≠ c := by
    rintro d hd rfl
    rw [(List.mem_append.1 hd).elim (hfront d) (hback d)] at hc
    cases hc
  rw [hcs, List.append_assoc, List.head?_append] at h
  cases front with
  | cons d front => exact absurd (Option.some.inj h) (hblank d (by simp))
  | nil =>
    rw [List.head?_nil, Option.none_or, List.head?_append] at h
    cases htrim : (trim cs).head? with
    | some d => rwa [htrim, Option.some_or] at h
    | none =>
      rw [htrim, Option.none_or] at h
      exact absurd rfl (hblank c (List.mem_of_mem_head? h))

theorem trim_append_blanks {back : List Char} (h : ∀ c ∈ back, isBlank c = true) (cs : List Char) :
    trim (cs ++ back) = trim cs := by
  obtain ⟨front, back', hcs, hfront, hback', htrim⟩ := exists_trim cs
  have hback : ∀ c ∈ back' ++ back, isBlank c = true := List.forall_mem_append.2 ⟨hback', h⟩
  have := trim_append hfront hback htrim
  rwa [← List.append_assoc, ← hcs] at this

theorem trim_append_of_forall {cs : List Char} (h : ∀ c ∈ cs, isBlank c = true) (ds : List Char) :
    trim (cs ++ ds) = trim ds := by
  rw [trim, trimStart, List.dropWhile_append_of_pos h, trim, trimStart]

theorem trim_trimStart (cs : List Char) : trim (trimStart cs) = trim cs := by
  rw [trim, trimStart, trimStart, (endsRun_dropWhile isBlank cs).dropWhile_eq, trim, trimStart]

/-- Between a text that is not all blanks and one that ends with no blank everything is kept. -/
theorem trim_append_of_ne_nil {cs ds : List Char} (h : trim cs ≠ []) (hd : EndsRun isBlank ds.reverse)
    (hne : ds ≠ []) : trim (cs ++ ds) = trimStart cs ++ ds := by
  have hstart : ¬(cs.dropWhile isBlank).isEmpty = true := by
    intro hnil
    rw [trim, trimStart, List.isEmpty_iff.1 hnil] at h
    exact h rfl
  have happ : trimStart (cs ++ ds) = trimStart cs ++ ds := by
    rw [trimStart, List.dropWhile_append, if_neg hstart, trimStart]
  rw [trim, happ, trimEnd, List.reverse_append, (hd.append (by simpa using hne) _).dropWhile_eq,
    ← List.reverse_append, List.reverse_reverse]

/-! ## Words -/

/-- A word is not empty and holds no blank. -/
theorem of_mem_words {cs w : List Char} (hw : w ∈ words cs) : w ≠ [] ∧ ∀ c ∈ w, c ∈ cs ∧ isBlank c = false :=
  ⟨by simpa using (List.mem_filter.1 hw).2, fun _ => of_mem_runs hw⟩

theorem words_append_of_forall {cs : List Char} (h : ∀ c ∈ cs, isBlank c = true) (ds : List Char) :
    words (cs ++ ds) = words ds := by
  induction cs with
  | nil => rfl
  | cons c cs ih =>
    rw [List.forall_mem_cons] at h
    rw [List.cons_append, words, runs_cons h.1]
    exact ih h.2

theorem words_append_blanks {back : List Char} (h : ∀ c ∈ back, isBlank c = true) (cs : List Char) :
    words (cs ++ back) = words cs := by
  cases back with
  | nil => rw [List.append_nil]
  | cons c back =>
    rw [List.forall_mem_cons] at h
    have hnone : words back = [] := by rw [← List.append_nil back, words_append_of_forall h.2]; rfl
    rw [words, runs_append_cons h.1]
    show words cs ++ words back = words cs
    rw [hnone, List.append_nil]

/-- Blanks at the ends of a text belong to no word. -/
theorem words_trim (cs : List Char) : words (trim cs) = words cs := by
  obtain ⟨front, back, hcs, hfront, hback, -⟩ := exists_trim cs
  calc words (trim cs) = words (front ++ trim cs) := (words_append_of_forall hfront _).symm
    _ = words (front ++ trim cs ++ back) := (words_append_blanks hback _).symm
    _ = words cs := by rw [← hcs]

end ThreeAddress.Text
