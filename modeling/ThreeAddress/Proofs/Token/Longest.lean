import ThreeAddress.Text.Class
import ThreeAddress.Token.Scanner

/-!
# Which rule matches the longest part

A run is a non-empty part of a text without gaps, line ends and the start of a comment.

* `Rule.extent_append` : what stands behind a run changes no rule's extent on it;
* `Rule.accepts r w` : the rule `r` matches all of `w`; of the rules that do the first one is taken
  (`Rule.find?_accepts`), so that no rule ends inside a run (`Rule.extent_longest_append`);
* at any other character one rule alone matches: `longest_newline`, `longest_gap`, `longest_comment`;
* `part_induction` : an induction over texts by what is read next.
-/

namespace ThreeAddress
open Text

/-- A part of a text that no gap, line end or comment breaks. -/
structure IsRun (w : List Char) : Prop where
  ne_nil : w ≠ []
  isWordChar : ∀ c ∈ w, isWordChar c = true

instance (w : List Char) : Decidable (IsRun w) :=
  decidable_of_iff (w ≠ [] ∧ w.all ThreeAddress.isWordChar = true)
    ⟨fun h => ⟨h.1, List.all_eq_true.1 h.2⟩, fun h => ⟨h.ne_nil, List.all_eq_true.2 h.isWordChar⟩⟩

theorem IsRun.notMem {w : List Char} (hw : IsRun w) {c : Char} (hc : ThreeAddress.isWordChar c = false) : c ∉ w := by
  intro h
  rw [hw.isWordChar c h] at hc
  cases hc

/-! ## Ends of runs -/

theorem runLength_append {p : Char → Bool} {cs : List Char} (h : EndsRun p cs) (w : List Char) :
    runLength p (w ++ cs) = runLength p w := by
  unfold runLength
  rw [takeWhile_append_of_endsRun h]

theorem prefix_append_iff {p : Char → Bool} {cs : List Char} (h : EndsRun p cs) {s : List Char}
    (hs : ∀ c ∈ s, p c = true) (w : List Char) : s <+: w ++ cs ↔ s <+: w := by
  refine ⟨fun hp => ?_, fun hp => hp.trans (List.prefix_append w cs)⟩
  obtain ⟨t, ht⟩ := hp
  have hw := takeWhile_append_of_endsRun h w
  rw [← ht, List.takeWhile_append_of_pos hs] at hw
  exact (List.prefix_append s _).trans (hw ▸ List.takeWhile_prefix p)

theorem runLength_eq_length_iff {p : Char → Bool} {w : List Char} :
    runLength p w = w.length ↔ w.all p = true := by
  unfold runLength
  induction w with
  | nil => simp
  | cons c w ih => by_cases hc : p c <;> simp [hc, ih]

/-! ## Classes of characters -/

theorem isWordChar_eq_false_iff {c : Char} :
    isWordChar c = false ↔ isGap c = true ∨ c = '\n' ∨ c = '#' := by
  unfold isWordChar
  by_cases hg : isGap c <;> by_cases hn : c = '\n' <;> simp [hg, hn]

theorem isWordChar_of_ne {p : Char → Bool} (hgap : ∀ c, isGap c = true → p c = false)
    (hnewline : p '\n' = false) (hhash : p '#' = false) {c : Char} (hc : p c = true) :
    isWordChar c = true := by
  rw [← Bool.not_eq_false]
  intro hw
  rcases isWordChar_eq_false_iff.1 hw with hg | rfl | rfl
  · rw [hgap c hg] at hc
    cases hc
  · rw [hnewline] at hc
    cases hc
  · rw [hhash] at hc
    cases hc

theorem isGap_iff {c : Char} : isGap c = true ↔ c = ' ' ∨ c = '\t' ∨ c = '\r' ∨ c = '\x0c' := by
  simp [isGap, or_assoc]

/-- A statement about gaps is one about four characters. -/
theorem forall_isGap {P : Char → Prop} (h : P ' ' ∧ P '\t' ∧ P '\r' ∧ P '\x0c') :
    ∀ c, isGap c = true → P c := by
  intro c hc
  obtain ⟨h₁, h₂, h₃, h₄⟩ := h
  rcases isGap_iff.1 hc with rfl | rfl | rfl | rfl <;> assumption

theorem isWordChar_of_isIdentifierChar {c : Char} (h : isIdentifierChar c = true) :
    isWordChar c = true :=
  isWordChar_of_ne (forall_isGap (by decide)) (by decide) (by decide) h

theorem isWordChar_of_isDigit {c : Char} (h : c.isDigit = true) : isWordChar c = true :=
  isWordChar_of_ne (p := Char.isDigit) (forall_isGap (by decide)) (by decide) (by decide) h

theorem isWordChar_of_isOperatorChar {c : Char} (h : isOperatorChar c = true) : isWordChar c = true :=
  isWordChar_of_ne (forall_isGap (by decide)) (by decide) (by decide) h

theorem isWordChar_of_mem_spelling (k : Keyword) : ∀ c ∈ k.spelling.toList, isWordChar c = true := by
  rw [← List.all_eq_true]
  cases k <;> decide

theorem isRun_spelling (k : Keyword) : IsRun k.spelling.toList where
  ne_nil := by cases k <;> decide
  isWordChar := isWordChar_of_mem_spelling k

theorem toNat_of_isAlpha {c : Char} (h : c.isAlpha = true) :
    65 ≤ c.toNat ∧ c.toNat ≤ 90 ∨ 97 ≤ c.toNat ∧ c.toNat ≤ 122 := by
  rcases Bool.or_eq_true_iff.1 h with hupper | hlower
  · obtain ⟨hlow, hhigh⟩ := of_decide_eq_true hupper
    exact .inl ⟨UInt32.le_iff_toNat_le.1 hlow, UInt32.le_iff_toNat_le.1 hhigh⟩
  · obtain ⟨hlow, hhigh⟩ := Bool.and_eq_true_iff.1 hlower
    exact .inr ⟨UInt32.le_iff_toNat_le.1 (of_decide_eq_true hlow), UInt32.le_iff_toNat_le.1 (of_decide_eq_true hhigh)⟩

theorem isIdentifierStart_of_isDigit {c : Char} (h : c.isDigit = true) : isIdentifierStart c = false := by
  obtain ⟨hlow, hhigh⟩ : 48 ≤ c.toNat ∧ c.toNat ≤ 57 := Char.isDigit_iff_toNat.1 h
  refine Bool.eq_false_iff.2 fun hstart => ?_
  rcases Bool.or_eq_true_iff.1 hstart with hletter | hunderscore
  · have := toNat_of_isAlpha hletter
    omega
  · rw [of_decide_eq_true hunderscore] at hhigh
    exact absurd hhigh (by decide)

/-! ## Whole words -/

/-- A letter or `_`, and then letters, digits, `_` and dots. -/
def isIdentifier : List Char → Bool
  | [] => false
  | c :: w => isIdentifierStart c && w.all isIdentifierChar

/-- Digits behind an optional `-`. -/
def isInteger (w : List Char) : Bool :=
  let digits := if w.head? = some '-' then w.tail else w
  !digits.isEmpty && digits.all Char.isDigit

theorem isIdentifier_spelling (k : Keyword) : isIdentifier k.spelling.toList = true := by
  cases k <;> decide

theorem isRun_of_isInteger {w : List Char} (h : isInteger w = true) : IsRun w := by
  unfold isInteger at h
  obtain ⟨hne, hall⟩ := Bool.and_eq_true_iff.1 h
  rw [Bool.not_eq_true', List.isEmpty_eq_false_iff] at hne
  rw [List.all_eq_true] at hall
  cases w with
  | nil => exact absurd rfl hne
  | cons c w =>
    refine ⟨List.cons_ne_nil c w, fun d hd => ?_⟩
    by_cases hsign : (c :: w).head? = some '-'
    · rw [if_pos hsign] at hall
      rcases List.mem_cons.1 hd with rfl | hd
      · rw [Option.some.inj hsign]
        decide
      · exact isWordChar_of_isDigit (hall d hd)
    · rw [if_neg hsign] at hall
      exact isWordChar_of_isDigit (hall d hd)

/-- No integer is an identifier. -/
theorem isIdentifier_of_isInteger {w : List Char} (h : isInteger w = true) : isIdentifier w = false := by
  cases w with
  | nil => rfl
  | cons c w =>
    have hstart : isIdentifierStart c = false := by
      unfold isInteger at h
      by_cases hsign : c = '-'
      · rw [hsign]
        decide
      · rw [List.head?_cons, if_neg (by simpa using hsign)] at h
        exact isIdentifierStart_of_isDigit (List.all_eq_true.1 (Bool.and_eq_true_iff.1 h).2 c List.mem_cons_self)
    rw [isIdentifier, hstart, Bool.false_and]

namespace Rule

/-- The rule matches all of the word `w`. -/
def accepts : Rule → List Char → Bool
  | keyword k, w => k.spelling.toList = w
  | identifier, w => isIdentifier w
  | integer, w => isInteger w
  | operator, w => w.all isOperatorChar
  | word, _ => true
  | newline, _ | gap, _ | comment, _ => false

/-- A part with this first character may match the rule. -/
def starts : Rule → Char → Bool
  | keyword k, c => k.spelling.toList.head? = some c
  | identifier, c => isIdentifierStart c
  | integer, c => c = '-' || c.isDigit
  | operator, c => isOperatorChar c
  | word, c => isWordChar c
  | newline, c => c = '\n'
  | gap, c => isGap c
  | comment, c => c = '#'

/-! ## Extents on a run -/

theorem extent_of_not_starts {r : Rule} {c : Char} (h : r.starts c = false) (cs : List Char) :
    r.extent (c :: cs) = 0 := by
  cases r with
  | keyword k =>
    refine if_neg fun hp => ?_
    obtain ⟨t, ht⟩ := hp
    cases hs : k.spelling.toList with
    | nil => cases k <;> cases hs
    | cons d ds =>
      rw [hs] at ht
      simp [starts, hs, (List.cons.inj ht).1] at h
  | integer =>
    simp only [starts, Bool.or_eq_false_iff, decide_eq_false_iff_not] at h
    simp [extent, integerLength, runLength, h.1, h.2]
  | operator | word | gap => simp_all [extent, runLength, starts]
  | identifier | newline | comment => simp_all [extent, headedLength, starts]

/-- What stands behind a run changes nothing for any rule. -/
theorem extent_append {w cs : List Char} (hw : IsRun w) (hcs : EndsRun isWordChar cs) (r : Rule) :
    r.extent (w ++ cs) = r.extent w := by
  obtain ⟨c, w, rfl⟩ := List.exists_cons_of_ne_nil hw.ne_nil
  have hc : isWordChar c = true := hw.isWordChar c (by simp)
  cases r with
  | keyword k =>
    unfold extent
    simp only [prefix_append_iff hcs (isWordChar_of_mem_spelling k)]
  | identifier =>
    have he := hcs.mono fun _ => isWordChar_of_isIdentifierChar
    simp [extent, headedLength, runLength_append he]
  | integer =>
    have he : EndsRun Char.isDigit cs := hcs.mono fun _ => isWordChar_of_isDigit
    have hc := runLength_append he (c :: w)
    rw [List.cons_append] at hc
    unfold extent integerLength
    rw [List.cons_append, List.head?_cons, List.head?_cons, List.tail_cons, List.tail_cons, hc,
      runLength_append he w]
  | operator => exact runLength_append (hcs.mono fun _ => isWordChar_of_isOperatorChar) _
  | word => exact runLength_append hcs _
  | newline | gap | comment =>
    have hr (r : Rule) (h : r.starts c = false) : r.extent (c :: w ++ cs) = r.extent (c :: w) := by
      rw [List.cons_append, extent_of_not_starts h, extent_of_not_starts h]
    refine hr _ ?_
    simp only [isWordChar, Bool.and_eq_true, Bool.not_eq_true', decide_eq_true_eq] at hc
    simp [starts, hc]

/-- To accept a run is to match it up to its end. -/
theorem extent_eq_length_iff {w : List Char} (hw : IsRun w) (r : Rule) :
    r.extent w = w.length ↔ r.accepts w = true := by
  obtain ⟨c, w, rfl⟩ := List.exists_cons_of_ne_nil hw.ne_nil
  have hc : isWordChar c = true := hw.isWordChar c (by simp)
  cases r with
  | keyword k =>
    simp only [extent, accepts, decide_eq_true_eq]
    constructor
    · intro h
      split at h
      · exact List.IsPrefix.eq_of_length ‹_› h
      · cases h
    · intro h
      rw [h, if_pos List.prefix_rfl]
  | identifier =>
    simp only [extent, headedLength, accepts, isIdentifier, Bool.and_eq_true, ← runLength_eq_length_iff]
    by_cases hi : isIdentifierStart c
    · rw [if_pos hi, List.length_cons, Nat.add_right_cancel_iff]
      exact (and_iff_right hi).symm
    · simp [hi]
  | integer =>
    simp only [extent, integerLength, accepts, isInteger, List.head?_cons, Option.some.injEq, List.tail_cons,
      Bool.and_eq_true, ← runLength_eq_length_iff]
    by_cases hm : c = '-'
    · rw [if_pos hm, if_pos hm]
      cases w with
      | nil => simp [runLength]
      | cons d w =>
        by_cases h0 : runLength Char.isDigit (d :: w) = 0
        · simp [h0]
        · simp [h0]
    · rw [if_neg hm, if_neg hm]
      simp
  | operator => exact runLength_eq_length_iff
  | word =>
    refine iff_of_true ?_ rfl
    exact runLength_eq_length_iff.2 (List.all_eq_true.2 hw.isWordChar)
  | newline | gap | comment =>
    refine iff_of_false ?_ Bool.false_ne_true
    simp only [isWordChar, Bool.and_eq_true, Bool.not_eq_true', decide_eq_true_eq] at hc
    rw [extent_of_not_starts (by simp [starts, hc])]
    simp

/-! ## The rule that is taken -/

/-- The longest rule is the first that reaches the greatest extent. -/
theorem find?_eq_foldl_longer {cs : List Char} {n : Nat} (rs : List Rule) (r : Rule)
    (hle : ∀ s ∈ r :: rs, s.extent cs ≤ n) (hex : ∃ s ∈ r :: rs, s.extent cs = n) :
    (r :: rs).find? (·.extent cs = n) = some (rs.foldl (longer cs) r) := by
  induction rs generalizing r with
  | nil =>
    obtain ⟨s, hs, he⟩ := hex
    rw [List.mem_singleton.1 hs] at he
    simp [he]
  | cons t rs ih =>
    have hr := hle r (by simp)
    have ht := hle t (by simp)
    have hrs : ∀ s ∈ rs, s.extent cs ≤ n := fun s hs => hle s (by simp [hs])
    rw [List.foldl_cons]
    by_cases hn : r.extent cs = n
    · have h := ih r (List.forall_mem_cons.2 ⟨hr, hrs⟩) ⟨r, by simp, hn⟩
      rw [List.find?_cons_of_pos (by simpa using hn)] at h ⊢
      rw [show longer cs r t = r from if_neg (by omega), h]
    · rw [List.find?_cons_of_neg (by simpa using hn)]
      obtain ⟨s, hs, he⟩ := hex
      have hs' : s ∈ t :: rs := (List.mem_cons.1 hs).resolve_left fun h => hn (h ▸ he)
      by_cases hlt : r.extent cs < t.extent cs
      · rw [show longer cs r t = t from if_pos hlt]
        exact ih t (List.forall_mem_cons.2 ⟨ht, hrs⟩) ⟨s, hs', he⟩
      · rw [show longer cs r t = r from if_neg hlt]
        have hmem : s ∈ rs := (List.mem_cons.1 hs').resolve_left fun h => by
          rw [h] at he
          omega
        have ht' : t.extent cs ≠ n := by omega
        rw [List.find?_cons_of_neg (by simpa using ht'),
          ← ih r (List.forall_mem_cons.2 ⟨hr, hrs⟩) ⟨s, by simp [hmem], he⟩,
          List.find?_cons_of_neg (by simpa using hn)]

theorem find?_eq_longest {cs : List Char} {n : Nat} (hle : ∀ r : Rule, r.extent cs ≤ n)
    (hex : ∃ r : Rule, r.extent cs = n) : all.find? (·.extent cs = n) = some (longest cs) := by
  obtain ⟨r, hr⟩ := hex
  exact find?_eq_foldl_longer all.tail _ (fun s _ => hle s) ⟨r, r.mem_all, hr⟩

/-- The first rule that accepts a run is taken for it, whatever stands behind. -/
theorem find?_accepts {w cs : List Char} (hw : IsRun w) (hcs : EndsRun isWordChar cs) :
    all.find? (·.accepts w) = some (longest (w ++ cs)) := by
  have hlen (r : Rule) : r.extent (w ++ cs) = w.length ↔ r.accepts w = true := by
    rw [extent_append hw hcs, extent_eq_length_iff hw]
  have hle (r : Rule) : r.extent (w ++ cs) ≤ w.length := by
    rw [extent_append hw hcs]
    exact r.extent_le w
  rw [← find?_eq_longest hle ⟨word, (hlen word).2 rfl⟩]
  congr 1
  funext r
  rw [Bool.eq_iff_iff, ← hlen, decide_eq_true_iff]

/-- **No rule ends inside a run.** -/
theorem extent_longest_append {w cs : List Char} (hw : IsRun w) (hcs : EndsRun isWordChar cs) :
    (longest (w ++ cs)).extent (w ++ cs) = w.length := by
  rw [extent_append hw hcs, extent_eq_length_iff hw]
  have h := List.find?_some (find?_accepts hw hcs)
  exact h

/-! ## At other characters -/

theorem longest_eq_of_starts {r : Rule} {c : Char} (h : ∀ s ∈ all, s ≠ r → s.starts c = false)
    (cs : List Char) : longest (c :: cs) = r := by
  have hpos := extent_longest_pos c cs
  refine Decidable.byContradiction fun hne => ?_
  rw [extent_of_not_starts (h _ (mem_all _) hne)] at hpos
  exact Nat.lt_irrefl 0 hpos

theorem longest_newline (cs : List Char) : longest ('\n' :: cs) = newline :=
  longest_eq_of_starts (by decide) cs

theorem longest_comment (cs : List Char) : longest ('#' :: cs) = comment :=
  longest_eq_of_starts (by decide) cs

theorem longest_gap {c : Char} (hc : isGap c = true) (cs : List Char) : longest (c :: cs) = gap :=
  longest_eq_of_starts (forall_isGap (P := fun c => ∀ s ∈ all, s ≠ gap → s.starts c = false)
    (by decide) c hc) cs

end Rule

/-! ## The parts of a text -/

/-- Every text is made of line ends, gaps, comments and runs, where a comment goes on to the end of its line
and a run to the next character that ends it. -/
theorem part_induction {P : List Char → Prop} (nil : P [])
    (newline : ∀ cs, P cs → P ('\n' :: cs)) (gap : ∀ c cs, isGap c = true → P cs → P (c :: cs))
    (comment : ∀ body cs, '\n' ∉ body → EndsRun (· ≠ '\n') cs → P cs → P ('#' :: body ++ cs))
    (run : ∀ w cs, IsRun w → EndsRun isWordChar cs → P cs → P (w ++ cs)) (cs : List Char) : P cs := by
  induction hn : cs.length using Nat.strongRecOn generalizing cs with
  | ind n ih =>
    subst hn
    cases cs with
    | nil => exact nil
    | cons c cs =>
      by_cases hw : isWordChar c
      · have hsplit := List.takeWhile_append_dropWhile (p := isWordChar) (l := c :: cs)
        have hrun : IsRun ((c :: cs).takeWhile isWordChar) :=
          ⟨by simp [hw], List.all_eq_true.1 List.all_takeWhile⟩
        have hlt : ((c :: cs).dropWhile isWordChar).length < (c :: cs).length := by
          have hpos := List.length_pos_iff.2 hrun.ne_nil
          have hlen := congrArg List.length hsplit
          rw [List.length_append] at hlen
          omega
        rw [← hsplit]
        exact run _ _ hrun (endsRun_dropWhile isWordChar _) (ih _ hlt _ rfl)
      · rw [Bool.not_eq_true] at hw
        rcases isWordChar_eq_false_iff.1 hw with hg | rfl | rfl
        · exact gap c cs hg (ih _ (by simp) _ rfl)
        · exact newline cs (ih _ (by simp) _ rfl)
        · have hsplit := List.takeWhile_append_dropWhile (p := (· ≠ '\n')) (l := cs)
          have hbody : '\n' ∉ cs.takeWhile (· ≠ '\n') := by
            intro h
            exact absurd (List.all_eq_true.1 List.all_takeWhile _ h) (by decide)
          have hlt : (cs.dropWhile (· ≠ '\n')).length < ('#' :: cs).length := by
            have hle := (List.dropWhile_sublist (· ≠ '\n') (l := cs)).length_le
            rw [List.length_cons]
            omega
          have h := comment _ _ hbody (endsRun_dropWhile (· ≠ '\n') cs) (ih _ hlt _ rfl)
          rwa [List.cons_append, hsplit] at h

end ThreeAddress
