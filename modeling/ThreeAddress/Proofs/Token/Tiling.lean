import ThreeAddress.Proofs.Token.Place

/-!
# Tokens tile their text

A text is cut into parts, each behind the other: those that tokens are made of, and gaps and comments between them. The
scanner cuts it like this, so nothing is lost, read twice or shifted.

* `Kind.IsCut`, `IsFiller` : the parts, each with what stands behind it, which decides where a word or a comment ends;
* `Tiled cs k ts` : the text `cs`, whose first byte has the number `k`, is cut into the tokens `ts` and fillers.
  Every text is, in one way (`Scanner.tiled`, `Tiled.unique`);
* `Tiled.bounds`, `Tiled.pairwise` : the tokens stand in the text, in order and apart;
* `Tiled.exists_between` : tokens that follow each other tile the part of the text from the first to the last of them;
* `InFiller cs b` : the byte `b` belongs to a filler, and so to no token (`Tiled.forall_not_holds_iff`);
* `Token.ofText_tiles` : all this for the tokens of a whole text, whether they are taken at once or one by one.
-/

namespace ThreeAddress
open Text

/-! ## Parts of a text -/

/-- What a token of this kind is made of: a line end, or a word up to its end. -/
inductive Kind.IsCut : Kind → List Char → List Char → Prop
  | newline (back : List Char) : IsCut .newline ['\n'] back
  | word {w back : List Char} (hw : IsRun w) (hback : EndsRun isWordChar back) : IsCut (ofWord w) w back

/-- What stands between tokens: a gap, or a comment that goes on to the end of its line. -/
inductive IsFiller : List Char → List Char → Prop
  | gap {c : Char} (hc : isGap c = true) (back : List Char) : IsFiller [c] back
  | comment {body back : List Char} (hbody : '\n' ∉ body) (hback : EndsRun (· ≠ '\n') back) :
      IsFiller ('#' :: body) back

section Parts
variable {kind : Kind} {part back : List Char}

theorem Kind.IsCut.ne_nil (h : kind.IsCut part back) : part ≠ [] := by
  cases h with
  | newline => exact List.cons_ne_nil _ _
  | word hw => exact hw.ne_nil

theorem Kind.IsCut.ne_endOfText (h : kind.IsCut part back) : kind ≠ .endOfText := by
  cases h with
  | newline => exact Kind.noConfusion
  | word => exact ofWord_ne_endOfText _

/-- Neither gaps nor the start of a comment stand in a token. -/
theorem Kind.IsCut.notMem (h : kind.IsCut part back) {c : Char} (hc : isGap c = true ∨ c = '#') : c ∉ part := by
  cases h with
  | newline =>
    rw [List.mem_singleton]
    rintro rfl
    exact absurd hc (by decide)
  | word hw => exact hw.notMem (isWordChar_eq_false_iff.2 (hc.imp_right .inr))

theorem Kind.IsCut.count_newline (h : kind.IsCut part back) :
    part.count '\n' = if kind = .newline then 1 else 0 := by
  cases h with
  | newline => rfl
  | word hw =>
    have hne : ofWord part ≠ .newline := by
      intro hnewline
      have htext := text?_ofWord part
      rw [hnewline] at htext
      cases htext
    rw [List.count_eq_zero.2 (hw.notMem (by decide)), if_neg hne]

theorem IsFiller.newline_notMem (h : IsFiller part back) : '\n' ∉ part := by
  cases h with
  | gap hc =>
    rw [List.mem_singleton]
    rintro rfl
    exact absurd hc (by decide)
  | comment hbody => simpa using hbody

/-- What stands further behind decides nothing. -/
theorem Kind.IsCut.of_append {rest : List Char} (h : kind.IsCut part (back ++ rest)) : kind.IsCut part back := by
  cases h with
  | newline => exact .newline back
  | word hw hback => exact .word hw hback.of_append

theorem IsFiller.of_append {rest : List Char} (h : IsFiller part (back ++ rest)) : IsFiller part back := by
  cases h with
  | gap hc => exact .gap hc back
  | comment hbody hback => exact .comment hbody hback.of_append

end Parts

namespace Scanner

theorem next_filler {part cs : List Char} (h : IsFiller part cs) (k : Nat) :
    (Scanner.mk (part ++ cs) k).next = (Scanner.mk cs (k + utf8Length part)).next := by
  cases h with
  | gap hc => exact next_gap hc cs k
  | comment hbody hcs => exact next_comment hbody hcs k

theorem next_cut {kind : Kind} {part cs : List Char} (h : kind.IsCut part cs) (k : Nat) :
    (Scanner.mk (part ++ cs) k).next =
      (⟨kind, k, k + utf8Length part⟩, ⟨cs, k + utf8Length part⟩) := by
  cases h with
  | newline => exact next_newline cs k
  | word hw hcs => exact next_run hw hcs k

theorem tokens_filler {part cs : List Char} (h : IsFiller part cs) (k : Nat) :
    (Scanner.mk (part ++ cs) k).tokens = (Scanner.mk cs (k + utf8Length part)).tokens :=
  tokens_congr (next_filler h k)

theorem tokens_cut {kind : Kind} {part cs : List Char} (h : kind.IsCut part cs) (k : Nat) :
    (Scanner.mk (part ++ cs) k).tokens =
      ⟨kind, k, k + utf8Length part⟩ :: (Scanner.mk cs (k + utf8Length part)).tokens := by
  rw [tokens_of_next (by rw [next_cut h]; exact h.ne_endOfText), next_cut h]

end Scanner

/-! ## Tilings -/

/-- The text is cut into fillers and what these tokens are made of. Its first byte has the number `k`. -/
inductive Tiled : List Char → Nat → List Token → Prop
  | nil (k : Nat) : Tiled [] k []
  | filler {part cs : List Char} {k : Nat} {ts : List Token} (h : IsFiller part cs)
      (rest : Tiled cs (k + utf8Length part) ts) : Tiled (part ++ cs) k ts
  | token {kind : Kind} {part cs : List Char} {k : Nat} {ts : List Token} (h : kind.IsCut part cs)
      (rest : Tiled cs (k + utf8Length part) ts) : Tiled (part ++ cs) k (⟨kind, k, k + utf8Length part⟩ :: ts)

namespace Tiled

variable {cs : List Char} {k : Nat} {ts : List Token}

theorem exists_tiled (cs : List Char) (k : Nat) : ∃ ts, Tiled cs k ts := by
  induction cs using part_induction generalizing k with
  | nil => exact ⟨[], .nil k⟩
  | newline cs ih =>
    obtain ⟨ts, hts⟩ := ih (k + 1)
    exact ⟨_, .token (.newline cs) hts⟩
  | gap c cs hc ih =>
    obtain ⟨ts, hts⟩ := ih (k + utf8Length [c])
    exact ⟨ts, .filler (.gap hc cs) hts⟩
  | comment body cs hbody hcs ih =>
    obtain ⟨ts, hts⟩ := ih (k + utf8Length ('#' :: body))
    exact ⟨ts, .filler (.comment hbody hcs) hts⟩
  | run w cs hw hcs ih =>
    obtain ⟨ts, hts⟩ := ih (k + utf8Length w)
    exact ⟨_, .token (.word hw hcs) hts⟩

/-- The scanner finds the tokens of any tiling, so there is but one. -/
theorem tokens_eq (h : Tiled cs k ts) :
    (Scanner.mk cs k).tokens = ts ++ [⟨.endOfText, k + utf8Length cs, k + utf8Length cs⟩] := by
  induction h with
  | nil k => exact Scanner.tokens_nil k
  | filler hpart _ ih => rw [Scanner.tokens_filler hpart, ih, utf8Length_append, Nat.add_assoc]
  | token hpart _ ih =>
    rw [Scanner.tokens_cut hpart, ih, utf8Length_append, Nat.add_assoc, List.cons_append]

theorem standsIn (h : Tiled cs k ts) : ∀ t ∈ ts, t.StandsIn cs k := fun t ht =>
  Scanner.standsIn_of_mem_tokens (by rw [h.tokens_eq]; exact List.mem_append_left _ ht)

/-- Taken one by one, the tokens are followed by the end of the text again and again. -/
theorem take_eq (h : Tiled cs k ts) {n m : Nat} (hn : n ≤ m) :
    (Scanner.mk cs k).take n =
      (ts ++ List.replicate m (⟨.endOfText, k + utf8Length cs, k + utf8Length cs⟩ : Token)).take n := by
  induction h generalizing n m with
  | nil k =>
    have hnext : (Scanner.mk [] k).next = (⟨.endOfText, k, k⟩, ⟨[], k⟩) := Scanner.next_of_nil rfl
    rw [List.nil_append, List.take_replicate, Nat.min_eq_left hn]
    induction n with
    | zero => rfl
    | succ n ih =>
      rw [Scanner.take, hnext, List.replicate_succ, ih (by omega)]
      rfl
  | @filler part cs k ts hpart _ ih =>
    rw [utf8Length_append, ← Nat.add_assoc, ← ih hn]
    cases n with
    | zero => rfl
    | succ n => rw [Scanner.take, Scanner.take, Scanner.next_filler hpart]
  | @token kind part cs k ts hpart _ ih =>
    cases n with
    | zero => rfl
    | succ n =>
      rw [utf8Length_append, ← Nat.add_assoc, Scanner.take, Scanner.next_cut hpart, List.cons_append,
        List.take_succ_cons, ih (Nat.le_of_succ_le hn)]

/-! ## Places -/

theorem bounds (h : Tiled cs k ts) :
    ∀ t ∈ ts, k ≤ t.span.start ∧ t.span.start < t.span.stop ∧ t.span.stop ≤ k + utf8Length cs := by
  induction h with
  | nil => exact List.forall_mem_nil _
  | @filler part cs k ts _ _ ih =>
    intro t ht
    have := ih t ht
    rw [utf8Length_append]
    omega
  | @token kind part cs k ts hpart _ ih =>
    have hpos : part.length ≤ utf8Length part := length_le_utf8Length part
    have hlength := List.length_pos_iff.2 hpart.ne_nil
    rw [utf8Length_append, List.forall_mem_cons]
    refine ⟨?_, fun t ht => ?_⟩
    · show k ≤ k ∧ k < k + utf8Length part ∧ k + utf8Length part ≤ k + (utf8Length part + utf8Length cs)
      omega
    · have := ih t ht
      omega

theorem pairwise (h : Tiled cs k ts) : ts.Pairwise fun t u => t.span.stop ≤ u.span.start := by
  induction h with
  | nil => exact .nil
  | filler _ _ ih => exact ih
  | token _ rest ih => exact List.pairwise_cons.2 ⟨fun t ht => (rest.bounds t ht).1, ih⟩

theorem ne_endOfText (h : Tiled cs k ts) : ∀ t ∈ ts, t.kind ≠ .endOfText := by
  induction h with
  | nil => exact List.forall_mem_nil _
  | filler _ _ ih => exact ih
  | token hpart _ ih => exact List.forall_mem_cons.2 ⟨hpart.ne_endOfText, ih⟩

/-- No line end is in a comment or a word. -/
theorem countP_newline (h : Tiled cs k ts) : ts.countP (·.kind = .newline) = cs.count '\n' := by
  induction h with
  | nil => rfl
  | filler hpart _ ih => rw [ih, List.count_append, List.count_eq_zero.2 hpart.newline_notMem, Nat.zero_add]
  | token hpart _ ih =>
    rw [List.count_append, hpart.count_newline, ← ih, List.countP_cons]
    simp only [decide_eq_true_iff]
    exact Nat.add_comm _ _

end Tiled

theorem Scanner.tiled (cs : List Char) (k : Nat) : Tiled cs k (Scanner.mk cs k).tokens.dropLast := by
  obtain ⟨ts, hts⟩ := Tiled.exists_tiled cs k
  rwa [hts.tokens_eq, List.dropLast_concat]

/-! ## Parts of a tiling -/

namespace Tiled

variable {cs : List Char} {k : Nat} {ts us : List Token} {t : Token}

theorem unique (h : Tiled cs k ts) (h' : Tiled cs k us) : ts = us :=
  List.append_cancel_right (h.tokens_eq.symm.trans h'.tokens_eq)

theorem shift (h : Tiled cs k ts) (d : Nat) : Tiled cs (k + d) (ts.map (Token.shift d)) := by
  induction h with
  | nil k => exact .nil (k + d)
  | filler hpart _ ih =>
    rw [Nat.add_right_comm] at ih
    exact .filler hpart ih
  | token hpart _ ih =>
    rw [Nat.add_right_comm] at ih
    rw [List.map_cons, Token.shift, Span.shift, Nat.add_right_comm]
    exact .token hpart ih

/-- From a token on, the rest of the tokens tile the rest of the text. -/
theorem exists_from (h : Tiled cs k (us ++ t :: ts)) :
    ∃ front back, cs = front ++ back ∧ t.span.start = k + utf8Length front ∧ Tiled back t.span.start (t :: ts) := by
  generalize hall : us ++ t :: ts = all at h
  induction h generalizing us with
  | nil => simp at hall
  | @filler part cs k all hpart _ ih =>
    obtain ⟨front, back, rfl, hstart, hrest⟩ := ih hall
    refine ⟨part ++ front, back, by rw [List.append_assoc], ?_, hrest⟩
    rw [hstart, utf8Length_append, Nat.add_assoc]
  | @token kind part cs k all hpart rest ih =>
    cases us with
    | nil =>
      obtain ⟨rfl, rfl⟩ := List.cons.inj hall
      exact ⟨[], part ++ cs, rfl, rfl, .token hpart rest⟩
    | cons u us =>
      obtain ⟨front, back, rfl, hstart, hrest⟩ := ih (List.cons.inj hall).2
      refine ⟨part ++ front, back, by rw [List.append_assoc], ?_, hrest⟩
      rw [hstart, utf8Length_append, Nat.add_assoc]

/-- Up to the end of a token, the tokens tile the front of the text. -/
theorem exists_upTo (h : Tiled cs k (us ++ t :: ts)) :
    ∃ front back, cs = front ++ back ∧ t.span.stop = k + utf8Length front ∧ Tiled front k (us ++ [t]) := by
  generalize hall : us ++ t :: ts = all at h
  induction h generalizing us with
  | nil => simp at hall
  | @filler part cs k all hpart _ ih =>
    obtain ⟨front, back, rfl, hstop, hfront⟩ := ih hall
    refine ⟨part ++ front, back, by rw [List.append_assoc], ?_, .filler hpart.of_append hfront⟩
    rw [hstop, utf8Length_append, Nat.add_assoc]
  | @token kind part cs k all hpart _ ih =>
    cases us with
    | nil =>
      obtain ⟨rfl, -⟩ := List.cons.inj hall
      refine ⟨part, cs, rfl, rfl, ?_⟩
      have hcut : kind.IsCut part ([] ++ cs) := hpart
      have hsingle := Tiled.token (k := k) hcut.of_append (.nil _)
      rwa [List.append_nil] at hsingle
    | cons u us =>
      obtain ⟨rfl, hrest⟩ := List.cons.inj hall
      obtain ⟨front, back, rfl, hstop, hfront⟩ := ih hrest
      refine ⟨part ++ front, back, by rw [List.append_assoc], ?_, .token hpart.of_append hfront⟩
      rw [hstop, utf8Length_append, Nat.add_assoc]

/-- Between the first and the last of them, tokens that stand next to each other tile a part of the text. -/
theorem exists_between {before part after : List Token} (h : Tiled cs k (before ++ part ++ after)) (hne : part ≠ []) :
    ∃ front w back, cs = front ++ w ++ back ∧ Tiled w (k + utf8Length front) part ∧
      (part.head hne).span.start = k + utf8Length front ∧
      (part.getLast hne).span.stop = k + utf8Length front + utf8Length w := by
  rw [← List.cons_head_tail hne, List.append_assoc, List.cons_append] at h
  obtain ⟨front, rest, rfl, hstart, hrest⟩ := h.exists_from
  rw [hstart, ← List.cons_append, List.cons_head_tail hne, ← List.dropLast_concat_getLast hne,
    List.append_assoc] at hrest
  obtain ⟨w, back, rfl, hstop, hw⟩ := hrest.exists_upTo
  rw [List.dropLast_concat_getLast hne] at hw
  exact ⟨front, w, back, (List.append_assoc ..).symm, hw, hstart, hstop⟩

end Tiled

/-! ## What stands between tokens -/

def Span.Holds (s : Span) (b : Nat) : Prop := s.start ≤ b ∧ b < s.stop

/-- The byte `b` of the text belongs to a gap or a comment. -/
def InFiller (cs : List Char) (b : Nat) : Prop :=
  ∃ front part back, cs = front ++ part ++ back ∧ IsFiller part back ∧
    utf8Length front ≤ b ∧ b < utf8Length front + utf8Length part

section Fillers
variable {part cs : List Char} {b : Nat}

theorem IsFiller.inFiller (h : IsFiller part cs) (hb : b < utf8Length part) : InFiller (part ++ cs) b :=
  ⟨[], part, cs, rfl, h, Nat.zero_le _, by rwa [utf8Length_nil, Nat.zero_add]⟩

/-- A gap or a comment that begins in a part shows there. -/
theorem InFiller.exists_mem (h : InFiller (part ++ cs) b) (hb : b < utf8Length part) :
    ∃ c ∈ part, isGap c = true ∨ c = '#' := by
  obtain ⟨front, mid, back, hcs, hmid, hlow, -⟩ := h
  rw [List.append_assoc] at hcs
  obtain ⟨part', rfl, hrest⟩ := exists_eq_append_of_utf8Length_le hcs.symm (by omega)
  cases part' with
  | nil =>
    rw [List.append_nil] at hb
    omega
  | cons c part' =>
    refine ⟨c, by simp, ?_⟩
    cases hmid with
    | gap hc => exact .inl ((List.cons.inj hrest).1 ▸ hc)
    | comment => exact .inr (List.cons.inj hrest).1.symm

/-- A comment that begins in a part and goes on behind it goes on to the end of the line. -/
theorem IsFiller.endsRun (h : IsFiller part cs) (hhash : '#' ∈ part) : EndsRun (· ≠ '\n') cs := by
  cases h with
  | gap hc =>
    rw [List.mem_singleton] at hhash
    rw [← hhash] at hc
    exact absurd hc (by decide)
  | comment _ hcs => exact hcs

/-- What stands in front matters to no gap, and to no comment unless it is in one itself. -/
theorem inFiller_append_iff (h : '#' ∈ part → EndsRun (· ≠ '\n') cs) :
    InFiller (part ++ cs) (utf8Length part + b) ↔ InFiller cs b := by
  constructor
  · rintro ⟨front, mid, back, hcs, hmid, hlow, hhigh⟩
    rw [List.append_assoc] at hcs
    rcases Nat.lt_or_ge (utf8Length front) (utf8Length part) with hlt | hge
    · obtain ⟨part', rfl, hrest⟩ := exists_eq_append_of_utf8Length_le hcs.symm (Nat.le_of_lt hlt)
      rw [utf8Length_append] at hlt hhigh
      obtain ⟨more, rfl, rfl⟩ := exists_eq_append_of_utf8Length_le hrest.symm (by omega)
      rw [utf8Length_append] at hhigh
      obtain ⟨c, part', rfl⟩ : ∃ c rest, part' = c :: rest := List.exists_cons_of_ne_nil fun hnil => by
        rw [hnil, utf8Length_nil] at hlt
        omega
      obtain ⟨d, more, rfl⟩ : ∃ d rest, more = d :: rest := List.exists_cons_of_ne_nil fun hnil => by
        rw [hnil, utf8Length_nil] at hhigh
        omega
      generalize hcut : c :: part' ++ d :: more = mid at hmid
      cases hmid with
      | gap => simp at hcut
      | comment hbody =>
        obtain ⟨rfl, rfl⟩ := List.cons.inj hcut
        have hd : d ≠ '\n' := fun hnewline => hbody (by simp [hnewline])
        exact absurd (h (by simp) d rfl) (by simpa using hd)
    · obtain ⟨front', rfl, hrest⟩ := exists_eq_append_of_utf8Length_le hcs hge
      refine ⟨front', mid, back, by rw [hrest, List.append_assoc], hmid, ?_⟩
      rw [utf8Length_append] at hlow hhigh
      omega
  · rintro ⟨front, mid, back, rfl, hmid, hlow, hhigh⟩
    refine ⟨part ++ front, mid, back, by simp, hmid, ?_⟩
    rw [utf8Length_append]
    omega

end Fillers

/-- **A byte is in no token exactly when it is of a gap or a comment.** -/
theorem Tiled.forall_not_holds_iff {cs : List Char} {k : Nat} {ts : List Token} (h : Tiled cs k ts) {b : Nat}
    (hb : b < utf8Length cs) : (∀ t ∈ ts, ¬t.span.Holds (k + b)) ↔ InFiller cs b := by
  induction h generalizing b with
  | nil => exact absurd hb (Nat.not_lt_zero b)
  | @filler part cs k ts hpart rest ih =>
    rw [utf8Length_append] at hb
    rcases Nat.lt_or_ge b (utf8Length part) with hlt | hge
    · refine iff_of_true (fun t ht hholds => ?_) (hpart.inFiller hlt)
      have hstart := (rest.bounds t ht).1
      have hlow := hholds.1
      omega
    · obtain ⟨b, rfl⟩ := Nat.exists_eq_add_of_le hge
      rw [← Nat.add_assoc, ih (by omega), inFiller_append_iff hpart.endsRun]
  | @token kind part cs k ts hpart rest ih =>
    rw [utf8Length_append] at hb
    rw [List.forall_mem_cons]
    rcases Nat.lt_or_ge b (utf8Length part) with hlt | hge
    · refine iff_of_false (fun hnot => hnot.1 ⟨Nat.le_add_right _ _, Nat.add_lt_add_left hlt k⟩) fun hin => ?_
      obtain ⟨c, hmem, hc⟩ := hin.exists_mem hlt
      exact hpart.notMem hc hmem
    · obtain ⟨b, rfl⟩ := Nat.exists_eq_add_of_le hge
      have hbehind : ¬Span.Holds ⟨k, k + utf8Length part⟩ (k + (utf8Length part + b)) := fun hholds => by
        have hhigh : k + (utf8Length part + b) < k + utf8Length part := hholds.2
        omega
      rw [and_iff_right hbehind, ← Nat.add_assoc, ih (by omega),
        inFiller_append_iff fun hhash => absurd hhash (hpart.notMem (.inr rfl))]

/-! ## Whole texts -/

/-- **The tokens of a text tile it.** The last is the end of the text and no other is. The others stand in the text
between two of its characters, one behind the other, and each of them spells what stands at its span. What is in none of
them is gaps and comments, and every line end is one of them. Taken one by one they are the same, and then comes the end
of the text again and again. -/
theorem Token.ofText_tiles (text : String) :
    ∃ ts, ofText text = ts ++ [⟨.endOfText, text.utf8ByteSize, text.utf8ByteSize⟩] ∧
      (∀ t ∈ ts, t.kind ≠ .endOfText ∧ t.span.start < t.span.stop ∧ t.span.stop ≤ text.utf8ByteSize ∧
        slice? text.toList t.span = some (t.kind.text?.getD "\n").toList) ∧
      ts.Pairwise (fun t u => t.span.stop ≤ u.span.start) ∧
      (∀ b < text.utf8ByteSize, (∀ t ∈ ts, ¬t.span.Holds b) ↔ InFiller text.toList b) ∧
      ts.countP (·.kind = .newline) = text.toList.count '\n' ∧
      ∀ n, (Scanner.ofText text).take n =
        (ofText text ++ List.replicate n (⟨.endOfText, text.utf8ByteSize, text.utf8ByteSize⟩ : Token)).take n := by
  obtain ⟨ts, hts⟩ := Tiled.exists_tiled text.toList 0
  have htext : ofText text = ts ++ [⟨.endOfText, text.utf8ByteSize, text.utf8ByteSize⟩] := by
    have htokens := hts.tokens_eq
    rwa [Nat.zero_add, utf8Length_toList] at htokens
  refine ⟨ts, htext, fun t ht => ?_, hts.pairwise, fun b hb => ?_, hts.countP_newline, fun n => ?_⟩
  · obtain ⟨-, hlt, hle⟩ := hts.bounds t ht
    rw [Nat.zero_add, utf8Length_toList] at hle
    obtain ⟨-, -, w, hw, hspelled⟩ := slice?_of_mem_ofText (htext ▸ List.mem_append_left _ ht)
    exact ⟨hts.ne_endOfText t ht, hlt, hle, hw.trans (congrArg some (hspelled.eq_getD (hts.ne_endOfText t ht)))⟩
  · have hnot := hts.forall_not_holds_iff (b := b) (by rwa [utf8Length_toList])
    rwa [Nat.zero_add] at hnot
  · have htake := hts.take_eq (Nat.le_succ n)
    rw [Nat.zero_add, utf8Length_toList, List.replicate_succ] at htake
    rw [htext, List.append_assoc]
    exact htake

/-- The word has two bytes, and the comment ends before the line end. -/
example : Token.ofText "\u00e9# x\n" = [⟨.word "\u00e9", 0, 2⟩, ⟨.newline, 5, 6⟩, ⟨.endOfText, 6, 6⟩] := by
  decide +kernel

end ThreeAddress
