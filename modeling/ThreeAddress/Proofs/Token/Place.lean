import ThreeAddress.Proofs.Token.Words

/-!
# Where tokens stand in their text

* `Kind.IsSpelled k w` : `w` is a whole part of a text that a token of the kind `k` is made of;
* `Token.StandsIn t cs k` : the token `t` has such a part at its span. All tokens do (`Scanner.standsIn_of_mem_tokens`), so
  that a span lies in its text and on the boundaries of its characters (`Token.slice?_of_mem_ofText`), and the text of a
  token is a run of characters (`Token.word_of_mem_ofText`);
* `Scanner.tokens_append` : a line end cuts the tokens of a text into those before and those from it on
  (`Scanner.tokens_append_newline`), and the last token stands at the end (`Scanner.tokens_eq_append_end`);
* `Kind.exists_ofLines_eq` : kinds that occur in texts are, in any order, the kinds of some text.
-/

namespace ThreeAddress
open Text

inductive Kind.IsSpelled : Kind → List Char → Prop
  | word {w : List Char} (hw : IsRun w) : IsSpelled (ofWord w) w
  | newline : IsSpelled .newline ['\n']
  | endOfText : IsSpelled .endOfText []

theorem Kind.isSpelled_ofWord (w : List Char) (hne : w ≠ []) (hall : w.all isWordChar = true) :
    (ofWord w).IsSpelled w :=
  .word ⟨hne, List.all_eq_true.1 hall⟩

theorem Kind.IsSpelled.eq_of_text? {k : Kind} {part : List Char} (h : k.IsSpelled part) {w : String}
    (hw : k.text? = some w) : w.toList = part ∧ IsRun part := by
  cases h with
  | word hrun =>
    rw [text?_ofWord] at hw
    rw [← Option.some.inj hw, String.toList_ofList]
    exact ⟨rfl, hrun⟩
  | newline => cases hw
  | endOfText => cases hw

theorem Kind.IsSpelled.eq_getD {k : Kind} {part : List Char} (h : k.IsSpelled part) (hk : k ≠ .endOfText) :
    part = (k.text?.getD "\n").toList := by
  cases h with
  | word => rw [text?_ofWord, Option.getD_some, String.toList_ofList]
  | newline => rfl
  | endOfText => exact absurd rfl hk

/-! ## Places of tokens -/

/-- The span of a token lies around a part that spells it, in a text whose first byte has the number `k`. -/
def Token.StandsIn (t : Token) (cs : List Char) (k : Nat) : Prop :=
  ∃ front w back, cs = front ++ w ++ back ∧ t.kind.IsSpelled w ∧
    t.span = ⟨k + utf8Length front, k + utf8Length front + utf8Length w⟩

theorem Token.standsIn_append {t : Token} (part : List Char) {cs : List Char} {k : Nat}
    (h : t.StandsIn cs (k + utf8Length part)) : t.StandsIn (part ++ cs) k := by
  obtain ⟨front, w, back, rfl, hw, hspan⟩ := h
  refine ⟨part ++ front, w, back, by simp, hw, ?_⟩
  rw [hspan, utf8Length_append, Nat.add_assoc k]

/-- A token that starts where the text starts is its front. -/
theorem Token.StandsIn.isPrefix {t : Token} {cs : List Char} {k : Nat} (h : t.StandsIn cs k) (hstart : t.span.start = k)
    {w : String} (hw : t.kind.text? = some w) : w.toList <+: cs := by
  obtain ⟨front, part, back, rfl, hpart, hspan⟩ := h
  have hplace : t.span.start = k + utf8Length front := by rw [hspan]
  obtain rfl := utf8Length_eq_zero_iff.1 (by omega : utf8Length front = 0)
  rw [(hpart.eq_of_text? hw).1]
  exact List.prefix_append part back

/-- A token that stops where the text stops is its back. -/
theorem Token.StandsIn.isSuffix {t : Token} {cs : List Char} {k : Nat} (h : t.StandsIn cs k)
    (hstop : t.span.stop = k + utf8Length cs) {w : String} (hw : t.kind.text? = some w) : w.toList <:+ cs := by
  obtain ⟨front, part, back, rfl, hpart, hspan⟩ := h
  have hplace : t.span.stop = k + utf8Length front + utf8Length part := by rw [hspan]
  rw [utf8Length_append, utf8Length_append] at hstop
  obtain rfl := utf8Length_eq_zero_iff.1 (by omega : utf8Length back = 0)
  rw [(hpart.eq_of_text? hw).1, List.append_nil]
  exact List.suffix_append front part

namespace Scanner

theorem standsIn_of_mem_tokens {cs : List Char} {k : Nat} {t : Token} (ht : t ∈ (Scanner.mk cs k).tokens) :
    t.StandsIn cs k := by
  induction cs using part_induction generalizing k with
  | nil =>
    rw [tokens_nil, List.mem_singleton] at ht
    subst ht
    exact ⟨[], [], [], rfl, .endOfText, rfl⟩
  | newline cs ih =>
    rw [tokens_newline] at ht
    rcases List.mem_cons.1 ht with rfl | ht
    · exact ⟨[], ['\n'], cs, rfl, .newline, rfl⟩
    · exact Token.standsIn_append ['\n'] (ih ht)
  | gap c cs hc ih =>
    rw [tokens_gap hc] at ht
    exact Token.standsIn_append [c] (ih ht)
  | comment body cs hbody hcs ih =>
    rw [tokens_comment hbody hcs] at ht
    exact Token.standsIn_append _ (ih ht)
  | run w cs hw hcs ih =>
    rw [tokens_run hw hcs] at ht
    rcases List.mem_cons.1 ht with rfl | ht
    · exact ⟨[], w, cs, rfl, .word hw, rfl⟩
    · exact Token.standsIn_append _ (ih ht)

/-! ## Texts one behind the other -/

theorem tokens_ne_nil (s : Scanner) : s.tokens ≠ [] := by
  rw [tokens]
  split
  · exact List.cons_ne_nil _ _
  · exact List.cons_ne_nil _ _

/-- What begins with a line end has its own tokens, whatever stands in front. -/
theorem tokens_append {bs : List Char} (hbs : EndsRun (· ≠ '\n') bs) (as : List Char) (k : Nat) :
    (Scanner.mk (as ++ bs) k).tokens =
      (Scanner.mk as k).tokens.dropLast ++ (Scanner.mk bs (k + utf8Length as)).tokens := by
  induction as using part_induction generalizing k with
  | nil =>
    rw [tokens_nil]
    rfl
  | newline cs ih =>
    have hsize : '\n'.utf8Size = 1 := rfl
    rw [List.cons_append, tokens_newline, tokens_newline, List.dropLast_cons_of_ne_nil (tokens_ne_nil _), ih,
      utf8Length_cons, hsize, Nat.add_assoc]
    rfl
  | gap c cs hc ih => rw [List.cons_append, tokens_gap hc, tokens_gap hc, ih, utf8Length_cons, Nat.add_assoc]
  | comment body cs hbody hcs ih =>
    rw [List.append_assoc, tokens_comment hbody (endsRun_append hcs hbs), tokens_comment hbody hcs, ih,
      utf8Length_append, Nat.add_assoc]
  | run w cs hw hcs ih =>
    have hword : EndsRun isWordChar bs := hbs.mono fun c hc => by
      refine decide_eq_true ?_
      rintro rfl
      exact absurd hc (by decide)
    rw [List.append_assoc, tokens_run hw (endsRun_append hcs hword), tokens_run hw hcs,
      List.dropLast_cons_of_ne_nil (tokens_ne_nil _), ih, utf8Length_append, Nat.add_assoc]
    rfl

/-- The last token stands at the end of the text. -/
theorem tokens_eq_append_end (cs : List Char) (k : Nat) :
    (Scanner.mk cs k).tokens =
      (Scanner.mk cs k).tokens.dropLast ++ [⟨.endOfText, k + utf8Length cs, k + utf8Length cs⟩] := by
  have h := tokens_append (endsRun_nil (· ≠ '\n')) cs k
  rwa [List.append_nil, tokens_nil] at h

theorem tokens_append_newline (as bs : List Char) (k : Nat) :
    (Scanner.mk (as ++ '\n' :: bs) k).tokens =
      (Scanner.mk as k).tokens.dropLast ++
        ⟨.newline, k + utf8Length as, k + utf8Length as + 1⟩ :: (Scanner.mk bs (k + utf8Length as + 1)).tokens := by
  have hbs : EndsRun (· ≠ '\n') ('\n' :: bs) := fun c hc => by cases hc; decide
  rw [tokens_append hbs, tokens_newline]

end Scanner

/-! ## Whole texts -/

theorem Token.kinds_ofText_eq_append (text : String) :
    (ofText text).map (·.kind) = (ofText text).dropLast.map (·.kind) ++ [.endOfText] := by
  have h := congrArg (List.map (·.kind)) (Scanner.tokens_eq_append_end text.toList 0)
  rwa [List.map_append] at h

/-- Texts with a line end between them have their own tokens, and one for the line end. -/
theorem Token.kinds_ofText_append_newline (text₁ text₂ : String) :
    (ofText (text₁ ++ "\n" ++ text₂)).dropLast.map (·.kind) =
      (ofText text₁).dropLast.map (·.kind) ++ .newline :: (ofText text₂).dropLast.map (·.kind) := by
  have htext : (text₁ ++ "\n" ++ text₂).toList = text₁.toList ++ '\n' :: text₂.toList := by simp
  have hkinds (k : Nat) : (Scanner.mk text₂.toList k).tokens.dropLast.map (·.kind) =
      (ofText text₂).dropLast.map (·.kind) := by
    rw [List.map_dropLast, List.map_dropLast, Scanner.kinds_tokens, ofText, Scanner.ofText, Scanner.kinds_tokens]
  rw [ofText, Scanner.ofText, htext, Scanner.tokens_append_newline,
    List.dropLast_append_of_ne_nil (List.cons_ne_nil _ _), List.dropLast_cons_of_ne_nil (Scanner.tokens_ne_nil _),
    List.map_append, List.map_cons, hkinds]
  rfl

/-- Every token stands in the text, between two of its characters. -/
theorem Token.slice?_of_mem_ofText {text : String} {t : Token} (ht : t ∈ ofText text) :
    t.span.start ≤ t.span.stop ∧ t.span.stop ≤ text.utf8ByteSize ∧
      ∃ w, slice? text.toList t.span = some w ∧ t.kind.IsSpelled w := by
  obtain ⟨front, w, back, htext, hw, hspan⟩ := Scanner.standsIn_of_mem_tokens ht
  rw [Nat.zero_add] at hspan
  rw [← utf8Length_toList, htext, hspan, utf8Length_append, utf8Length_append]
  exact ⟨Nat.le_add_right _ _, Nat.le_add_right _ _, w, slice?_append front w back, hw⟩

/-- The text of a token is a run of characters of the whole text. -/
theorem Token.word_of_mem_ofText {text : String} {t : Token} (ht : t ∈ ofText text) {w : String}
    (hw : t.kind.text? = some w) : IsRun w.toList ∧ ∀ c ∈ w.toList, c ∈ text.toList := by
  obtain ⟨front, part, back, htext, hpart, -⟩ := Scanner.standsIn_of_mem_tokens ht
  obtain ⟨rfl, hrun⟩ := hpart.eq_of_text? hw
  rw [htext]
  exact ⟨hrun, fun c hc => List.mem_append_left _ (List.mem_append_right _ hc)⟩

namespace Kind

/-- Parts of texts make a text, each word with a gap in front. -/
theorem exists_ofLines_eq {ks : List Kind} (h : ∀ k ∈ ks, k ≠ .endOfText ∧ ∃ w, k.IsSpelled w) :
    ∃ cs, ofLines cs = ks ++ [.endOfText] ∧ EndsRun isWordChar cs := by
  induction ks with
  | nil => exact ⟨[], rfl, endsRun_nil isWordChar⟩
  | cons k ks ih =>
    rw [List.forall_mem_cons] at h
    obtain ⟨⟨hne, w, hw⟩, hks⟩ := h
    obtain ⟨cs, hcs, hends⟩ := ih hks
    cases hw with
    | word hrun =>
      refine ⟨' ' :: (w ++ cs), ?_, fun c hc => by cases hc; decide⟩
      rw [ofLines_gap (by decide), ofLines_run hrun hends, hcs]
      rfl
    | newline =>
      refine ⟨'\n' :: cs, ?_, fun c hc => by cases hc; decide⟩
      rw [ofLines_newline, hcs]
      rfl
    | endOfText => exact absurd rfl hne

end Kind
end ThreeAddress
