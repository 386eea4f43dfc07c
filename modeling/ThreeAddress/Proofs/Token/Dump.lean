import ThreeAddress.Proofs.Replay.Execution
import ThreeAddress.Proofs.Token.Tiling

/-!
# Token dumps can be read

A line of a dump has a label, a quoted text for the kinds that carry one, and two numbers. Quoted texts hold no line end and
end at their closing quote, so that whatever a word looks like, it stays in its line and in its quotes.

* `Kind.ofLabel`, `Kind.dump_append_inj`, `Span.dump_injective` : the parts of a line; `Token.dump_injective` : the whole
  line tells the token;
* `Token.isPrintable_of_mem_dump`, `Token.splitLines_dumpText` : one line for each token;
* `Token.ofDump` : the lines of the tokens in a log (`Token.ofDump_dumpText`);
* `replay_dump_faithful` : dumping changes nothing but the log, and the log tells all tokens.
-/

namespace ThreeAddress
open Text

/-! ## Kinds -/

namespace Kind

/-- The text that a kind does not get from its label. -/
def carried? : Kind → Option String
  | identifier s | integer s | operator s | word s => some s
  | keyword _ | newline | endOfText => none

/-- The kind with a label and the text that it carries. -/
def ofLabel (label text : String) : Kind :=
  match Keyword.all.find? (·.label = label) with
  | some k => keyword k
  | none =>
    if label = "Identifier" then identifier text
    else if label = "IntLiteral" then integer text
    else if label = "Operator" then operator text
    else if label = "Word" then word text
    else if label = "Newline" then newline
    else endOfText

theorem ofLabel_label (k : Kind) : ofLabel k.label (k.carried?.getD "") = k := by
  cases k with
  | keyword k => cases k <;> rfl
  | _ => rfl

def labels : List String := Keyword.all.map (·.label) ++ ["Identifier", "IntLiteral", "Operator", "Word", "Newline", "Eof"]

theorem label_mem (k : Kind) : k.label ∈ labels := by
  cases k with
  | keyword k => exact List.mem_append_left _ (List.mem_map_of_mem k.mem_all)
  | _ => exact List.mem_append_right _ (by simp [label])

theorem isAlpha_of_mem_label {k : Kind} {c : Char} (h : c ∈ k.label.toList) : c.isAlpha = true := by
  have hall : (labels.all fun l => l.toList.all Char.isAlpha) = true := by decide
  exact List.all_eq_true.1 (List.all_eq_true.1 hall k.label k.label_mem) c h

/-- What stands behind the label. -/
def quoted : Option String → List Char
  | some text => '(' :: '"' :: (Quoted.encode text.toList ++ ['"', ')'])
  | none => []

theorem toList_dump (k : Kind) : k.dump.toList = k.label.toList ++ quoted k.carried? := by
  cases k <;> simp [dump, quoted, carried?, Quoted.quote]

theorem quoted_append_inj {a b : Option String} {cs ds : List Char}
    (h : quoted a ++ ' ' :: cs = quoted b ++ ' ' :: ds) : a = b ∧ cs = ds := by
  cases a with
  | none =>
    cases b with
    | none => exact ⟨rfl, (List.cons.inj h).2⟩
    | some t => cases h
  | some s =>
    cases b with
    | none => cases h
    | some t =>
      simp only [quoted, List.cons_append, List.append_assoc, List.cons.injEq, true_and] at h
      obtain ⟨htext, hrest⟩ := Quoted.encode_append_inj h
      rw [String.toList_inj.1 htext]
      exact ⟨rfl, (List.cons.inj (List.cons.inj hrest).2).2⟩

theorem dump_append_inj {k l : Kind} {cs ds : List Char} (h : k.dump.toList ++ ' ' :: cs = l.dump.toList ++ ' ' :: ds) :
    k = l ∧ cs = ds := by
  rw [toList_dump, toList_dump, List.append_assoc, List.append_assoc] at h
  have hends (text : Option String) (es : List Char) : EndsRun Char.isAlpha (quoted text ++ ' ' :: es) := by
    cases text with
    | none => exact endsRun_cons rfl es
    | some text => exact endsRun_cons rfl _
  obtain ⟨hlabel, hrest⟩ := append_inj_of_endsRun (fun _ => isAlpha_of_mem_label) (fun _ => isAlpha_of_mem_label)
    (hends _ _) (hends _ _) h
  rw [String.toList_inj] at hlabel
  obtain ⟨htext, hcs⟩ := quoted_append_inj hrest
  refine ⟨?_, hcs⟩
  rw [← ofLabel_label k, ← ofLabel_label l, hlabel, htext]

theorem isPrintable_of_mem_dump {k : Kind} {c : Char} (h : c ∈ k.dump.toList) : isPrintable c = true := by
  have hmarks : (['(', '"', ')'].all isPrintable) = true := by decide +kernel
  rw [toList_dump, List.mem_append] at h
  rcases h with h | h
  · have := toNat_of_isAlpha (isAlpha_of_mem_label h)
    exact isPrintable_of_bounds (by omega) (by omega)
  · cases htext : k.carried? with
    | none =>
      rw [htext] at h
      cases h
    | some text =>
      have hmem : c ∈ ['(', '"', ')'] ∨ c ∈ Quoted.encode text.toList := by
        simp only [htext, quoted, List.mem_cons, List.mem_append] at h ⊢
        grind
      exact hmem.elim (List.all_eq_true.1 hmarks c) Quoted.isPrintable_of_mem_encode

end Kind

/-! ## Places -/

namespace Span

theorem toList_dump (s : Span) :
    s.dump.toList = (Decimal.ofNat s.start).toList ++ '.' :: '.' :: (Decimal.ofNat s.stop).toList := by
  simp [dump]

theorem dump_injective {s t : Span} (h : s.dump = t.dump) : s = t := by
  have hlist := congrArg String.toList h
  rw [toList_dump, toList_dump] at hlist
  have hends (cs : List Char) : EndsRun Char.isDigit ('.' :: cs) := endsRun_cons rfl cs
  obtain ⟨hstart, hrest⟩ := append_inj_of_endsRun (fun _ => Decimal.isDigit_of_mem_ofNat)
    (fun _ => Decimal.isDigit_of_mem_ofNat) (hends _) (hends _) hlist
  have hstop := (List.cons.inj (List.cons.inj hrest).2).2
  rw [String.toList_inj] at hstart hstop
  cases s
  cases t
  rw [mk.injEq]
  exact ⟨Decimal.ofNat_injective hstart, Decimal.ofNat_injective hstop⟩

theorem isPrintable_of_mem_dump {s : Span} {c : Char} (h : c ∈ s.dump.toList) : isPrintable c = true := by
  have hdigit {n : Nat} (hc : c ∈ (Decimal.ofNat n).toList) : isPrintable c = true := by
    have hdigit := Decimal.isDigit_of_mem_ofNat hc
    obtain ⟨hlow, hhigh⟩ : 48 ≤ c.toNat ∧ c.toNat ≤ 57 := Char.isDigit_iff_toNat.1 hdigit
    exact isPrintable_of_bounds (by omega) (by omega)
  rw [toList_dump, List.mem_append, List.mem_cons, List.mem_cons] at h
  rcases h with h | rfl | rfl | h
  · exact hdigit h
  · exact isPrintable_of_bounds (by decide) (by decide)
  · exact isPrintable_of_bounds (by decide) (by decide)
  · exact hdigit h

end Span

/-! ## Lines -/

namespace Token

theorem toList_dump (t : Token) :
    t.dump.toList = ' ' :: ' ' :: (t.kind.dump.toList ++ ' ' :: '@' :: ' ' :: t.span.dump.toList) := by
  simp [dump]

/-- No two tokens have the same line. -/
theorem dump_injective {t u : Token} (h : t.dump = u.dump) : t = u := by
  have hlist := congrArg String.toList h
  rw [toList_dump, toList_dump] at hlist
  obtain ⟨hkind, hrest⟩ := Kind.dump_append_inj (List.cons.inj (List.cons.inj hlist).2).2
  have hspan := Span.dump_injective (String.toList_inj.1 (List.cons.inj (List.cons.inj hrest).2).2)
  cases t
  cases u
  rw [mk.injEq]
  exact ⟨hkind, hspan⟩

theorem isPrintable_of_mem_dump {t : Token} {c : Char} (h : c ∈ t.dump.toList) : isPrintable c = true := by
  have hmarks : ([' ', '@'].all isPrintable) = true := by decide +kernel
  have hmem : c ∈ [' ', '@'] ∨ c ∈ t.kind.dump.toList ∨ c ∈ t.span.dump.toList := by
    simp only [toList_dump, List.mem_cons, List.mem_append] at h ⊢
    grind
  rcases hmem with hmark | hkind | hspan
  · exact List.all_eq_true.1 hmarks c hmark
  · exact Kind.isPrintable_of_mem_dump hkind
  · exact Span.isPrintable_of_mem_dump hspan

theorem newline_notMem_dumpLines (ts : List Token) : ∀ l ∈ dumpLines ts, '\n' ∉ l.toList := by
  simp only [dumpLines, List.cons_append, List.forall_mem_cons, List.forall_mem_append, List.forall_mem_map]
  refine ⟨by decide, fun t _ hnewline => ?_, by decide, by decide, List.forall_mem_nil _⟩
  have hprintable := isPrintable_of_mem_dump hnewline
  revert hprintable
  decide +kernel

/-- A header, one line for each token, a footer and an empty line, and then whatever follows. -/
theorem splitLines_dumpText (ts : List Token) (cs : List Char) :
    splitLines ((dumpText ts).toList ++ cs) = "=== Tokens ===".toList ::
      (ts.map (·.dump.toList) ++ "=== End Tokens ===".toList :: [] :: splitLines cs) := by
  rw [dumpText, splitLines_unlines_append (newline_notMem_dumpLines ts), dumpLines]
  simp

/-- The lines of the tokens at the front of a log: those behind the header that begin with a blank. -/
def ofDump (log : List Char) : List (List Char) := (splitLines log).tail.takeWhile (·.head? = some ' ')

theorem ofDump_dumpText (ts : List Token) (cs : List Char) :
    ofDump ((dumpText ts).toList ++ cs) = ts.map (·.dump.toList) := by
  have hblank : ∀ l ∈ ts.map (·.dump.toList), decide (l.head? = some ' ') = true := by
    rw [List.forall_mem_map]
    intro t _
    rw [toList_dump]
    rfl
  rw [ofDump, splitLines_dumpText, List.tail_cons, List.takeWhile_append_of_pos hblank,
    List.takeWhile_cons_of_neg (by decide), List.append_nil]

/-- Tokens are told by their dump, whatever is written behind it. -/
theorem dumpText_append_inj {ts us : List Token} {cs ds : List Char}
    (h : (dumpText ts).toList ++ cs = (dumpText us).toList ++ ds) : ts = us := by
  have hlines := congrArg ofDump h
  rw [ofDump_dumpText, ofDump_dumpText] at hlines
  exact (List.map_inj_right fun t u htu => dump_injective (String.toList_inj.1 htu)).1 hlines

end Token

/-! ## Replays -/

theorem replay_tokens (progress : Bool) (text : String) (u : CompilationUnit) (grants : Grants) :
    let on := replay ⟨true, progress⟩ text u grants
    let off := replay ⟨false, progress⟩ text u grants
    on.result = off.result ∧ on.unit = off.unit ∧ on.log = Token.dumpText (Token.ofText text) ++ off.log := by
  unfold replay
  cases Statement.ofText? text with
  | error f => simp
  | ok ss => simp

/-- **A token dump is harmless and tells all tokens.** With it the result and the unit are the same as without, and it is
written to the log in front of everything else, also when the script cannot be read. It has one line for each token, the
end of the text last, between a header and a footer; such a line begins with two blanks and holds neither a line end nor
anything else without a glyph. From the log the tokens are known with their kinds, texts and places. -/
theorem replay_dump_faithful (progress : Bool) (text : String) (u : CompilationUnit) (grants : Grants) :
    let on := replay ⟨true, progress⟩ text u grants
    let off := replay ⟨false, progress⟩ text u grants
    on.result = off.result ∧ on.unit = off.unit ∧ on.log = Token.dumpText (Token.ofText text) ++ off.log ∧
      splitLines on.log.toList = "=== Tokens ===".toList :: ((Token.ofText text).map (·.dump.toList) ++
        "=== End Tokens ===".toList :: [] :: splitLines off.log.toList) ∧
      (∃ ts, Token.ofText text = ts ++ [⟨.endOfText, text.utf8ByteSize, text.utf8ByteSize⟩] ∧
        ∀ t ∈ ts, t.kind ≠ .endOfText) ∧
      (∀ t ∈ Token.ofText text, [' ', ' '] <+: t.dump.toList ∧ ∀ c ∈ t.dump.toList, isPrintable c = true) ∧
      ∀ (text' : String) (progress' : Bool) (u' : CompilationUnit) (grants' : Grants),
        let on' := replay ⟨true, progress'⟩ text' u' grants'
        let off' := replay ⟨false, progress'⟩ text' u' grants'
        (Token.dumpText (Token.ofText text) = Token.dumpText (Token.ofText text') ↔
          Token.ofText text = Token.ofText text') ∧
        (on.log = on'.log ↔ Token.ofText text = Token.ofText text' ∧ off.log = off'.log) := by
  intro on off
  obtain ⟨hresult, hunit, hlog⟩ := replay_tokens progress text u grants
  obtain ⟨ts, htext, htokens, -⟩ := Token.ofText_tiles text
  refine ⟨hresult, hunit, hlog, ?_, ⟨ts, htext, fun t ht => (htokens t ht).1⟩,
    fun t _ => ⟨?_, fun c => Token.isPrintable_of_mem_dump⟩, ?_⟩
  · rw [hlog, String.toList_append, Token.splitLines_dumpText]
  · rw [Token.toList_dump]
    exact List.prefix_append [' ', ' '] _
  · intro text' progress' u' grants' on' off'
    obtain ⟨-, -, hlog'⟩ := replay_tokens progress' text' u' grants'
    constructor
    · refine ⟨fun h => ?_, congrArg Token.dumpText⟩
      exact Token.dumpText_append_inj (congrArg (fun s : String => s.toList ++ []) h)
    · rw [hlog, hlog']
      constructor
      · intro h
        have hlist := congrArg String.toList h
        rw [String.toList_append, String.toList_append] at hlist
        have htokens := Token.dumpText_append_inj hlist
        rw [htokens, String.append_right_inj] at h
        exact ⟨htokens, h⟩
      · rintro ⟨htokens, hoff⟩
        rw [htokens, hoff]

end ThreeAddress
