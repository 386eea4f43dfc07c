import ThreeAddress.Command.Writer
import ThreeAddress.Proofs.Command.Recovery
import ThreeAddress.Proofs.Command.Rejects
import ThreeAddress.Proofs.Token.Tiling

/-!
# Where statements stand in their text

The span of a statement goes from its keyword to the last of its words. Between them stand the other words of one line
and gaps, so that this part of the text is a script of its own.

* `Statement.IsReadFrom.span_eq` : the span of a statement goes from the first of its tokens to the last;
* `Statement.AreReadAlong ts ss` : the statements `ss` are read from parts of the tokens `ts`, each part behind the one
  before. Every call reads so (`Reader.areReadAlong_of_call`);
* `Statement.IsReadFrom.ofText?_eq` : a text that such tokens tile from end to end is read as this one statement;
* `Statement.Delimits s text w` : the span of `s` covers `w`, which is the command of `s` and nothing else. This holds
  of all statements that are read (`Statement.call_delimits`).
-/

namespace ThreeAddress
open Text

theorem Command.Says.exists_eq_cons {line : List Kind} {c : Command} (h : Says line c) :
    ∃ rest, line = .keyword c.keyword :: rest := by
  cases h <;> exact ⟨_, rfl⟩

/-! ## Tokens in order -/

structure Token.InOrder (ts : List Token) : Prop where
  nonempty : ∀ t ∈ ts, t.span.start < t.span.stop
  pairwise : ts.Pairwise fun t u => t.span.stop ≤ u.span.start

theorem Token.InOrder.sublist {ts us : List Token} (h : InOrder ts) (hus : us.Sublist ts) : InOrder us where
  nonempty t ht := h.nonempty t (hus.subset ht)
  pairwise := h.pairwise.sublist hus

theorem Tiled.inOrder {cs : List Char} {k : Nat} {ts : List Token} (h : Tiled cs k ts) : Token.InOrder ts where
  nonempty t ht := (h.bounds t ht).2.1
  pairwise := h.pairwise

theorem Cursor.tiled_ofText (text : String) : Tiled text.toList 0 (ofText text).ahead := Scanner.tiled text.toList 0

namespace Statement

/-! ## One statement -/

namespace IsReadFrom

variable {s : Statement} {part : List Token}

theorem countP_newline (h : s.IsReadFrom part) : part.countP (·.kind = .newline) = 0 :=
  List.countP_eq_zero.2 fun t ht => by simpa using h.ne_newline ht

theorem kind_head (h : s.IsReadFrom part) (hne : part ≠ []) : (part.head hne).kind = .keyword s.command.keyword := by
  obtain ⟨rest, hrest⟩ := h.says_command.exists_eq_cons
  obtain ⟨t, ts, rfl, hk, -⟩ := List.map_eq_cons_iff.1 hrest
  exact hk

theorem span_eq (h : s.IsReadFrom part) (hpart : Token.InOrder part) (hne : part ≠ []) :
    s.span = ⟨(part.head hne).span.start, (part.getLast hne).span.stop⟩ := by
  obtain ⟨t, ts, k, vs, rfl, -, -, rfl⟩ := h
  have hlast : Reader.lastSpan t.span ts = ((t :: ts).getLast (List.cons_ne_nil t ts)).span := by
    rw [← Reader.lastSpan_cons t.span, Reader.lastSpan, List.getLast?_eq_some_getLast (List.cons_ne_nil t ts)]
    rfl
  have hle : ∀ u ∈ t :: ts, t.span.start ≤ u.span.start ∧ t.span.stop ≤ u.span.stop := by
    intro u hu
    have hut := hpart.nonempty u hu
    have htt := hpart.nonempty t List.mem_cons_self
    rcases List.mem_cons.1 hu with rfl | hmem
    · exact ⟨Nat.le_refl _, Nat.le_refl _⟩
    · have hbehind := (List.pairwise_cons.1 hpart.pairwise).1 u hmem
      omega
  obtain ⟨hstart, hstop⟩ := hle _ (List.getLast_mem (List.cons_ne_nil t ts))
  show t.span.merge (Reader.lastSpan t.span ts) = _
  rw [hlast, Span.merge, Nat.min_eq_left hstart, Nat.max_eq_right hstop]
  rfl

/-- Nothing but its own words and the gaps between them is needed to read a statement. -/
theorem ofText?_eq {text : String} (h : s.IsReadFrom part) (htiled : Tiled text.toList 0 part) :
    ofText? text = .ok [s] := by
  have hahead : (Cursor.ofText text).ahead = part := (Cursor.tiled_ofText text).unique htiled
  have hends : EndsRun (fun t : Token => t.kind = .newline) (Cursor.ofText text).ahead := fun t ht =>
    decide_eq_false (h.ne_newline (hahead ▸ List.mem_of_head? ht))
  have hskip : (Cursor.ofText text).skipNewlines = Cursor.ofText text := by
    rw [Cursor.skipNewlines, hends.dropWhile_eq]
  have hrun : Reader.run Reader.statement (Cursor.ofText text).skipNewlines = (.ok s, ⟨[], text.utf8ByteSize⟩) := by
    refine Reader.run_statement_ok_iff.2 ⟨part, ⟨[], text.utf8ByteSize⟩, h, ?_, ?_, .inr ⟨rfl, rfl⟩⟩
    · rw [hskip, hahead, List.append_nil]
    · rw [hskip, Cursor.ofText]
  have hne : (Cursor.ofText text).skipNewlines.ahead ≠ [] := by
    rw [hskip, hahead]
    exact h.ne_nil
  rw [ofText?, Reader.script_of_ok hne hrun, Reader.script_of_ahead_nil rfl]
  rfl

/-- Moved to the front of a text of its own, the part is read as the same command. -/
theorem ofText?_alone (h : s.IsReadFrom part) (hne : part ≠ []) {w : List Char} {k : Nat} (hw : Tiled w k part)
    (hstart : (part.head hne).span.start = k) (hstop : (part.getLast hne).span.stop = k + utf8Length w) :
    ofText? (String.ofList w) = .ok [⟨s.command, 0, utf8Length w⟩] := by
  obtain ⟨ts, hts⟩ := Tiled.exists_tiled w 0
  have hshift := hts.shift k
  rw [Nat.zero_add] at hshift
  obtain rfl := hshift.unique hw
  have hkinds : (ts.map (Token.shift k)).map (·.kind) = ts.map (·.kind) := by
    rw [List.map_map]
    rfl
  obtain ⟨s₀, hs₀, hcommand⟩ := exists_isReadFrom (hkinds ▸ h.says_command)
  have hspan : s₀.span = ⟨0, utf8Length w⟩ := by
    rw [List.head_map] at hstart
    rw [List.getLast_map] at hstop
    have hfirst : (ts.head hs₀.ne_nil).span.start + k = k := hstart
    have hlast : (ts.getLast hs₀.ne_nil).span.stop + k = k + utf8Length w := hstop
    rw [hs₀.span_eq hts.inOrder hs₀.ne_nil, Span.mk.injEq]
    omega
  rw [hs₀.ofText?_eq (by rwa [String.toList_ofList]), ← hcommand, ← hspan]

end IsReadFrom

/-! ## Statements one behind the other -/

inductive AreReadAlong : List Token → List Statement → Prop
  | nil (ts : List Token) : AreReadAlong ts []
  | cons {s : Statement} {part rest : List Token} {ss : List Statement} (before : List Token) (h : s.IsReadFrom part)
      (along : AreReadAlong rest ss) : AreReadAlong (before ++ part ++ rest) (s :: ss)

namespace AreReadAlong

variable {ts : List Token} {ss : List Statement}

theorem append_left (h : AreReadAlong ts ss) (front : List Token) : AreReadAlong (front ++ ts) ss := by
  cases h with
  | nil => exact .nil (front ++ ts)
  | cons before hs along =>
    rw [List.append_assoc, ← List.append_assoc, ← List.append_assoc]
    exact .cons (front ++ before) hs along

theorem exists_part (h : AreReadAlong ts ss) {s : Statement} (hs : s ∈ ss) :
    ∃ before part after, ts = before ++ part ++ after ∧ s.IsReadFrom part := by
  induction h with
  | nil => cases hs
  | @cons s' part rest ss before hread _ ih =>
    rcases List.mem_cons.1 hs with rfl | hmem
    · exact ⟨before, part, rest, rfl, hread⟩
    · obtain ⟨before', part', after, rfl, hread'⟩ := ih hmem
      exact ⟨before ++ part ++ before', part', after, by simp, hread'⟩

theorem pairwise (h : AreReadAlong ts ss) (hts : Token.InOrder ts) :
    ss.Pairwise fun s t => s.span.stop ≤ t.span.start := by
  induction h with
  | nil => exact .nil
  | @cons s part rest ss before hread along ih =>
    rw [List.append_assoc] at hts
    have hboth := hts.sublist (List.sublist_append_right before _)
    refine List.pairwise_cons.2 ⟨fun t ht => ?_, ih (hboth.sublist (List.sublist_append_right part rest))⟩
    obtain ⟨before', part', after, rfl, hread'⟩ := along.exists_part ht
    have hpart' : part'.Sublist (before' ++ part' ++ after) := by
      rw [List.append_assoc]
      exact (List.sublist_append_left part' after).trans (List.sublist_append_right before' _)
    rw [hread.span_eq (hboth.sublist (List.sublist_append_left part _)) hread.ne_nil,
      hread'.span_eq (hboth.sublist (hpart'.trans (List.sublist_append_right part _))) hread'.ne_nil]
    exact (List.pairwise_append.1 hboth.pairwise).2.2 _ (List.getLast_mem hread.ne_nil) _
      (hpart'.subset (List.head_mem hread'.ne_nil))

end AreReadAlong
end Statement

namespace Reader

open Statement

theorem exists_part_of_run {c e : Cursor} {s : Statement} (h : run statement c = (.ok s, e)) :
    ∃ part between, c.ahead = part ++ (between ++ e.ahead) ∧ s.IsReadFrom part := by
  obtain ⟨part, d, hread, hahead, -, hend⟩ := run_statement_ok_iff.1 h
  have hbetween : ∃ between, d.ahead = between ++ e.ahead := by
    rcases hend with ⟨hnewline, rfl⟩ | ⟨-, rfl⟩
    · refine ⟨[d.current], Cursor.ahead_of_current ?_⟩
      rw [hnewline]
      exact Kind.noConfusion
    · exact ⟨[], rfl⟩
  obtain ⟨between, hd⟩ := hbetween
  exact ⟨part, between, by rw [hahead, hd], hread⟩

theorem areReadAlong_of_script {c : Cursor} {ss : List Statement} (h : (script c).1 = .ok ss) :
    AreReadAlong c.ahead ss := by
  refine script_ok_induction (P := fun c ss => AreReadAlong c.ahead ss) (fun c _ => .nil c.ahead)
    (fun c d s ss _ hs _ ih => ?_) h
  obtain ⟨blank, hblank⟩ := c.leadsTo_skipNewlines.1
  obtain ⟨part, between, hpart, hread⟩ := exists_part_of_run hs
  rw [← hblank, hpart, ← List.append_assoc]
  exact .cons blank hread (ih.append_left between)

theorem areReadAlong_of_call {c : Cursor} {n : Nat} {ss : List Statement} (h : call c n = .ok ss) :
    AreReadAlong c.ahead ss := by
  obtain ⟨front, hfront⟩ := (leadsTo_afterCalls c n).1
  rw [← hfront]
  exact (areReadAlong_of_script h).append_left front

end Reader

/-! ## Whole texts -/

namespace Statement

/-- The span of the statement covers the characters `w` of the text, and these are its command: they begin with the
keyword and end with the last word, and read alone they are this command. -/
structure Delimits (s : Statement) (text : String) (w : List Char) : Prop where
  slice : slice? text.toList s.span = some w
  span_pos : s.span.start < s.span.stop
  newline_notMem : '\n' ∉ w
  isPrefix_keyword : s.command.keyword.spelling.toList <+: w
  /-- The last of the tokens that say the command ends where the span does. -/
  isSuffix_word : ∃ before line last after word, Token.ofText text = before ++ (line ++ [last]) ++ after ∧
    Command.Says ((line ++ [last]).map (·.kind)) s.command ∧ last.kind.text? = some word ∧
    last.span.stop = s.span.stop ∧ word.toList <:+ w
  ofText?_eq : ofText? (String.ofList w) = .ok [⟨s.command, 0, utf8Length w⟩]

theorem IsReadFrom.exists_delimits {s : Statement} {text : String} {before part after : List Token}
    (h : s.IsReadFrom part) (htext : (Cursor.ofText text).ahead = before ++ part ++ after) :
    ∃ w, s.Delimits text w := by
  have hne := h.ne_nil
  have htiled := Cursor.tiled_ofText text
  rw [htext] at htiled
  obtain ⟨front, w, back, hcs, hw, hstart, hstop⟩ := htiled.exists_between hne
  have hspan := h.span_eq hw.inOrder hne
  rw [Nat.zero_add] at hw hstart hstop
  have hfirst := List.head_mem hne
  have hlast := List.getLast_mem hne
  obtain ⟨word, hword⟩ := h.exists_text? hlast
  refine ⟨w, ?slice, ?pos, ?newline, ?keyword, ?word, h.ofText?_alone hne hw hstart hstop⟩
  case slice =>
    rw [hspan, hstart, hstop, hcs]
    exact slice?_append front w back
  case pos =>
    have hbounds := hw.bounds _ hfirst
    rw [hspan]
    show (part.head hne).span.start < (part.getLast hne).span.stop
    omega
  case newline =>
    rw [← List.count_eq_zero, ← hw.countP_newline]
    exact h.countP_newline
  case keyword =>
    refine (hw.standsIn _ hfirst).isPrefix hstart ?_
    rw [h.kind_head hne, Kind.text?_keyword]
  case word =>
    have htokens : Token.ofText text = before ++ (part.dropLast ++ [part.getLast hne]) ++
        (after ++ [⟨.endOfText, text.utf8ByteSize, text.utf8ByteSize⟩]) := by
      rw [← Cursor.tokens_ofText, Cursor.tokens, htext, List.dropLast_concat_getLast, List.append_assoc]
      rfl
    refine ⟨before, part.dropLast, part.getLast hne, _, word, htokens, ?_, hword, by rw [hspan],
      (hw.standsIn _ hlast).isSuffix hstop hword⟩
    rw [List.dropLast_concat_getLast]
    exact h.says_command

/-- **The span of a statement delimits its command.** The statements of a call, also of one behind a fault, stand one
behind the other, and each span covers the words of one line that say its command: from the keyword to the end of the
last word, without a line end, and enough to be read as this command again. -/
theorem call_delimits {text : String} {n : Nat} {ss : List Statement}
    (h : Reader.call (Cursor.ofText text) n = .ok ss) :
    ss.Pairwise (fun s t => s.span.stop ≤ t.span.start) ∧ ∀ s ∈ ss, ∃ w, s.Delimits text w := by
  have halong := Reader.areReadAlong_of_call h
  refine ⟨halong.pairwise (Cursor.tiled_ofText text).inOrder, fun s hs => ?_⟩
  obtain ⟨before, part, after, htext, hread⟩ := halong.exists_part hs
  exact hread.exists_delimits htext

/-- The comment is left out, and the tab and the letter of two bytes are in. -/
theorem call_delimits_behind_fault :
    let text := "bogus\ninsert \u00e9 int\t007 # seven\nreset"
    let ss : List Statement := [⟨.insert ⟨"\u00e9", "int", 7⟩, 6, 23⟩, ⟨.reset, 32, 37⟩]
    Reader.call (Cursor.ofText text) 1 = .ok ss ∧
      ss.Pairwise (fun s t => s.span.stop ≤ t.span.start) ∧ ∀ s ∈ ss, ∃ w, s.Delimits text w := by
  intro text ss
  have hcall : Reader.call (Cursor.ofText text) 1 = .ok ss := by decide +kernel
  exact ⟨hcall, call_delimits hcall⟩

end Statement
end ThreeAddress
