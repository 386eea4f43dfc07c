import ThreeAddress.Proofs.Command.Attempts
import ThreeAddress.Proofs.Command.Rejects

/-!
# A fault points at the first token that cannot go on

* `Kind.IsScript ks` : every line of `ks` says a command, so that a text of these kinds is read
  (`Statement.exists_ofText?_iff`);
* `Kind.Neutral front` : `front` may be put in front of any script and left out again. Blank lines are neutral and so
  are lines that say a command;
* `Kind.BreaksLine.not_prefix`, `Kind.Neutral.not_prefix` : where a token breaks its line, no script goes on like this;
* `Reader.exists_attempt_of_error` : what fails in a script is an attempt at a statement behind a neutral part, and it
  fails at the token that breaks its line (`Reader.exists_break_of_error`);
* `Statement.ofText?_error_place` : so the tokens before a fault begin a script, and with the token at the fault they
  begin none.
-/

namespace ThreeAddress
open Text

/-! ## Scripts by their kinds -/

namespace Kind

def IsScript (ks : List Kind) : Prop := ∀ line ∈ lines ks, ∃ c, Command.Says line c

theorem lines_of_says {line : List Kind} {c : Command} (h : Command.Says line c) : lines line = [line] := by
  refine runs_of_forall ?_ fun k hk => decide_eq_false ?_
  · rintro rfl
    cases h
  · rintro rfl
    exact h.text?_ne_none _ hk rfl

theorem isScript_of_says {line : List Kind} {c : Command} (h : Command.Says line c) : IsScript line := by
  rw [IsScript, lines_of_says h, List.forall_mem_singleton]
  exact ⟨c, h⟩

structure Neutral (front : List Kind) : Prop where
  plain : ∀ k ∈ front, k ≠ .endOfText
  isScript_iff : ∀ ks, IsScript (front ++ ks) ↔ IsScript ks

theorem neutral_nil : Neutral [] := ⟨List.forall_mem_nil _, fun _ => Iff.rfl⟩

theorem Neutral.append {front back : List Kind} (hfront : Neutral front) (hback : Neutral back) :
    Neutral (front ++ back) where
  plain := List.forall_mem_append.2 ⟨hfront.plain, hback.plain⟩
  isScript_iff ks := by rw [List.append_assoc, hfront.isScript_iff, hback.isScript_iff]

theorem neutral_newline : Neutral [.newline] where
  plain := List.forall_mem_singleton.2 Kind.noConfusion
  isScript_iff ks := by
    have hlines : lines ([.newline] ++ ks) = lines ks := runs_cons (by decide) ks
    rw [IsScript, hlines, IsScript]

theorem neutral_of_newlines {blank : List Kind} (h : ∀ k ∈ blank, k = .newline) : Neutral blank := by
  induction blank with
  | nil => exact neutral_nil
  | cons k blank ih =>
    rw [List.forall_mem_cons] at h
    rw [h.1]
    exact neutral_newline.append (ih h.2)

theorem neutral_of_says {line : List Kind} {c : Command} (h : Command.Says line c) : Neutral (line ++ [.newline]) where
  plain := by
    refine List.forall_mem_append.2 ⟨fun k hk => ?_, List.forall_mem_singleton.2 Kind.noConfusion⟩
    rintro rfl
    exact h.text?_ne_none _ hk rfl
  isScript_iff ks := by
    rw [List.append_assoc, List.singleton_append, IsScript, lines_append_newline, lines_of_says h,
      List.singleton_append, List.forall_mem_cons, IsScript]
    exact and_iff_right ⟨c, h⟩

/-- What a script with its end begins with is in front of the end. -/
theorem Neutral.exists_append {front back ks : List Kind} (h : Neutral front)
    (hpre : front ++ back <+: ks ++ [.endOfText]) : ∃ rest, ks = front ++ rest ∧ back <+: rest ++ [.endOfText] := by
  rcases List.prefix_concat_iff.1 ((List.prefix_append front back).trans hpre) with heq | ⟨rest, rfl⟩
  · exact absurd rfl (h.plain .endOfText (by simp [heq]))
  · rw [List.append_assoc, List.prefix_append_right_inj] at hpre
    exact ⟨rest, rfl, hpre⟩

/-! ## Lines that no script goes on with -/

/-- A script that begins with a word begins with a line that says a command. -/
theorem IsScript.exists_line {ks : List Kind} (h : IsScript ks)
    (hfirst : ∀ k ∈ (ks ++ [Kind.endOfText]).head?, k.text? ≠ none) :
    ∃ line c stop, Command.Says line c ∧ (stop = .newline ∨ stop = .endOfText) ∧
      line ++ [stop] <+: ks ++ [.endOfText] := by
  have hne : ks ≠ [] := by
    rintro rfl
    exact hfirst .endOfText rfl rfl
  have hstart : EndsRun (· = .newline) ks := by
    intro k hk
    refine decide_eq_false ?_
    rintro rfl
    refine hfirst .newline ?_ rfl
    rw [List.head?_append, Option.mem_def.1 hk]
    rfl
  obtain ⟨line, rest, rfl, hrest, hlines⟩ := runs_eq_cons hne hstart
  obtain ⟨c, hsays⟩ := h line (by rw [lines, hlines]; exact List.mem_cons_self)
  cases rest with
  | nil => exact ⟨line, c, .endOfText, hsays, .inr rfl, by simp⟩
  | cons k rest =>
    have hk : k = .newline := by simpa using hrest k rfl
    exact ⟨line, c, .newline, hsays, .inl rfl, rest ++ [.endOfText], by simp [hk]⟩

theorem BreaksLine.not_prefix {ks : List Kind} {k : Kind} (h : BreaksLine ks k) (hk : ks = [] → k.text? ≠ none)
    {script : List Kind} (hscript : IsScript script) : ¬ks ++ [k] <+: script ++ [.endOfText] := by
  rintro ⟨tail, htail⟩
  obtain ⟨more, _, hline, -⟩ := h.goesOn
  have hwords : ∀ l ∈ ks, l.text? ≠ none := fun l hl => hline.text?_ne_none l (List.mem_append_left _ hl)
  have hfirst : ∀ l ∈ (script ++ [Kind.endOfText]).head?, l.text? ≠ none := by
    intro l hl
    rw [← htail] at hl
    cases ks with
    | nil =>
      cases hl
      exact hk rfl
    | cons j ks =>
      cases hl
      exact hwords _ List.mem_cons_self
  obtain ⟨line, c, stop, hsays, hstop, hclosed⟩ := hscript.exists_line hfirst
  rcases List.prefix_or_prefix_of_prefix ⟨tail, htail⟩ hclosed with hin | hout
  · exact h.stops line c stop hsays hstop hin
  · rcases List.prefix_concat_iff.1 hout with heq | hbefore
    · exact h.stops line c stop hsays hstop (heq ▸ List.prefix_rfl)
    · have hmem : stop ∈ ks := hbefore.subset (List.mem_append_right _ (List.mem_singleton_self _))
      exact hwords stop hmem (text?_eq_none_iff.2 hstop)

theorem Neutral.not_prefix {front ks : List Kind} {k : Kind} (hfront : Neutral front) (h : BreaksLine ks k)
    (hk : ks = [] → k.text? ≠ none) {script : List Kind} (hscript : IsScript script) :
    ¬front ++ ks ++ [k] <+: script ++ [.endOfText] := by
  intro hpre
  rw [List.append_assoc] at hpre
  obtain ⟨rest, rfl, hline⟩ := hfront.exists_append hpre
  exact h.not_prefix hk ((hfront.isScript_iff rest).1 hscript) hline

/-- What could still go on has no token in it that breaks its line. -/
theorem Neutral.not_prefix_of_breaksLine {front ks front' ks' : List Kind} {k k' : Kind} (hfront : Neutral front)
    (h : BreaksLine ks k) (hk : ks = [] → k.text? ≠ none) (hfront' : Neutral front') (h' : BreaksLine ks' k') :
    ¬front ++ ks ++ [k] <+: front' ++ ks' := by
  obtain ⟨more, _, hsays, -⟩ := h'.goesOn
  have hscript : IsScript (front' ++ (ks' ++ more)) := (hfront'.isScript_iff _).2 <| isScript_of_says hsays
  intro hpre
  refine hfront.not_prefix h hk hscript (hpre.trans ?_)
  rw [← List.append_assoc, List.append_assoc]
  exact List.prefix_append _ _

end Kind

/-! ## Where a script fails -/

theorem Cursor.exists_tokens_eq_append (c : Cursor) :
    ∃ blank, c.tokens = blank ++ c.skipNewlines.tokens ∧ Kind.Neutral (blank.map (·.kind)) := by
  refine ⟨c.ahead.takeWhile (·.kind = .newline), ?_, ?_⟩
  · rw [tokens, tokens, ← List.append_assoc]
    exact congrArg (· ++ _) List.takeWhile_append_dropWhile.symm
  · refine Kind.neutral_of_newlines (List.forall_mem_map.2 fun t ht => ?_)
    exact of_decide_eq_true (List.all_eq_true.1 List.all_takeWhile t ht)

namespace Reader

/-- A statement that is read and has a line end behind it is neutral. -/
theorem exists_tokens_eq_append_of_ok {c e : Cursor} {s : Statement} (h : run statement c = (.ok s, e)) :
    e.current.kind = .endOfText ∨ ∃ line, c.tokens = line ++ e.tokens ∧ Kind.Neutral (line.map (·.kind)) := by
  obtain ⟨line, d, hread, hahead, hstop, hend⟩ := run_statement_ok_iff.1 h
  have htokens : c.tokens = line ++ d.tokens := by
    rw [Cursor.tokens, hahead, hstop, List.append_assoc]
    rfl
  rcases hend with ⟨hnewline, rfl⟩ | ⟨hend, rfl⟩
  · refine .inr ⟨line ++ [d.current], ?_, ?_⟩
    · rw [htokens, Cursor.tokens_of_current (by rw [hnewline]; exact Kind.noConfusion), List.append_assoc]
      rfl
    · rw [List.map_append, List.map_singleton, hnewline]
      exact Kind.neutral_of_says hread.says_command
  · exact .inl hend

theorem exists_attempt_of_error {c : Cursor} (hc : c.Plain) {f : SyntaxFault} (h : (script c).1 = .error f) :
    ∃ front s d, c.tokens = front ++ s.tokens ∧ Kind.Neutral (front.map (·.kind)) ∧ s.current.kind.text? ≠ none ∧
      run statement s = (.error f, d) := by
  induction c using script_induction with
  | nil c hnil =>
    rw [script_of_nil hnil] at h
    cases h
  | error c d g hne hs =>
    rw [script_of_error hne hs] at h
    cases h
    obtain ⟨blank, htokens, hblank⟩ := c.exists_tokens_eq_append
    refine ⟨blank, c.skipNewlines, d, htokens, hblank, fun hnone => ?_, hs⟩
    rcases Kind.text?_eq_none_iff.1 hnone with hnewline | hend
    · exact c.current_skipNewlines_ne hnewline
    · exact hne ((hc.of_leadsTo c.leadsTo_skipNewlines).current_eq_iff.1 hend)
  | ok c d s hne hs ih =>
    have hd : d.Plain := hc.of_leadsTo (c.leadsTo_skipNewlines.trans (leadsTo_of_run hs))
    rw [script_of_ok hne hs] at h
    have herror : (script d).1 = .error f := by
      cases hscript : (script d).1 with
      | error g =>
        rw [hscript] at h
        exact h
      | ok ss =>
        rw [hscript] at h
        cases h
    obtain ⟨front, s', d', hfront, hneutral, hword, hrun⟩ := ih hd herror
    obtain ⟨blank, hblank, hneutral'⟩ := c.exists_tokens_eq_append
    rcases exists_tokens_eq_append_of_ok hs with hend | ⟨line, hline, hsays⟩
    · have hnil : d.skipNewlines.ahead = [] := by
        rw [Cursor.skipNewlines, hd.current_eq_iff.1 hend]
        rfl
      rw [script_of_nil hnil] at herror
      cases herror
    · refine ⟨blank ++ line ++ front, s', d', ?_, ?_, hword, hrun⟩
      · rw [hblank, hline, hfront, List.append_assoc, List.append_assoc]
      · rw [List.map_append, List.map_append]
        exact (hneutral'.append hsays).append hneutral

/-- A fault is at the token with which the line of the attempt breaks; with nothing before it there, it is one with a
text. -/
theorem exists_break_of_error {c : Cursor} (hc : c.Plain) {f : SyntaxFault} (h : (script c).1 = .error f) :
    ∃ front part t after, c.tokens = front ++ part ++ t :: after ∧ f.span = t.span ∧
      Kind.Neutral (front.map (·.kind)) ∧ (part = [] → t.kind.text? ≠ none) ∧
      Kind.BreaksLine (part.map (·.kind)) t.kind := by
  obtain ⟨front, s, d, hfront, hneutral, hword, hrun⟩ := exists_attempt_of_error hc h
  obtain ⟨part, t, after, hpart, hspan, hbreaks⟩ := run_statement_error hrun
  refine ⟨front, part, t, after, by rw [hfront, hpart, List.append_assoc], hspan, hneutral, ?_, hbreaks⟩
  rintro rfl
  obtain ⟨rest, hrest⟩ := s.exists_tokens_eq_cons
  rw [List.nil_append, hrest] at hpart
  rwa [← (List.cons.inj hpart).1]

end Reader

/-! ## Whole texts -/

namespace Statement

theorem exists_ofText?_iff (text : String) :
    (∃ ss, ofText? text = .ok ss) ↔ Kind.IsScript ((Token.ofText text).dropLast.map (·.kind)) := by
  have hread := Reader.script_ok_iff (Cursor.plain_ofText text)
  rw [Kind.IsScript, ← Command.exists_forall₂_says_iff]
  constructor
  · rintro ⟨ss, hss⟩
    exact ⟨_, (hread _).1 ⟨ss, hss, rfl⟩⟩
  · rintro ⟨cmds, hcmds⟩
    obtain ⟨ss, hss, -⟩ := (hread cmds).2 hcmds
    exact ⟨ss, hss⟩

/-- What stands at the front of a text and can be made a script with words is the front of a text that is read. -/
theorem exists_ofText?_of_front {text : String} {front back : List Token} (htext : Token.ofText text = front ++ back)
    {more : List Kind} (hscript : Kind.IsScript (front.map (·.kind) ++ more))
    (hplain : ∀ k ∈ front.map (·.kind) ++ more, k ≠ .endOfText) (hmore : ∀ k ∈ more, ∃ w, k.IsSpelled w) :
    ∃ other ss, ofText? other = .ok ss ∧ front.map (·.kind) <+: (Token.ofText other).map (·.kind) := by
  have hspelled : ∀ k ∈ front.map (·.kind) ++ more, ∃ w, k.IsSpelled w := by
    rw [List.forall_mem_append, List.forall_mem_map]
    refine ⟨fun t ht => ?_, hmore⟩
    obtain ⟨-, -, w, -, hw⟩ := Token.slice?_of_mem_ofText (htext ▸ List.mem_append_left _ ht)
    exact ⟨w, hw⟩
  obtain ⟨cs, hcs, -⟩ := Kind.exists_ofLines_eq fun k hk => ⟨hplain k hk, hspelled k hk⟩
  have hkinds : (Token.ofText (String.ofList cs)).map (·.kind) = front.map (·.kind) ++ more ++ [.endOfText] := by
    rw [Token.ofText, Scanner.ofText, Scanner.kinds_tokens, String.toList_ofList, hcs]
  have hdrop : (Token.ofText (String.ofList cs)).dropLast.map (·.kind) = front.map (·.kind) ++ more := by
    rw [List.map_dropLast, hkinds, List.dropLast_concat]
  obtain ⟨ss, hss⟩ := (exists_ofText?_iff (String.ofList cs)).2 (hdrop ▸ hscript)
  refine ⟨String.ofList cs, ss, hss, ?_⟩
  rw [hkinds, List.append_assoc]
  exact List.prefix_append _ _

/-- **A fault points at the first token that cannot go on.** It stands at one token of the text, the end one included.
The tokens before it begin some text that is read, and no text that is read begins with them and this token. The place
lies in the text, between two of its characters. -/
theorem ofText?_error_place {text : String} {f : SyntaxFault} (h : ofText? text = .error f) :
    ∃ before t after, Token.ofText text = before ++ t :: after ∧ f.span = t.span ∧
      (∃ other ss, ofText? other = .ok ss ∧ before.map (·.kind) <+: (Token.ofText other).map (·.kind)) ∧
      (∀ other ss, ofText? other = .ok ss →
        ¬(before ++ [t]).map (·.kind) <+: (Token.ofText other).map (·.kind)) ∧
      f.span.start ≤ f.span.stop ∧ f.span.stop ≤ text.utf8ByteSize ∧ ∃ w, slice? text.toList f.span = some w := by
  obtain ⟨front, part, t, after, htokens, hspan, hneutral, hword, hbreaks⟩ :=
    Reader.exists_break_of_error (Cursor.plain_ofText text) h
  rw [Cursor.tokens_ofText] at htokens
  obtain ⟨more, c, hsays, hmore⟩ := hbreaks.goesOn
  refine ⟨front ++ part, t, after, htokens, hspan, ?_, fun other ss hss hpre => ?_, ?_⟩
  · refine exists_ofText?_of_front htokens ?_ ?_ hmore
    · rw [List.map_append, List.append_assoc, hneutral.isScript_iff]
      exact Kind.isScript_of_says hsays
    · rw [List.map_append, List.append_assoc, List.forall_mem_append]
      refine ⟨hneutral.plain, ?_⟩
      rintro k hk rfl
      exact hsays.text?_ne_none _ hk rfl
  · have hscript := (exists_ofText?_iff other).1 ⟨ss, hss⟩
    rw [Token.kinds_ofText_eq_append, List.map_append, List.map_append] at hpre
    exact hneutral.not_prefix hbreaks (fun hnil => hword (List.map_eq_nil_iff.1 hnil)) hscript hpre
  · obtain ⟨hle, hsize, w, hw, -⟩ := Token.slice?_of_mem_ofText (htokens ▸ List.mem_append_right _ List.mem_cons_self)
    rw [hspan]
    exact ⟨hle, hsize, w, hw⟩

/-- The line end behind the operands is where a result is missing; it comes after a letter of two bytes. -/
theorem ofText?_error_place_missing_result :
    let text := "lookup \u00e9\nemit + x y # to\nprint"
    let f : SyntaxFault := ⟨.unexpected .resultName .newline, ⟨25, 26⟩⟩
    ofText? text = .error f ∧
      ∃ before t after, Token.ofText text = before ++ t :: after ∧ f.span = t.span ∧
        (∃ other ss, ofText? other = .ok ss ∧ before.map (·.kind) <+: (Token.ofText other).map (·.kind)) ∧
        ∀ other ss, ofText? other = .ok ss →
          ¬(before ++ [t]).map (·.kind) <+: (Token.ofText other).map (·.kind) := by
  intro text f
  have h : ofText? text = .error f := by decide +kernel
  obtain ⟨before, t, after, htokens, hspan, hfront, hnone, -⟩ := ofText?_error_place h
  exact ⟨h, before, t, after, htokens, hspan, hfront, hnone⟩

end Statement
end ThreeAddress
