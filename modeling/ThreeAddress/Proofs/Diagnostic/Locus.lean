import ThreeAddress.Diagnostic.Render
import ThreeAddress.Proofs.Command.FirstFault
import ThreeAddress.Proofs.Replay.Execution

/-!
# Faults of scripts are shown at their place

Files are added one behind the other, and the index of a file is how many there were before it. A fault of a script has
its place on the boundaries of characters in its file, and what is shown for it begins with the line and the column at
which the offending token stands.

* `addFile`, `getElem?_addFiles` : files added later leave the index of a file as it is;
* `SourceFile.locus_of_append` : the line and the column of a place, from the text in front of it;
* `Token.IsOffending` : the token with which a script cannot go on. A text has one exactly when it cannot be read
  (`Statement.exists_isOffending_iff`), and one only (`Token.IsOffending.unique`). The fault of a script has its span
  (`Statement.exists_isOffending_of_error`);
* `replay_result_eq_script_iff` : a replay ends with a fault of the script exactly when its text cannot be read;
* `diagnostic_of_replay_error` : what is shown then.
-/

namespace ThreeAddress
open Text

/-! ## Files -/

/-- The index of a file that is added, and all files with it. -/
def addFile (files : List SourceFile) (f : SourceFile) : Nat × List SourceFile := (files.length, files ++ [f])

def addFiles (files more : List SourceFile) : List SourceFile := more.foldl (fun all f => (addFile all f).2) files

theorem addFiles_eq_append (files more : List SourceFile) : addFiles files more = files ++ more := by
  induction more generalizing files with
  | nil => exact (List.append_nil files).symm
  | cons f more ih =>
    show addFiles (files ++ [f]) more = _
    rw [ih, List.append_assoc, List.singleton_append]

theorem getElem?_addFiles (files : List SourceFile) (f : SourceFile) (more : List SourceFile) :
    (addFiles (addFile files f).2 more)[(addFile files f).1]? = some f := by
  rw [addFiles_eq_append]
  show (files ++ [f] ++ more)[files.length]? = some f
  simp

/-! ## Lines and columns -/

namespace SourceLine

theorem charsWithin_append (front rest : List Char) : charsWithin (utf8Length front) (front ++ rest) = front.length := by
  induction front with
  | nil =>
    cases rest with
    | nil => rfl
    | cons c rest => exact if_neg (Nat.not_le.2 c.utf8Size_pos)
  | cons c front ih =>
    rw [List.cons_append, utf8Length_cons, charsWithin, if_pos (Nat.le_add_right _ _), Nat.add_sub_cancel_left, ih,
      List.length_cons]

theorem takeWhile_locate_of_lt {offset start : Nat} (h : offset < start) (number : Nat) (ls : List (List Char)) :
    (locate number start ls).takeWhile (·.start ≤ offset) = [] := by
  cases ls with
  | nil => rfl
  | cons l ls => exact List.takeWhile_cons_of_neg (by simpa [locate] using h)

/-- The last line that begins at a place or before it has the text in front of the place. -/
theorem getLast?_takeWhile_locate (front rest : List Char) (number start : Nat) :
    ∃ l, ((locate number start (splitLines (front ++ rest))).takeWhile
        (·.start ≤ start + utf8Length front)).getLast? = some l ∧
      l.number = number + front.count '\n' ∧
      l.column (start + utf8Length front) = (front.reverse.takeWhile (· ≠ '\n')).length + 1 := by
  induction front using line_induction generalizing number start with
  | last l hl =>
    obtain ⟨ls, hls⟩ := splitLines_eq_cons rest
    have hnext : start + utf8Length l < start + utf8Length (l ++ rest.takeWhile (· ≠ '\n')) + 1 := by
      rw [utf8Length_append]
      omega
    have hchars : ∀ c ∈ l.reverse, decide (c ≠ '\n') = true := fun c hc =>
      decide_eq_true (ne_of_mem_of_not_mem (List.mem_reverse.1 hc) hl)
    have hwhole : l.reverse.takeWhile (· ≠ '\n') = l.reverse := by
      rw [← List.append_nil l.reverse, List.takeWhile_append_of_pos hchars, List.takeWhile_nil]
    refine ⟨⟨number, start, l ++ rest.takeWhile (· ≠ '\n')⟩, ?_, ?_, ?_⟩
    · rw [splitLines_append hl, hls, List.modifyHead_cons, locate, List.takeWhile_cons_of_pos (by simp),
        takeWhile_locate_of_lt hnext, List.getLast?_singleton]
    · rw [List.count_eq_zero.2 hl, Nat.add_zero]
    · rw [column, Nat.add_sub_cancel_left, charsWithin_append, hwhole, List.length_reverse]
  | line l cs hl ih =>
    have hstart : start + utf8Length (l ++ '\n' :: cs) = start + utf8Length l + 1 + utf8Length cs := by
      have hsize : '\n'.utf8Size = 1 := rfl
      rw [utf8Length_append, utf8Length_cons, hsize]
      omega
    have hends : EndsRun (· ≠ '\n') ('\n' :: l.reverse) := fun c hc => by cases hc; decide
    have hback : (l ++ '\n' :: cs).reverse = cs.reverse ++ '\n' :: l.reverse := by simp
    obtain ⟨x, hx, hnumber, hcolumn⟩ := ih (number + 1) (start + utf8Length l + 1)
    refine ⟨x, ?_, ?_, ?_⟩
    · rw [hstart, List.append_assoc, List.cons_append, splitLines_append_newline hl, locate,
        List.takeWhile_cons_of_pos (by simp; omega), List.getLast?_cons, hx, Option.getD_some]
    · rw [hnumber, List.count_append, List.count_eq_zero.2 hl, List.count_cons_self]
      omega
    · rw [hstart, hcolumn, hback, takeWhile_append_of_endsRun hends]

end SourceLine

/-- Lines are counted by the line ends in front of a place, columns by the characters behind the last of them. -/
theorem SourceFile.locus_of_append {f : SourceFile} {front rest : List Char} (h : f.text.toList = front ++ rest) :
    f.locus (utf8Length front) = f.name ++ ":" ++ Decimal.ofNat (front.count '\n' + 1) ++ ":" ++
      Decimal.ofNat ((front.reverse.takeWhile (· ≠ '\n')).length + 1) := by
  obtain ⟨l, hl, hnumber, hcolumn⟩ := SourceLine.getLast?_takeWhile_locate front rest 1 0
  rw [Nat.zero_add] at hl hcolumn
  have hline : f.lineAt (utf8Length front) = l := by rw [lineAt, lines, h, hl, Option.getD_some]
  rw [locus, hline, hnumber, hcolumn, Nat.add_comm]

theorem Snippet.exists_rows_eq_cons (f : SourceFile) (span : Span) (message : String) :
    ∃ padding rows', rows f span message = (margin padding "" ++ "┌─ " ++ f.locus span.start) :: rows' := by
  unfold rows
  dsimp only
  split <;> exact ⟨_, _, rfl⟩

/-! ## The offending token -/

/-- Lines that are read, a line that could go on, and then a token with which it cannot. Where nothing of that line is there
yet, its end would do as well, so the token has a text then. -/
def Token.IsOffending (t : Token) (text : String) : Prop :=
  ∃ front part after, ofText text = front ++ part ++ t :: after ∧ Kind.Neutral (front.map (·.kind)) ∧
    (part = [] → t.kind.text? ≠ none) ∧ Kind.BreaksLine (part.map (·.kind)) t.kind

theorem Statement.exists_isOffending_of_error {text : String} {f : SyntaxFault} (h : ofText? text = .error f) :
    ∃ t : Token, t.IsOffending text ∧ f.span = t.span := by
  obtain ⟨front, part, t, after, htokens, hspan, hneutral, hword, hbreaks⟩ :=
    Reader.exists_break_of_error (Cursor.plain_ofText text) h
  exact ⟨t, ⟨front, part, after, Cursor.tokens_ofText text ▸ htokens, hneutral, hword, hbreaks⟩, hspan⟩

/-- A text has an offending token exactly when it cannot be read. -/
theorem Statement.exists_isOffending_iff {text : String} :
    (∃ t : Token, t.IsOffending text) ↔ ∃ f, ofText? text = .error f := by
  constructor
  · rintro ⟨t, front, part, after, htokens, hneutral, hword, hbreaks⟩
    cases hread : ofText? text with
    | error f => exact ⟨f, rfl⟩
    | ok ss =>
      have hscript := (exists_ofText?_iff text).1 ⟨ss, hread⟩
      refine absurd ?_ (hneutral.not_prefix hbreaks (fun hnil => hword (List.map_eq_nil_iff.1 hnil)) hscript)
      rw [← Token.kinds_ofText_eq_append, htokens]
      simp
  · rintro ⟨f, hf⟩
    obtain ⟨t, ht, -⟩ := exists_isOffending_of_error hf
    exact ⟨t, ht⟩

/-- Two cuts of a list are at the same element when neither lies in front of the other. -/
theorem eq_of_append_cons_eq {α : Type} {as bs cs ds : List α} {x y : α} (h : as ++ x :: bs = cs ++ y :: ds)
    (hx : ¬as ++ [x] <+: cs) (hy : ¬cs ++ [y] <+: as) : x = y := by
  rcases List.append_eq_append_iff.1 h with ⟨mid, rfl, hmid⟩ | ⟨mid, rfl, hmid⟩
  · cases mid with
    | nil => exact (List.cons.inj hmid).1
    | cons z mid =>
      cases hmid
      exact absurd (by simp) hx
  · cases mid with
    | nil => exact (List.cons.inj hmid).1.symm
    | cons z mid =>
      cases hmid
      exact absurd (by simp) hy

theorem Token.IsOffending.unique {t u : Token} {text : String} (ht : t.IsOffending text) (hu : u.IsOffending text) :
    t = u := by
  obtain ⟨front, part, after, htokens, hneutral, hword, hbreaks⟩ := ht
  obtain ⟨front', part', after', htokens', hneutral', hword', hbreaks'⟩ := hu
  refine eq_of_append_cons_eq (htokens.symm.trans htokens') (fun hpre => ?_) fun hpre => ?_
  · refine hneutral.not_prefix_of_breaksLine hbreaks (fun hnil => hword (List.map_eq_nil_iff.1 hnil)) hneutral' hbreaks' ?_
    simpa using hpre.map (·.kind)
  · refine hneutral'.not_prefix_of_breaksLine hbreaks' (fun hnil => hword' (List.map_eq_nil_iff.1 hnil)) hneutral hbreaks ?_
    simpa using hpre.map (·.kind)

theorem Token.IsOffending.mem_ofText {t : Token} {text : String} (h : t.IsOffending text) : t ∈ ofText text := by
  obtain ⟨front, part, after, htokens, -, -, -⟩ := h
  rw [htokens]
  exact List.mem_append_right _ List.mem_cons_self

/-! ## Replays -/

/-- No command has a fault with a place. -/
theorem replay_result_eq_script_iff {tell : Verbosity} {text : String} {u : CompilationUnit} {grants : Grants}
    {message : String} {span : Span} : (replay tell text u grants).result = .error (.script message span) ↔
      ∃ f, Statement.ofText? text = .error f ∧ message = f.mismatch.message ∧ span = f.span := by
  constructor
  · intro h
    cases hread : Statement.ofText? text with
    | error f =>
      rw [(replay_of_error hread tell u grants).1] at h
      cases h
      exact ⟨f, rfl, rfl, rfl⟩
    | ok ss =>
      have hrun := replay_of_ok hread tell u grants
      rw [h] at hrun
      rcases Command.fault_of_runAll_error hrun.symm with ⟨_, hfault⟩ | ⟨_, hfault⟩
      · cases hfault
      · cases hfault
  · rintro ⟨f, hread, rfl, rfl⟩
    exact (replay_of_error hread tell u grants).1

/-- **A fault of a script is shown where it is.** Whatever files are added before and behind the script, its index leads to
it, and the place of the fault is that of the one offending token, between two characters of the script. The text that is
shown is not empty, and it names the file, with the line and the column of the first character of this token. -/
theorem diagnostic_of_replay_error {tell : Verbosity} {text : String} {u : CompilationUnit} {grants : Grants}
    {message : String} {span : Span} (h : (replay tell text u grants).result = .error (.script message span))
    (name : String) (before behind : List SourceFile) :
    let added := addFile (addFiles [] before) ⟨name, text⟩
    let shown := (Fault.script message span).diagnostic (addFiles added.2 behind) added.1
    (addFiles added.2 behind)[added.1]? = some ⟨name, text⟩ ∧
    ∃ t : Token, t.IsOffending text ∧ (∀ other : Token, other.IsOffending text → other = t) ∧
      span = t.span ∧ span.start ≤ span.stop ∧ span.stop ≤ text.utf8ByteSize ∧
      (∃ w, slice? text.toList span = some w ∧ t.kind.IsSpelled w) ∧
      ∃ front, takeBytes? span.start text.toList = some front ∧ shown ≠ "" ∧
        ∃ padding rows, shown = unlines ("error: Script error" ::
          (Snippet.margin padding "" ++ "┌─ " ++ (name ++ ":" ++ Decimal.ofNat (front.count '\n' + 1) ++ ":" ++
            Decimal.ofNat ((front.reverse.takeWhile (· ≠ '\n')).length + 1))) :: rows) := by
  intro added shown
  obtain ⟨f, hread, rfl, rfl⟩ := replay_result_eq_script_iff.1 h
  obtain ⟨t, ht, hspan⟩ := Statement.exists_isOffending_of_error hread
  obtain ⟨hle, hsize, hslice⟩ := Token.slice?_of_mem_ofText ht.mem_ofText
  obtain ⟨front, w, back, htext, -, hplace⟩ := Scanner.standsIn_of_mem_tokens ht.mem_ofText
  have hstart : f.span.start = utf8Length front := by rw [hspan, hplace, Nat.zero_add]
  rw [List.append_assoc] at htext
  obtain ⟨padding, rows, hrows⟩ := Snippet.exists_rows_eq_cons ⟨name, text⟩ f.span f.mismatch.message
  have hfile : (addFiles added.2 behind)[added.1]? = some ⟨name, text⟩ := getElem?_addFiles _ _ _
  have hshown : shown = unlines ("error: Script error" :: Snippet.rows ⟨name, text⟩ f.span f.mismatch.message ++ [""]) := by
    show Fault.diagnostic _ _ _ = _
    rw [Fault.diagnostic, hfile]
    rfl
  rw [hrows, hstart, SourceFile.locus_of_append htext] at hshown
  refine ⟨hfile, t, ht, fun other hother => hother.unique ht, hspan, hspan ▸ hle, hspan ▸ hsize, hspan ▸ hslice, front,
    ?_, ?_, padding, rows ++ [""], ?_⟩
  · rw [hstart, htext, takeBytes?_append]
  · intro hempty
    simpa [toList_unlines] using congrArg String.toList (hshown.symm.trans hempty)
  · exact hshown

/-- A result is missing behind a comment, so that the place is a line end. Letters of two and three bytes stand in front
of it. -/
def unfinishedScript : String := "lookup \u00e9\nemit + \u03c0 y\t# \u4e2d\nprint"

theorem diagnostic_of_replay_error_unfinishedScript :
    let fault : Fault := .script "expected a result name, found end of line" ⟨27, 28⟩
    (replay {} unfinishedScript (.ofLimit .default)).result = .error fault ∧
      ∃ padding rows, fault.diagnostic [⟨"in.q", "print"⟩, ⟨"in.q", unfinishedScript⟩, ⟨"out.q", ""⟩] 1 =
        unlines ("error: Script error" :: (Snippet.margin padding "" ++ "┌─ in.q:2:15") :: rows) := by
  intro fault
  have hread : Statement.ofText? unfinishedScript = .error ⟨.unexpected .resultName .newline, ⟨27, 28⟩⟩ := by
    decide +kernel
  have hfault : (replay {} unfinishedScript (.ofLimit .default)).result = .error fault :=
    replay_result_eq_script_iff.2 ⟨_, hread, by decide, rfl⟩
  have hplace : takeBytes? 27 unfinishedScript.toList = some "lookup \u00e9\nemit + \u03c0 y\t# \u4e2d".toList := by
    decide +kernel
  obtain ⟨-, -, -, -, -, -, -, -, front, hfront, -, padding, rows, hshown⟩ :=
    diagnostic_of_replay_error hfault "in.q" [⟨"in.q", "print"⟩] [⟨"out.q", ""⟩]
  rw [← Option.some.inj (hplace.symm.trans hfront)] at hshown
  refine ⟨hfault, padding, rows, hshown.trans ?_⟩
  rw [String.append_assoc]
  exact congrArg (fun locus => unlines ("error: Script error" :: (Snippet.margin padding "" ++ locus) :: rows))
    (by decide +kernel)

end ThreeAddress
