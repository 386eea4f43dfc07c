import ThreeAddress.Proofs.Command.Language
import ThreeAddress.Proofs.Command.Moved

/-!
# Layout does not matter

Blanks and comments, blank lines and carriage returns before line ends change nothing about what a script says.

* `Layout.canonical` : a text line by line, without comments and blank lines and with one blank between words;
  `Layout.withReturns` : a text with a carriage return before each of its line ends;
* `Kind.linesOf` : the lines of a text that hold something. A text in pieces has those of its pieces
  (`Kind.linesOf_intercalate`), and so has a canonical one (`Layout.linesOf_canonical`);
* `Statement.commands?` : the commands of a text, if it is read, which depend on these lines only
  (`Statement.commands?_congr`);
* `Kind.ofLines_addReturns` : carriage returns before line ends change no token;
* `Statement.ofText?_layout` : what follows for the commands and for faults.
-/

namespace ThreeAddress
open Text

/-! ## Layouts of a text -/

namespace Layout

def canonicalLine (line : List Char) : String :=
  String.intercalate " " ((runs isGap (Kind.uncommented line)).map String.ofList)

def canonical (text : String) : String :=
  String.intercalate "\n" (((splitLines text.toList).map canonicalLine).filter (· ≠ ""))

def addReturns (cs : List Char) : List Char := cs.flatMap fun c => if c = '\n' then ['\r', '\n'] else [c]

def withReturns (text : String) : String := String.ofList (addReturns text.toList)

theorem addReturns_of_notMem {l : List Char} (hl : '\n' ∉ l) : addReturns l = l := by
  have hsingle : ∀ c ∈ l, (if c = '\n' then ['\r', '\n'] else [c]) = [c] := fun c hc =>
    if_neg (ne_of_mem_of_not_mem hc hl)
  rw [addReturns, List.flatMap_def, List.map_congr_left hsingle, ← List.flatMap_def, List.flatMap_singleton']

theorem addReturns_append_newline {l : List Char} (hl : '\n' ∉ l) (cs : List Char) :
    addReturns (l ++ '\n' :: cs) = (l ++ ['\r']) ++ '\n' :: addReturns cs := by
  have hfront := addReturns_of_notMem hl
  unfold addReturns at *
  rw [List.flatMap_append, List.flatMap_cons, hfront, if_pos rfl]
  simp

end Layout

/-! ## The lines of a text -/

namespace Kind

/-- The lines of a text that hold something. -/
def linesOf (text : String) : List (List Kind) := lines ((Token.ofText text).dropLast.map (·.kind))

theorem linesOf_eq_of_ofLines {text : String} {ks : List Kind} (h : ofLines text.toList = ks ++ [endOfText]) :
    linesOf text = lines ks := by
  rw [linesOf, List.map_dropLast, Token.ofText, Scanner.ofText, Scanner.kinds_tokens, h, List.dropLast_concat]

theorem linesOf_append_newline (text₁ text₂ : String) :
    linesOf (text₁ ++ "\n" ++ text₂) = linesOf text₁ ++ linesOf text₂ := by
  unfold linesOf
  rw [Token.kinds_ofText_append_newline, lines_append_newline]

theorem linesOf_empty : linesOf "" = [] := linesOf_eq_of_ofLines (show ofLines "".toList = [] ++ [endOfText] from rfl)

theorem linesOf_intercalate (ls : List String) : linesOf (String.intercalate "\n" ls) = ls.flatMap linesOf := by
  induction ls with
  | nil => exact linesOf_empty
  | cons l ls ih =>
    cases ls with
    | nil => rw [String.intercalate_singleton, List.flatMap_singleton]
    | cons m ls =>
      rw [String.intercalate_cons_cons, linesOf_append_newline, ih]
      rfl

theorem ofLines_of_notMem {l : List Char} (hl : '\n' ∉ l) : ofLines l = ofLine l ++ [endOfText] := by
  have hsplit : splitLines l = [l] := splitOn_of_notMem hl
  rw [ofLines, hsplit, List.map_singleton, List.intercalate_singleton]

theorem linesOf_ofList_of_notMem {l : List Char} (hl : '\n' ∉ l) : linesOf (String.ofList l) = lines (ofLine l) :=
  linesOf_eq_of_ofLines (by rw [String.toList_ofList, ofLines_of_notMem hl])

/-- A text has the lines of its lines. -/
theorem linesOf_ofList (cs : List Char) :
    linesOf (String.ofList cs) = (splitLines cs).flatMap fun l => lines (ofLine l) := by
  induction cs using line_induction with
  | last l hl =>
    have hsplit : splitLines l = [l] := splitOn_of_notMem hl
    rw [linesOf_ofList_of_notMem hl, hsplit, List.flatMap_singleton]
  | line l cs hl ih =>
    have htext : String.ofList (l ++ '\n' :: cs) = String.ofList l ++ "\n" ++ String.ofList cs := by
      rw [← String.toList_inj]
      simp
    rw [htext, linesOf_append_newline, linesOf_ofList_of_notMem hl, ih, splitLines_append_newline hl, List.flatMap_cons]

end Kind

/-! ## Canonical texts -/

namespace Layout

theorem isRun_of_mem_words {line w : List Char} (hline : '\n' ∉ line)
    (hw : w ∈ runs isGap (Kind.uncommented line)) : IsRun w where
  ne_nil := by simpa using (List.mem_filter.1 hw).2
  isWordChar := by
    intro c hc
    obtain ⟨hmem, hgap⟩ := of_mem_runs hw hc
    have hhash : c ≠ '#' := of_decide_eq_true (List.all_eq_true.1 List.all_takeWhile c hmem)
    have hnewline : c ≠ '\n' := ne_of_mem_of_not_mem ((List.takeWhile_sublist _).subset hmem) hline
    simp [ThreeAddress.isWordChar, hgap, hhash, hnewline]

/-- The words of a line are those of its canonical form. -/
theorem linesOf_canonicalLine {line : List Char} (hline : '\n' ∉ line) :
    Kind.linesOf (canonicalLine line) = Kind.lines (Kind.ofLine line) := by
  have hwords : ∀ w ∈ (runs isGap (Kind.uncommented line)).map String.ofList, IsRun w.toList := by
    rw [List.forall_mem_map]
    intro w hw
    rw [String.toList_ofList]
    exact isRun_of_mem_words hline hw
  refine Kind.linesOf_eq_of_ofLines ?_
  rw [canonicalLine, Kind.ofLines_intercalate hwords, List.map_map, Kind.ofLine]
  simp only [Function.comp_def, String.toList_ofList]

theorem flatMap_linesOf_filter (ls : List String) :
    (ls.filter (· ≠ "")).flatMap Kind.linesOf = ls.flatMap Kind.linesOf := by
  induction ls with
  | nil => rfl
  | cons l ls ih =>
    by_cases hl : l = ""
    · rw [List.filter_cons_of_neg (by simpa using hl), ih, List.flatMap_cons, hl, Kind.linesOf_empty, List.nil_append]
    · rw [List.filter_cons_of_pos (by simpa using hl), List.flatMap_cons, List.flatMap_cons, ih]

theorem newline_notMem_of_mem_splitLines {cs l : List Char} (hl : l ∈ splitLines cs) : '\n' ∉ l := by
  induction cs using line_induction with
  | last m hm =>
    have hsplit : splitLines m = [m] := splitOn_of_notMem hm
    rw [hsplit, List.mem_singleton] at hl
    rwa [hl]
  | line m cs hm ih =>
    rw [splitLines_append_newline hm] at hl
    rcases List.mem_cons.1 hl with rfl | hl
    · exact hm
    · exact ih hl

theorem linesOf_canonical (text : String) : Kind.linesOf (canonical text) = Kind.linesOf text := by
  have hlines : ∀ l ∈ splitLines text.toList, Kind.linesOf (canonicalLine l) = Kind.lines (Kind.ofLine l) := fun l hl =>
    linesOf_canonicalLine (newline_notMem_of_mem_splitLines hl)
  rw [canonical, Kind.linesOf_intercalate, flatMap_linesOf_filter, List.flatMap_map, List.flatMap_def,
    List.map_congr_left hlines, ← List.flatMap_def, ← Kind.linesOf_ofList, String.ofList_toList]

end Layout

/-! ## Carriage returns -/

namespace Kind

theorem ofLine_append_return (l : List Char) : ofLine (l ++ ['\r']) = ofLine l := by
  unfold ofLine uncommented
  rw [List.takeWhile_append]
  split
  · next hall =>
    have hwhole : l.takeWhile (· ≠ '#') = l := (List.takeWhile_prefix _).eq_of_length hall
    have hreturn : ['\r'].takeWhile (· ≠ '#') = ['\r'] := rfl
    rw [hreturn, runs_append_cons (by decide), runs_nil, List.append_nil, hwhole]
  · rfl

theorem ofLines_append_newline {l : List Char} (hl : '\n' ∉ l) (cs : List Char) :
    ofLines (l ++ '\n' :: cs) = ofLine l ++ newline :: ofLines cs := by
  have hne : (splitLines cs).map ofLine ≠ [] := by
    rw [ne_eq, List.map_eq_nil_iff]
    exact List.splitOn_ne_nil '\n' cs
  unfold ofLines
  rw [splitLines_append_newline hl, List.map_cons, List.intercalate_cons_of_ne_nil hne, List.append_assoc,
    List.append_assoc]
  rfl

/-- A carriage return before a line end belongs to a gap or to a comment. -/
theorem ofLines_addReturns (cs : List Char) : ofLines (Layout.addReturns cs) = ofLines cs := by
  induction cs using line_induction with
  | last l hl => rw [Layout.addReturns_of_notMem hl]
  | line l cs hl ih =>
    have hreturn : '\n' ∉ l ++ ['\r'] := by simpa using hl
    rw [Layout.addReturns_append_newline hl, ofLines_append_newline hreturn, ofLines_append_newline hl,
      ofLine_append_return, ih]

end Kind

/-! ## What is read -/

namespace Statement

/-- The commands of a text, if it is read. -/
def commands? (text : String) : Option (List Command) := (ofText? text).toOption.map (List.map (·.command))

theorem commands?_eq_some_iff {text : String} {cs : List Command} :
    commands? text = some cs ↔ List.Forall₂ Command.Says (Kind.linesOf text) cs := by
  have hread := Reader.script_ok_iff (Cursor.plain_ofText text) cs
  refine Iff.trans ?_ hread
  show ((ofText? text).toOption.map _ = some cs) ↔ ∃ ss, ofText? text = .ok ss ∧ _
  cases ofText? text with
  | error f => exact iff_of_false (fun h => by cases h) fun ⟨_, h, _⟩ => by cases h
  | ok ss =>
    constructor
    · intro h
      exact ⟨ss, rfl, Option.some.inj h⟩
    · rintro ⟨_, hss, hcs⟩
      cases hss
      exact congrArg some hcs

/-- Texts that hold the same lines say the same commands, or neither of them is read. -/
theorem commands?_congr {text₁ text₂ : String} (h : Kind.linesOf text₁ = Kind.linesOf text₂) :
    commands? text₁ = commands? text₂ := by
  refine Option.ext fun cs => ?_
  rw [commands?_eq_some_iff, commands?_eq_some_iff, h]

theorem commands?_eq_toOption_unplaced (text : String) :
    commands? text = (Reader.unplaced (ofText? text)).toOption := by
  unfold commands?
  cases ofText? text <;> rfl

theorem unplaced_withReturns (text : String) :
    Reader.unplaced (ofText? (Layout.withReturns text)) = Reader.unplaced (ofText? text) := by
  refine Reader.unplaced_script_of_map_kind ?_
  show (Token.ofText _).dropLast.map _ = (Token.ofText _).dropLast.map _
  rw [List.map_dropLast, List.map_dropLast, Token.ofText, Scanner.ofText, Scanner.kinds_tokens, Layout.withReturns,
    String.toList_ofList, Kind.ofLines_addReturns, Token.ofText, Scanner.ofText, Scanner.kinds_tokens]

/-- **Layout does not matter.** A text and its canonical form are read as the same commands, or neither is read. With
carriage returns before its line ends a text is read as the same commands, or fails with the same message. -/
theorem ofText?_layout (text : String) :
    commands? (Layout.canonical text) = commands? text ∧
    commands? (Layout.withReturns text) = commands? text ∧
    ∀ f, ofText? text = .error f →
      ∃ g, ofText? (Layout.withReturns text) = .error g ∧ g.mismatch.message = f.mismatch.message := by
  have h := unplaced_withReturns text
  refine ⟨commands?_congr (Layout.linesOf_canonical text), ?_, fun f hf => ?_⟩
  · rw [commands?_eq_toOption_unplaced, commands?_eq_toOption_unplaced, h]
  · rw [hf] at h
    cases hreturns : ofText? (Layout.withReturns text) with
    | error g =>
      rw [hreturns] at h
      have hmismatch : g.mismatch = f.mismatch := Except.error.inj h
      exact ⟨g, rfl, by rw [hmismatch]⟩
    | ok ss =>
      rw [hreturns] at h
      cases h

/-- The carriage return belongs to the comment, and the second operand is missing at the line end as before. -/
theorem ofText?_layout_missing_operand :
    let text := "\tlookup  x\n# y\n\n emit + x# z\nprint"
    Layout.canonical text = "lookup x\nemit + x\nprint" ∧
      Layout.withReturns text = "\tlookup  x\r\n# y\r\n\r\n emit + x# z\r\nprint" ∧
      (ofText? text = .error ⟨.unexpected .operandOrBlank .newline, 28, 29⟩ ∧
        ∃ g, ofText? (Layout.withReturns text) = .error g ∧
          g.mismatch.message = "expected an operand or '_', found end of line") := by
  intro text
  have hfault : ofText? text = .error ⟨.unexpected .operandOrBlank .newline, 28, 29⟩ := by decide +kernel
  obtain ⟨g, hg, hmessage⟩ := (ofText?_layout text).2.2 _ hfault
  exact ⟨by decide +kernel, by decide +kernel, hfault, g, hg, hmessage⟩

end Statement
end ThreeAddress
