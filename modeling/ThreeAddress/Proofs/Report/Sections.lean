import Mathlib.Control.Monad.Basic
import ThreeAddress.Proofs.Report.RoundTrip

/-!
# The sections of a report

A line stands in the section of the last title in front of it, and nothing else in front of it matters. So a report is
read part by part, and a text that begins with a title says the same behind any other text.

* `Section.ofTitle?`, `Section.behind` : the section that a line opens, and the one that is open behind some lines;
* `Report.ofLines?_append` : lines behind other lines, read in the section that those leave open
  (`Report.ofLines?_append_ok_iff`);
* `Report.ofLines?_add` : the number of the first line moves nothing but the number of a bad row;
* `Report.ofText?_append_of_beginsWithTitle` : a text behind another one, when it begins with a title;
* `Report.ofText?_by_sections` : what follows for texts of several sections.
-/

namespace ThreeAddress
open Text

/-- The same row, `k` lines further down. -/
def BadRow.movedDown (k : Nat) (b : BadRow) : BadRow := { b with line := b.line + k }

namespace Section

def ofTitle? (line : List Char) : Option Section :=
  if trim line = symbols.title.toList then some symbols
  else if trim line = code.title.toList then some code
  else none

/-- The section of the last title among these lines. -/
def behind (ls : List (List Char)) : Option Section := (ls.filterMap ofTitle?).getLast?

theorem ofTitle?_eq_some_iff {line : List Char} {s : Section} : ofTitle? line = some s ↔ trim line = s.title.toList := by
  have hne : symbols.title.toList ≠ code.title.toList := by decide
  unfold ofTitle?
  split
  · next h => cases s <;> simp [h, hne]
  · next h =>
    split
    · next h' => cases s <;> simp [h', hne.symm]
    · next h' => cases s <;> simp [h, h']

theorem ofTitle?_eq_none_iff {line : List Char} : ofTitle? line = none ↔ ∀ s : Section, trim line ≠ s.title.toList := by
  simp only [Option.eq_none_iff_forall_ne_some, ne_eq, ofTitle?_eq_some_iff]

/-- A title further back hides the first line. -/
theorem behind_cons (l : List Char) (ls : List (List Char)) : behind (l :: ls) = (behind ls).or (ofTitle? l) := by
  unfold behind
  cases h : ofTitle? l with
  | none => rw [List.filterMap_cons_none h, Option.or_none]
  | some s =>
    rw [List.filterMap_cons_some h, List.getLast?_cons]
    cases (ls.filterMap ofTitle?).getLast? <;> rfl

end Section

namespace ReportLine
variable {current : Option Section} {line : List Char}

theorem ofText_of_ofTitle? {s : Section} (h : Section.ofTitle? line = some s) : ofText current line = title s := by
  have hne : Section.code.title.toList ≠ Section.symbols.title.toList := by decide
  rw [Section.ofTitle?_eq_some_iff] at h
  unfold ofText
  cases s <;> simp [h, hne]

theorem ofRow_ne_title (line : List Char) (s : Section) : ofRow line ≠ title s := by
  unfold ofRow
  split
  · split <;> nofun
  · nofun

/-- No line but a title ends the section that it stands in. -/
theorem ofText_ne_title (h : Section.ofTitle? line = none) (s : Section) : ofText current line ≠ title s := by
  rw [ofText_of_ne_title (Section.ofTitle?_eq_none_iff.1 h)]
  split
  · nofun
  · rcases current with _ | _ | _
    · nofun
    · show (if isTableHead (trim line) then nothing else ofRow (trim line)) ≠ title s
      split
      · nofun
      · exact ofRow_ne_title _ s
    · nofun

end ReportLine

/-! ## Lines behind other lines -/

namespace Report

instance : Append Report where
  append r s := ⟨r.symbols ++ s.symbols, r.code ++ s.code⟩

theorem append_def (r s : Report) : r ++ s = ⟨r.symbols ++ s.symbols, r.code ++ s.code⟩ := rfl

theorem append_assoc (r s t : Report) : r ++ s ++ t = r ++ (s ++ t) := by
  simp [append_def]

/-- One line at a time. -/
theorem ofLines?_cons (current : Option Section) (n : Nat) (l : List Char) (ls : List (List Char)) :
    ofLines? current n (l :: ls) = (ofLines? current n [l]).bind fun r =>
      (ofLines? ((Section.ofTitle? l).or current) (n + 1) ls).map (r ++ ·) := by
  cases h : Section.ofTitle? l with
  | some s =>
    simp only [ofLines?, ReportLine.ofText_of_ofTitle? h, Option.some_or]
    cases ofLines? (some s) (n + 1) ls <;> rfl
  | none =>
    rw [Option.none_or]
    cases hl : ReportLine.ofText current l with
    | title s => exact absurd hl (ReportLine.ofText_ne_title h s)
    | badValue value => simp only [ofLines?, hl, Except.bind]
    | nothing | row | instruction =>
      simp only [ofLines?, hl]
      cases ofLines? current (n + 1) ls <;> rfl

/-- **Lines are read behind other lines** as if these were not there, but in the section that they leave open. -/
theorem ofLines?_append (current : Option Section) (n : Nat) (ls ms : List (List Char)) :
    ofLines? current n (ls ++ ms) = (ofLines? current n ls).bind fun r =>
      (ofLines? ((Section.behind ls).or current) (n + ls.length) ms).map (r ++ ·) := by
  induction ls generalizing current n with
  | nil =>
    show ofLines? current n ms = (ofLines? current n ms).map id
    cases ofLines? current n ms <;> rfl
  | cons l ls ih =>
    have hn : n + 1 + ls.length = n + (l :: ls).length := by simp; omega
    rw [List.cons_append, ofLines?_cons, ofLines?_cons current n l ls, ih, hn, Section.behind_cons, Option.or_assoc]
    rcases ofLines? current n [l] with b | r
    · rfl
    · rcases ofLines? ((Section.ofTitle? l).or current) (n + 1) ls with b | s
      · rfl
      · show ((ofLines? _ _ ms).map (s ++ ·)).map (r ++ ·) = (ofLines? _ _ ms).map (r ++ s ++ ·)
        rcases ofLines? ((Section.behind ls).or ((Section.ofTitle? l).or current)) (n + (l :: ls).length) ms with b | t
        · rfl
        · exact congrArg Except.ok (append_assoc r s t).symm

theorem ofLines?_append_ok_iff {current : Option Section} {n : Nat} {ls ms : List (List Char)} {r : Report} :
    ofLines? current n (ls ++ ms) = .ok r ↔ ∃ r₁ r₂, ofLines? current n ls = .ok r₁ ∧
      ofLines? ((Section.behind ls).or current) (n + ls.length) ms = .ok r₂ ∧ r = r₁ ++ r₂ := by
  rw [ofLines?_append]
  constructor
  · intro h
    cases hls : ofLines? current n ls with
    | error b =>
      rw [hls] at h
      cases h
    | ok r₁ =>
      cases hms : ofLines? ((Section.behind ls).or current) (n + ls.length) ms with
      | error b =>
        rw [hls, hms] at h
        cases h
      | ok r₂ =>
        rw [hls, hms] at h
        exact ⟨r₁, r₂, rfl, rfl, (Except.ok.inj h).symm⟩
  · rintro ⟨r₁, r₂, hls, hms, rfl⟩
    rw [hls, hms]
    rfl

theorem ofLines?_of_ofTitle? {l : List Char} {s : Section} (h : Section.ofTitle? l = some s) (current : Option Section)
    (n : Nat) (ls : List (List Char)) : ofLines? current n (l :: ls) = ofLines? (some s) (n + 1) ls := by
  simp only [ofLines?, ReportLine.ofText_of_ofTitle? h]

/-- The first line may have another number: then a bad row has one that differs as much. -/
theorem ofLines?_add (current : Option Section) (n k : Nat) (ls : List (List Char)) :
    ofLines? current (n + k) ls = (ofLines? current n ls).mapError (·.movedDown k) := by
  induction ls generalizing current n with
  | nil => rfl
  | cons l ls ih =>
    have hn : n + k + 1 = n + 1 + k := by omega
    cases hl : ReportLine.ofText current l with
    | badValue value =>
      simp only [ofLines?, hl]
      rfl
    | title | nothing => simp only [ofLines?, hl, hn, ih]
    | row | instruction =>
      simp only [ofLines?, hl, hn, ih]
      cases ofLines? current (n + 1) ls <;> rfl

/-! ## Texts behind other texts -/

/-- A carriage return at the end of a line and an empty last line say nothing. -/
theorem ofLines?_lines (cs : List Char) (current : Option Section) (n : Nat) :
    ofLines? current n (lines cs) = ofLines? current n ((splitLines cs).map dropReturn) := by
  rw [ofLines?_map_dropReturn]
  induction cs using line_induction generalizing current n with
  | last l hl =>
    have hsingle : splitLines l = [l] := splitOn_of_notMem hl
    rw [hsingle]
    by_cases hnil : l = []
    · subst hnil
      rcases current with _ | _ | _ <;> rfl
    · rw [lines_of_not_mem hl hnil]
  | line l cs hl ih =>
    rw [lines_append_newline hl, splitLines_append_newline hl, ← ofLines?_map_dropReturn (l :: splitLines cs),
      List.map_cons, ofLines?_cons, ih, ofLines?_cons _ _ _ ((splitLines cs).map dropReturn), ofLines?_map_dropReturn]

/-- The first line of the text is a title. -/
def BeginsWithTitle (text : String) : Prop :=
  ∃ l s, (lines text.toList).head? = some l ∧ trim l = (Section.title s).toList

theorem beginsWithTitle_unlines (s : Section) (ls : List String) : BeginsWithTitle (unlines (s.title :: ls)) := by
  have hline : '\n' ∉ s.title.toList := by cases s <;> decide
  refine ⟨dropReturn s.title.toList, s, ?_, ?_⟩
  · rw [toList_unlines, List.flatMap_cons, List.append_assoc, List.singleton_append, lines_append_newline hline]
    rfl
  · cases s <;> decide

/-- Behind any other text the rows and instructions are those of both, and a bad row of the second one moves down by the
lines of the first one. -/
theorem ofText?_append_of_beginsWithTitle (a : String) {b : String} (hb : BeginsWithTitle b) :
    ofText? (a ++ "\n" ++ b) = (ofText? a).bind fun r =>
      ((ofText? b).mapError (·.movedDown (a.toList.count '\n' + 1))).map (r ++ ·) := by
  obtain ⟨l, s, hhead, htitle⟩ := hb
  obtain ⟨ls, hls⟩ := List.head?_eq_some_iff.1 hhead
  rw [← Section.ofTitle?_eq_some_iff] at htitle
  have hlines : (a ++ "\n" ++ b).toList = a.toList ++ '\n' :: b.toList := by simp
  have hsecond (current : Option Section) (n : Nat) : ofLines? current n (lines b.toList) =
      ofLines? none n (lines b.toList) := by
    rw [hls, ofLines?_of_ofTitle? htitle, ofLines?_of_ofTitle? htitle]
  unfold ofText?
  rw [hlines, lines_append_newline_cons, ofLines?_append, ← ofLines?_lines, List.length_map, length_splitLines, hsecond,
    ofLines?_add]

theorem ofText?_append_ok {a b : String} (hb : BeginsWithTitle b) {r s : Report} (ha : ofText? a = .ok r)
    (hok : ofText? b = .ok s) : ofText? (a ++ "\n" ++ b) = .ok (r ++ s) := by
  rw [ofText?_append_of_beginsWithTitle a hb, ha, hok]
  rfl

/-- **A report is read section by section.** A text whose first line is a title may stand behind any other text: a bad
row of the first one is reported as it is, one of the second one is reported further down by the lines in front of it,
and otherwise the rows and the instructions of both are read, in order. So the two printed parts of a unit may stand
alone or one behind the other, in either order. -/
theorem ofText?_by_sections :
    (∀ a b : String, BeginsWithTitle b →
      (∀ e, ofText? a = .error e → ofText? (a ++ "\n" ++ b) = .error e) ∧
      (∀ r e, ofText? a = .ok r → ofText? b = .error e →
        ofText? (a ++ "\n" ++ b) = .error ⟨e.line + 1 + a.toList.count '\n', e.value⟩) ∧
      ∀ r s, ofText? a = .ok r → ofText? b = .ok s →
        ofText? (a ++ "\n" ++ b) = .ok ⟨r.symbols ++ s.symbols, r.code ++ s.code⟩) ∧
    ∀ (t : SymbolTable) (p : Program), (∀ s ∈ t.chain, s.FitsRow) → (∀ i ∈ p.code.toList, i.FitsLine) →
      ∃ symbols code, ofText? t.report = .ok ⟨symbols, []⟩ ∧ ofText? p.report = .ok ⟨[], code⟩ ∧
        ofText? (t.report ++ "\n" ++ p.report) = .ok ⟨symbols, code⟩ ∧
        ofText? (p.report ++ "\n" ++ t.report) = .ok ⟨symbols, code⟩ := by
  refine ⟨fun a b hb => ⟨fun e ha => ?_, fun r e ha herror => ?_, fun r s ha hok => ofText?_append_ok hb ha hok⟩,
    fun t p ht hp => ?_⟩
  · rw [ofText?_append_of_beginsWithTitle a hb, ha]
    rfl
  · have hline : e.line + 1 + a.toList.count '\n' = e.line + (a.toList.count '\n' + 1) := by omega
    rw [ofText?_append_of_beginsWithTitle a hb, ha, herror, hline]
    rfl
  · have htable := ofText?_table ht
    have hcode := ofText?_program hp
    have hfirst : BeginsWithTitle t.report := beginsWithTitle_unlines .symbols _
    have hsecond : BeginsWithTitle p.report := beginsWithTitle_unlines .code _
    refine ⟨_, _, htable, hcode, ?_, ?_⟩
    · rw [ofText?_append_ok hsecond htable hcode]
      simp [append_def]
    · rw [ofText?_append_ok hfirst hcode htable]
      simp [append_def]

/-- A title opens a section of symbols again, and the first text ends with a carriage return. -/
theorem ofText?_by_sections_reopened :
    let a := "x int three\nSymbol Table:\nx int 3\r"
    let b := "\tIntermediate Code:\r\nx = 1\n Symbol Table:\ny int oops"
    let u := CompilationUnit.lookalikes
    (BeginsWithTitle b ∧ ofText? a = .ok ⟨[⟨"x", "int", 3⟩], []⟩ ∧ ofText? b = .error ⟨4, "oops"⟩ ∧
      ofText? (a ++ "\n" ++ b) = .error ⟨7, "oops"⟩) ∧
    (∀ s ∈ u.symbols.chain, s.FitsRow) ∧ (∀ i ∈ u.program.code.toList, i.FitsLine) ∧
      ofText? (u.program.report ++ "\n" ++ u.symbols.report) = .ok
        ⟨[⟨"---", "-", 2⟩, ⟨"Symbol Table:", "char *", -1⟩, ⟨"Name", "Type", 0⟩], ["Intermediate Code: = Value"]⟩ := by
  intro a b u
  obtain ⟨hparts, hprinted⟩ := ofText?_by_sections
  have hb : BeginsWithTitle b := ⟨"\tIntermediate Code:".toList, .code, by decide +kernel, by decide +kernel⟩
  have hfirst : ofText? a = .ok ⟨[⟨"x", "int", 3⟩], []⟩ := by decide +kernel
  have hsecond : ofText? b = .error ⟨4, "oops"⟩ := by decide +kernel
  have hs : ∀ s ∈ u.symbols.chain, s.FitsRow := by decide +kernel
  have hc : ∀ i ∈ u.program.code.toList, i.FitsLine := by decide +kernel
  obtain ⟨symbols, code, htable, hcode, -, hboth⟩ := hprinted u.symbols u.program hs hc
  have hsymbols : ofText? u.symbols.report = .ok
      ⟨[⟨"---", "-", 2⟩, ⟨"Symbol Table:", "char *", -1⟩, ⟨"Name", "Type", 0⟩], []⟩ := by decide +kernel
  have hinstructions : ofText? u.program.report = .ok ⟨[], ["Intermediate Code: = Value"]⟩ := by decide +kernel
  cases hsymbols.symm.trans htable
  cases hinstructions.symm.trans hcode
  have hwhole := (hparts a b hb).2.1 _ _ hfirst hsecond
  have hcount : a.toList.count '\n' = 2 := by decide +kernel
  rw [hcount] at hwhole
  exact ⟨⟨hb, hfirst, hsecond, hwhole⟩, hs, hc, hboth⟩

end Report
end ThreeAddress
