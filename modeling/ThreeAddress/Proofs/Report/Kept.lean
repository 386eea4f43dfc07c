import ThreeAddress.Proofs.Report.Row

/-!
# The rows that a report keeps

* `Report.ofLines?_around` : what a line that is no title adds to a report that is read;
* `Report.ofText?_full_row` : a row of three fields is read or reported. Of the rows of three words only those with
  exactly one tab lack a field, and these are passed over;
* `Report.fitsRow_of_mem_symbols` : every symbol that is read can be printed in a row, and needs no trimming there;
* `Report.ofText?_rebuilt` : so a table of what was read is read as it is.
-/

namespace ThreeAddress
open Text

namespace SymbolTable

/-- Declares these symbols, the last of them first. -/
def ofChain (ss : List Symbol) : SymbolTable := ss.foldr (fun s t => t.insert s) empty

@[simp] theorem chain_ofChain (ss : List Symbol) : (ofChain ss).chain = ss := by
  induction ss with
  | nil => rfl
  | cons s ss ih =>
    rw [ofChain, List.foldr_cons, chain_insert]
    exact congrArg (s :: ·) ih

end SymbolTable

namespace Report
variable {current : Option Section} {n : Nat} {line : List Char}

/-! ## What one line adds -/

theorem ofLines?_singleton_row {s : Symbol} (h : ReportLine.ofText current line = .row s) :
    ofLines? current n [line] = .ok ⟨[s], []⟩ := by
  simp only [ofLines?, h]
  rfl

theorem ofLines?_singleton_nothing (h : ReportLine.ofText current line = .nothing) :
    ofLines? current n [line] = .ok {} := by
  simp only [ofLines?, h]

/-- Only a row adds a symbol. -/
theorem ofText_of_mem_symbols {r : Report} (h : ofLines? current n [line] = .ok r) {s : Symbol} (hs : s ∈ r.symbols) :
    ReportLine.ofText current line = .row s := by
  cases hline : ReportLine.ofText current line with
  | row s' =>
    rw [ofLines?_singleton_row hline] at h
    cases h
    rw [List.mem_singleton.1 hs]
  | badValue =>
    simp only [ofLines?, hline] at h
    cases h
  | title | nothing | instruction =>
    simp only [ofLines?, hline] at h
    cases h
    cases hs

/-- The lines behind a line that is no title stand in the section that it stands in. -/
theorem ofLines?_around {front back : List (List Char)} {r : Report} (htitle : Section.ofTitle? line = none)
    (h : ofLines? none n (front ++ line :: back) = .ok r) :
    ∃ r₁ mid r₂, ofLines? none n front = .ok r₁ ∧
      ofLines? (Section.behind front) (n + front.length) [line] = .ok mid ∧
      ofLines? (Section.behind front) (n + front.length + 1) back = .ok r₂ ∧ r = r₁ ++ (mid ++ r₂) := by
  obtain ⟨r₁, s, hfront, hrest, rfl⟩ := ofLines?_append_ok_iff.1 h
  rw [Option.or_none, ← List.singleton_append] at hrest
  obtain ⟨mid, r₂, hmid, hback, rfl⟩ := ofLines?_append_ok_iff.1 hrest
  have hbehind : (Section.behind [line]).or (Section.behind front) = Section.behind front := by
    rw [Section.behind_cons, htitle]
    rfl
  rw [hbehind] at hback
  exact ⟨r₁, mid, r₂, hfront, hmid, hback, rfl⟩

/-! ## Full rows -/

/-- **No row of three fields is dropped.** A line among the symbols, neither blank nor a title nor the head of a table,
has three fields if it holds three words and not exactly one tab. Then the text cannot be read, or its symbols are those
of the lines in front, the symbol that the fields spell, and those of the lines behind. With one tab a line has two
fields, however many words they are, and adds nothing. -/
theorem ofText?_full_row {text : String} {front back : List (List Char)}
    (hlines : lines text.toList = front ++ line :: back) (hsection : Section.behind front = some .symbols)
    (hrow : ReportLine.IsRow line) :
    (3 ≤ (words line).length → (trim line).count '\t' ≠ 1 →
      (∃ b, ofText? text = .error b) ∨
        ∃ r₁ s r₂, ofLines? none 1 front = .ok r₁ ∧
          ofLines? (some .symbols) (front.length + 2) back = .ok r₂ ∧
          ofText? text = .ok ⟨r₁.symbols ++ s :: r₂.symbols, r₁.code ++ r₂.code⟩ ∧
          ∃ value, ReportLine.HasFields (trim line) s.name.toList s.type.toList value ∧
            Decimal.Spells value s.value.toInt) ∧
    ((trim line).count '\t' = 1 → ∀ r, ofText? text = .ok r →
      ∃ r₁ r₂, ofLines? none 1 front = .ok r₁ ∧ ofLines? (some .symbols) (front.length + 2) back = .ok r₂ ∧
        r = ⟨r₁.symbols ++ r₂.symbols, r₁.code ++ r₂.code⟩) := by
  have hnumber : 1 + front.length + 1 = front.length + 2 := by omega
  have hadds : ∀ r, ofText? text = .ok r → ∃ r₁ mid r₂, ofLines? none 1 front = .ok r₁ ∧
      ofLines? (some .symbols) (1 + front.length) [line] = .ok mid ∧
      ofLines? (some .symbols) (front.length + 2) back = .ok r₂ ∧ r = r₁ ++ (mid ++ r₂) := by
    intro r htext
    rw [ofText?, hlines] at htext
    rw [← hnumber, ← hsection]
    exact ofLines?_around hrow.noTitle htext
  constructor
  · intro hwords htab
    cases htext : ofText? text with
    | error b => exact .inl ⟨b, rfl⟩
    | ok r =>
      obtain ⟨r₁, mid, r₂, hfront, hmid, hback, rfl⟩ := hadds r htext
      rcases hrow.row_or_badValue hwords htab with ⟨value, hline⟩ | ⟨s, value, hline, hfields, hvalue⟩
      · simp only [ofLines?, hline] at hmid
        cases hmid
      · cases (ofLines?_singleton_row hline).symm.trans hmid
        exact .inr ⟨r₁, s, r₂, hfront, hback, rfl, value, hfields, hvalue⟩
  · intro htab r htext
    obtain ⟨r₁, mid, r₂, hfront, hmid, hback, rfl⟩ := hadds r htext
    cases (ofLines?_singleton_nothing (hrow.nothing_of_one_tab htab)).symm.trans hmid
    exact ⟨r₁, r₂, hfront, hback, rfl⟩

/-- Blanks inside of the fields, and a tab at the end of the line that does not count. -/
theorem ofText?_full_row_spaced :
    let text := "Symbol Table:\na int 1\n p q\tchar *\t+3 \t\nIntermediate Code:\nx = 1\n"
    let front := ["Symbol Table:".toList, "a int 1".toList]
    let line := " p q\tchar *\t+3 \t".toList
    let back := ["Intermediate Code:".toList, "x = 1".toList]
    (lines text.toList = front ++ line :: back ∧ Section.behind front = some .symbols ∧ ReportLine.IsRow line) ∧
      (3 ≤ (words line).length ∧ (trim line).count '\t' ≠ 1) ∧
      ∃ r₁ s r₂, ofLines? none 1 front = .ok r₁ ∧ ofLines? (some .symbols) 4 back = .ok r₂ ∧
        ofText? text = .ok ⟨r₁.symbols ++ s :: r₂.symbols, r₁.code ++ r₂.code⟩ ∧ s = ⟨"p q", "char *", 3⟩ := by
  intro text front line back
  have hlines : lines text.toList = front ++ line :: back := by decide +kernel
  have hsection : Section.behind front = some .symbols := by decide +kernel
  have hrow : ReportLine.IsRow line := ⟨by decide +kernel, by decide +kernel, by decide +kernel⟩
  have hwords : 3 ≤ (words line).length := by decide +kernel
  have htab : (trim line).count '\t' ≠ 1 := by decide +kernel
  have hread : ofText? text = .ok ⟨[⟨"a", "int", 1⟩, ⟨"p q", "char *", 3⟩], ["x = 1"]⟩ := by decide +kernel
  have hfront : ofLines? none 1 front = .ok ⟨[⟨"a", "int", 1⟩], []⟩ := by decide +kernel
  rcases (ofText?_full_row hlines hsection hrow).1 hwords htab with ⟨b, hb⟩ | ⟨r₁, s, r₂, h₁, h₂, htext, -⟩
  · cases hread.symm.trans hb
  · cases hfront.symm.trans h₁
    have hs := congrArg (·.map (·.symbols[1]?)) (hread.symm.trans htext)
    refine ⟨⟨hlines, hsection, hrow⟩, ⟨hwords, htab⟩, _, s, r₂, hfront, h₂, htext, ?_⟩
    exact (Option.some.inj (Except.ok.inj hs)).symm

/-- Three words with one tab among them: the text is read, and the line gives no symbol. -/
theorem full_row_passed_over :
    let text := "Symbol Table:\nx int\t3\n"
    let line := "x int\t3".toList
    lines text.toList = ["Symbol Table:".toList, line] ∧
      Section.behind ["Symbol Table:".toList] = some .symbols ∧ ReportLine.IsRow line ∧
      words line = ["x".toList, "int".toList, "3".toList] ∧ ofText? text = .ok ⟨[], []⟩ := by
  intro text line
  have hrow : ReportLine.IsRow line := ⟨by decide +kernel, by decide +kernel, by decide +kernel⟩
  exact ⟨by decide +kernel, by decide +kernel, hrow, by decide +kernel, by decide +kernel⟩

/-! ## Tables of what was read -/

theorem fitsRow_of_mem_symbols {ls : List (List Char)} {r : Report} (h : ofLines? current n ls = .ok r)
    (hls : ∀ l ∈ ls, '\n' ∉ l) : ∀ s ∈ r.symbols, s.FitsRow ∧ s.IsTidy := by
  induction ls generalizing current n r with
  | nil =>
    cases h
    exact List.forall_mem_nil _
  | cons l ls ih =>
    rw [List.forall_mem_cons] at hls
    rw [← List.singleton_append] at h
    obtain ⟨r₁, r₂, hl, hrest, rfl⟩ := ofLines?_append_ok_iff.1 h
    intro s hs
    rcases List.mem_append.1 hs with hs | hs
    · exact ReportLine.fitsRow_of_ofText (ofText_of_mem_symbols hl hs) hls.1
    · exact ih hrest hls.2 s hs

/-- **What was read is read again.** Declared in a new table, the last row first, and printed, the rows of any text that
is read come back as they are, in the same order, and nothing besides. -/
theorem ofText?_rebuilt {text : String} {r : Report} (h : ofText? text = .ok r) :
    ofText? (SymbolTable.ofChain r.symbols).report = .ok { symbols := r.symbols, code := [] } := by
  have hrows := fitsRow_of_mem_symbols h fun l hl => newline_notMem_of_mem_lines hl
  have hfits : ∀ s ∈ (SymbolTable.ofChain r.symbols).chain, s.FitsRow := by
    rw [SymbolTable.chain_ofChain]
    exact fun s hs => (hrows s hs).1
  rw [ofText?_table hfits, SymbolTable.chain_ofChain,
    CompilationUnit.filter_map_of_isTidy fun s hs => (hrows s hs).2]

/-- Two tables with rows of both kinds, an empty type, a carriage return in a name, and a name that is a rule. -/
theorem ofText?_rebuilt_untidy :
    let text := "x int oops\r\nSymbol Table:\n  x \t\t+07\nIntermediate Code:\nq\nSymbol Table:\n" ++
      "Name int\u00a03 Value\n--- - -1\na\rb\t\u2003unsigned int \t-0\n"
    let rows : List Symbol := [⟨"x", "", 7⟩, ⟨"Name", "int", 3⟩, ⟨"---", "-", -1⟩, ⟨"a\rb", "unsigned int", 0⟩]
    ofText? text = .ok ⟨rows, ["q"]⟩ ∧ ofText? (SymbolTable.ofChain rows).report = .ok ⟨rows, []⟩ := by
  intro text rows
  have hread : ofText? text = .ok ⟨rows, ["q"]⟩ := by decide +kernel
  refine ⟨hread, ?_⟩
  have hagain := ofText?_rebuilt hread
  exact hagain

end Report
end ThreeAddress
