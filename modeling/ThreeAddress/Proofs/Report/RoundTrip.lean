import ThreeAddress.Proofs.Report.Line

/-!
# Reading back a printed report

* `Report.ofText?_unlines` : lines printed one after the other are read one after the other;
* `Report.ofLines?_append_of_nothing` : lines in front of the first section may be passed over;
* `Report.ofLines?_rows`, `Report.ofLines?_instructions` : the rows and the instructions of a section are read in order;
* `SymbolTable.ofLines?_reportLines`, `Program.ofLines?_reportLines` : what each of the two parts of a report gives, and
  what it gives alone (`Report.ofText?_table`, `Report.ofText?_program`);
* `CompilationUnit.ofText?_report` : what reading gives back of a compilation unit, and when nothing is lost.
-/

namespace ThreeAddress
open Text

/-! ## Lines -/

theorem trim_dropReturn (line : List Char) : trim (dropReturn line) = trim line := by
  unfold dropReturn
  split
  · next h =>
    obtain ⟨cs, rfl⟩ := List.getLast?_eq_some_iff.1 h
    rw [List.dropLast_concat, trim_append_blanks]
    rw [List.forall_mem_singleton]
    decide
  · rfl

namespace Report

theorem ofLines?_map_dropReturn (ls : List (List Char)) (current : Option Section) (n : Nat) :
    ofLines? current n (ls.map dropReturn) = ofLines? current n ls := by
  induction ls generalizing current n with
  | nil => rfl
  | cons l ls ih =>
    have hl : ReportLine.ofText current (dropReturn l) = ReportLine.ofText current l := by
      unfold ReportLine.ofText
      rw [trim_dropReturn]
    simp only [List.map_cons, ofLines?, hl, ih]

/-- A line of its own stays one: a carriage return at its end is a blank. -/
theorem ofText?_unlines {ls : List String} (h : ∀ l ∈ ls, '\n' ∉ l.toList) :
    ofText? (unlines ls) = ofLines? none 1 (ls.map String.toList) := by
  unfold ofText?
  rw [lines_unlines h, ← ofLines?_map_dropReturn (ls.map String.toList), List.map_map]
  rfl

/-- Lines in front of the first section that say nothing only move the numbers of the others. -/
theorem ofLines?_append_of_nothing {front : List (List Char)} (h : ∀ l ∈ front, ReportLine.ofText none l = .nothing)
    (rest : List (List Char)) (n : Nat) :
    ofLines? none n (front ++ rest) = ofLines? none (n + front.length) rest := by
  induction front generalizing n with
  | nil => rfl
  | cons l front ih =>
    rw [List.forall_mem_cons] at h
    have hn : n + 1 + front.length = n + (l :: front).length := by
      rw [List.length_cons]
      omega
    rw [List.cons_append, ofLines?, h.1]
    show ofLines? none (n + 1) (front ++ rest) = _
    rw [ih h.2, hn]

/-! ## Sections -/

/-- The rows of symbols that have a name are read, in order. -/
theorem ofLines?_rows {ss : List Symbol} (hs : ∀ s ∈ ss, s.FitsRow) (rest : List (List Char)) (n : Nat) :
    ofLines? (some .symbols) n (ss.map (·.row.toList) ++ rest) =
      (ofLines? (some .symbols) (n + ss.length) rest).map fun r =>
        { r with symbols := (ss.filter Symbol.isNamed).map Symbol.trimmed ++ r.symbols } := by
  induction ss generalizing n with
  | nil =>
    rw [List.map_nil, List.nil_append, List.length_nil, Nat.add_zero]
    rcases ofLines? (some .symbols) n rest with _ | r <;> rfl
  | cons s ss ih =>
    rw [List.forall_mem_cons] at hs
    have hn : n + 1 + ss.length = n + (s :: ss).length := by
      rw [List.length_cons]
      omega
    rw [List.map_cons, List.cons_append, ofLines?, ReportLine.ofText_row hs.1]
    by_cases hname : s.isNamed = true
    · rw [if_pos hname, List.filter_cons_of_pos hname, List.map_cons]
      show (ofLines? (some .symbols) (n + 1) (ss.map (·.row.toList) ++ rest)).map _ = _
      rw [ih hs.2, hn]
      rcases ofLines? (some .symbols) (n + (s :: ss).length) rest with _ | r <;> rfl
    · rw [if_neg hname, List.filter_cons_of_neg hname]
      show ofLines? (some .symbols) (n + 1) (ss.map (·.row.toList) ++ rest) = _
      rw [ih hs.2, hn]

theorem ofLines?_instructions (is : List Instruction) (n : Nat) :
    ofLines? (some .code) n (is.map (·.render.toList)) =
      .ok { code := is.map fun i => String.ofList (trim i.render.toList) } := by
  induction is generalizing n with
  | nil => rfl
  | cons i is ih =>
    rw [List.map_cons, ofLines?, ReportLine.ofText_render]
    show (ofLines? (some .code) (n + 1) (is.map (·.render.toList))).map _ = _
    rw [ih]
    rfl

end Report

/-! ## Printed sections -/

theorem SymbolTable.newline_notMem_reportLines {t : SymbolTable} (h : ∀ s ∈ t.chain, s.FitsRow) :
    ∀ l ∈ t.reportLines, '\n' ∉ l.toList := by
  simp only [reportLines, List.forall_mem_cons, List.forall_mem_map]
  exact ⟨by decide, by decide, by decide, fun s hs => Symbol.newline_notMem_row (h s hs)⟩

theorem Program.newline_notMem_reportLines {p : Program} (h : ∀ i ∈ p.code.toList, i.FitsLine) :
    ∀ l ∈ p.reportLines, '\n' ∉ l.toList := by
  simp only [reportLines, List.forall_mem_cons, List.forall_mem_map]
  exact ⟨by decide, fun i hi => Instruction.newline_notMem_render (h i hi)⟩

/-- A title, a head of two lines and the rows. -/
theorem SymbolTable.ofLines?_reportLines {t : SymbolTable} (h : ∀ s ∈ t.chain, s.FitsRow) (rest : List (List Char))
    (n : Nat) : Report.ofLines? none n (t.reportLines.map String.toList ++ rest) =
      (Report.ofLines? (some .symbols) (n + 3 + t.size) rest).map fun r =>
        { r with symbols := (t.chain.filter Symbol.isNamed).map Symbol.trimmed ++ r.symbols } := by
  have hlines : t.reportLines.map String.toList ++ rest =
      title.toList :: columns.toList :: rule.toList :: (t.chain.map (·.row.toList) ++ rest) := by
    simp [reportLines, Function.comp_def]
  have htitle : ReportLine.ofText none title.toList = .title .symbols := by decide
  have hcolumns : ReportLine.ofText (some .symbols) columns.toList = .nothing := by decide
  have hrule : ReportLine.ofText (some .symbols) rule.toList = .nothing := by decide
  rw [hlines]
  simp only [Report.ofLines?, htitle, hcolumns, hrule]
  rw [Report.ofLines?_rows h, length_chain]

/-- A title ends the section in front of it, if there is one. -/
theorem Program.ofLines?_reportLines (p : Program) (current : Option Section) (n : Nat) :
    Report.ofLines? current n (p.reportLines.map String.toList) =
      .ok { code := p.code.toList.map fun i => String.ofList (trim i.render.toList) } := by
  have hlines : p.reportLines.map String.toList = title.toList :: p.code.toList.map (·.render.toList) := by
    simp [reportLines, Function.comp_def]
  have htitle : ReportLine.ofText current title.toList = .title .code := by
    rcases current with _ | _ | _ <;> decide
  rw [hlines]
  simp only [Report.ofLines?, htitle]
  rw [Report.ofLines?_instructions]

/-- Nothing stands behind the table. -/
theorem SymbolTable.ofLines?_table {t : SymbolTable} (h : ∀ s ∈ t.chain, s.FitsRow) (n : Nat) :
    Report.ofLines? none n (t.reportLines.map String.toList) =
      .ok { symbols := (t.chain.filter Symbol.isNamed).map Symbol.trimmed } := by
  have hread := ofLines?_reportLines h [] n
  rw [List.append_nil] at hread
  rw [hread]
  show Except.ok (Report.mk (_ ++ []) []) = _
  rw [List.append_nil]

theorem Report.ofText?_table {t : SymbolTable} (h : ∀ s ∈ t.chain, s.FitsRow) :
    ofText? t.report = .ok { symbols := (t.chain.filter Symbol.isNamed).map Symbol.trimmed } := by
  rw [SymbolTable.report, ofText?_unlines (SymbolTable.newline_notMem_reportLines h), SymbolTable.ofLines?_table h]

theorem Report.ofText?_program {p : Program} (h : ∀ i ∈ p.code.toList, i.FitsLine) :
    ofText? p.report = .ok { code := p.code.toList.map fun i => String.ofList (trim i.render.toList) } := by
  rw [Program.report, ofText?_unlines (Program.newline_notMem_reportLines h), Program.ofLines?_reportLines]

/-! ## Compilation units -/

namespace CompilationUnit

theorem newline_notMem_reportLines {u : CompilationUnit} (hs : ∀ s ∈ u.symbols.chain, s.FitsRow)
    (hc : ∀ i ∈ u.program.code.toList, i.FitsLine) : ∀ l ∈ u.reportLines, '\n' ∉ l.toList := by
  simp only [reportLines, List.forall_mem_append, List.forall_mem_cons]
  exact ⟨SymbolTable.newline_notMem_reportLines hs, by decide, Program.newline_notMem_reportLines hc⟩

theorem ofLines?_reportLines {u : CompilationUnit} (hs : ∀ s ∈ u.symbols.chain, s.FitsRow) (n : Nat) :
    Report.ofLines? none n (u.reportLines.map String.toList) = .ok {
      symbols := (u.symbols.chain.filter Symbol.isNamed).map Symbol.trimmed
      code := u.program.code.toList.map fun i => String.ofList (trim i.render.toList) } := by
  have hgap : ReportLine.ofText (some .symbols) "".toList = .nothing := by decide
  rw [reportLines, List.map_append, List.map_cons, SymbolTable.ofLines?_reportLines hs]
  simp only [Report.ofLines?, hgap]
  rw [Program.ofLines?_reportLines]
  show Except.ok (Report.mk (_ ++ []) _) = _
  rw [List.append_nil]

theorem filter_map_of_isTidy {ss : List Symbol} (h : ∀ s ∈ ss, s.IsTidy) :
    (ss.filter Symbol.isNamed).map Symbol.trimmed = ss := by
  rw [List.filter_eq_self.2 fun s hs => (h s hs).isNamed]
  exact (List.map_congr_left fun s hs => (h s hs).trimmed_eq).trans (List.map_id ss)

/-- **A printed report is read back**: the symbols that have a name, trimmed, and every instruction as it was
printed, trimmed. Symbols that need no trimming all come back as they are, whatever their names look like. -/
theorem ofText?_report (u : CompilationUnit) (hs : ∀ s ∈ u.symbols.chain, s.FitsRow)
    (hc : ∀ i ∈ u.program.code.toList, i.FitsLine) :
    Report.ofText? u.report = .ok {
      symbols := (u.symbols.chain.filter Symbol.isNamed).map Symbol.trimmed
      code := u.program.code.toList.map fun i => String.ofList (trim i.render.toList) } ∧
    ((∀ s ∈ u.symbols.chain, s.IsTidy) →
      (Report.ofText? u.report).map (·.symbols) = .ok u.symbols.chain) := by
  have hread := ofLines?_reportLines hs 1
  rw [← Report.ofText?_unlines (newline_notMem_reportLines hs hc)] at hread
  refine ⟨hread, fun htidy => ?_⟩
  rw [report, hread]
  show Except.ok _ = _
  rw [filter_map_of_isTidy htidy]

/-- Names that look like the lines around them, and an instruction with blanks at its ends. -/
def lookalikes : CompilationUnit where
  symbols := { history := #[⟨"Name", "Type", 0⟩, ⟨"Symbol Table:", "char *", -1⟩, ⟨"---", "-", 2⟩] }
  program := { code := #[⟨"=", "Value ", "", " Intermediate Code:"⟩] }

theorem ofText?_report_lookalikes :
    (∀ s ∈ lookalikes.symbols.chain, s.FitsRow ∧ s.IsTidy) ∧
      (∀ i ∈ lookalikes.program.code.toList, i.FitsLine) ∧
      Report.ofText? lookalikes.report = .ok {
        symbols := [⟨"---", "-", 2⟩, ⟨"Symbol Table:", "char *", -1⟩, ⟨"Name", "Type", 0⟩]
        code := ["Intermediate Code: = Value"] } := by
  have hs : ∀ s ∈ lookalikes.symbols.chain, s.FitsRow ∧ s.IsTidy := by decide +kernel
  have hc : ∀ i ∈ lookalikes.program.code.toList, i.FitsLine := by decide +kernel
  obtain ⟨hread, -⟩ := ofText?_report lookalikes (fun s h => (hs s h).1) hc
  exact ⟨hs, hc, hread.trans (congrArg Except.ok (by decide +kernel))⟩

end CompilationUnit

end ThreeAddress
