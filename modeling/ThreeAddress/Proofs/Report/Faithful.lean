import ThreeAddress.Proofs.Report.Replayed

/-!
# Reports of scripts are faithful

The words of a script hold neither the tab between the fields of a row, nor the gap between the parts of an instruction,
nor a line end. So a reader that trims nothing finds every field of what has been printed.

* `Symbol.ofRow?`, `Instruction.ofLine?` : the symbol and the instruction that a line is printed for;
* `CompilationUnit.contents` : all of them, the empty line between the two sections telling which is which
  (`CompilationUnit.contents_report`);
* `report_replayAll_eq_iff` : so scripts lead to the same report only by the same symbols and instructions.
-/

namespace ThreeAddress
open Text

/-! ## Lines -/

def Symbol.ofRow? (row : List Char) : Option Symbol :=
  match row.splitOn '\t' with
  | [name, type, value] => (Decimal.int64? value).map fun v => ⟨String.ofList name, String.ofList type, v⟩
  | _ => none

/-- Three parts make a copy, and five an instruction with an operator. -/
def Instruction.ofLine? (line : List Char) : Option Instruction :=
  match line.splitOn ' ' with
  | [result, _, arg1] => some (copy (String.ofList arg1) (String.ofList result))
  | [result, _, arg1, op, arg2] =>
    some ⟨String.ofList op, String.ofList arg1, String.ofList arg2, String.ofList result⟩
  | _ => none

theorem Symbol.ofRow?_row {s : Symbol} (h : s.FitsRow) : ofRow? s.row.toList = some s := by
  have hname : '\t' ∉ s.name.toList := fun hc => (h _ (List.mem_append_left _ hc)).1 rfl
  have htype : '\t' ∉ s.type.toList := fun hc => (h _ (List.mem_append_right _ hc)).1 rfl
  have hvalue : '\t' ∉ (Decimal.ofInt64 s.value).toList := notMem_ofInt64 (by decide) (by decide) _
  have hsplit : s.row.toList.splitOn '\t' = [s.name.toList, s.type.toList, (Decimal.ofInt64 s.value).toList] := by
    rw [toList_row, splitOn_append_cons hname, splitOn_append_cons htype, splitOn_of_notMem hvalue]
  rw [ofRow?, hsplit]
  show (Decimal.int64? _).map _ = _
  rw [Decimal.int64?_ofInt64, Option.map_some, String.ofList_toList, String.ofList_toList]

namespace Instruction

variable {i : Instruction} (h : i.MadeOf fun w => IsRun w.toList)
include h

theorem splitOn_render_of_isCopy (hcopy : i.isCopy = true) :
    i.render.toList.splitOn ' ' = [i.result.toList, ['='], i.arg1.toList] := by
  have hrender : i.render.toList = i.result.toList ++ ' ' :: (['='] ++ ' ' :: i.arg1.toList) := by
    rw [toList_render_of_isCopy hcopy]
    simp
  rw [hrender, splitOn_append_cons (h.result.notMem (by decide)), splitOn_append_cons (by decide),
    splitOn_of_notMem (h.arg1.notMem (by decide))]

theorem splitOn_render_of_not_isCopy (hcopy : ¬i.isCopy = true) :
    i.render.toList.splitOn ' ' = [i.result.toList, ['='], i.arg1.toList, i.op.toList, i.arg2.toList] := by
  have hrender : i.render.toList =
      i.result.toList ++ ' ' :: (['='] ++ ' ' :: (i.arg1.toList ++ ' ' :: (i.op.toList ++ ' ' :: i.arg2.toList))) := by
    rw [toList_render_of_not_isCopy hcopy]
    simp
  have harg2 : ' ' ∉ i.arg2.toList := by
    rcases h.arg2 with hnone | hrun
    · rw [hnone]
      exact List.not_mem_nil
    · exact hrun.notMem (by decide)
  rw [hrender, splitOn_append_cons (h.result.notMem (by decide)), splitOn_append_cons (by decide),
    splitOn_append_cons (h.arg1.notMem (by decide)), splitOn_append_cons (h.op.notMem (by decide)),
    splitOn_of_notMem harg2]

theorem ofLine?_render : ofLine? i.render.toList = some i := by
  by_cases hcopy : i.isCopy = true
  · rw [ofLine?, splitOn_render_of_isCopy h hcopy]
    show some (copy _ _) = _
    rw [isCopy, Bool.and_eq_true, decide_eq_true_iff, decide_eq_true_iff] at hcopy
    rw [String.ofList_toList, String.ofList_toList, copy, ← hcopy.1, ← hcopy.2]
  · rw [ofLine?, splitOn_render_of_not_isCopy h hcopy]
    simp only [String.ofList_toList]

end Instruction

/-! ## Reports -/

/-- The head of a table is no row. -/
theorem SymbolTable.filterMap_reportLines {t : SymbolTable} (h : ∀ s ∈ t.chain, s.FitsRow) :
    (t.reportLines.map String.toList).filterMap Symbol.ofRow? = t.chain := by
  have htitle : Symbol.ofRow? title.toList = none := by decide
  have hcolumns : Symbol.ofRow? columns.toList = none := by decide
  have hrule : Symbol.ofRow? rule.toList = none := by decide
  rw [reportLines, List.map_cons, List.map_cons, List.map_cons, List.filterMap_cons_none htitle,
    List.filterMap_cons_none hcolumns, List.filterMap_cons_none hrule, List.map_map, List.filterMap_map]
  exact (List.filterMap_congr fun s hs => Symbol.ofRow?_row (h s hs)).trans List.filterMap_some

theorem Program.filterMap_reportLines {p : Program} (h : ∀ i ∈ p.code.toList, i.MadeOf fun w => IsRun w.toList) :
    (p.reportLines.map String.toList).filterMap Instruction.ofLine? = p.code.toList := by
  have htitle : Instruction.ofLine? title.toList = none := by decide
  rw [reportLines, List.map_cons, List.filterMap_cons_none htitle, List.map_map, List.filterMap_map]
  exact (List.filterMap_congr fun i hi => Instruction.ofLine?_render (h i hi)).trans List.filterMap_some

theorem SymbolTable.ne_nil_of_mem_reportLines {t : SymbolTable} : ∀ l ∈ t.reportLines.map String.toList, l ≠ [] := by
  simp only [reportLines, List.map_cons, List.map_map, List.forall_mem_cons, List.forall_mem_map]
  refine ⟨by decide, by decide, by decide, fun s _ => ?_⟩
  rw [Function.comp_apply, Symbol.toList_row]
  simp

namespace CompilationUnit

/-- The symbols and the instructions that are printed before and behind the empty line. -/
def contents (report : String) : List Symbol × List Instruction :=
  (((splitLines report.toList).takeWhile (· ≠ [])).filterMap Symbol.ofRow?,
    ((splitLines report.toList).dropWhile (· ≠ [])).filterMap Instruction.ofLine?)

theorem contents_report {u : CompilationUnit} (h : u.MadeOf fun w => IsRun w.toList) :
    contents u.report = (u.symbols.chain, u.program.code.toList) := by
  have hlines : splitLines u.report.toList =
      u.symbols.reportLines.map String.toList ++ [] :: (u.program.reportLines.map String.toList ++ [[]]) := by
    rw [report, splitLines_unlines (newline_notMem_reportLines h.fitsRow h.fitsLine), reportLines]
    simp
  have htable : ∀ l ∈ u.symbols.reportLines.map String.toList, decide (l ≠ []) = true := fun l hl =>
    decide_eq_true (SymbolTable.ne_nil_of_mem_reportLines l hl)
  rw [contents, hlines, List.takeWhile_append_of_pos htable, List.dropWhile_append_of_pos htable,
    List.takeWhile_cons_of_neg (by decide), List.dropWhile_cons_of_neg (by decide), List.append_nil,
    SymbolTable.filterMap_reportLines h.fitsRow, List.filterMap_cons_none rfl, List.filterMap_append,
    Program.filterMap_reportLines h.code]
  exact congrArg _ (List.append_nil _)

end CompilationUnit

/-! ## Replays -/

/-- **Two units that scripts have made print the same report only if they hold the same**: the same symbols, in order,
with their names, types and values, and the same instructions, in order, with all their fields. -/
theorem report_replayAll_eq_iff (l₁ l₂ : Limit) (scripts₁ scripts₂ : List (Verbosity × String)) :
    (replayAll (.ofLimit l₁) scripts₁).report = (replayAll (.ofLimit l₂) scripts₂).report ↔
      (replayAll (.ofLimit l₁) scripts₁).symbols.chain = (replayAll (.ofLimit l₂) scripts₂).symbols.chain ∧
        (replayAll (.ofLimit l₁) scripts₁).program.code = (replayAll (.ofLimit l₂) scripts₂).program.code := by
  have hwords (l : Limit) (scripts : List (Verbosity × String)) :
      (replayAll (.ofLimit l) scripts).MadeOf fun w => IsRun w.toList :=
    (CompilationUnit.madeOf_ofLimit l).replayAll scripts
  constructor
  · intro h
    have hcontents := congrArg CompilationUnit.contents h
    rw [CompilationUnit.contents_report (hwords l₁ scripts₁),
      CompilationUnit.contents_report (hwords l₂ scripts₂)] at hcontents
    obtain ⟨hsymbols, hcode⟩ := Prod.mk.inj hcontents
    exact ⟨hsymbols, Array.toList_inj.1 hcode⟩
  · rintro ⟨hsymbols, hcode⟩
    simp only [CompilationUnit.report, CompilationUnit.reportLines, SymbolTable.reportLines, Program.reportLines,
      hsymbols, hcode]

end ThreeAddress
