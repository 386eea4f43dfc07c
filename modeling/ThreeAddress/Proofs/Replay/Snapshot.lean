import Mathlib.Data.List.TakeWhile
import ThreeAddress.Proofs.Report.Faithful

/-!
# Printed snapshots

A print command puts out the lines of the report as it stands. The words of a script hold no carriage return, so cutting
the report into lines loses nothing, and no answer to a look-up has the form of an instruction, so the lines of a report
are told apart from whatever is printed behind them.

* `CompilationUnit.MadeOf.lines_report` : the lines that are printed are those that the report was put together from;
* `Instruction.isLine` : the form of the line of an instruction; `CompilationUnit.reportAhead` : the report at the front of
  some lines (`CompilationUnit.MadeOf.reportAhead_append`);
* `Transcript` : a unit and the lines put out so far; `Transcript.executeAll` : commands that go on behind them, whether they
  fail or not;
* `print_snapshots_report` : what a print command puts out is the report, and the report can be found in the output
  (`reportAhead_replay` : in that of a script too).
-/

namespace ThreeAddress
open Text

/-! ## The lines of a report -/

namespace CompilationUnit

theorem MadeOf.return_notMem_reportLines {u : CompilationUnit} (h : u.MadeOf fun w => IsRun w.toList) :
    ∀ l ∈ u.reportLines, '\r' ∉ l.toList := by
  simp only [reportLines, SymbolTable.reportLines, Program.reportLines, List.forall_mem_append, List.forall_mem_cons,
    List.forall_mem_map]
  have hword {w : String} (hw : IsRun w.toList) : '\r' ∉ w.toList := hw.notMem (by decide)
  refine ⟨⟨by decide, by decide, by decide, fun s hs => ?_⟩, by decide, by decide, fun i hi => ?_⟩
  · have hs := h.symbols s hs
    exact Symbol.notMem_row (by simp [hword hs.1, hword hs.2]) (by decide) (by decide) (by decide)
  · have hi := h.code i hi
    have harg2 : '\r' ∉ i.arg2.toList := by
      rcases hi.arg2 with hnone | hrun
      · simp [hnone]
      · exact hword hrun
    exact Instruction.notMem_render (by simp [hword hi.op, hword hi.arg1, harg2, hword hi.result]) (by decide) (by decide)

/-- No line loses anything when the report is cut into lines. -/
theorem MadeOf.lines_report {u : CompilationUnit} (h : u.MadeOf fun w => IsRun w.toList) :
    (lines u.report.toList).map String.ofList = u.reportLines := by
  rw [report, lines_unlines (newline_notMem_reportLines h.fitsRow h.fitsLine), List.map_map]
  refine (List.map_congr_left fun l hl => ?_).trans (List.map_id _)
  have hlast : ¬l.toList.getLast? = some '\r' := fun hlast =>
    h.return_notMem_reportLines l hl (List.mem_of_getLast? hlast)
  rw [Function.comp_apply, dropReturn, if_neg hlast, String.ofList_toList]
  rfl

theorem length_reportLines (u : CompilationUnit) : u.reportLines.length = 5 + u.symbols.size + u.program.size := by
  simp only [reportLines, SymbolTable.reportLines, Program.reportLines, List.length_append, List.length_cons,
    List.length_map, SymbolTable.length_chain, Array.length_toList, Program.size]
  omega

end CompilationUnit

/-! ## Lines of instructions and answers -/

namespace Instruction

/-- Three or five parts between blanks, the second of them an equals sign. -/
def isLine (line : List Char) : Bool :=
  let parts := line.splitOn ' '
  parts[1]? = some ['='] && (parts.length = 3 || parts.length = 5)

theorem isLine_render {i : Instruction} (h : i.MadeOf fun w => IsRun w.toList) : isLine i.render.toList = true := by
  by_cases hcopy : i.isCopy = true
  · rw [isLine, splitOn_render_of_isCopy h hcopy]
    rfl
  · rw [isLine, splitOn_render_of_not_isCopy h hcopy]
    rfl

end Instruction

/-- An answer has a colon in its second part or else too many parts, whatever the name and the type are. -/
theorem SymbolTable.isLine_answer (t : SymbolTable) (name : String) :
    Instruction.isLine (t.answer name).toList = false := by
  unfold answer
  split
  · next s hs =>
    have hline : ("found " ++ s.name ++ ": " ++ s.type ++ " = " ++ Decimal.ofInt64 s.value).toList =
        "found".toList ++ ' ' :: (s.name.toList ++ [':'] ++
          ' ' :: (s.type.toList ++ ' ' :: (['='] ++ ' ' :: (Decimal.ofInt64 s.value).toList))) := by
      simp
    rw [hline, Instruction.isLine, splitOn_append_cons (by decide), Bool.and_eq_false_iff]
    by_cases hblank : ' ' ∈ s.name.toList
    · refine .inr ?_
      have hcount := List.count_pos_iff.2 hblank
      simp [length_splitOn]
      omega
    · refine .inl ?_
      have hcolon : s.name.toList ++ [':'] ≠ ['='] := fun h => by simpa using congrArg List.getLast? h
      rw [splitOn_append_cons (by simpa using hblank)]
      simpa using hcolon
  · have hline : ("not found: " ++ name).toList = "not".toList ++ ' ' :: ("found:".toList ++ ' ' :: name.toList) := by
      simp
    rw [hline, Instruction.isLine, splitOn_append_cons (by decide), splitOn_append_cons (by decide)]
    rfl

/-- Whatever the names in it are, a report begins with its own first line. -/
theorem CompilationUnit.exists_lines_report (u : CompilationUnit) :
    ∃ ls, (lines u.report.toList).map String.ofList = SymbolTable.title :: ls := by
  have htext : ∃ rest, u.report.toList = SymbolTable.title.toList ++ '\n' :: rest := by
    rw [report, toList_unlines, reportLines, SymbolTable.reportLines, List.cons_append, List.flatMap_cons,
      List.append_assoc]
    exact ⟨_, rfl⟩
  obtain ⟨rest, hrest⟩ := htext
  have hreturn : dropReturn SymbolTable.title.toList = SymbolTable.title.toList := by decide
  rw [hrest, lines_append_newline (by decide), List.map_cons, hreturn, String.ofList_toList]
  exact ⟨_, rfl⟩

/-- The first line that a command puts out is no instruction. -/
theorem Command.endsRun_out {u v : CompilationUnit} {c : Command} {out : List String} (h : c.run u = (.ok out, v)) :
    EndsRun (Instruction.isLine ·.toList) out := by
  intro l hl
  by_cases hc : c = .print
  · subst hc
    have hout : (lines u.report.toList).map String.ofList = out := Except.ok.inj (congrArg Prod.fst h)
    obtain ⟨ls, hls⟩ := u.exists_lines_report
    rw [← hout, hls] at hl
    cases hl
    decide
  · obtain ⟨name, -, rfl⟩ := eq_lookup_of_mem_out h hc (List.mem_of_mem_head? hl)
    exact u.symbols.isLine_answer name

namespace CompilationUnit

/-- The report that the lines begin with: a table up to the empty line, one line more for the title, and instructions for as
long as there are any. -/
def reportAhead (ls : List String) : List String :=
  let rest := ls.dropWhile (· ≠ "")
  ls.takeWhile (· ≠ "") ++ rest.take 2 ++ (rest.drop 2).takeWhile (Instruction.isLine ·.toList)

/-- Lines behind a report do not matter as long as the first of them is no instruction. -/
theorem MadeOf.reportAhead_append {u : CompilationUnit} (h : u.MadeOf fun w => IsRun w.toList) {ls : List String}
    (hls : EndsRun (Instruction.isLine ·.toList) ls) : reportAhead (u.reportLines ++ ls) = u.reportLines := by
  have htable : ∀ l ∈ u.symbols.reportLines, decide (l ≠ "") = true := fun l hl => decide_eq_true fun hempty =>
    SymbolTable.ne_nil_of_mem_reportLines l.toList (List.mem_map_of_mem hl) (congrArg String.toList hempty)
  have hcode : ∀ l ∈ u.program.code.toList.map (·.render), Instruction.isLine l.toList = true := by
    rw [List.forall_mem_map]
    exact fun i hi => Instruction.isLine_render (h.code i hi)
  have hlines : u.reportLines ++ ls = u.symbols.reportLines ++
      "" :: Program.title :: (u.program.code.toList.map (·.render) ++ ls) := by
    simp [reportLines, Program.reportLines]
  rw [hlines, reportAhead, List.takeWhile_append_of_pos htable, List.dropWhile_append_of_pos htable,
    List.takeWhile_cons_of_neg (by decide), List.dropWhile_cons_of_neg (by decide), List.append_nil]
  show u.symbols.reportLines ++ ["", Program.title] ++ List.takeWhile _ (u.program.code.toList.map (·.render) ++ ls) = _
  rw [takeWhile_append_of_endsRun hls, List.takeWhile_eq_self_iff.2 hcode, List.append_assoc]
  rfl

end CompilationUnit

/-! ## Commands one behind the other -/

/-- A unit and the lines that have been put out so far. -/
structure Transcript where
  unit : CompilationUnit
  output : List String

namespace Transcript

/-- Runs a command. One that fails puts nothing out. -/
def execute (t : Transcript) (c : Command) : Transcript :=
  match c.run t.unit with
  | (.ok out, u) => ⟨u, t.output ++ out⟩
  | (.error _, u) => ⟨u, t.output⟩

def executeAll (t : Transcript) (cs : List Command) : Transcript := cs.foldl execute t

theorem execute_of_ok {u v : CompilationUnit} {c : Command} {out : List String} (h : c.run u = (.ok out, v))
    (output : List String) : execute ⟨u, output⟩ c = ⟨v, output ++ out⟩ := by
  rw [execute, h]

theorem executeAll_of_executes {u v : CompilationUnit} {cs : List Command} {out : List String}
    (h : Command.Executes u cs out v) (output : List String) : executeAll ⟨u, output⟩ cs = ⟨v, output ++ out⟩ := by
  induction h using Command.Executes.unrefused_induction_on generalizing output with
  | nil u => rw [executeAll, List.foldl_nil, List.append_nil]
  | cons head _ ih =>
    rw [executeAll, List.foldl_cons, execute_of_ok head, ← List.append_assoc]
    exact ih _

/-- The lines of a command are put behind those before them, and the first of them is no instruction. -/
theorem exists_output_execute (t : Transcript) (c : Command) :
    ∃ out, (t.execute c).output = t.output ++ out ∧ EndsRun (Instruction.isLine ·.toList) out := by
  rcases h : c.run t.unit with ⟨f | out, u⟩
  · exact ⟨[], by simp [execute, h], endsRun_nil _⟩
  · exact ⟨out, by simp [execute, h], Command.endsRun_out h⟩

theorem exists_output_executeAll (t : Transcript) (cs : List Command) :
    ∃ out, (t.executeAll cs).output = t.output ++ out ∧ EndsRun (Instruction.isLine ·.toList) out := by
  induction cs generalizing t with
  | nil => exact ⟨[], (List.append_nil _).symm, endsRun_nil _⟩
  | cons c cs ih =>
    obtain ⟨first, hfirst, hends⟩ := t.exists_output_execute c
    obtain ⟨rest, hrest, hendsRest⟩ := ih (t.execute c)
    refine ⟨first ++ rest, ?_, endsRun_append hends hendsRest⟩
    rw [← List.append_assoc, ← hfirst]
    exact hrest

/-- What each of the commands keeps, the unit keeps. -/
theorem unit_executeAll_invariant {P : CompilationUnit → Prop} {cs : List Command}
    (h : ∀ c ∈ cs, ∀ u, P u → P (c.run u).2) {t : Transcript} (ht : P t.unit) : P (t.executeAll cs).unit := by
  induction cs generalizing t with
  | nil => exact ht
  | cons c cs ih =>
    rw [List.forall_mem_cons] at h
    have hunit : (t.execute c).unit = (c.run t.unit).2 := by
      rcases hc : c.run t.unit with ⟨f | out, u⟩ <;> simp [execute, hc]
    exact ih h.2 (hunit ▸ h.1 t.unit ht)

end Transcript

/-! ## Print commands -/

/-- From a print command on, the report of the unit at that time is in front of what is put out. -/
theorem CompilationUnit.MadeOf.exists_output_print {u : CompilationUnit} (h : u.MadeOf fun w => IsRun w.toList)
    (output : List String) (after : List Command) :
    ∃ rest, ((Transcript.mk u output).executeAll (.print :: after)).output = output ++ (u.reportLines ++ rest) ∧
      CompilationUnit.reportAhead (u.reportLines ++ rest) = u.reportLines := by
  have hrun : Command.print.run u = (.ok u.reportLines, u) := by rw [Command.run, h.lines_report]
  obtain ⟨rest, hrest, hends⟩ := Transcript.exists_output_executeAll ⟨u, output ++ u.reportLines⟩ after
  refine ⟨rest, ?_, h.reportAhead_append hends⟩
  rw [Transcript.executeAll, List.foldl_cons, Transcript.execute_of_ok hrun, ← List.append_assoc]
  exact hrest

/-- **A printed snapshot is the report as it stands.** A print command changes nothing and puts out the lines of the report,
five and one for each symbol and each instruction, whatever has been put out before. From there on the report can be read
off the output, whatever commands come behind it. -/
theorem print_snapshots_report (l : Limit) (scripts : List (Verbosity × String)) :
    let u := replayAll (.ofLimit l) scripts
    ∃ shown, Command.print.run u = (.ok shown, u) ∧ unlines shown = u.report ∧
      shown.length = 5 + u.symbols.size + u.program.size ∧
      ∀ output, Transcript.execute ⟨u, output⟩ .print = ⟨u, output ++ shown⟩ ∧
        ∀ after, let behind := ((Transcript.mk u output).executeAll (.print :: after)).output.drop output.length
          shown <+: behind ∧ unlines (CompilationUnit.reportAhead behind) = u.report := by
  intro u
  have hwords : u.MadeOf fun w => IsRun w.toList := (CompilationUnit.madeOf_ofLimit l).replayAll scripts
  have hrun : Command.print.run u = (.ok u.reportLines, u) := by rw [Command.run, hwords.lines_report]
  refine ⟨u.reportLines, hrun, rfl, u.length_reportLines, fun output => ⟨Transcript.execute_of_ok hrun output, ?_⟩⟩
  intro after behind
  obtain ⟨rest, houtput, hahead⟩ := hwords.exists_output_print output after
  have hbehind : behind = u.reportLines ++ rest := by
    show List.drop _ (Transcript.output _) = _
    rw [houtput, List.drop_left]
  rw [hbehind]
  exact ⟨List.prefix_append _ _, congrArg unlines hahead⟩

/-- In the output of a script each of its print commands has left the report of the unit that it found. -/
theorem reportAhead_replay {u : CompilationUnit} (hu : u.MadeOf fun w => IsRun w.toList) {text : String}
    {ss : List Statement} {before after : List Command} (hread : Statement.ofText? text = .ok ss)
    (hcommands : ss.map (·.command) = before ++ .print :: after) {tell : Verbosity} {out : List String}
    (h : (replay tell text u).result = .ok out) :
    let t := (Transcript.mk u []).executeAll before
    t.output <+: out ∧ unlines (CompilationUnit.reportAhead (out.drop t.output.length)) = t.unit.report := by
  intro t
  have ht : t.unit.MadeOf fun w => IsRun w.toList := by
    refine Transcript.unit_executeAll_invariant (fun c hc v hv => ?_) hu
    have hword := Statement.madeOf_of_ofText? hread fun _ ht _ hw => (Token.word_of_mem_ofText ht hw).1
    exact (hword c (hcommands ▸ List.mem_append_left _ hc)).run hv
  have hout : out = (t.executeAll (.print :: after)).output := by
    have hexecutes := Transcript.executeAll_of_executes (executes_of_replay_ok hread h) []
    rw [hcommands, Transcript.executeAll, List.foldl_append] at hexecutes
    exact (congrArg Transcript.output hexecutes).symm
  obtain ⟨rest, houtput, hahead⟩ := ht.exists_output_print t.output after
  rw [hout, houtput, List.drop_left, hahead]
  exact ⟨List.prefix_append _ _, rfl⟩

end ThreeAddress
