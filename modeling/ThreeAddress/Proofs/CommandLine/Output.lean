import ThreeAddress.CommandLine.Run
import ThreeAddress.Proofs.Replay.Lookups
import ThreeAddress.Proofs.Report.Replayed

/-!
# Standard output as a report

A run without an output file prints the answers to the look-ups of its script, an empty line if there are any, and the
report. No answer looks like a title, whatever the words in it are, so whoever reads reports can be given all of it.

* `IsPreamble`, `SymbolTable.ofText_answer` : a line in front of the first section, such as every answer is. A script without
  a print command prints nothing else (`isPreamble_of_replay_ok`);
* `Sections.ofText?_preamble_append` : what each choice of sections gives back, whatever such lines stand in front;
* `run_of_replay_ok` : all that a run leaves behind whose script is replayed;
* `ofText?_stdout` : reading its standard output gives what reading the report gives.
-/

namespace ThreeAddress
open Text

/-! ## Answers to look-ups -/

/-- A line of its own that opens no section where none is open. -/
def IsPreamble (l : String) : Prop := '\n' ∉ l.toList ∧ ReportLine.ofText none l.toList = .nothing

namespace SymbolTable

/-- No title begins as an answer does. -/
theorem ofText_answer (t : SymbolTable) (name : String) :
    ReportLine.ofText none (t.answer name).toList = .nothing := by
  have hhead : ∃ c, (t.answer name).toList.head? = some c ∧ (c = 'f' ∨ c = 'n') := by
    unfold answer
    split
    · exact ⟨'f', by simp, .inl rfl⟩
    · exact ⟨'n', by simp, .inr rfl⟩
  obtain ⟨c, hanswer, hc⟩ := hhead
  have hblank : isBlank c = false := by rcases hc with rfl | rfl <;> decide
  have htitle (s : Section) : s.title.toList.head? ≠ some c := by
    rcases hc with rfl | rfl <;> cases s <;> decide
  refine ReportLine.ofText_none_of_ne_title fun s hs => htitle s ?_
  rw [← hs, head?_trim hanswer hblank]

theorem newline_notMem_answer {t : SymbolTable} (h : ∀ s ∈ t.chain, s.FitsRow) {name : String}
    (hname : '\n' ∉ name.toList) : '\n' ∉ (t.answer name).toList := by
  unfold answer
  split
  · next s hs =>
    have hrow := h s (mem_chain_of_lookup? hs)
    have hfound : '\n' ∉ s.name.toList := fun hc => (hrow _ (List.mem_append_left _ hc)).2 rfl
    have htype : '\n' ∉ s.type.toList := fun hc => (hrow _ (List.mem_append_right _ hc)).2 rfl
    have hvalue : '\n' ∉ (Decimal.ofInt64 s.value).toList := notMem_ofInt64 (by decide) (by decide) _
    simp [hfound, htype, hvalue]
  · simp [hname]

end SymbolTable

namespace Command

theorem Executes.isPreamble {u v : CompilationUnit} {cs : List Command} {out : List String} (h : Executes u cs out v)
    (hu : u.MadeOf fun w => IsRun w.toList) (hcs : ∀ c ∈ cs, (c.MadeOf fun w => IsRun w.toList) ∧ c ≠ .print) :
    ∀ l ∈ out, IsPreamble l := by
  induction h using Executes.unrefused_induction_on with
  | nil u => exact List.forall_mem_nil _
  | @cons u v _ c _ out _ head _ ih =>
    rw [List.forall_mem_cons] at hcs
    obtain ⟨⟨hwords, hprint⟩, hcs⟩ := hcs
    have hv : v.MadeOf fun w => IsRun w.toList := by
      rw [show v = (c.run u).2 by rw [head]]
      exact hwords.run hu
    rw [List.forall_mem_append]
    refine ⟨fun l hl => ?_, ih hv hcs⟩
    obtain ⟨name, rfl, rfl⟩ := eq_lookup_of_mem_out head hprint hl
    have hname : '\n' ∉ name.toList := hwords.notMem (by decide)
    exact ⟨u.symbols.newline_notMem_answer hu.fitsRow hname, u.symbols.ofText_answer name⟩

end Command

/-- A reader of reports passes over all that a script without a print command prints. -/
theorem isPreamble_of_replay_ok {tell : Verbosity} {source : String} {l : Limit} {ss : List Statement} {lines : List String}
    (hread : Statement.ofText? source = .ok ss) (hprint : ∀ s ∈ ss, s.command ≠ .print)
    (hreplay : (replay tell source (.ofLimit l)).result = .ok lines) : ∀ l ∈ lines, IsPreamble l := by
  refine (executes_of_replay_ok hread hreplay).isPreamble (CompilationUnit.madeOf_ofLimit l) fun c hc => ?_
  obtain ⟨s, hs, rfl⟩ := List.mem_map.1 hc
  exact ⟨Statement.madeOf_of_ofText? hread (fun t ht w hw => (Token.word_of_mem_ofText ht hw).1) _ hc, hprint s hs⟩

/-! ## Sections -/

/-- What reading gives back of the whole report of a unit. -/
def CompilationUnit.readBack (u : CompilationUnit) : Report where
  symbols := (u.symbols.chain.filter Symbol.isNamed).map Symbol.trimmed
  code := u.program.code.toList.map fun i => String.ofList (trim i.render.toList)

namespace CommandLine

namespace Sections

def reportLines (u : CompilationUnit) : Sections → List String
  | both => u.reportLines
  | symbols => u.symbols.reportLines
  | code => u.program.reportLines

/-- The part of a report that a choice of sections leaves. -/
def select (r : Report) : Sections → Report
  | both => r
  | symbols => { symbols := r.symbols }
  | code => { code := r.code }

theorem report_eq (u : CompilationUnit) (sections : Sections) :
    sections.report u = unlines (sections.reportLines u) := by
  cases sections <;> rfl

section
variable {u : CompilationUnit} (hs : ∀ s ∈ u.symbols.chain, s.FitsRow)
include hs

theorem newline_notMem_reportLines (hc : ∀ i ∈ u.program.code.toList, i.FitsLine) (sections : Sections) :
    ∀ l ∈ sections.reportLines u, '\n' ∉ l.toList := by
  cases sections with
  | both => exact CompilationUnit.newline_notMem_reportLines hs hc
  | symbols => exact SymbolTable.newline_notMem_reportLines hs
  | code => exact Program.newline_notMem_reportLines hc

theorem ofLines?_reportLines (sections : Sections) (n : Nat) :
    Report.ofLines? none n ((sections.reportLines u).map String.toList) = .ok (sections.select u.readBack) := by
  cases sections with
  | both => exact CompilationUnit.ofLines?_reportLines hs n
  | symbols => exact SymbolTable.ofLines?_table hs n
  | code => exact Program.ofLines?_reportLines u.program none n

/-- Reading the sections gives the same with lines in front and without. -/
theorem ofText?_preamble_append (hc : ∀ i ∈ u.program.code.toList, i.FitsLine) (sections : Sections)
    {front : List String} (hfront : ∀ l ∈ front, IsPreamble l) :
    Report.ofText? (unlines (front ++ sections.reportLines u)) = .ok (sections.select u.readBack) := by
  have hlines : ∀ l ∈ front ++ sections.reportLines u, '\n' ∉ l.toList :=
    List.forall_mem_append.2 ⟨fun l hl => (hfront l hl).1, newline_notMem_reportLines hs hc sections⟩
  rw [Report.ofText?_unlines hlines, List.map_append,
    Report.ofLines?_append_of_nothing (List.forall_mem_map.2 fun l hl => (hfront l hl).2), ofLines?_reportLines hs]

end

end Sections

/-! ## Runs -/

theorem FileTree.run_read (t : FileTree) (path : String) :
    (FileTree.access.read path).run t = ((t.read path).mapError PathFault.message, t) := rfl

theorem decode_of_some {content : ByteArray} {text : String} (h : String.fromUTF8? content = some text) :
    decode (.ok content) = .ok text := by
  unfold decode Except.bind
  dsimp only
  rw [h]

theorem decode_of_none {content : ByteArray} (h : String.fromUTF8? content = none) :
    decode (.ok content) = .error "stream did not contain valid UTF-8" := by
  unfold decode Except.bind
  dsimp only
  rw [h]

theorem fromUTF8?_toUTF8 (text : String) : String.fromUTF8? text.toUTF8 = some text := dif_pos text.isValidUTF8

theorem decode_toUTF8 (text : String) : decode (.ok text.toUTF8) = .ok text := decode_of_some (fromUTF8?_toUTF8 text)

/-- The empty line that stands between the printed lines, if there are any, and the report. -/
def gap (lines : List String) : List String := if lines = [] then [] else [""]

theorem isPreamble_of_mem_gap {lines : List String} {l : String} (h : l ∈ gap lines) : IsPreamble l := by
  unfold gap at h
  split at h
  · cases h
  · rw [List.mem_singleton.1 h]
    exact ⟨by decide, by decide⟩

section
variable {tree : FileTree} {args : List String} {o : Options} {source : String} {lines : List String}

/-- A script that is replayed leaves all files as they are, if the report is not asked for in one. -/
theorem run_of_replay_ok (hargs : Options.ofArgs? args = .ok o) (hout : o.output = none)
    (hsource : decode ((tree.read o.input).mapError PathFault.message) = .ok source)
    (hreplay : (replay o.verbosity source (.ofLimit o.limit)).result = .ok lines) :
    ∃ log, (run FileTree.access args).run tree =
      (⟨0, unlines (lines ++ gap lines) ++ o.sections.report (replay o.verbosity source (.ofLimit o.limit)).unit, log⟩,
        tree) := by
  have hgap : unlines (gap lines) = if lines = [] then "" else "\n" := by
    unfold gap
    split <;> rfl
  rw [unlines_append, hgap, run, hargs]
  show ∃ log, (replayFile FileTree.access o).run tree = _
  rw [replayFile, StateT.run_bind, FileTree.run_read]
  simp only [bind, hsource, hreplay, publish, hout]
  exact ⟨_, rfl⟩

/-- **Standard output is read as the report in it.** A script without a print command that is replayed under its limit
writes the answers to its look-ups, an empty line if there are any, and the report. Whatever words stand in the answers,
reading all of it gives what reading the report alone gives: of all that the unit's whole report gives, the sections that
were asked for. -/
theorem ofText?_stdout {ss : List Statement} (hargs : Options.ofArgs? args = .ok o) (hout : o.output = none)
    (hsource : decode ((tree.read o.input).mapError PathFault.message) = .ok source)
    (hread : Statement.ofText? source = .ok ss) (hprint : ∀ s ∈ ss, s.command ≠ .print)
    (hreplay : (replay o.verbosity source (.ofLimit o.limit)).result = .ok lines) :
    let exit := ((run FileTree.access args).run tree).1
    let u := (replay o.verbosity source (.ofLimit o.limit)).unit
    exit.code = 0 ∧ exit.stdout = unlines (lines ++ gap lines) ++ o.sections.report u ∧
      Report.ofText? exit.stdout = Report.ofText? (o.sections.report u) ∧
      ∃ r, Report.ofText? u.report = .ok r ∧ Report.ofText? exit.stdout = .ok (o.sections.select r) := by
  intro exit u
  obtain ⟨log, hrun⟩ := run_of_replay_ok hargs hout hsource hreplay
  have hexit : exit = ⟨0, unlines (lines ++ gap lines) ++ o.sections.report u, log⟩ := congrArg Prod.fst hrun
  have hu : u.MadeOf fun w => IsRun w.toList := (CompilationUnit.madeOf_ofLimit _).replay o.verbosity source
  have hfront : ∀ l ∈ lines ++ gap lines, IsPreamble l :=
    List.forall_mem_append.2 ⟨isPreamble_of_replay_ok hread hprint hreplay, fun l => isPreamble_of_mem_gap⟩
  have hstdout := Sections.ofText?_preamble_append hu.fitsRow hu.fitsLine o.sections hfront
  have hreport := Sections.ofText?_preamble_append hu.fitsRow hu.fitsLine o.sections (List.forall_mem_nil _)
  have hwhole := Sections.ofText?_preamble_append hu.fitsRow hu.fitsLine .both (List.forall_mem_nil _)
  rw [unlines_append, ← Sections.report_eq] at hstdout
  rw [List.nil_append, ← Sections.report_eq] at hreport hwhole
  rw [hexit]
  exact ⟨rfl, rfl, hstdout.trans hreport.symm, _, hwhole, hstdout⟩

end

/-- A look-up of a name that is spelled like a title, but for the kind of blank in it. -/
def titledScript : String := "insert x Value 7\nlookup x\nlookup Symbol\u00a0Table:\nemit = 7 _ x"

theorem ofText?_stdout_titledScript :
    let tree := FileTree.ofHome ["home".toList] [(["in".toList], titledScript.toUTF8)]
    let exit := ((run FileTree.access ["in", "--unbounded", "--code-only"]).run tree).1
    exit.code = 0 ∧
      exit.stdout = unlines ["found x: Value = 7", "not found: Symbol\u00a0Table:", "", "Intermediate Code:", "x = 7"] ∧
      Report.ofText? exit.stdout = .ok { code := ["x = 7"] } := by
  intro tree exit
  have hargs : Options.ofArgs? ["in", "--unbounded", "--code-only"] =
      .ok ⟨"in", none, .unbounded, .code, {}⟩ := by decide
  have hread : Statement.ofText? titledScript = .ok
      [⟨.insert ⟨"x", "Value", 7⟩, 0, 16⟩, ⟨.lookup "x", 17, 25⟩, ⟨.lookup "Symbol\u00a0Table:", 26, 47⟩,
        ⟨.emit ⟨"=", "7", "", "x"⟩, 48, 60⟩] := by decide +kernel
  have hfile : tree.read "in" = .ok titledScript.toUTF8 := rfl
  have hsource : decode ((tree.read "in").mapError PathFault.message) = .ok titledScript := by
    rw [hfile]
    exact decode_toUTF8 titledScript
  obtain ⟨lines, _, hunder⟩ := replay_withLimit hread {} (.ofLimit .unbounded)
  have hreplay : (replay {} titledScript (.ofLimit .unbounded)).result = .ok lines :=
    (hunder .unbounded (Limit.fits_unbounded _ _)).1
  obtain ⟨-, hunit⟩ := replay_of_executes (u := .ofLimit .unbounded) hread
    (.insert (.cons rfl (.cons rfl (.cons rfl (.nil _ _))))) {}
  have hlines : lines = ["found x: Value = 7", "not found: Symbol\u00a0Table:"] := by
    rw [(executes_of_replay_ok hread hreplay).out_eq SymbolTable.indexed_empty]
    decide +kernel
  obtain ⟨hcode, hstdout, hreport, -⟩ := ofText?_stdout hargs rfl hsource hread (by decide) hreplay
  rw [hunit] at hstdout hreport
  refine ⟨hcode, hstdout.trans ?_, hreport.trans ?_⟩
  · rw [hlines, Sections.report_eq, ← unlines_append]
    exact congrArg unlines (by decide +kernel)
  · decide +kernel

end CommandLine
end ThreeAddress
