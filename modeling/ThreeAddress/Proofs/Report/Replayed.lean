import ThreeAddress.Proofs.Replay.Words
import ThreeAddress.Proofs.Report.RoundTrip

/-!
# Reading back the report of a replay

Words of a script are runs without gaps, but blanks are a larger class than gaps, and an instruction without a
second operand ends with a gap unless it is a copy. So a report of what a script has built is always read, and it
gives back all that stood in the unit exactly when nothing had to be trimmed.

* `Instruction.IsTidy` : no blank stands at an end of the line of an instruction (`Instruction.trimmed_render_iff`);
* `CompilationUnit.lossless_iff` : reading gives back the unit itself exactly when it is tidy;
* `replay_report_lossless_iff` : what is read back after a replay, and when that is all of it.
-/

namespace ThreeAddress
open Text

/-! ## Words fit the lines of a report -/

/-- A word has none of the characters at which a report is split. -/
theorem Text.ne_of_mem_run {w : List Char} (hw : IsRun w) {c : Char} (hc : c ∈ w) : c ≠ '\t' ∧ c ≠ '\n' :=
  ⟨ne_of_mem_of_not_mem hc (hw.notMem (by decide)), ne_of_mem_of_not_mem hc (hw.notMem (by decide))⟩

theorem Symbol.MadeOf.fitsRow {s : Symbol} (h : s.MadeOf fun w => IsRun w.toList) : s.FitsRow := by
  intro c hc
  rcases List.mem_append.1 hc with hc | hc
  · exact ne_of_mem_run h.1 hc
  · exact ne_of_mem_run h.2 hc

theorem Instruction.MadeOf.fitsLine {i : Instruction} (h : i.MadeOf fun w => IsRun w.toList) : i.FitsLine := by
  intro c hc
  simp only [List.mem_append] at hc
  rcases hc with ((hc | hc) | hc) | hc
  · exact (ne_of_mem_run h.op hc).2
  · exact (ne_of_mem_run h.arg1 hc).2
  · rcases h.arg2 with harg2 | harg2
    · rw [harg2] at hc
      cases hc
    · exact (ne_of_mem_run harg2 hc).2
  · exact (ne_of_mem_run h.result hc).2

theorem CompilationUnit.MadeOf.fitsRow {u : CompilationUnit} (h : u.MadeOf fun w => IsRun w.toList) :
    ∀ s ∈ u.symbols.chain, s.FitsRow := fun s hs => (h.symbols s hs).fitsRow

theorem CompilationUnit.MadeOf.fitsLine {u : CompilationUnit} (h : u.MadeOf fun w => IsRun w.toList) :
    ∀ i ∈ u.program.code.toList, i.FitsLine := fun i hi => (h.code i hi).fitsLine

/-! ## Lines that need no trimming -/

theorem Symbol.trimmed_eq_self_iff {s : Symbol} :
    s.trimmed = s ↔ Trimmed s.name.toList ∧ Trimmed s.type.toList := by
  rw [← trim_eq_self_iff, ← trim_eq_self_iff]
  constructor
  · intro h
    constructor
    · exact (String.toList_ofList).symm.trans (congrArg (·.name.toList) h)
    · exact (String.toList_ofList).symm.trans (congrArg (·.type.toList) h)
  · rintro ⟨hname, htype⟩
    rw [trimmed, hname, htype, String.ofList_toList, String.ofList_toList]

namespace Instruction

/-- No blank stands in front of the result or behind the last operand, and only a copy lacks the second one. -/
structure IsTidy (i : Instruction) : Prop where
  result : EndsRun isBlank i.result.toList
  operand : EndsRun isBlank (if i.isCopy then i.arg1 else i.arg2).toList.reverse
  copy : i.arg2 = "" → i.isCopy = true

theorem toList_render_of_isCopy {i : Instruction} (h : i.isCopy = true) :
    i.render.toList = i.result.toList ++ " = ".toList ++ i.arg1.toList := by
  rw [render, if_pos h, String.toList_append, String.toList_append]

theorem toList_render_of_not_isCopy {i : Instruction} (h : ¬i.isCopy = true) :
    i.render.toList =
      i.result.toList ++ (" = ".toList ++ i.arg1.toList ++ " ".toList ++ i.op.toList ++ " ".toList) ++ i.arg2.toList := by
  rw [render, if_neg h]
  simp only [String.toList_append, List.append_assoc]

/-- The line of an instruction without a second operand ends with the gap in front of it, unless it is a copy. -/
theorem trimmed_render_iff {i : Instruction} (h : i.MadeOf fun w => IsRun w.toList) :
    Trimmed i.render.toList ↔ i.IsTidy := by
  have hresult : i.result.toList ≠ [] := h.result.ne_nil
  by_cases hcopy : i.isCopy = true
  · rw [toList_render_of_isCopy hcopy, trimmed_append_iff hresult h.arg1.ne_nil]
    constructor
    · rintro ⟨hfront, hback⟩
      exact ⟨hfront, by rwa [if_pos hcopy], fun _ => hcopy⟩
    · rintro ⟨hfront, hback, -⟩
      rw [if_pos hcopy] at hback
      exact ⟨hfront, hback⟩
  · rw [toList_render_of_not_isCopy hcopy]
    rcases h.arg2 with harg2 | harg2
    · refine iff_of_false (fun htrim => ?_) fun htidy => hcopy (htidy.copy harg2)
      have hgap := htrim.2
      rw [harg2, String.toList_empty, List.append_nil, ← List.append_assoc, List.reverse_append] at hgap
      exact absurd (hgap ' ' rfl) (by decide)
    · have hne : i.arg2 ≠ "" := fun he => harg2.ne_nil (by rw [he]; rfl)
      rw [trimmed_append_iff hresult harg2.ne_nil]
      constructor
      · rintro ⟨hfront, hback⟩
        exact ⟨hfront, by rwa [if_neg hcopy], fun he => absurd he hne⟩
      · rintro ⟨hfront, hback, -⟩
        rw [if_neg hcopy] at hback
        exact ⟨hfront, hback⟩

end Instruction

/-! ## Units -/

namespace CompilationUnit

theorem filter_map_eq_self_iff {ss : List Symbol} :
    (ss.filter Symbol.isNamed).map Symbol.trimmed = ss ↔ ∀ s ∈ ss, s.IsTidy := by
  refine ⟨fun h => ?_, filter_map_of_isTidy⟩
  have hfilter : ss.filter Symbol.isNamed = ss := by
    refine List.filter_sublist.eq_of_length ?_
    rw [← List.length_map Symbol.trimmed, h]
  rw [hfilter] at h
  intro s hs
  have htrimmed : s.trimmed = s := List.map_inj_left.1 (h.trans (List.map_id ss).symm) s hs
  have hnamed := List.filter_eq_self.1 hfilter s hs
  refine ⟨?_, Symbol.trimmed_eq_self_iff.1 htrimmed⟩
  rintro hempty
  rw [Symbol.isNamed, hempty] at hnamed
  cases hnamed

theorem map_trim_eq_iff {is : List Instruction} (his : ∀ i ∈ is, i.MadeOf fun w => IsRun w.toList) :
    (is.map fun i => String.ofList (trim i.render.toList)) = is.map Instruction.render ↔ ∀ i ∈ is, i.IsTidy := by
  rw [List.map_inj_left]
  refine forall₂_congr fun i hi => ?_
  rw [← Instruction.trimmed_render_iff (his i hi), ← trim_eq_self_iff, ← String.toList_inj, String.toList_ofList]

/-- What is read back of a unit that is made of words. -/
theorem ofText?_report_of_madeOf {u : CompilationUnit} (h : u.MadeOf fun w => IsRun w.toList) :
    Report.ofText? u.report = .ok {
      symbols := (u.symbols.chain.filter Symbol.isNamed).map Symbol.trimmed
      code := u.program.code.toList.map fun i => String.ofList (trim i.render.toList) } := by
  rw [report, Report.ofText?_unlines (newline_notMem_reportLines h.fitsRow h.fitsLine), ofLines?_reportLines h.fitsRow]

theorem lossless_iff {u : CompilationUnit} (h : u.MadeOf fun w => IsRun w.toList) :
    Report.ofText? u.report =
        .ok { symbols := u.symbols.chain, code := u.program.code.toList.map Instruction.render } ↔
      (∀ s ∈ u.symbols.chain, s.IsTidy) ∧ ∀ i ∈ u.program.code.toList, i.IsTidy := by
  rw [ofText?_report_of_madeOf h, Except.ok.injEq, Report.mk.injEq, filter_map_eq_self_iff,
    map_trim_eq_iff h.code]

end CompilationUnit

/-- Where a word holds no blank at all, nothing is trimmed but the gap behind an operator. -/
theorem CompilationUnit.MadeOf.tidy {u : CompilationUnit}
    (h : u.MadeOf fun w => IsRun w.toList ∧ ∀ c ∈ w.toList, isBlank c = false)
    (hcopy : ∀ i ∈ u.program.code.toList, i.arg2 = "" → i.isCopy = true) :
    (∀ s ∈ u.symbols.chain, s.IsTidy) ∧ ∀ i ∈ u.program.code.toList, i.IsTidy := by
  have hend (w : String) (hw : ∀ c ∈ w.toList, isBlank c = false) : EndsRun isBlank w.toList.reverse :=
    (trimmed_of_forall hw).2
  constructor
  · intro s hs
    obtain ⟨⟨hrun, hname⟩, -, htype⟩ := h.symbols s hs
    refine ⟨fun hempty => hrun.ne_nil (by rw [hempty]; rfl), trimmed_of_forall hname, trimmed_of_forall htype⟩
  · intro i hi
    have hword := h.code i hi
    refine ⟨(trimmed_of_forall hword.result.2).1, ?_, hcopy i hi⟩
    split
    · exact hend _ hword.arg1.2
    · rcases hword.arg2 with harg2 | harg2
      · rw [harg2]
        exact fun c hc => by cases hc
      · exact hend _ harg2.2

/-! ## Replays -/

/-- **The report of a replay is always read**, wherever the replay has stopped. Symbols with a name come back trimmed, and so does every
instruction. They come back as they are exactly when each symbol and each instruction is tidy; a script is sure to
leave it so when it holds no blank besides gaps and line ends and lacks second operands only in copies. -/
theorem replay_report_lossless_iff (tell : Verbosity) (text : String) (l : Limit) (grants : Grants) :
    let u := (replay tell text (.ofLimit l) grants).unit
    let lossless := Report.ofText? u.report =
      .ok { symbols := u.symbols.chain, code := u.program.code.toList.map Instruction.render }
    Report.ofText? u.report = .ok {
      symbols := (u.symbols.chain.filter Symbol.isNamed).map Symbol.trimmed
      code := u.program.code.toList.map fun i => String.ofList (trim i.render.toList) } ∧
    (lossless ↔ (∀ s ∈ u.symbols.chain, s.IsTidy) ∧ ∀ i ∈ u.program.code.toList, i.IsTidy) ∧
    ((∀ c ∈ text.toList, isBlank c = true → isGap c = true ∨ c = '\n') →
      (∀ i ∈ u.program.code.toList, i.arg2 = "" → i.isCopy = true) → lossless) := by
  intro u lossless
  have hwords : u.MadeOf fun w => IsRun w.toList ∧ ∀ c ∈ w.toList, c ∈ text.toList :=
    replay_madeOf (fun t ht w hw => Token.word_of_mem_ofText ht hw) (CompilationUnit.madeOf_ofLimit l) tell
  have hruns : u.MadeOf fun w => IsRun w.toList := hwords.mono fun _ h => h.1
  have hiff : lossless ↔ _ := CompilationUnit.lossless_iff hruns
  refine ⟨CompilationUnit.ofText?_report_of_madeOf hruns, hiff, fun hblank hcopy => hiff.2 ?_⟩
  refine CompilationUnit.MadeOf.tidy (hwords.mono fun w hw => ⟨hw.1, fun c hc => ?_⟩) hcopy
  by_contra hb
  rw [Bool.not_eq_false] at hb
  have hchar := hw.1.isWordChar c hc
  rw [← Bool.not_eq_false, isWordChar_eq_false_iff] at hchar
  exact hchar ((hblank c (hw.2 c hc) hb).imp_right .inl)

/-- A script with plain blanks only, whose one missing operand is that of a copy. -/
def plainScript : String := "insert x int -1\nemit = x _ y\t# kept\nemit + y 1 t\n"

theorem replay_report_lossless_iff_plainScript :
    let u := (replay {} plainScript (.ofLimit .default)).unit
    (∀ c ∈ plainScript.toList, isBlank c = true → isGap c = true ∨ c = '\n') ∧
      (∀ i ∈ u.program.code.toList, i.arg2 = "" → i.isCopy = true) ∧
      Report.ofText? u.report = .ok { symbols := [⟨"x", "int", -1⟩], code := ["y = x", "t = y + 1"] } := by
  intro u
  have hall : (plainScript.toList.all fun c => !isBlank c || (isGap c || c = '\n')) = true := by decide +kernel
  have hblank : ∀ c ∈ plainScript.toList, isBlank c = true → isGap c = true ∨ c = '\n' := by
    intro c hc hb
    have := List.all_eq_true.1 hall c hc
    simpa [hb] using this
  have hread : Statement.ofText? plainScript = .ok [⟨.insert ⟨"x", "int", -1⟩, 0, 15⟩,
      ⟨.emit ⟨"=", "x", "", "y"⟩, 16, 28⟩, ⟨.emit ⟨"+", "y", "1", "t"⟩, 36, 48⟩] := by decide +kernel
  obtain ⟨-, hunit⟩ := replay_of_executes (u := .ofLimit .default) hread (.insert (.cons rfl (.cons rfl (.nil _ _)))) {}
  have hcopy : ∀ i ∈ u.program.code.toList, i.arg2 = "" → i.isCopy = true := by
    rw [show u = _ from hunit]
    decide +kernel
  have hlossless := (replay_report_lossless_iff {} plainScript .default []).2.2 hblank hcopy
  refine ⟨hblank, hcopy, hlossless.trans (congrArg Except.ok ?_)⟩
  rw [hunit]
  decide +kernel

/-- The gap behind an operator without a second operand is lost, and so is a symbol whose name is a no-break
space. -/
theorem replay_report_not_lossless :
    let u := (replay {} "emit - x _ t\ninsert \u00a0 int 1" (.ofLimit .default)).unit
    Report.ofText? u.report = .ok { symbols := [], code := ["t = x -"] } ∧
      u.symbols.chain = [⟨"\u00a0", "int", 1⟩] ∧ u.program.code.toList.map Instruction.render = ["t = x - "] := by
  have hread : Statement.ofText? "emit - x _ t\ninsert \u00a0 int 1" =
      .ok [⟨.emit ⟨"-", "x", "", "t"⟩, 0, 12⟩, ⟨.insert ⟨"\u00a0", "int", 1⟩, 13, 28⟩] := by decide +kernel
  obtain ⟨-, hunit⟩ := replay_of_executes (u := .ofLimit .default) hread (.cons rfl (.insert (.nil _ _))) {}
  rw [hunit]
  decide +kernel

end ThreeAddress
