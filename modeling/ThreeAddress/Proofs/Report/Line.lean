import ThreeAddress.CompilationUnit
import ThreeAddress.Report

/-!
# How the lines of a report are read

* `Symbol.FitsRow`, `Instruction.FitsLine` : no character of a field would break the line or the row it is
  printed in;
* `ReportLine.ofText_row` : a row is read as its symbol, name and type trimmed, unless the name is all blanks;
* `ReportLine.ofText_render` : an instruction is read as it is printed, trimmed.
-/

namespace ThreeAddress
open Text

namespace Symbol

/-- Neither the name nor the type holds a tab or a line end. -/
def FitsRow (s : Symbol) : Prop := ∀ c ∈ s.name.toList ++ s.type.toList, c ≠ '\t' ∧ c ≠ '\n'

instance (s : Symbol) : Decidable s.FitsRow := List.decidableBAll _ _

/-- The name is not all blanks. -/
def isNamed (s : Symbol) : Bool := s.name.toList.any (!isBlank ·)

/-- What a row can give back of a symbol. -/
def trimmed (s : Symbol) : Symbol where
  name := String.ofList (trim s.name.toList)
  type := String.ofList (trim s.type.toList)
  value := s.value

/-- There is a name, and no blank stands at an end of the name or the type. -/
def IsTidy (s : Symbol) : Prop := s.name ≠ "" ∧ Trimmed s.name.toList ∧ Trimmed s.type.toList

instance (s : Symbol) : Decidable s.IsTidy :=
  inferInstanceAs (Decidable (s.name ≠ "" ∧ Trimmed s.name.toList ∧ Trimmed s.type.toList))

theorem isNamed_iff {s : Symbol} : s.isNamed = true ↔ trim s.name.toList ≠ [] := by
  rw [ne_eq, trim_eq_nil_iff, isNamed, List.any_eq_true]
  simp

theorem IsTidy.isNamed {s : Symbol} (h : s.IsTidy) : s.isNamed = true := by
  rw [isNamed_iff, h.2.1.trim_eq]
  simpa using h.1

theorem IsTidy.trimmed_eq {s : Symbol} (h : s.IsTidy) : s.trimmed = s := by
  rw [trimmed, h.2.1.trim_eq, h.2.2.trim_eq, String.ofList_toList, String.ofList_toList]

theorem toList_row (s : Symbol) :
    s.row.toList = s.name.toList ++ '\t' :: (s.type.toList ++ '\t' :: (Decimal.ofInt64 s.value).toList) := by
  simp [row, show "\t".toList = ['\t'] from rfl]

end Symbol

namespace Instruction

/-- No field holds a line end. -/
def FitsLine (i : Instruction) : Prop :=
  ∀ c ∈ i.op.toList ++ i.arg1.toList ++ i.arg2.toList ++ i.result.toList, c ≠ '\n'

instance (i : Instruction) : Decidable i.FitsLine := List.decidableBAll _ _

/-- The line of an instruction holds blanks and an `=` besides its fields. -/
theorem notMem_render {i : Instruction} {c : Char} (h : c ∉ i.op.toList ++ i.arg1.toList ++ i.arg2.toList ++ i.result.toList)
    (hblank : c ≠ ' ') (hequals : c ≠ '=') : c ∉ i.render.toList := by
  simp only [List.mem_append, not_or] at h
  obtain ⟨⟨⟨hop, harg1⟩, harg2⟩, hresult⟩ := h
  unfold render
  split
  · simp [harg1, hresult, hblank, hequals]
  · simp [hop, harg1, harg2, hresult, hblank, hequals]

theorem newline_notMem_render {i : Instruction} (h : i.FitsLine) : '\n' ∉ i.render.toList :=
  notMem_render (fun hc => h _ hc rfl) (by decide) (by decide)

end Instruction

/-! ## The value at the end of a row -/

theorem isBlank_of_mem_ofInt64 {v : Int64} {c : Char} (h : c ∈ (Decimal.ofInt64 v).toList) :
    isBlank c = false := by
  rcases Decimal.mem_ofInt64 h with rfl | hc
  · decide
  · exact isBlank_of_isDigit hc

theorem trimmed_ofInt64 (v : Int64) : Trimmed (Decimal.ofInt64 v).toList :=
  trimmed_of_forall fun _ => isBlank_of_mem_ofInt64

theorem words_ofInt64 (v : Int64) : words (Decimal.ofInt64 v).toList = [(Decimal.ofInt64 v).toList] :=
  runs_of_forall (Decimal.toList_ofInt64_ne_nil v) fun _ => isBlank_of_mem_ofInt64

/-- No blank stands at the end of a text that ends with a value. -/
theorem endsRun_append_ofInt64 (cs : List Char) (v : Int64) :
    EndsRun isBlank (cs ++ (Decimal.ofInt64 v).toList).reverse := by
  rw [List.reverse_append]
  exact (trimmed_ofInt64 v).2.append (by simpa using Decimal.toList_ofInt64_ne_nil v) _

/-- A value is spelled with digits and a sign only. -/
theorem notMem_ofInt64 {c : Char} (hsign : c ≠ '-') (hdigit : c.isDigit = false) (v : Int64) :
    c ∉ (Decimal.ofInt64 v).toList := by
  intro h
  rcases Decimal.mem_ofInt64 h with hc | hc
  · exact hsign hc
  · rw [hdigit] at hc
    cases hc

/-- A row holds two tabs and the spelling of its value besides its name and type. -/
theorem Symbol.notMem_row {s : Symbol} {c : Char} (h : c ∉ s.name.toList ++ s.type.toList) (htab : c ≠ '\t')
    (hsign : c ≠ '-') (hdigit : c.isDigit = false) : c ∉ s.row.toList := by
  rw [List.mem_append, not_or] at h
  have hvalue := notMem_ofInt64 hsign hdigit s.value
  rw [toList_row]
  simp [h, hvalue, htab]

theorem Symbol.newline_notMem_row {s : Symbol} (h : s.FitsRow) : '\n' ∉ s.row.toList :=
  notMem_row (fun hc => (h _ hc).2 rfl) (by decide) (by decide) (by decide)

theorem exists_trim_append_ofInt64 (cs : List Char) (v : Int64) :
    ∃ ds, trim (cs ++ (Decimal.ofInt64 v).toList) = ds ++ (Decimal.ofInt64 v).toList := by
  by_cases h : trim cs = []
  · exact ⟨[], by rw [trim_append_of_forall (trim_eq_nil_iff.1 h), (trimmed_ofInt64 v).trim_eq, List.nil_append]⟩
  · exact ⟨_, trim_append_of_ne_nil h (trimmed_ofInt64 v).2 (Decimal.toList_ofInt64_ne_nil v)⟩

/-- A row is no title, for it ends with a value and titles end with a colon. -/
theorem Symbol.trim_row_ne_title (s : Symbol) (c : Section) : trim s.row.toList ≠ c.title.toList := by
  intro h
  have hlast : c.title.toList.getLast? = some ':' := by cases c <;> rfl
  have hne := Decimal.toList_ofInt64_ne_nil s.value
  obtain ⟨ds, hds⟩ := exists_trim_append_ofInt64 (s.name.toList ++ '\t' :: (s.type.toList ++ ['\t'])) s.value
  have hrow : s.row.toList =
      s.name.toList ++ '\t' :: (s.type.toList ++ ['\t']) ++ (Decimal.ofInt64 s.value).toList := by
    rw [toList_row]
    simp
  rw [← h, hrow, hds, List.getLast?_append, List.getLast?_eq_some_getLast hne, Option.some_or] at hlast
  have hmem := List.getLast_mem hne
  rw [Option.some.inj hlast] at hmem
  exact notMem_ofInt64 (by decide) (by decide) s.value hmem

namespace ReportLine

theorem ofText_of_ne_title {cs : List Char} (h : ∀ s : Section, trim cs ≠ s.title.toList)
    (current : Option Section) : ofText current cs =
      if trim cs = [] then nothing
      else match current with
        | none => nothing
        | some .symbols => if isTableHead (trim cs) then nothing else ofRow (trim cs)
        | some .code => instruction (String.ofList (trim cs)) := by
  unfold ofText
  exact (if_neg (h .symbols)).trans (if_neg (h .code))

theorem ofText_none_of_ne_title {cs : List Char} (h : ∀ s : Section, trim cs ≠ s.title.toList) :
    ofText none cs = nothing := by
  rw [ofText_of_ne_title h]
  exact ite_self nothing

/-! ## Rows -/

/-- A row is no table head: it has a tab, and its last word is a value and not `Value`. -/
theorem isTableHead_eq_false (n t : List Char) (v : Int64) :
    isTableHead (n ++ '\t' :: (t ++ '\t' :: (Decimal.ofInt64 v).toList)) = false := by
  have hcolumns : (words SymbolTable.columns.toList).getLast? = some "Value".toList := by decide
  have hwords : (words (n ++ '\t' :: (t ++ '\t' :: (Decimal.ofInt64 v).toList))).getLast? =
      some (Decimal.ofInt64 v).toList := by
    have htab : isBlank '\t' = true := by decide
    have hvalue : runs isBlank (Decimal.ofInt64 v).toList = [(Decimal.ofInt64 v).toList] := words_ofInt64 v
    unfold words
    rw [runs_append_cons htab, runs_append_cons htab, hvalue, ← List.append_assoc, List.getLast?_concat]
  unfold isTableHead
  rw [Bool.or_eq_false_iff]
  refine ⟨decide_eq_false fun h => ?_, ?_⟩
  · rw [h, hcolumns] at hwords
    have hmem : 'V' ∈ (Decimal.ofInt64 v).toList := by
      rw [← Option.some.inj hwords]
      decide
    exact notMem_ofInt64 (by decide) (by decide) v hmem
  · rw [List.all_eq_false]
    exact ⟨'\t', by simp, by decide⟩

/-- Behind the second tab everything belongs to the third field. -/
theorem rowFields_of_two_tabs {n t : List Char} (hn : '\t' ∉ n) (ht : '\t' ∉ t) (v : List Char) :
    rowFields (n ++ '\t' :: (t ++ '\t' :: v)) = [trim n, trim t, trim v] := by
  have hrest : ['\t'].intercalate (v.splitOn '\t') = v := List.intercalate_splitOn '\t'
  obtain ⟨w, ws, hw⟩ := List.exists_cons_of_ne_nil (List.splitOn_ne_nil '\t' v)
  rw [hw] at hrest
  unfold rowFields splitAtTabs
  rw [if_pos (by simp), splitOn_append_cons hn, splitOn_append_cons ht, hw]
  show [trim n, trim t, trim (['\t'].intercalate (w :: ws))] = _
  rw [hrest]

theorem rowFields_of_one_tab {n t : List Char} (hn : '\t' ∉ n) (ht : '\t' ∉ t) :
    rowFields (n ++ '\t' :: t) = [trim n, trim t] := by
  unfold rowFields splitAtTabs
  rw [if_pos (by simp), splitOn_append_cons hn, splitOn_of_notMem ht]
  rfl

theorem ofRow_eq {n t : List Char} (hn : '\t' ∉ n) (ht : '\t' ∉ t) (v : Int64) :
    ofRow (n ++ '\t' :: (t ++ '\t' :: (Decimal.ofInt64 v).toList)) =
      row ⟨String.ofList (trim n), String.ofList (trim t), v⟩ := by
  have hfields := rowFields_of_two_tabs hn ht (Decimal.ofInt64 v).toList
  rw [(trimmed_ofInt64 v).trim_eq] at hfields
  unfold ofRow
  rw [hfields]
  dsimp only
  rw [Decimal.int64?_ofInt64]

/-- Where no name is left in front, a row has fewer than three fields. -/
theorem ofRow_trim_eq_nothing {t : List Char} (ht : '\t' ∉ t) (v : Int64) :
    ofRow (trim (t ++ '\t' :: (Decimal.ofInt64 v).toList)) = nothing := by
  have htab : '\t' ∉ (Decimal.ofInt64 v).toList := notMem_ofInt64 (by decide) (by decide) v
  by_cases hblank : trim t = []
  · have htrim : trim (t ++ '\t' :: (Decimal.ofInt64 v).toList) = (Decimal.ofInt64 v).toList := by
      rw [← List.singleton_append, ← List.append_assoc, trim_append_of_forall, (trimmed_ofInt64 v).trim_eq]
      rw [List.forall_mem_append, List.forall_mem_singleton]
      exact ⟨trim_eq_nil_iff.1 hblank, by decide⟩
    have hfields : rowFields (Decimal.ofInt64 v).toList = [(Decimal.ofInt64 v).toList] := by
      rw [rowFields, if_neg htab, words_ofInt64]
      rfl
    rw [htrim, ofRow, hfields]
  · have hstart : '\t' ∉ trimStart t := fun h => ht ((List.dropWhile_sublist _).subset h)
    have htrim : trim (t ++ '\t' :: (Decimal.ofInt64 v).toList) =
        trimStart t ++ '\t' :: (Decimal.ofInt64 v).toList :=
      trim_append_of_ne_nil hblank (endsRun_append_ofInt64 ['\t'] v) (List.cons_ne_nil _ _)
    have hfields := rowFields_of_one_tab hstart htab
    rw [htrim, ofRow, hfields]

/-- **A printed row is read as its symbol**, the name and the type trimmed; one without a name is passed over. -/
theorem ofText_row {s : Symbol} (hs : s.FitsRow) :
    ofText (some .symbols) s.row.toList = if s.isNamed then row s.trimmed else nothing := by
  have hname : '\t' ∉ s.name.toList := fun h => (hs _ (List.mem_append_left _ h)).1 rfl
  have htype : '\t' ∉ s.type.toList := fun h => (hs _ (List.mem_append_right _ h)).1 rfl
  have hstart : '\t' ∉ trimStart s.name.toList := fun h => hname ((List.dropWhile_sublist _).subset h)
  rw [ofText_of_ne_title s.trim_row_ne_title, Symbol.toList_row]
  by_cases hnamed : trim s.name.toList = []
  · have hblank : ∀ c ∈ s.name.toList ++ ['\t'], isBlank c = true := by
      rw [List.forall_mem_append, List.forall_mem_singleton]
      exact ⟨trim_eq_nil_iff.1 hnamed, by decide⟩
    have htrim : trim (s.name.toList ++ '\t' :: (s.type.toList ++ '\t' :: (Decimal.ofInt64 s.value).toList)) =
        trim (s.type.toList ++ '\t' :: (Decimal.ofInt64 s.value).toList) := by
      rw [← List.singleton_append, ← List.append_assoc, trim_append_of_forall hblank]
    have hnot : ¬s.isNamed = true := fun h => Symbol.isNamed_iff.1 h hnamed
    rw [if_neg hnot, htrim, ofRow_trim_eq_nothing htype]
    simp
  · have htrim : trim (s.name.toList ++ '\t' :: (s.type.toList ++ '\t' :: (Decimal.ofInt64 s.value).toList)) =
        trimStart s.name.toList ++ '\t' :: (s.type.toList ++ '\t' :: (Decimal.ofInt64 s.value).toList) := by
      refine trim_append_of_ne_nil hnamed ?_ (List.cons_ne_nil _ _)
      have := endsRun_append_ofInt64 ('\t' :: (s.type.toList ++ ['\t'])) s.value
      simpa using this
    rw [if_pos (Symbol.isNamed_iff.2 hnamed), htrim, if_neg (by simp)]
    show (if isTableHead _ then nothing else ofRow _) = _
    rw [isTableHead_eq_false, if_neg Bool.false_ne_true, ofRow_eq hstart htype, trim_trimStart, Symbol.trimmed]

/-! ## Instructions -/

theorem equals_mem_render (i : Instruction) : '=' ∈ i.render.toList := by
  unfold Instruction.render
  split <;> simp

/-- An instruction is read as it is printed: the `=` in it makes it neither a title nor a blank line. -/
theorem ofText_render (i : Instruction) :
    ofText (some .code) i.render.toList = instruction (String.ofList (trim i.render.toList)) := by
  have hmem : '=' ∈ trim i.render.toList := mem_trim_of_mem (equals_mem_render i) (by decide)
  have htitle : ∀ s : Section, trim i.render.toList ≠ s.title.toList := by
    intro s hs
    rw [hs] at hmem
    revert hmem
    cases s <;> decide
  rw [ofText_of_ne_title htitle, if_neg (List.ne_nil_of_mem hmem)]

end ReportLine

end ThreeAddress
