import ThreeAddress.Proofs.Report.Row

/-!
# The first row that cannot be read

* `BadRow.StandsIn` : a row among the symbols whose third field spells no integer of 64 bits, by what the lines hold
  and not by how they are read (`BadRow.standsIn_iff`);
* `Report.exists_of_ofLines?_error` : a row that is reported is one behind lines that are all read, and it hides what
  comes later (`Report.ofLines?_of_badValue`);
* `Report.ofText?_error_first` : so reading fails if there is such a row, and only at the first one.
-/

namespace ThreeAddress
open Text

/-- The line of the number `b.line` stands among the symbols. It is not blank, no title, and neither the names of the
columns nor a rule. Its third field is `b.value` and spells no integer of 64 bits. -/
def BadRow.StandsIn (b : BadRow) (ls : List (List Char)) : Prop :=
  ∃ front line back, ls = front ++ line :: back ∧ b.line = front.length + 1 ∧
    Section.behind front = some .symbols ∧ ReportLine.IsRow line ∧
    (∃ name type, ReportLine.HasFields (trim line) name type b.value.toList) ∧
    ∀ i, Decimal.Spells b.value.toList i → ¬(-9223372036854775808 ≤ i ∧ i ≤ 9223372036854775807)

theorem BadRow.standsIn_iff {b : BadRow} {ls : List (List Char)} :
    b.StandsIn ls ↔ ∃ front line back, ls = front ++ line :: back ∧ b.line = front.length + 1 ∧
      ReportLine.ofText (Section.behind front) line = .badValue b.value := by
  simp only [BadRow.StandsIn, ReportLine.ofText_eq_badValue_iff, Decimal.int64?_eq_none_iff]

namespace Report
variable {current : Option Section} {n : Nat} {front : List (List Char)} {line : List Char}

/-! ## Where reading stops -/

theorem ofLines?_singleton_error {b : BadRow} (h : ofLines? current n [line] = .error b) :
    b.line = n ∧ ReportLine.ofText current line = .badValue b.value := by
  cases hline : ReportLine.ofText current line with
  | badValue value =>
    simp only [ofLines?, hline] at h
    cases h
    exact ⟨rfl, rfl⟩
  | title | nothing | row | instruction =>
    simp only [ofLines?, hline] at h
    cases h

/-- The induction is on the lines; the first of them is in front of the row that is reported unless it is this row. -/
theorem exists_of_ofLines?_error {ls : List (List Char)} {b : BadRow} (h : ofLines? current n ls = .error b) :
    ∃ front line back r, ls = front ++ line :: back ∧ b.line = n + front.length ∧
      ofLines? current n front = .ok r ∧
      ReportLine.ofText ((Section.behind front).or current) line = .badValue b.value := by
  induction ls generalizing current n with
  | nil => cases h
  | cons l ls ih =>
    rw [ofLines?_cons] at h
    cases hl : ofLines? current n [l] with
    | error e =>
      rw [hl] at h
      cases h
      obtain ⟨hnumber, hbad⟩ := ofLines?_singleton_error hl
      exact ⟨[], l, ls, {}, rfl, hnumber, rfl, hbad⟩
    | ok r =>
      cases hls : ofLines? ((Section.ofTitle? l).or current) (n + 1) ls with
      | ok s =>
        rw [hl, hls] at h
        cases h
      | error e =>
        rw [hl, hls] at h
        cases h
        obtain ⟨front, line, back, s, rfl, hnumber, hfront, hbad⟩ := ih hls
        refine ⟨l :: front, line, back, r ++ s, rfl, by simp; omega, ?_, ?_⟩
        · rw [ofLines?_cons, hl, hfront]
          rfl
        · rwa [Section.behind_cons, Option.or_assoc]

theorem ofLines?_of_badValue {r : Report} {value : String} (hfront : ofLines? current n front = .ok r)
    (hline : ReportLine.ofText ((Section.behind front).or current) line = .badValue value) (back : List (List Char)) :
    ofLines? current n (front ++ line :: back) = .error ⟨n + front.length, value⟩ := by
  rw [ofLines?_append, hfront]
  simp only [ofLines?, hline]
  rfl

/-- A row that cannot be read is reported unless one in front of it is. -/
theorem exists_error_of_badValue {value : String}
    (hline : ReportLine.ofText ((Section.behind front).or current) line = .badValue value) (back : List (List Char)) :
    ∃ b, ofLines? current n (front ++ line :: back) = .error b := by
  cases hfront : ofLines? current n front with
  | error b =>
    refine ⟨b, ?_⟩
    rw [ofLines?_append, hfront]
    rfl
  | ok r => exact ⟨_, ofLines?_of_badValue hfront hline back⟩

/-- Text made of lines of another text. -/
theorem ofText?_unlines_ofList {ls : List (List Char)} {text : String} (h : ls ⊆ lines text.toList) :
    ofText? (unlines (ls.map String.ofList)) = ofLines? none 1 ls := by
  have hlines : ∀ l ∈ ls.map String.ofList, '\n' ∉ l.toList := by
    rw [List.forall_mem_map]
    intro l hl
    rw [String.toList_ofList]
    exact newline_notMem_of_mem_lines (h hl)
  rw [ofText?_unlines hlines, List.map_map]
  simp [Function.comp_def]

/-- **What is reported is the first row that cannot be read.** It is one of the lines of the text. Those in front of it
make a text that is read, and those behind it do not matter. It stands among the symbols and has a third field, which
the message quotes and which spells no integer of 64 bits. Where there is such a row, the text is not read. -/
theorem ofText?_error_first (text : String) :
    (∀ b, ofText? text = .error b →
      (1 ≤ b.line ∧ b.line ≤ (lines text.toList).length) ∧
      (∃ r, ofText? (unlines (((lines text.toList).take (b.line - 1)).map String.ofList)) = .ok r) ∧
      (∀ front : String, lines front.toList = (lines text.toList).take (b.line - 1) → ∃ r, ofText? front = .ok r) ∧
      (∀ other : String, (lines other.toList).take b.line = (lines text.toList).take b.line →
        ofText? other = .error b) ∧
      b.StandsIn (lines text.toList) ∧ b.toFault = .report b.line ("invalid symbol value '" ++ b.value ++ "'")) ∧
    ((∃ b : BadRow, b.StandsIn (lines text.toList)) → ∃ b, ofText? text = .error b) := by
  constructor
  · intro b hb
    obtain ⟨front, line, back, r, hlines, hnumber, hfront, hbad⟩ := exists_of_ofLines?_error hb
    have hlength : b.line = front.length + 1 := by omega
    have htake : (lines text.toList).take (b.line - 1) = front := by
      rw [hlines, hlength, Nat.add_sub_cancel, List.take_left]
    refine ⟨⟨by omega, ?_⟩, ⟨r, ?_⟩, fun prior hprior => ⟨r, ?_⟩, fun other hother => ?_, ?_, rfl⟩
    · rw [hlines, List.length_append, List.length_cons]
      omega
    · rw [ofText?_unlines_ofList (List.take_subset _ _), htake, hfront]
    · rw [ofText?, hprior, htake, hfront]
    · have hfirst : (lines text.toList).take b.line = front ++ [line] := by
        rw [hlines, List.append_cons, List.take_left' (by simp [hlength])]
      have hsame : lines other.toList = front ++ line :: (lines other.toList).drop b.line :=
        calc lines other.toList = (lines other.toList).take b.line ++ (lines other.toList).drop b.line :=
              (List.take_append_drop _ _).symm
          _ = front ++ line :: (lines other.toList).drop b.line := by rw [hother, hfirst, ← List.append_cons]
      rw [ofText?, hsame, ofLines?_of_badValue hfront hbad, ← hnumber]
    · exact BadRow.standsIn_iff.2 ⟨front, line, back, hlines, hlength, by rwa [Option.or_none] at hbad⟩
  · rintro ⟨b, hb⟩
    obtain ⟨front, line, back, hlines, -, hbad⟩ := BadRow.standsIn_iff.1 hb
    rw [ofText?, hlines]
    exact exists_error_of_badValue (by rwa [Option.or_none]) back

/-- A row of two fields is passed over, and the first integer that is too large is not read, whatever comes behind it. -/
theorem ofText?_error_first_tooLarge :
    let text := "Symbol Table:\n---\na b\t3\ny\tint *\t+7\r\nz\tint\t 9223372036854775808 \nw int 0x1"
    let other := "Symbol Table:\n---\na b\t3\ny\tint *\t+7\nz\tint\t 9223372036854775808 \r\nSymbol Table:"
    let front := "Symbol Table:\n---\na b\t3\ny\tint *\t+7"
    let b : BadRow := ⟨5, "9223372036854775808"⟩
    ofText? text = .error b ∧ b.StandsIn (lines text.toList) ∧ (∃ b, ofText? text = .error b) ∧
      (lines front.toList = (lines text.toList).take 4 ∧ ∃ r, ofText? front = .ok r) ∧
      (lines other.toList).take 5 = (lines text.toList).take 5 ∧ ofText? other = .error b := by
  intro text other front b
  have hb : ofText? text = .error b := by decide +kernel
  have hfront : lines front.toList = (lines text.toList).take 4 := by decide +kernel
  have hother : (lines other.toList).take 5 = (lines text.toList).take 5 := by decide +kernel
  obtain ⟨hfirst, hsome⟩ := ofText?_error_first text
  obtain ⟨-, -, hread, hsame, hstands, -⟩ := hfirst b hb
  exact ⟨hb, hstands, hsome ⟨b, hstands⟩, ⟨hfront, hread front hfront⟩, hother, hsame other hother⟩

end Report
end ThreeAddress
