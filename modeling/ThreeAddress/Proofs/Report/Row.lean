import ThreeAddress.Proofs.Report.Sections

/-!
# Rows of a table

What a line among the symbols says, without a word about how it is split.

* `ReportLine.IsRow` : the lines that are looked at for fields, if they stand among the symbols. No other line gives a
  symbol (`ofText_eq_iff`);
* `ReportLine.HasFields` : the three fields of a row, between tabs or between blanks (`rowFields_eq_iff`). Only a line
  with one tab, or one without a tab and with fewer than three words, has none (`exists_hasFields_iff`);
* `ReportLine.ofText_eq_row_iff`, `ReportLine.ofText_eq_badValue_iff` : when a line gives a symbol and when its value
  cannot be read;
* `ReportLine.fitsRow_of_ofText` : a symbol that is read can be printed in a row and needs no trimming there.
-/

namespace ThreeAddress
open Text

namespace ReportLine
variable {current : Option Section} {line name type value : List Char}

/-! ## Fields -/

/-- The three fields of a row: what stands in front of its first two tabs and what stands behind them, trimmed; or its
first three words, if it holds no tab. -/
inductive HasFields : (line name type value : List Char) → Prop where
  | tabs {name type value : List Char} : '\t' ∉ name → '\t' ∉ type →
      HasFields (name ++ '\t' :: (type ++ '\t' :: value)) (trim name) (trim type) (trim value)
  | blanks {line name type value : List Char} {rest : List (List Char)} : '\t' ∉ line →
      words line = name :: type :: value :: rest → HasFields line name type value

/-- A line holds no tab, one tab, or two and more. -/
theorem tab_cases (line : List Char) :
    '\t' ∉ line ∨ (∃ name type, line = name ++ '\t' :: type ∧ '\t' ∉ name ∧ '\t' ∉ type) ∨
      ∃ name type value, line = name ++ '\t' :: (type ++ '\t' :: value) ∧ '\t' ∉ name ∧ '\t' ∉ type := by
  by_cases hline : '\t' ∈ line
  · obtain ⟨name, rest, rfl, hname⟩ := List.eq_append_cons_of_mem hline
    by_cases hrest : '\t' ∈ rest
    · obtain ⟨type, value, rfl, htype⟩ := List.eq_append_cons_of_mem hrest
      exact .inr (.inr ⟨name, type, value, rfl, hname, htype⟩)
    · exact .inr (.inl ⟨name, rest, rfl, hname, hrest⟩)
  · exact .inl hline

theorem rowFields_of_no_tab (h : '\t' ∉ line) : rowFields line = (words line).take 3 := if_neg h

theorem rowFields_eq_iff : rowFields line = [name, type, value] ↔ HasFields line name type value := by
  constructor
  · intro h
    rcases tab_cases line with hline | ⟨n, t, rfl, hn, ht⟩ | ⟨n, t, v, rfl, hn, ht⟩
    · rw [rowFields_of_no_tab hline] at h
      have hwords : words line = name :: type :: value :: (words line).drop 3 := by
        rw [← List.take_append_drop 3 (words line), h]
        simp
      exact .blanks hline hwords
    · rw [rowFields_of_one_tab hn ht] at h
      cases h
    · rw [rowFields_of_two_tabs hn ht] at h
      cases h
      exact .tabs hn ht
  · intro h
    cases h with
    | tabs hn ht => exact rowFields_of_two_tabs hn ht _
    | blanks hline hwords =>
      rw [rowFields_of_no_tab hline, hwords]
      rfl

/-- A row has three fields unless it holds exactly one tab, or none and fewer than three words. -/
theorem exists_hasFields_iff :
    (∃ name type value, HasFields line name type value) ↔
      2 ≤ line.count '\t' ∨ '\t' ∉ line ∧ 3 ≤ (words line).length := by
  constructor
  · rintro ⟨n, t, v, h⟩
    cases h with
    | tabs hn ht => left; simp; omega
    | blanks hline hwords => right; simp [hline, hwords]
  · rintro (hcount | ⟨hline, hwords⟩)
    · rcases tab_cases line with hline | ⟨n, t, rfl, hn, ht⟩ | ⟨n, t, v, rfl, hn, ht⟩
      · rw [List.count_eq_zero.2 hline] at hcount
        omega
      · simp [List.count_eq_zero.2 hn, List.count_eq_zero.2 ht] at hcount
      · exact ⟨_, _, _, .tabs hn ht⟩
    · obtain ⟨n, ws, hn⟩ := List.exists_cons_of_length_pos (by omega : 0 < (words line).length)
      obtain ⟨t, ws, rfl⟩ := List.exists_cons_of_length_pos (by simp [hn] at hwords; omega : 0 < ws.length)
      obtain ⟨v, ws, rfl⟩ := List.exists_cons_of_length_pos (by simp [hn] at hwords; omega : 0 < ws.length)
      exact ⟨n, t, v, .blanks hline hn⟩

/-! ## Rows -/

theorem ofRow_of_int64? {v : Int64} (h : HasFields line name type value) (hv : Decimal.int64? value = some v) :
    ofRow line = row ⟨String.ofList name, String.ofList type, v⟩ := by
  unfold ofRow
  rw [rowFields_eq_iff.2 h]
  dsimp only
  rw [hv]

theorem ofRow_of_int64?_eq_none (h : HasFields line name type value) (hv : Decimal.int64? value = none) :
    ofRow line = badValue (String.ofList value) := by
  unfold ofRow
  rw [rowFields_eq_iff.2 h]
  dsimp only
  rw [hv]

theorem ofRow_of_forall_not (h : ∀ name type value, ¬HasFields line name type value) : ofRow line = nothing := by
  unfold ofRow
  split
  · next n t v hfields => exact absurd (rowFields_eq_iff.1 hfields) (h n t v)
  · rfl

theorem ofRow_eq_row_iff {s : Symbol} :
    ofRow line = row s ↔
      ∃ value, HasFields line s.name.toList s.type.toList value ∧ Decimal.int64? value = some s.value := by
  constructor
  · intro h
    by_cases hfields : ∃ n t v, HasFields line n t v
    · obtain ⟨n, t, v, hfields⟩ := hfields
      cases hv : Decimal.int64? v with
      | none => rw [ofRow_of_int64?_eq_none hfields hv] at h; cases h
      | some i =>
        rw [ofRow_of_int64? hfields hv] at h
        cases h
        exact ⟨v, by simpa using hfields, hv⟩
    · rw [ofRow_of_forall_not (by simpa using hfields)] at h
      cases h
  · rintro ⟨v, hfields, hv⟩
    rw [ofRow_of_int64? hfields hv, String.ofList_toList, String.ofList_toList]

theorem ofRow_eq_badValue_iff {text : String} :
    ofRow line = badValue text ↔
      (∃ name type, HasFields line name type text.toList) ∧ Decimal.int64? text.toList = none := by
  constructor
  · intro h
    by_cases hfields : ∃ n t v, HasFields line n t v
    · obtain ⟨n, t, v, hfields⟩ := hfields
      cases hv : Decimal.int64? v with
      | some i => rw [ofRow_of_int64? hfields hv] at h; cases h
      | none =>
        rw [ofRow_of_int64?_eq_none hfields hv] at h
        cases h
        exact ⟨⟨n, t, by simpa using hfields⟩, by simpa using hv⟩
    · rw [ofRow_of_forall_not (by simpa using hfields)] at h
      cases h
  · rintro ⟨⟨n, t, hfields⟩, hv⟩
    rw [ofRow_of_int64?_eq_none hfields hv, String.ofList_toList]

/-! ## Lines among the symbols -/

/-- The line is not blank, no title, and neither the names of the columns nor a rule. -/
structure IsRow (line : List Char) : Prop where
  ne_nil : trim line ≠ []
  noTitle : Section.ofTitle? line = none
  noHead : isTableHead (trim line) = false

theorem IsRow.ofText_eq (h : IsRow line) : ofText (some .symbols) line = ofRow (trim line) := by
  rw [ofText_of_ne_title (Section.ofTitle?_eq_none_iff.1 h.noTitle), if_neg h.ne_nil]
  show (if isTableHead (trim line) then nothing else ofRow (trim line)) = ofRow (trim line)
  rw [h.noHead, if_neg Bool.false_ne_true]

/-- No other line is looked at for fields. -/
theorem ofText_cases (current : Option Section) (line : List Char) :
    current = some .symbols ∧ IsRow line ∨ ofText current line = nothing ∨ (∃ s, ofText current line = title s) ∨
      ∃ text, ofText current line = instruction text := by
  cases htitle : Section.ofTitle? line with
  | some s => exact .inr (.inr (.inl ⟨s, ofText_of_ofTitle? htitle⟩))
  | none =>
    rw [ofText_of_ne_title (Section.ofTitle?_eq_none_iff.1 htitle)]
    by_cases hnil : trim line = []
    · exact .inr (.inl (if_pos hnil))
    · rw [if_neg hnil]
      rcases current with _ | _ | _
      · exact .inr (.inl rfl)
      · cases hhead : isTableHead (trim line) with
        | true => exact .inr (.inl rfl)
        | false => exact .inl ⟨rfl, hnil, htitle, hhead⟩
      · exact .inr (.inr (.inr ⟨_, rfl⟩))

/-- What only a row can say. -/
theorem ofText_eq_iff (said : ReportLine) (hnothing : said ≠ nothing) (htitle : ∀ s, said ≠ title s)
    (hinstruction : ∀ text, said ≠ instruction text) :
    ofText current line = said ↔ current = some .symbols ∧ IsRow line ∧ ofRow (trim line) = said := by
  constructor
  · rintro rfl
    rcases ofText_cases current line with ⟨rfl, hrow⟩ | hline | ⟨s, hline⟩ | ⟨text, hline⟩
    · exact ⟨rfl, hrow, hrow.ofText_eq.symm⟩
    · exact absurd hline hnothing
    · exact absurd hline (htitle s)
    · exact absurd hline (hinstruction text)
  · rintro ⟨rfl, hrow, hsaid⟩
    rw [hrow.ofText_eq, hsaid]

theorem ofText_eq_row_iff {s : Symbol} :
    ofText current line = row s ↔ current = some .symbols ∧ IsRow line ∧
      ∃ value, HasFields (trim line) s.name.toList s.type.toList value ∧ Decimal.int64? value = some s.value := by
  rw [ofText_eq_iff (row s) nofun nofun nofun, ofRow_eq_row_iff]

theorem ofText_eq_badValue_iff {text : String} :
    ofText current line = badValue text ↔ current = some .symbols ∧ IsRow line ∧
      (∃ name type, HasFields (trim line) name type text.toList) ∧ Decimal.int64? text.toList = none := by
  rw [ofText_eq_iff (badValue text) nofun nofun nofun, ofRow_eq_badValue_iff]

/-- Three words make three fields unless there is exactly one tab. -/
theorem IsRow.row_or_badValue (h : IsRow line) (hwords : 3 ≤ (words line).length) (htab : (trim line).count '\t' ≠ 1) :
    (∃ text, ofText (some .symbols) line = badValue text) ∨
      ∃ s value, ofText (some .symbols) line = row s ∧
        HasFields (trim line) s.name.toList s.type.toList value ∧ Decimal.Spells value s.value.toInt := by
  rw [← words_trim] at hwords
  have hfields : ∃ name type value, HasFields (trim line) name type value := by
    rw [exists_hasFields_iff, ← List.count_eq_zero]
    omega
  obtain ⟨name, type, value, hfields⟩ := hfields
  rw [h.ofText_eq]
  cases hvalue : Decimal.int64? value with
  | none => exact .inl ⟨_, ofRow_of_int64?_eq_none hfields hvalue⟩
  | some v =>
    exact .inr ⟨_, value, ofRow_of_int64? hfields hvalue, by simpa using hfields, Decimal.spells_of_int64? hvalue⟩

theorem IsRow.nothing_of_one_tab (h : IsRow line) (htab : (trim line).count '\t' = 1) :
    ofText (some .symbols) line = nothing := by
  have hnone : ¬∃ name type value, HasFields (trim line) name type value := by
    rw [exists_hasFields_iff, ← List.count_eq_zero]
    omega
  rw [h.ofText_eq]
  exact ofRow_of_forall_not (by simpa using hnone)

/-! ## Symbols that are read -/

theorem HasFields.trimmed (h : HasFields line name type value) (hline : Trimmed line) :
    name ≠ [] ∧ Trimmed name ∧ Trimmed type := by
  cases h with
  | @tabs n t v hn ht =>
    have hne : n ≠ [] := by
      rintro rfl
      exact absurd (hline.1 '\t' rfl) (by decide)
    obtain ⟨c, n, rfl⟩ := List.exists_cons_of_ne_nil hne
    have hc : isBlank c = false := hline.1 c rfl
    exact ⟨List.ne_nil_of_mem (mem_trim_of_mem List.mem_cons_self hc), trimmed_trim _, trimmed_trim _⟩
  | blanks _ hwords =>
    obtain ⟨hne, hname⟩ := of_mem_words (by rw [hwords]; simp : name ∈ words line)
    obtain ⟨-, htype⟩ := of_mem_words (by rw [hwords]; simp : type ∈ words line)
    exact ⟨hne, trimmed_of_forall fun c hc => (hname c hc).2, trimmed_of_forall fun c hc => (htype c hc).2⟩

/-- No tab is left in the name and the type, and they hold nothing but characters of the line. -/
theorem HasFields.of_mem (h : HasFields line name type value) {c : Char} (hc : c ∈ name ++ type) :
    c ∈ line ∧ c ≠ '\t' := by
  cases h with
  | @tabs n t v hn ht =>
    rcases List.mem_append.1 hc with hc | hc
    · exact ⟨by simp [mem_of_mem_trim hc], ne_of_mem_of_not_mem (mem_of_mem_trim hc) hn⟩
    · exact ⟨by simp [mem_of_mem_trim hc], ne_of_mem_of_not_mem (mem_of_mem_trim hc) ht⟩
  | blanks hline hwords =>
    have hmem : c ∈ line := by
      rcases List.mem_append.1 hc with hc | hc
      · exact ((of_mem_words (by rw [hwords]; simp)).2 c hc).1
      · exact ((of_mem_words (by rw [hwords]; simp)).2 c hc).1
    exact ⟨hmem, ne_of_mem_of_not_mem hmem hline⟩

/-- A symbol that is read from a line can be printed in a row, and needs no trimming there. -/
theorem fitsRow_of_ofText {s : Symbol} (h : ofText current line = row s) (hline : '\n' ∉ line) :
    s.FitsRow ∧ s.IsTidy := by
  obtain ⟨-, -, v, hfields, -⟩ := ofText_eq_row_iff.1 h
  obtain ⟨hne, hname, htype⟩ := hfields.trimmed (trimmed_trim line)
  refine ⟨fun c hc => ?_, fun hempty => hne (by rw [hempty]; rfl), hname, htype⟩
  obtain ⟨hmem, htab⟩ := hfields.of_mem hc
  exact ⟨htab, ne_of_mem_of_not_mem (mem_of_mem_trim hmem) hline⟩

end ReportLine
end ThreeAddress
