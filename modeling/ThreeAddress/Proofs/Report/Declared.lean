import ThreeAddress.Proofs.Command.FirstFault
import ThreeAddress.Proofs.Report.Replayed

/-!
# Declared values

A script declares a symbol by its name, its type and an integer, which may have zeros in front and any number of digits.
Either the integer has 64 bits, and then this is the value that is looked up, printed and read back, or the script fails
at it.

* `isName` : words of letters, digits and `_`; they need no trimming (`Symbol.isTidy_of_isName`);
* `exists_spells_iff_eq` : an integer spells one value;
* `Cursor.exists_ofText_insert` : the tokens of a declaration; `Statement.exists_ofText?_insert`,
  `Statement.ofText?_insert_of_none` : how it is read, and where it fails;
* `replay_insert_exact` : the value is the same all the way from the script to the report that is read back.
-/

namespace ThreeAddress
open Text

/-! ## Names -/

/-- A letter or `_`, and then letters, digits and `_`. -/
def isName : List Char → Bool
  | [] => false
  | c :: w => (c.isAlpha || c = '_') && w.all fun d => d.isAlphanum || d = '_'

theorem isBlank_of_isIdentifierChar {c : Char} (h : isIdentifierChar c = true) : isBlank c = false := by
  rcases Bool.or_eq_true_iff.1 h with h | hdot
  · rcases Bool.or_eq_true_iff.1 h with h | hunderscore
    · rcases Bool.or_eq_true_iff.1 h with hletter | hdigit
      · have := toNat_of_isAlpha hletter
        exact isBlank_eq_false_of_bounds (by omega) (by omega)
      · exact isBlank_of_isDigit hdigit
    · rw [of_decide_eq_true hunderscore]
      decide
  · rw [of_decide_eq_true hdot]
    decide

theorem isIdentifierChar_of_mem_name {w : List Char} (h : isName w = true) :
    w ≠ [] ∧ ∀ c ∈ w, isIdentifierChar c = true := by
  cases w with
  | nil => cases h
  | cons c w =>
    obtain ⟨hc, hw⟩ := Bool.and_eq_true_iff.1 h
    refine ⟨List.cons_ne_nil c w, List.forall_mem_cons.2 ⟨?_, fun d hd => ?_⟩⟩
    · unfold isIdentifierChar Char.isAlphanum
      rcases Bool.or_eq_true_iff.1 hc with hletter | hunderscore
      · rw [hletter, Bool.true_or, Bool.true_or, Bool.true_or]
      · rw [hunderscore, Bool.or_true, Bool.true_or]
    · rw [isIdentifierChar, List.all_eq_true.1 hw d hd, Bool.true_or]

theorem isRun_of_isName {w : List Char} (h : isName w = true) : IsRun w where
  ne_nil := (isIdentifierChar_of_mem_name h).1
  isWordChar c hc := isWordChar_of_isIdentifierChar ((isIdentifierChar_of_mem_name h).2 c hc)

theorem Symbol.isTidy_of_isName {s : Symbol} (hname : isName s.name.toList = true) (htype : isName s.type.toList = true) :
    s.IsTidy := by
  have htrimmed {w : List Char} (h : isName w = true) : Trimmed w :=
    trimmed_of_forall fun c hc => isBlank_of_isIdentifierChar ((isIdentifierChar_of_mem_name h).2 c hc)
  refine ⟨fun hempty => ?_, htrimmed hname, htrimmed htype⟩
  rw [hempty] at hname
  cases hname

/-! ## Values -/

theorem exists_spells_iff_eq {w : List Char} (h : isInteger w = true) : ∃ v, ∀ i, Decimal.Spells w i ↔ i = v := by
  obtain ⟨hne, hall⟩ := Bool.and_eq_true_iff.1 h
  rw [Bool.not_eq_true', List.isEmpty_eq_false_iff] at hne
  rw [List.all_eq_true] at hall
  have hspells : ∃ v, Decimal.Spells w v := by
    by_cases hsign : w.head? = some '-'
    · obtain ⟨digits, rfl⟩ := List.head?_eq_some_iff.1 hsign
      exact ⟨_, .minus ⟨hne, hall, rfl⟩⟩
    · rw [if_neg hsign] at hne hall
      exact ⟨_, .unsigned ⟨hne, hall, rfl⟩⟩
  obtain ⟨v, hv⟩ := hspells
  refine ⟨v, fun i => ⟨fun hi => ?_, fun hi => hi ▸ hv⟩⟩
  rw [← Decimal.signed?_eq_some_iff] at hi hv
  exact Option.some.inj (hi.symm.trans hv)

/-! ## Reading a declaration -/

theorem Scanner.tokens_run_blank {w : List Char} (hw : IsRun w) (cs : List Char) (k : Nat) :
    (Scanner.mk (w ++ [' '] ++ cs) k).tokens =
      ⟨Kind.ofWord w, k, k + utf8Length w⟩ :: (Scanner.mk cs (k + utf8Length (w ++ [' ']))).tokens := by
  rw [List.append_assoc, List.singleton_append, tokens_run hw (endsRun_cons (by decide) cs), tokens_gap (by decide),
    utf8Length_append, Nat.add_assoc]
  rfl

theorem Reader.run_statement_of_int64?_eq_none {t n ty : Token} {name type digits : String} (ht : t.kind = .keyword .insert)
    (hn : n.kind.text? = some name) (hty : ty.kind.text? = some type) (h : Decimal.int64? digits.toList = none)
    (span : Span) (stop : Nat) :
    run statement ⟨[t, n, ty, ⟨.integer digits, span⟩], stop⟩ = (.error ⟨.outOfRange, span⟩, ⟨[], stop⟩) := by
  simp only [statement, run_bind, run_token, Cursor.current, Cursor.advance, List.head?_cons, Option.getD_some, ht,
    List.tail_cons, Keyword.fields, fields, field, word, integer, run_get, run_set, run_pure, hn, hty, h, run_throw]

section
variable {name type digits : String} (hname : IsRun name.toList) (htype : IsRun type.toList)
  (hdigits : isInteger digits.toList = true)
include hname htype hdigits

theorem Cursor.exists_ofText_insert :
    let front := "insert " ++ name ++ " " ++ type ++ " "
    ∃ t n ty, ofText (front ++ digits) =
        ⟨[t, n, ty, ⟨.integer digits, front.utf8ByteSize, (front ++ digits).utf8ByteSize⟩],
          (front ++ digits).utf8ByteSize⟩ ∧
      t.kind = .keyword .insert ∧ n.kind.text? = some name ∧ ty.kind.text? = some type := by
  intro front
  have hfront : front.toList = "insert".toList ++ [' '] ++ (name.toList ++ [' '] ++ (type.toList ++ [' '])) := by
    simp [front]
  have hsize : 0 + utf8Length ("insert".toList ++ [' ']) + utf8Length (name.toList ++ [' ']) +
      utf8Length (type.toList ++ [' ']) = front.utf8ByteSize := by
    rw [← utf8Length_toList, hfront]
    simp only [utf8Length_append]
    omega
  have hlast := Scanner.tokens_run (isRun_of_isInteger hdigits) (endsRun_nil isWordChar) front.utf8ByteSize
  rw [List.append_nil, Kind.ofWord_of_isInteger hdigits, String.ofList_toList, Scanner.tokens_nil, utf8Length_toList,
    ← String.utf8ByteSize_append] at hlast
  have htokens := Scanner.tokens_run_blank (isRun_spelling .insert)
    (name.toList ++ [' '] ++ (type.toList ++ [' '] ++ digits.toList)) 0
  rw [Scanner.tokens_run_blank hname, Scanner.tokens_run_blank htype, Kind.ofWord_spelling, Keyword.spelling, hsize,
    hlast] at htokens
  have htext : (front ++ digits).toList =
      "insert".toList ++ [' '] ++ (name.toList ++ [' '] ++ (type.toList ++ [' '] ++ digits.toList)) := by
    rw [String.toList_append, hfront, List.append_assoc, List.append_assoc (name.toList ++ _)]
  rw [ofText, Token.ofText, Scanner.ofText, htext, htokens]
  exact ⟨_, _, _, rfl, rfl, (Kind.text?_ofWord _).trans (congrArg some String.ofList_toList),
    (Kind.text?_ofWord _).trans (congrArg some String.ofList_toList)⟩

theorem Statement.exists_ofText?_insert {v : Int64} (hv : Decimal.int64? digits.toList = some v) :
    ∃ ss, ofText? ("insert " ++ name ++ " " ++ type ++ " " ++ digits) = .ok ss ∧
      ss.map (·.command) = [.insert ⟨name, type, v⟩] := by
  obtain ⟨t, n, ty, hcursor, ht, hn, hty⟩ := Cursor.exists_ofText_insert hname htype hdigits
  refine (Reader.script_ok_iff (Cursor.plain_ofText _) _).2 ?_
  have hsays : Command.Says [.keyword .insert, n.kind, ty.kind, .integer digits] (.insert ⟨name, type, v⟩) :=
    Command.says_iff.2 ⟨.insert, _, (name, type, v, ()), rfl,
      ⟨_, _, rfl, hn, _, _, rfl, hty, _, _, rfl, ⟨digits, rfl, hv⟩, rfl⟩, rfl⟩
  rw [hcursor, List.map_cons, List.map_cons, List.map_cons, List.map_singleton, ht, Kind.lines_of_says hsays]
  exact .cons hsays .nil

theorem Statement.ofText?_insert_of_none (hv : Decimal.int64? digits.toList = none) :
    let front := "insert " ++ name ++ " " ++ type ++ " "
    ofText? (front ++ digits) = .error ⟨.outOfRange, front.utf8ByteSize, (front ++ digits).utf8ByteSize⟩ := by
  intro front
  obtain ⟨t, n, ty, hcursor, ht, hn, hty⟩ := Cursor.exists_ofText_insert hname htype hdigits
  have hskip : (Cursor.ofText (front ++ digits)).skipNewlines = Cursor.ofText (front ++ digits) := by
    rw [hcursor, Cursor.skipNewlines, List.dropWhile_cons_of_neg (by simp [ht])]
  have hrun := Reader.run_statement_of_int64?_eq_none ht hn hty hv
    ⟨front.utf8ByteSize, (front ++ digits).utf8ByteSize⟩ (front ++ digits).utf8ByteSize
  rw [← hcursor, ← hskip] at hrun
  have hne : (Cursor.ofText (front ++ digits)).skipNewlines.ahead ≠ [] := by
    rw [hskip, hcursor]
    exact List.cons_ne_nil _ _
  rw [ofText?, Reader.script_of_error hne hrun]

theorem replay_insert_of_some {v : Int64} (hv : Decimal.int64? digits.toList = some v) (tell : Verbosity)
    (u : CompilationUnit) :
    let r := replay tell ("insert " ++ name ++ " " ++ type ++ " " ++ digits) u
    r.result = .ok [] ∧ r.unit = { u with symbols := u.symbols.insert ⟨name, type, v⟩ } := by
  intro r
  obtain ⟨ss, hss, hcommands⟩ := Statement.exists_ofText?_insert hname htype hdigits hv
  refine replay_of_executes hss ?_ tell
  rw [hcommands]
  exact .insert (.nil _ _)

theorem replay_insert_of_none (hv : Decimal.int64? digits.toList = none) (tell : Verbosity) (u : CompilationUnit) :
    let front := "insert " ++ name ++ " " ++ type ++ " "
    let r := replay tell (front ++ digits) u
    r.result = .error (.script "integer out of range" ⟨front.utf8ByteSize, (front ++ digits).utf8ByteSize⟩) ∧
      r.unit = u :=
  replay_of_error (Statement.ofText?_insert_of_none hname htype hdigits hv) tell u

end

/-! ## From the script to the report -/

/-- A symbol that needs no trimming is read back from the first row of the report that it was declared last for. -/
theorem CompilationUnit.exists_ofText?_report_insert {u : CompilationUnit} (hu : u.MadeOf fun w => IsRun w.toList)
    {s : Symbol} (hs : s.MadeOf fun w => IsRun w.toList) (htidy : s.IsTidy) :
    ∃ symbols code, Report.ofText? { u with symbols := u.symbols.insert s }.report = .ok ⟨s :: symbols, code⟩ := by
  have hwords : { u with symbols := u.symbols.insert s }.MadeOf fun w => IsRun w.toList := by
    refine ⟨?_, hu.code⟩
    rw [SymbolTable.chain_insert, List.forall_mem_cons]
    exact ⟨hs, hu.symbols⟩
  rw [ofText?_report_of_madeOf hwords, SymbolTable.chain_insert, List.filter_cons_of_pos htidy.isNamed, List.map_cons,
    htidy.trimmed_eq]
  exact ⟨_, _, rfl⟩

/-- **A declared integer keeps its value from the script to the report that is read back.** Whatever its length and its
spelling, the script runs exactly when the value has 64 bits. Otherwise it fails at the integer and changes nothing; and
when it runs, this value is the one that a look-up finds and the first row shows, in its canonical spelling, and the report
gives it back. -/
theorem replay_insert_exact {name type digits : String} (hname : isName name.toList = true)
    (htype : isName type.toList = true) (hdigits : isInteger digits.toList = true) :
    ∃ v : Int, (∀ i, Decimal.Spells digits.toList i ↔ i = v) ∧
      ∀ (tell : Verbosity) (l : Limit) (scripts : List (Verbosity × String)),
        let u := replayAll (.ofLimit l) scripts
        let front := "insert " ++ name ++ " " ++ type ++ " "
        let r := replay tell (front ++ digits) u
        let fits := -9223372036854775808 ≤ v ∧ v ≤ 9223372036854775807
        ((∃ out, r.result = .ok out) ↔ fits) ∧
        (¬fits →
          r.result = .error (.script "integer out of range" ⟨front.utf8ByteSize, (front ++ digits).utf8ByteSize⟩) ∧
            r.unit = u) ∧
        (fits → ∃ s : Symbol, s.name = name ∧ s.type = type ∧ s.value.toInt = v ∧
          r.unit = { u with symbols := u.symbols.insert s } ∧ r.unit.symbols.lookup? name = some s ∧
          (∃ rows, r.unit.reportLines = SymbolTable.title :: SymbolTable.columns :: SymbolTable.rule ::
            (name ++ "\t" ++ type ++ "\t" ++ toString v) :: rows) ∧
          ∃ symbols code, Report.ofText? r.unit.report = .ok ⟨s :: symbols, code⟩) := by
  obtain ⟨v, hv⟩ := exists_spells_iff_eq hdigits
  refine ⟨v, hv, fun tell l scripts => ?_⟩
  intro u front r fits
  have hnameRun := isRun_of_isName hname
  have htypeRun := isRun_of_isName htype
  by_cases h : fits
  · have hread : Decimal.int64? digits.toList = some (Int64.ofInt v) :=
      Decimal.int64?_eq_some_iff.2 ⟨v, Decimal.signed?_eq_some_iff.2 ((hv v).2 rfl), h.1, h.2, rfl⟩
    have hvalue : (Int64.ofInt v).toInt = v := Int64.toInt_ofInt_of_le (by omega) (by omega)
    obtain ⟨hresult, hunit⟩ := replay_insert_of_some hnameRun htypeRun hdigits hread tell u
    refine ⟨iff_of_true ⟨[], hresult⟩ h, absurd h, fun _ => ⟨⟨name, type, Int64.ofInt v⟩, rfl, rfl, hvalue, hunit, ?_⟩⟩
    show (replay tell (front ++ digits) u).unit.symbols.lookup? name = _ ∧ _
    rw [hunit]
    refine ⟨u.symbols.lookup?_insert_self _, ?_, ?_⟩
    · rw [CompilationUnit.reportLines, SymbolTable.reportLines, SymbolTable.chain_insert, List.map_cons, Symbol.row,
        Decimal.ofInt64_eq_toString, hvalue]
      exact ⟨_, rfl⟩
    · have hwords : u.MadeOf fun w => IsRun w.toList := (CompilationUnit.madeOf_ofLimit l).replayAll scripts
      exact CompilationUnit.exists_ofText?_report_insert hwords ⟨hnameRun, htypeRun⟩ (Symbol.isTidy_of_isName hname htype)
  · have hread : Decimal.int64? digits.toList = none := Decimal.int64?_eq_none_iff.2 fun i hi => (hv i).1 hi ▸ h
    obtain ⟨hresult, hunit⟩ := replay_insert_of_none hnameRun htypeRun hdigits hread tell u
    refine ⟨iff_of_false ?_ h, fun _ => ⟨hresult, hunit⟩, fun h' => absurd h' h⟩
    rintro ⟨out, hout⟩
    cases hout.symm.trans hresult

/-- Zeros in front of the least value, and the first value that does not fit. -/
theorem replay_insert_exact_boundaries :
    let u := replayAll (.ofLimit .default) [({}, "insert int reset 1")]
    let r := replay {} "insert int print -009223372036854775808" u
    (isName "int".toList = true ∧ isName "print".toList = true ∧ isInteger "-009223372036854775808".toList = true ∧
      isInteger "9223372036854775808".toList = true) ∧
    r.unit.symbols.lookup? "int" = some ⟨"int", "print", Int64.minValue⟩ ∧
    (∃ rows, r.unit.reportLines = SymbolTable.title :: SymbolTable.columns :: SymbolTable.rule ::
      "int\tprint\t-9223372036854775808" :: rows) ∧
    (replay {} "insert int print 9223372036854775808" u).result = .error (.script "integer out of range" ⟨17, 36⟩) := by
  intro u r
  have hname : isName "int".toList = true := by decide
  have htype : isName "print".toList = true := by decide
  have hleast : isInteger "-009223372036854775808".toList = true := by decide
  have hlarge : isInteger "9223372036854775808".toList = true := by decide
  obtain ⟨v, hv, hreplay⟩ := replay_insert_exact hname htype hleast
  have hvalue : Decimal.Spells "-009223372036854775808".toList (-9223372036854775808) :=
    Decimal.signed?_eq_some_iff.1 (by decide +kernel)
  obtain rfl : -9223372036854775808 = v := (hv _).1 hvalue
  obtain ⟨-, -, hfits⟩ := hreplay {} .default [({}, "insert int reset 1")]
  obtain ⟨⟨name, type, value⟩, rfl, rfl, hvalue, -, hlookup, hrow, -⟩ := hfits (by decide)
  obtain rfl : value = Int64.minValue := Int64.toInt_inj.1 hvalue
  obtain ⟨w, hw, hreplay⟩ := replay_insert_exact hname htype hlarge
  have hvalue : Decimal.Spells "9223372036854775808".toList 9223372036854775808 :=
    Decimal.signed?_eq_some_iff.1 (by decide +kernel)
  obtain rfl : 9223372036854775808 = w := (hw _).1 hvalue
  obtain ⟨-, hfails, -⟩ := hreplay {} .default [({}, "insert int reset 1")]
  exact ⟨⟨hname, htype, hleast, hlarge⟩, hlookup, hrow, (hfails (by decide)).1⟩

end ThreeAddress
