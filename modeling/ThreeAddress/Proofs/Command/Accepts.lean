import ThreeAddress.Command.Reader

/-!
# What the readers accept

A reader that succeeds says what tokens it found, and tokens of that form make it succeed:

* `Field.Takes`, `Field.Taken` : the kinds that give one field, or all fields of a line, their values;
* `Statement.IsReadFrom s part` : the tokens of a whole line, and the statement that they give;
* `run_field_ok_iff`, `run_fields_ok_iff`, `run_endOfLine_ok_iff` and, put together from them,
  `run_statement_ok_iff` : exactly when a reader gives a value at a cursor, which one, and where it stops;
* `Cursor.Plain` : no token ahead is the end of the text, as for every text (`Cursor.plain_ofText`).
-/

namespace ThreeAddress
open Text

namespace Field

/-- A token of this kind gives the field this value. -/
def Takes : (f : Field) → Kind → f.Value → Prop
  | word _, k, text => k.text? = some text
  | integer, k, v => ∃ digits, k = .integer digits ∧ Decimal.int64? digits.toList = some v

/-- One token for each field, in order. -/
def Taken : (fs : List Field) → List Kind → Values fs → Prop
  | [], ks, () => ks = []
  | f :: fs, ks, (v, vs) => ∃ k rest, ks = k :: rest ∧ f.Takes k v ∧ Taken fs rest vs

theorem Takes.ne_endOfText {f : Field} {k : Kind} {v : f.Value} (h : f.Takes k v) : k ≠ .endOfText := by
  rintro rfl
  cases f with
  | word role => cases h
  | integer =>
    obtain ⟨_, h, -⟩ := h
    cases h

theorem Takes.ne_newline {f : Field} {k : Kind} {v : f.Value} (h : f.Takes k v) : k ≠ .newline := by
  rintro rfl
  cases f with
  | word role => cases h
  | integer =>
    obtain ⟨_, h, -⟩ := h
    cases h

end Field

/-! ## Cursors -/

namespace Cursor

/-- No token ahead is the end of the text. -/
def Plain (c : Cursor) : Prop := ∀ t ∈ c.ahead, t.kind ≠ .endOfText

theorem Plain.of_leadsTo {c d : Cursor} (h : c.Plain) (hd : c.LeadsTo d) : d.Plain :=
  fun t ht => h t (hd.1.subset ht)

theorem ahead_of_current {c : Cursor} (h : c.current.kind ≠ .endOfText) :
    c.ahead = c.current :: c.advance.ahead := by
  unfold current advance at *
  cases hc : c.ahead with
  | nil =>
    rw [hc] at h
    exact absurd rfl h
  | cons t ts => rfl

/-- Only at the very end does a plain cursor stand before the end of the text. -/
theorem Plain.current_eq_iff {c : Cursor} (h : c.Plain) : c.current.kind = .endOfText ↔ c.ahead = [] := by
  constructor
  · intro hc
    cases ha : c.ahead with
    | nil => rfl
    | cons t ts =>
      refine absurd ?_ (h t (by simp [ha]))
      simpa [current, ha] using hc
  · intro ha
    simp [current, ha]

end Cursor

/-! ## Tokens of a text -/

theorem Scanner.tokens_eq_append (s : Scanner) :
    ∃ ts t, s.tokens = ts ++ [t] ∧ t.kind = .endOfText ∧ ∀ u ∈ ts, u.kind ≠ .endOfText := by
  induction hn : s.rest.length using Nat.strongRecOn generalizing s with
  | ind n ih =>
    subst hn
    by_cases h : s.next.1.kind = .endOfText
    · exact ⟨[], _, tokens_of_end h, h, by simp⟩
    · obtain ⟨ts, t, hts, ht, hne⟩ := ih _ (length_rest_next_lt h) s.next.2 rfl
      refine ⟨s.next.1 :: ts, t, by rw [tokens_of_next h, hts]; rfl, ht, ?_⟩
      exact List.forall_mem_cons.2 ⟨h, hne⟩

theorem Cursor.plain_ofText (text : String) : (Cursor.ofText text).Plain := by
  obtain ⟨ts, t, hts, -, hne⟩ := (Scanner.ofText text).tokens_eq_append
  unfold Plain ofText Token.ofText
  rw [hts, List.dropLast_concat]
  exact hne

/-! ## Fields -/

namespace Reader

theorem run_word_ok_iff {role : Expected} {c d : Cursor} {v : String} {s : Span} :
    run (word role) c = (.ok (v, s), d) ↔
      c.current.kind.text? = some v ∧ s = c.current.span ∧ d = c.advance := by
  simp only [word, run_bind, run_get]
  cases h : c.current.kind.text? with
  | none => simp [run_throw]
  | some text =>
    simp only [run_bind, run_set, run_pure, Prod.mk.injEq, Except.ok.injEq, Option.some.injEq]
    constructor
    · rintro ⟨⟨rfl, rfl⟩, rfl⟩
      exact ⟨rfl, rfl, rfl⟩
    · rintro ⟨rfl, rfl, rfl⟩
      exact ⟨⟨rfl, rfl⟩, rfl⟩

theorem run_integer_ok_iff {c d : Cursor} {v : Int64} {s : Span} :
    run integer c = (.ok (v, s), d) ↔
      (∃ digits, c.current.kind = .integer digits ∧ Decimal.int64? digits.toList = some v) ∧
        s = c.current.span ∧ d = c.advance := by
  simp only [integer, run_bind, run_token]
  cases hk : c.current.kind with
  | integer digits =>
    cases hv : Decimal.int64? digits.toList with
    | none => simp [hv, run_throw]
    | some w =>
      simp only [hv, run_pure, Prod.mk.injEq, Except.ok.injEq]
      constructor
      · rintro ⟨⟨rfl, rfl⟩, rfl⟩
        exact ⟨⟨digits, rfl, hv⟩, rfl, rfl⟩
      · rintro ⟨⟨_, h, hw⟩, rfl, rfl⟩
        cases h
        rw [hv] at hw
        exact ⟨⟨Option.some.inj hw, rfl⟩, rfl⟩
  | _ => simp [run_throw]

theorem run_field_ok_iff {f : Field} {c d : Cursor} {v : f.Value} {s : Span} :
    run (field f) c = (.ok (v, s), d) ↔
      f.Takes c.current.kind v ∧ s = c.current.span ∧ d = c.advance := by
  cases f with
  | word role => exact run_word_ok_iff
  | integer => exact run_integer_ok_iff

/-- The place of the last of some tokens, or `last` when there is none. -/
def lastSpan (last : Span) (ts : List Token) : Span := (ts.getLast?.map (·.span)).getD last

theorem lastSpan_cons (last : Span) (t : Token) (ts : List Token) :
    lastSpan last (t :: ts) = lastSpan t.span ts := by
  unfold lastSpan
  cases ts with
  | nil => rfl
  | cons u us => rw [List.getLast?_cons_cons, List.getLast?_eq_some_getLast (List.cons_ne_nil u us)]; rfl

theorem run_fields_ok_iff {last : Span} {fs : List Field} {c d : Cursor} {vs : Field.Values fs} {s : Span} :
    run (fields last fs) c = (.ok (vs, s), d) ↔
      ∃ ts, c.ahead = ts ++ d.ahead ∧ c.stop = d.stop ∧ Field.Taken fs (ts.map (·.kind)) vs ∧
        s = lastSpan last ts := by
  induction fs generalizing last c with
  | nil =>
    obtain ⟨⟩ := vs
    simp only [fields, run_pure, Prod.mk.injEq, Except.ok.injEq, Field.Taken, List.map_eq_nil_iff]
    constructor
    · rintro ⟨⟨-, rfl⟩, rfl⟩
      exact ⟨[], rfl, rfl, rfl, rfl⟩
    · rintro ⟨ts, ha, hs, rfl, rfl⟩
      refine ⟨⟨trivial, rfl⟩, ?_⟩
      cases c
      cases d
      simp_all
  | cons f fs ih =>
    obtain ⟨v, vs⟩ := vs
    simp only [fields, run_bind]
    constructor
    · intro h
      rcases hf : run (field f) c with ⟨_ | ⟨w, sw⟩, e⟩
      · simp [hf] at h
      · simp only [hf] at h
        rcases hfs : run (fields sw fs) e with ⟨_ | ⟨ws, sws⟩, e'⟩
        · simp [hfs] at h
        · simp only [hfs, run_pure, Prod.mk.injEq, Except.ok.injEq] at h
          obtain ⟨⟨⟨rfl, rfl⟩, rfl⟩, rfl⟩ := h
          obtain ⟨htake, rfl, rfl⟩ := run_field_ok_iff.1 hf
          obtain ⟨ts, ha, hs, htaken, rfl⟩ := ih.1 hfs
          refine ⟨c.current :: ts, ?_, hs, ⟨_, _, rfl, htake, htaken⟩, (lastSpan_cons ..).symm⟩
          rw [Cursor.ahead_of_current htake.ne_endOfText, ha]
          rfl
    · rintro ⟨ts, ha, hs, htaken, hspan⟩
      obtain ⟨k, rest, hk, htake, htaken⟩ := htaken
      obtain ⟨t, ts, rfl, rfl, rfl⟩ := List.map_eq_cons_iff.1 hk
      have hcur : c.current = t := by simp [Cursor.current, ha]
      have hadv : c.advance = ⟨ts ++ d.ahead, d.stop⟩ := by simp [Cursor.advance, ha, hs]
      have hf : run (field f) c = (.ok (v, t.span), ⟨ts ++ d.ahead, d.stop⟩) :=
        run_field_ok_iff.2 ⟨by rwa [hcur], by rw [hcur], hadv.symm⟩
      have hfs : run (fields t.span fs) ⟨ts ++ d.ahead, d.stop⟩ = (.ok (vs, s), d) :=
        ih.2 ⟨ts, rfl, rfl, htaken, hspan.trans (lastSpan_cons ..)⟩
      simp only [hf, hfs, run_pure]

/-! ## Statements -/

/-- The line ends where `c` stands, and `d` stands behind its end. -/
def EndsLine (c d : Cursor) : Prop :=
  c.current.kind = .newline ∧ d = c.advance ∨ c.current.kind = .endOfText ∧ d = c

theorem run_endOfLine_ok_iff {c d : Cursor} : run endOfLine c = (.ok (), d) ↔ EndsLine c d := by
  simp only [endOfLine, run_bind, run_get, EndsLine]
  cases hk : c.current.kind with
  | newline => simp [run_set, eq_comm]
  | endOfText => simp [run_pure, eq_comm]
  | _ => simp [run_throw]

end Reader

/-- A keyword and one token for each field behind it are read as the statement. -/
def Statement.IsReadFrom (s : Statement) (part : List Token) : Prop :=
  ∃ t ts k vs, part = t :: ts ∧ t.kind = .keyword k ∧ Field.Taken k.fields (ts.map (·.kind)) vs ∧
    s = ⟨k.command vs, t.span.merge (Reader.lastSpan t.span ts)⟩

theorem Statement.IsReadFrom.ne_nil {s : Statement} {part : List Token} (h : s.IsReadFrom part) : part ≠ [] := by
  obtain ⟨t, ts, -, -, rfl, -⟩ := h
  exact List.cons_ne_nil t ts

theorem Reader.run_statement_ok_iff {c e : Cursor} {s : Statement} :
    run statement c = (.ok s, e) ↔
      ∃ part d, s.IsReadFrom part ∧ c.ahead = part ++ d.ahead ∧ c.stop = d.stop ∧ EndsLine d e := by
  simp only [statement, run_bind, run_token]
  constructor
  · intro h
    cases hk : c.current.kind with
    | keyword k =>
      simp only [hk, run_bind] at h
      rcases hf : run (fields c.current.span k.fields) c.advance with ⟨_ | ⟨vs, last⟩, d⟩
      · simp [hf] at h
      · simp only [hf] at h
        rcases he : run endOfLine d with ⟨_ | ⟨⟩, e'⟩
        · simp [he] at h
        · simp only [he, run_pure, Prod.mk.injEq, Except.ok.injEq] at h
          obtain ⟨rfl, rfl⟩ := h
          obtain ⟨ts, ha, hs, htaken, rfl⟩ := run_fields_ok_iff.1 hf
          refine ⟨_, d, ⟨c.current, ts, k, vs, rfl, hk, htaken, rfl⟩, ?_, hs, run_endOfLine_ok_iff.1 he⟩
          rw [Cursor.ahead_of_current (by simp [hk]), ha]
          rfl
    | _ => simp [hk, run_throw] at h
  · rintro ⟨-, d, ⟨t, ts, k, vs, rfl, hk, htaken, rfl⟩, ha, hs, he⟩
    have hcur : c.current = t := by simp [Cursor.current, ha]
    have hf : run (fields t.span k.fields) c.advance = (.ok (vs, lastSpan t.span ts), d) := by
      rw [run_fields_ok_iff]
      exact ⟨ts, by simp [Cursor.advance, ha], hs, htaken, rfl⟩
    simp only [hcur, hk, run_bind, hf, run_endOfLine_ok_iff.2 he, run_pure]

end ThreeAddress
