import ThreeAddress.Proofs.Command.Accepts

/-!
# A statement is read from one line

A line owns the line end behind it. The readers differ in what they do at a line end that they did not call for:
a word stands before it and an integer passes over it. Neither goes further.

* `OneLine part` : tokens of one line, so that only the last of them may be a line end. `WholeLines ts` : complete
  lines. `IsLine front line back` : in `front ++ line ++ back`, `line` is a line with the line end that it owns;
* `Reader.InLine opened r` : `r` passes over tokens of one line, and where `opened` holds over no line end when it
  succeeds. The readers of fields do (`Reader.inLine_fields`), and the one of line ends in the weaker sense;
* `Reader.oneLine_statement` : so an attempt at a statement passes over its first token and goes no further than
  the end of the line, whatever comes of it.
-/

namespace ThreeAddress

/-! ## One step of a cursor -/

namespace Cursor

theorem ahead_eq_take_append (c : Cursor) : c.ahead = c.ahead.take 1 ++ c.advance.ahead := by
  rw [advance, ← List.drop_one, List.take_append_drop]

theorem ahead_eq_cons {c : Cursor} (h : c.ahead ≠ []) : c.ahead = c.current :: c.advance.ahead := by
  unfold current advance
  cases hc : c.ahead with
  | nil => exact absurd hc h
  | cons t ts => rfl

theorem eq_current_of_mem_take {c : Cursor} {t : Token} (ht : t ∈ c.ahead.take 1) : t = c.current := by
  unfold current
  cases h : c.ahead with
  | nil =>
    rw [h] at ht
    cases ht
  | cons u us =>
    rw [h] at ht
    exact List.mem_singleton.1 ht

end Cursor

/-! ## Lines of tokens -/

def OneLine (part : List Token) : Prop := ∀ t ∈ part.dropLast, t.kind ≠ .newline

def WholeLines (ts : List Token) : Prop := ∀ t ∈ ts.getLast?, t.kind = .newline

/-- Only the last line of a text may lack its line end. -/
structure IsLine (front line back : List Token) : Prop where
  whole : WholeLines front
  oneLine : OneLine line
  closed : back = [] ∨ WholeLines line

/-- Neither a line end nor the end of the text. -/
def Token.isWord (t : Token) : Bool := t.kind ≠ .newline ∧ t.kind ≠ .endOfText

theorem Token.ne_newline_of_isWord {t : Token} (h : t.isWord = true) : t.kind ≠ .newline :=
  (of_decide_eq_true h).1

theorem oneLine_nil : OneLine [] := List.forall_mem_nil _

theorem oneLine_singleton (t : Token) : OneLine [t] := List.forall_mem_nil _

/-- Behind tokens without a line end the line goes on. -/
theorem OneLine.append {part rest : List Token} (hpart : ∀ t ∈ part, t.kind ≠ .newline) (hrest : OneLine rest) :
    OneLine (part ++ rest) := by
  intro t ht
  by_cases hnil : rest = []
  · rw [hnil, List.append_nil] at ht
    exact hpart t ((List.dropLast_sublist _).subset ht)
  · rw [List.dropLast_append_of_ne_nil hnil] at ht
    rcases List.mem_append.1 ht with ht | ht
    · exact hpart t ht
    · exact hrest t ht

/-- A line with a word in it starts with one. -/
theorem OneLine.head_ne_newline {line : List Token} (h : OneLine line) {t : Token} (ht : t ∈ line)
    (hword : t.isWord = true) : ∀ u ∈ line.head?, u.kind ≠ .newline := by
  intro u hu
  cases line with
  | nil => cases ht
  | cons v vs =>
    cases hu
    cases vs with
    | nil =>
      rw [← List.mem_singleton.1 ht]
      exact Token.ne_newline_of_isWord hword
    | cons w ws => exact h u List.mem_cons_self

theorem wholeLines_nil : WholeLines [] := fun _ ht => by cases ht

theorem WholeLines.of_append {ts us : List Token} (h : WholeLines (ts ++ us)) : WholeLines us := by
  intro t ht
  refine h t ?_
  rw [List.getLast?_append, Option.mem_def.1 ht]
  rfl

/-- Tokens of one line that start in complete lines do not go beyond them. -/
theorem WholeLines.exists_append {front rest part ahead : List Token} (hfront : WholeLines front)
    (hne : front ≠ []) (hpart : OneLine part) (h : front ++ rest = part ++ ahead) :
    ∃ front', WholeLines front' ∧ ahead = front' ++ rest := by
  rcases List.append_eq_append_iff.1 h with ⟨more, rfl, hrest⟩ | ⟨front', rfl, hahead⟩
  · by_cases hmore : more = []
    · refine ⟨[], wholeLines_nil, ?_⟩
      rw [hrest, hmore, List.nil_append, List.nil_append]
    · have hlast : front.getLast hne ∈ (front ++ more).dropLast := by
        rw [List.dropLast_append_of_ne_nil hmore]
        exact List.mem_append_left _ (List.getLast_mem hne)
      exact absurd (hfront _ (List.getLast?_eq_some_getLast hne)) (hpart _ hlast)
  · exact ⟨front', hfront.of_append, hahead⟩

/-! ## Readers in one line -/

namespace Reader

variable {α β : Type}

/-- The tokens that a reader passes over are of one line, and where `opened` holds, this line goes on behind them if
the reader succeeds. -/
def InLine (opened : Prop) (r : Reader α) : Prop :=
  ∀ c : Cursor, ∃ part, c.ahead = part ++ (run r c).2.ahead ∧ OneLine part ∧
    (opened → ∀ a, (run r c).1 = .ok a → ∀ t ∈ part, t.kind ≠ .newline)

/-! ## One reader after another -/

variable {opened : Prop}

theorem InLine.pure (a : α) : InLine opened (pure a) := fun _ =>
  ⟨[], rfl, oneLine_nil, fun _ _ _ => List.forall_mem_nil _⟩

/-- Only a line that goes on can be read further. -/
theorem InLine.bind {r : Reader α} {f : α → Reader β} (hr : InLine True r) (hf : ∀ a, InLine opened (f a)) :
    InLine opened (r >>= f) := by
  intro c
  obtain ⟨part, hahead, hline, hok⟩ := hr c
  rw [run_bind]
  rcases hrun : run r c with ⟨e | a, d⟩
  · rw [hrun] at hahead
    exact ⟨part, hahead, hline, fun _ _ h => by cases h⟩
  · rw [hrun] at hahead hok
    obtain ⟨rest, hrest, hline', hok'⟩ := hf a d
    have hpart := hok trivial a rfl
    refine ⟨part ++ rest, ?_, hline'.append hpart, fun hopened b hb => ?_⟩
    · rw [hahead, hrest, List.append_assoc]
    · exact List.forall_mem_append.2 ⟨hpart, hok' hopened b hb⟩

theorem InLine.bind_pure {r : Reader α} (hr : InLine False r) (g : α → β) :
    InLine False (r >>= fun a => Pure.pure (g a)) := by
  intro c
  obtain ⟨part, hahead, hline, -⟩ := hr c
  refine ⟨part, ?_, hline, False.elim⟩
  rw [hahead, run_bind]
  rcases run r c with ⟨e | a, d⟩ <;> rfl

/-! ## Fields -/

theorem oneLine_take (ts : List Token) : OneLine (ts.take 1) := by
  cases ts with
  | nil => exact oneLine_nil
  | cons t ts => exact oneLine_singleton t

/-- A reader of one token at most, which no line end makes succeed. -/
theorem inLine_of_step {r : Reader α} (hstep : ∀ c, (run r c).2 = c ∨ (run r c).2 = c.advance)
    (hok : ∀ c a, (run r c).1 = .ok a → c.current.kind ≠ .newline) : InLine True r := by
  intro c
  rcases hstep c with h | h
  · rw [h]
    exact ⟨[], rfl, oneLine_nil, fun _ _ _ => List.forall_mem_nil _⟩
  · rw [h]
    refine ⟨c.ahead.take 1, c.ahead_eq_take_append, oneLine_take _, fun _ a ha t ht => ?_⟩
    rw [Cursor.eq_current_of_mem_take ht]
    exact hok c a ha

theorem inLine_field (f : Field) : InLine True (field f) := by
  refine inLine_of_step (fun c => ?_) fun c a ha => ?_
  · cases f with
    | word role =>
      simp only [field, word, run_bind, run_get]
      split
      · exact .inr rfl
      · exact .inl rfl
    | integer =>
      simp only [field, integer, run_bind, run_token]
      split
      · split
        · exact .inr rfl
        · exact .inr rfl
      · exact .inr rfl
  · have htake := (run_field_ok_iff (v := a.1) (s := a.2) (d := (run (field f) c).2)).1 (Prod.ext ha rfl)
    exact htake.1.ne_newline

theorem inLine_fields (last : Span) (fs : List Field) : InLine True (fields last fs) := by
  induction fs generalizing last with
  | nil => exact .pure _
  | cons f fs ih => exact (inLine_field f).bind fun _ => (ih _).bind fun _ => .pure _

/-! ## Statements -/

theorem inLine_endOfLine : InLine False endOfLine := by
  intro c
  simp only [endOfLine, run_bind, run_get]
  split
  · exact ⟨c.ahead.take 1, c.ahead_eq_take_append, oneLine_take _, False.elim⟩
  · exact ⟨[], rfl, oneLine_nil, False.elim⟩
  · exact ⟨[], rfl, oneLine_nil, False.elim⟩

/-- An attempt at a statement passes over its first token and stays in the line, whatever comes of it. -/
theorem oneLine_statement {c : Cursor} (hne : c.ahead ≠ []) (hline : c.current.kind ≠ .newline) :
    ∃ rest, c.ahead = c.current :: rest ++ (run statement c).2.ahead ∧ OneLine (c.current :: rest) := by
  have hcurrent : ∀ t ∈ [c.current], t.kind ≠ .newline := List.forall_mem_singleton.2 hline
  rw [statement, run_bind, run_token]
  dsimp only
  split
  · next k hk =>
    have hrest := (inLine_fields c.current.span k.fields).bind
      fun v => inLine_endOfLine.bind_pure fun _ => (⟨k.command v.1, c.current.span.merge v.2⟩ : Statement)
    obtain ⟨rest, hahead, hrestline, -⟩ := hrest c.advance
    refine ⟨rest, ?_, hrestline.append hcurrent⟩
    rw [Cursor.ahead_eq_cons hne, hahead]
    rfl
  · refine ⟨[], ?_, oneLine_singleton _⟩
    rw [Cursor.ahead_eq_cons hne]
    rfl

end Reader
end ThreeAddress
