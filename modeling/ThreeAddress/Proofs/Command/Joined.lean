import ThreeAddress.Proofs.Command.Moved
import ThreeAddress.Proofs.Command.Place

/-!
# Texts joined by a line end

A line end joins two texts so that each is read as if it were alone: no statement stands on both sides, and where the
first text fails the second one is not looked at. Only a fault at the end of the first text changes: a line end is there.

* `Cursor.followedBy c d` : what is ahead of `c`, a line end, and what is ahead of `d`. The cursor before two joined
  texts is such a one, with the second text moved (`Cursor.ofText_append_newline`);
* `Cursor.TurnsFault c f g` : what becomes of a fault behind `c` when a line end follows;
* `Reader.TurnsFaults`, `Reader.GoesOn` : readers to which a line end behind makes no other difference. Those of fields
  are such (`Reader.goesOn_fields`), and what statements and scripts do follows (`Reader.script_followedBy`);
* `Statement.ofText?_append_newline` : what two joined texts are read as.
-/

namespace ThreeAddress
open Text

/-! ## Cursors -/

namespace Cursor

/-- A line end of one byte stands where `c` ends. -/
def followedBy (c d : Cursor) : Cursor := ⟨c.ahead ++ ⟨.newline, c.stop, c.stop + 1⟩ :: d.ahead, d.stop⟩

variable {c : Cursor}

theorem current_followedBy (h : c.ahead ≠ []) (d : Cursor) : (c.followedBy d).current = c.current := by
  unfold current followedBy
  cases hc : c.ahead with
  | nil => exact absurd hc h
  | cons t ts => rfl

theorem advance_followedBy (h : c.ahead ≠ []) (d : Cursor) : (c.followedBy d).advance = c.advance.followedBy d := by
  unfold advance followedBy
  rw [List.tail_append_of_ne_nil h]

theorem current_followedBy_of_nil (h : c.ahead = []) (d : Cursor) :
    (c.followedBy d).current = ⟨.newline, c.stop, c.stop + 1⟩ := by
  unfold current followedBy
  rw [h]
  rfl

theorem advance_followedBy_of_nil (h : c.ahead = []) (d : Cursor) : (c.followedBy d).advance = d := by
  unfold advance followedBy
  rw [h]
  rfl

/-- Tokens that are passed over in `c` are passed over before the line end. -/
theorem ahead_followedBy {e : Cursor} {part : List Token} (hahead : c.ahead = part ++ e.ahead)
    (hstop : c.stop = e.stop) (d : Cursor) : (c.followedBy d).ahead = part ++ (e.followedBy d).ahead := by
  unfold followedBy
  rw [hahead, hstop, List.append_assoc]

theorem skipNewlines_followedBy (h : c.skipNewlines.ahead ≠ []) (d : Cursor) :
    (c.followedBy d).skipNewlines = c.skipNewlines.followedBy d := by
  have hdrop : c.ahead.dropWhile (·.kind = .newline) ≠ [] := h
  unfold skipNewlines followedBy
  rw [List.dropWhile_append, if_neg (by simpa using hdrop)]

theorem skipNewlines_followedBy_ne_nil (h : c.skipNewlines.ahead ≠ []) (d : Cursor) :
    (c.followedBy d).skipNewlines.ahead ≠ [] := by
  rw [skipNewlines_followedBy h]
  exact List.append_ne_nil_of_left_ne_nil h _

/-- When nothing but line ends is left of `c`, reading goes on in `d`. -/
theorem skipNewlines_followedBy_of_nil (h : c.skipNewlines.ahead = []) (d : Cursor) :
    (c.followedBy d).skipNewlines = d.skipNewlines := by
  have hdrop : c.ahead.dropWhile (·.kind = .newline) = [] := h
  unfold skipNewlines followedBy
  rw [List.dropWhile_append, if_pos (by rw [hdrop]; rfl)]
  rfl

theorem current_of_nil (h : c.ahead = []) : c.current = ⟨.endOfText, c.stop, c.stop⟩ := by
  rw [current, h]
  rfl

theorem current_mem_ahead (h : c.ahead ≠ []) : c.current ∈ c.ahead := by
  rw [ahead_eq_cons h]
  exact List.mem_cons_self

theorem ofText_append_newline (text₁ text₂ : String) :
    ofText (text₁ ++ "\n" ++ text₂) =
      (ofText text₁).followedBy ((ofText text₂).move (· + (text₁.utf8ByteSize + 1))) := by
  have htext : (text₁ ++ "\n" ++ text₂).toList = text₁.toList ++ '\n' :: text₂.toList := by simp
  have hmoved : (Scanner.mk text₂.toList (0 + utf8Length text₁.toList + 1)).tokens.dropLast =
      (ofText text₂).ahead.map (Token.move (· + (text₁.utf8ByteSize + 1))) := by
    rw [Nat.add_assoc, utf8Length_toList]
    exact (Scanner.tiled _ _).unique ((tiled_ofText text₂).shift _)
  have hstop : (text₁ ++ "\n" ++ text₂).utf8ByteSize = text₂.utf8ByteSize + (text₁.utf8ByteSize + 1) := by
    rw [String.utf8ByteSize_append, String.utf8ByteSize_append, Nat.add_comm]
    rfl
  unfold ofText followedBy move at *
  rw [Cursor.mk.injEq]
  refine ⟨?_, hstop⟩
  rw [Token.ofText, Scanner.ofText, htext, Scanner.tokens_append_newline,
    List.dropLast_append_of_ne_nil (List.cons_ne_nil _ _), List.dropLast_cons_of_ne_nil (Scanner.tokens_ne_nil _),
    hmoved, Nat.zero_add, utf8Length_toList]
  rfl

end Cursor

/-! ## Faults -/

/-- A fault of a reader at `c`, and the fault that it turns to when a line end follows `c`. -/
inductive Cursor.TurnsFault (c : Cursor) : SyntaxFault → SyntaxFault → Prop
  | inside {f : SyntaxFault} {t : Token} (ht : t ∈ c.ahead) (h : f.IsAt t) : TurnsFault c f f
  | atEnd (what : Expected) :
    TurnsFault c ⟨.unexpected what .endOfText, c.stop, c.stop⟩ ⟨.unexpected what .newline, c.stop, c.stop + 1⟩

theorem Cursor.TurnsFault.of_leadsTo {c e : Cursor} {f g : SyntaxFault} (h : e.TurnsFault f g) (he : c.LeadsTo e) :
    c.TurnsFault f g := by
  cases h with
  | inside ht h => exact .inside (he.1.subset ht) h
  | atEnd what =>
    rw [he.2]
    exact .atEnd what

/-! ## Readers before a line end -/

namespace Reader

variable {α β : Type}

/-- Where `r` fails, it fails with a line end behind as well. -/
def TurnsFaults (r : Reader α) : Prop :=
  ∀ (c d e : Cursor) (f : SyntaxFault), run r c = (.error f, e) →
    ∃ f' e', run r (c.followedBy d) = (.error f', e') ∧ c.TurnsFault f f'

/-- What `r` gives stays, and it stops before the line end. -/
structure GoesOn (r : Reader α) : Prop where
  movesForward : MovesForward r
  ok : ∀ (c d e : Cursor) (a : α), run r c = (.ok a, e) → run r (c.followedBy d) = (.ok a, e.followedBy d)
  turnsFaults : TurnsFaults r

theorem TurnsFaults.pure (a : α) : TurnsFaults (pure a) := fun _ _ _ _ h => by cases h

theorem TurnsFaults.bind {r : Reader α} {k : α → Reader β} (hr : GoesOn r) (hk : ∀ a, TurnsFaults (k a)) :
    TurnsFaults (r >>= k) := by
  intro c d e f h
  rw [run_bind] at h ⊢
  have hforward := hr.movesForward c
  rcases hrun : run r c with ⟨g | a, b⟩
  · rw [hrun] at h
    cases h
    obtain ⟨f', e', hrun', hturns⟩ := hr.turnsFaults c d e f hrun
    rw [hrun']
    exact ⟨f', e', rfl, hturns⟩
  · rw [hrun] at h hforward
    rw [hr.ok c d b a hrun]
    obtain ⟨f', e', hrun', hturns⟩ := hk a b d e f h
    exact ⟨f', e', hrun', hturns.of_leadsTo hforward⟩

theorem TurnsFaults.bind_pure {r : Reader α} (hr : TurnsFaults r) (v : α → β) :
    TurnsFaults (r >>= fun a => Pure.pure (v a)) := by
  intro c d e f h
  rw [run_bind] at h ⊢
  rcases hrun : run r c with ⟨g | a, b⟩
  · rw [hrun] at h
    cases h
    obtain ⟨f', e', hrun', hturns⟩ := hr c d e f hrun
    rw [hrun']
    exact ⟨f', e', rfl, hturns⟩
  · rw [hrun] at h
    cases h

end Reader

/-! ## Fields -/

def Field.expected : Field → Expected
  | word role => role
  | integer => .integer

namespace Reader

variable {c e : Cursor} {f : SyntaxFault}

theorem run_field_of_text?_eq_none {g : Field} (h : c.current.kind.text? = none) :
    (run (field g) c).1 = .error ⟨.unexpected g.expected c.current.kind, c.current.span⟩ := by
  cases g with
  | word role =>
    simp only [field, word, run_bind, run_get, h]
    rfl
  | integer =>
    simp only [field, integer, run_bind, run_token]
    rcases Kind.text?_eq_none_iff.1 h with hk | hk <;> rw [hk] <;> rfl

theorem run_field_congr {g : Field} {d : Cursor} (h : c.current = d.current) :
    (run (field g) c).1 = (run (field g) d).1 := by
  cases g with
  | word role =>
    simp only [field, word, run_bind, run_get, h]
    cases d.current.kind.text? <;> rfl
  | integer =>
    simp only [field, integer, run_bind, run_token, h]
    split
    · split <;> rfl
    · rfl

/-- A field that is missing at the end of the text is missing at the line end. -/
theorem turnsFaults_field (g : Field) : TurnsFaults (field g) := by
  intro c d e f h
  have hfault : (run (field g) c).1 = .error f := by rw [h]
  by_cases hnil : c.ahead = []
  · have hcurrent := Cursor.current_of_nil hnil
    have hnewline := Cursor.current_followedBy_of_nil hnil d
    rw [run_field_of_text?_eq_none (by rw [hcurrent]; rfl), hcurrent] at hfault
    cases hfault
    refine ⟨_, _, Prod.ext ?_ rfl, .atEnd g.expected⟩
    rw [run_field_of_text?_eq_none (by rw [hnewline]; rfl), hnewline]
  · rw [← run_field_congr (Cursor.current_followedBy hnil d)] at hfault
    exact ⟨f, _, Prod.ext hfault rfl, .inside (Cursor.current_mem_ahead hnil) (run_field_error h).1⟩

theorem goesOn_field (g : Field) : GoesOn (field g) where
  movesForward := movesForward_field g
  ok := by
    rintro c d e ⟨v, s⟩ h
    obtain ⟨htake, rfl, rfl⟩ := run_field_ok_iff.1 h
    have hne : c.ahead ≠ [] := by
      rw [Cursor.ahead_of_current htake.ne_endOfText]
      exact List.cons_ne_nil _ _
    have hcurrent := Cursor.current_followedBy hne d
    exact run_field_ok_iff.2 ⟨by rwa [hcurrent], by rw [hcurrent], (Cursor.advance_followedBy hne d).symm⟩
  turnsFaults := turnsFaults_field g

theorem goesOn_fields (last : Span) (fs : List Field) : GoesOn (fields last fs) where
  movesForward := movesForward_fields last fs
  ok := by
    rintro c d e ⟨vs, s⟩ h
    obtain ⟨part, hahead, hstop, htaken, hspan⟩ := run_fields_ok_iff.1 h
    exact run_fields_ok_iff.2 ⟨part, Cursor.ahead_followedBy hahead hstop d, rfl, htaken, hspan⟩
  turnsFaults := by
    induction fs generalizing last with
    | nil => exact .pure _
    | cons g fs ih => exact .bind (goesOn_field g) fun a => (ih a.2).bind_pure _

/-! ## Statements -/

/-- A line that ends with the text ends at the line end. -/
theorem endsLine_followedBy (h : EndsLine c e) (d : Cursor) :
    ∃ e', EndsLine (c.followedBy d) e' ∧ e'.skipNewlines = (e.followedBy d).skipNewlines := by
  by_cases hnil : c.ahead = []
  · have hnewline : (c.followedBy d).current.kind = .newline := by rw [Cursor.current_followedBy_of_nil hnil]
    refine ⟨_, .inl ⟨hnewline, rfl⟩, ?_⟩
    obtain ⟨hk, -⟩ | ⟨-, rfl⟩ := h
    · rw [Cursor.current_of_nil hnil] at hk
      cases hk
    · have hskip : e.skipNewlines.ahead = [] := by rw [Cursor.skipNewlines_of_nil hnil, hnil]
      rw [Cursor.advance_followedBy_of_nil hnil, Cursor.skipNewlines_followedBy_of_nil hskip]
  · have hcurrent := Cursor.current_followedBy hnil d
    obtain ⟨hk, rfl⟩ | ⟨hk, rfl⟩ := h
    · exact ⟨_, .inl ⟨by rw [hcurrent, hk], rfl⟩, by rw [Cursor.advance_followedBy hnil]⟩
    · exact ⟨_, .inr ⟨by rw [hcurrent, hk], rfl⟩, rfl⟩

theorem turnsFaults_endOfLine : TurnsFaults endOfLine := by
  intro c d e f h
  obtain ⟨hat, hnewline, hend⟩ := run_endOfLine_error h
  have hne : c.ahead ≠ [] := fun hnil => hend (by rw [Cursor.current_of_nil hnil])
  have hcurrent := Cursor.current_followedBy hne d
  simp only [endOfLine, run_bind, run_get, hcurrent] at h ⊢
  cases h
  exact ⟨_, _, rfl, .inside (Cursor.current_mem_ahead hne) hat⟩

/-- A statement is read from the tokens of its line, and behind it lie the same words. -/
theorem run_statement_followedBy_ok {s : Statement} (h : run statement c = (.ok s, e)) (d : Cursor) :
    ∃ e', run statement (c.followedBy d) = (.ok s, e') ∧ e'.skipNewlines = (e.followedBy d).skipNewlines := by
  obtain ⟨part, b, hread, hahead, hstop, hends⟩ := run_statement_ok_iff.1 h
  obtain ⟨e', hends', hskip⟩ := endsLine_followedBy hends d
  have hahead' := Cursor.ahead_followedBy hahead hstop d
  exact ⟨e', run_statement_ok_iff.2 ⟨part, b.followedBy d, hread, hahead', rfl, hends'⟩, hskip⟩

theorem run_statement_followedBy_error (hne : c.ahead ≠ []) (h : run statement c = (.error f, e)) (d : Cursor) :
    ∃ f' e', run statement (c.followedBy d) = (.error f', e') ∧ c.TurnsFault f f' := by
  rw [statement, run_bind, run_token] at h ⊢
  rw [Cursor.current_followedBy hne, Cursor.advance_followedBy hne]
  dsimp only at h ⊢
  split at h
  · next keyword _ =>
    have hrest := TurnsFaults.bind (goesOn_fields c.current.span keyword.fields) fun a =>
      turnsFaults_endOfLine.bind_pure fun _ => Statement.mk (keyword.command a.1) (c.current.span.merge a.2)
    obtain ⟨f', e', hrun, hturns⟩ := hrest c.advance d e f h
    exact ⟨f', e', hrun, hturns.of_leadsTo c.leadsTo_advance⟩
  · cases h
    exact ⟨_, _, rfl, .inside (Cursor.current_mem_ahead hne) (.unexpected .command c.current)⟩

/-! ## Scripts -/

/-- Line ends in front do not matter. -/
theorem script_congr {d : Cursor} (h : c.skipNewlines = d.skipNewlines) : script c = script d := by
  by_cases hnil : d.skipNewlines.ahead = []
  · rw [script_of_nil (by rwa [h]), script_of_nil hnil, h]
  · rcases hs : run statement d.skipNewlines with ⟨f | s, b⟩
    · rw [script_of_error (by rwa [h]) (by rwa [h]), script_of_error hnil hs]
    · rw [script_of_ok (by rwa [h]) (by rwa [h]), script_of_ok hnil hs]

/-- **A line end joins two scripts.** -/
theorem script_followedBy (c d : Cursor) :
    (∀ ss, (script c).1 = .ok ss → (script (c.followedBy d)).1 = (script d).1.map (ss ++ ·)) ∧
    ∀ f, (script c).1 = .error f → ∃ g, (script (c.followedBy d)).1 = .error g ∧ c.TurnsFault f g := by
  induction c using script_induction with
  | nil c hnil =>
    rw [script_of_nil hnil, script_congr (Cursor.skipNewlines_followedBy_of_nil hnil d)]
    refine ⟨fun ss hss => ?_, fun f hf => by cases hf⟩
    cases hss
    cases (script d).1 <;> rfl
  | error c e f hne hs =>
    rw [script_of_error hne hs]
    refine ⟨fun _ hss => (by cases hss), fun g hg => ?_⟩
    cases hg
    obtain ⟨f', e', hrun, hturns⟩ := run_statement_followedBy_error hne hs d
    rw [← Cursor.skipNewlines_followedBy hne] at hrun
    rw [script_of_error (Cursor.skipNewlines_followedBy_ne_nil hne d) hrun]
    exact ⟨f', rfl, hturns.of_leadsTo c.leadsTo_skipNewlines⟩
  | ok c e s hne hs ih =>
    obtain ⟨e', hrun, hahead⟩ := run_statement_followedBy_ok hs d
    rw [← Cursor.skipNewlines_followedBy hne] at hrun
    have hforward := c.leadsTo_skipNewlines.trans (leadsTo_of_run hs)
    rw [script_of_ok hne hs, script_of_ok (Cursor.skipNewlines_followedBy_ne_nil hne d) hrun, script_congr hahead]
    obtain ⟨hok, herror⟩ := ih
    cases he : (script e).1 with
    | ok ss =>
      refine ⟨fun ss' hss' => ?_, fun f hf => by cases hf⟩
      cases hss'
      rw [hok ss he]
      cases (script d).1 <;> rfl
    | error f =>
      refine ⟨fun _ hss => (by cases hss), fun f' hf' => ?_⟩
      cases hf'
      obtain ⟨g, hg, hturns⟩ := herror f he
      rw [hg]
      exact ⟨g, rfl, hturns.of_leadsTo hforward⟩

end Reader

/-! ## Whole texts -/

namespace Statement

/-- **Two texts joined by a line end are read one after the other.** When the first one is read, the second one decides:
its statements follow those of the first one, or its fault stands, both further on. When the first one fails, its fault
stands, but a fault at the end of the first text is one at the line end. -/
theorem ofText?_append_newline (text₁ text₂ : String) :
    (∀ ss, ofText? text₁ = .ok ss →
      ofText? (text₁ ++ "\n" ++ text₂) =
        match ofText? text₂ with
        | .ok ss' => .ok (ss ++ ss'.map (move (· + (text₁.utf8ByteSize + 1))))
        | .error f => .error (f.move (· + (text₁.utf8ByteSize + 1)))) ∧
    ∀ f, ofText? text₁ = .error f →
      ∃ g, ofText? (text₁ ++ "\n" ++ text₂) = .error g ∧
        ∃ t ∈ Token.ofText text₁, f.IsAt t ∧ (t.kind ≠ .endOfText → g = f) ∧
          (t.kind = .endOfText → ∃ what, f.mismatch = .unexpected what .endOfText ∧
            g = ⟨.unexpected what .newline, text₁.utf8ByteSize, text₁.utf8ByteSize + 1⟩) := by
  have hmonotone : Monotone (· + (text₁.utf8ByteSize + 1)) := fun _ _ h => Nat.add_le_add_right h _
  have hjoined := Reader.script_followedBy (.ofText text₁) ((Cursor.ofText text₂).move (· + (text₁.utf8ByteSize + 1)))
  rw [← Cursor.ofText_append_newline, Reader.script_move hmonotone] at hjoined
  refine ⟨fun ss hss => ?_, fun f hf => ?_⟩
  · refine (hjoined.1 ss hss).trans ?_
    show ((((ofText? text₂).map _).mapError _).map (ss ++ ·)) = _
    cases ofText? text₂ <;> rfl
  · obtain ⟨g, hg, hturns⟩ := hjoined.2 f hf
    refine ⟨g, hg, ?_⟩
    rw [← Cursor.tokens_ofText]
    cases hturns with
    | inside ht h =>
      have hplain := Cursor.plain_ofText text₁ _ ht
      exact ⟨_, List.mem_append_left _ ht, h, fun _ => rfl, fun hend => absurd hend hplain⟩
    | atEnd what =>
      exact ⟨_, List.mem_append_right _ (List.mem_singleton_self _), .unexpected what ⟨.endOfText, _⟩,
        fun hne => absurd rfl hne, fun _ => ⟨what, rfl, rfl⟩⟩

/-- A comment ends with the first text, whose last letter has two bytes; and an operation that is cut off is one that
ends its line. -/
theorem ofText?_append_newline_cut_off :
    let whole := "lookup \u00e9# x"
    let part := "emit + x"
    let f : SyntaxFault := ⟨.unexpected .operandOrBlank .endOfText, 8, 8⟩
    (ofText? whole = .ok [⟨.lookup "\u00e9", 0, 9⟩] ∧ ofText? (whole ++ "\n" ++ part) = .error (f.move (· + 13))) ∧
    (ofText? part = .error f ∧
      ofText? (part ++ "\n" ++ whole) = .error ⟨.unexpected .operandOrBlank .newline, 8, 9⟩) := by
  intro whole part f
  have hwhole : ofText? whole = .ok [⟨.lookup "\u00e9", 0, 9⟩] := by decide +kernel
  have hpart : ofText? part = .error f := by decide +kernel
  refine ⟨⟨hwhole, ?_⟩, hpart, ?_⟩
  · have h := (ofText?_append_newline whole part).1 _ hwhole
    rw [hpart] at h
    exact h
  · obtain ⟨g, hg, t, -, hat, -, hend⟩ := (ofText?_append_newline part whole).2 f hpart
    have hk : t.kind = .endOfText := by
      generalize hf : f = f' at hat
      cases hat with
      | unexpected what t => exact (Mismatch.unexpected.inj (congrArg (·.mismatch) hf)).2.symm
      | outOfRange => cases congrArg (·.mismatch) hf
    obtain ⟨what, hwhat, rfl⟩ := hend hk
    cases hwhat
    exact hg

end Statement
end ThreeAddress
