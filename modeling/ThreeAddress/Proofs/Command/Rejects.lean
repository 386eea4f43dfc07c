import ThreeAddress.Proofs.Command.Language
import ThreeAddress.Proofs.Token.Place

/-!
# What the readers reject

A reader that fails has read the beginning of a line and points at the token behind it.

* `Cursor.tokens` : the tokens ahead with the end of the text;
* `Kind.BreaksLine ks k` : some line begins with `ks`, and no line, together with what ends it, begins with `ks` and
  `k`. There are three ways: `breaksLine_command`, `breaksLine_field` and `breaksLine_end`;
* `SyntaxFault.IsAt` : the token at which a reader fails;
* `Reader.run_field_error`, `Reader.run_fields_error`, `Reader.run_endOfLine_error` : what a fault says of the tokens,
  and put together from them `Reader.run_statement_error` : a statement fails at a token that breaks its line.
-/

namespace ThreeAddress
open Text

/-! ## Tokens ahead -/

namespace Cursor

def tokens (c : Cursor) : List Token := c.ahead ++ [⟨.endOfText, c.stop, c.stop⟩]

theorem exists_tokens_eq_cons (c : Cursor) : ∃ rest, c.tokens = c.current :: rest := by
  unfold tokens current
  cases c.ahead with
  | nil => exact ⟨[], rfl⟩
  | cons t ts => exact ⟨_, rfl⟩

theorem tokens_of_current {c : Cursor} (h : c.current.kind ≠ .endOfText) :
    c.tokens = c.current :: c.advance.tokens := by
  rw [tokens, ahead_of_current h]
  rfl

theorem tokens_ofText (text : String) : (ofText text).tokens = Token.ofText text := by
  have h := Scanner.tokens_eq_append_end text.toList 0
  rw [Nat.zero_add, utf8Length_toList] at h
  exact h.symm

end Cursor

/-! ## Fields -/

namespace Field

theorem Taken.length_eq {fs : List Field} {ks : List Kind} {vs : Values fs} (h : Taken fs ks vs) :
    ks.length = fs.length := by
  induction fs generalizing ks with
  | nil => rw [show ks = [] from h]; rfl
  | cons f fs ih =>
    obtain ⟨k, rest, rfl, -, hrest⟩ := h
    rw [List.length_cons, List.length_cons, ih hrest]

theorem Taken.append {fs gs : List Field} {ks ls : List Kind} {vs : Values fs} {ws : Values gs} (h : Taken fs ks vs)
    (h' : Taken gs ls ws) : ∃ us, Taken (fs ++ gs) (ks ++ ls) us := by
  induction fs generalizing ks with
  | nil =>
    rw [show ks = [] from h]
    exact ⟨ws, h'⟩
  | cons f fs ih =>
    obtain ⟨k, rest, rfl, hk, hrest⟩ := h
    obtain ⟨us, hus⟩ := ih hrest
    exact ⟨(vs.1, us), k, rest ++ ls, rfl, hk, hus⟩

/-- Each field takes the kind at its own place. -/
theorem Taken.exists_takes {done todo : List Field} {f : Field} {ks rest : List Kind} {k : Kind}
    {vs : Values (done ++ f :: todo)} (h : Taken (done ++ f :: todo) (ks ++ k :: rest) vs)
    (hlength : ks.length = done.length) : ∃ v, f.Takes k v := by
  induction done generalizing ks with
  | nil =>
    obtain rfl := List.length_eq_zero_iff.1 hlength
    obtain ⟨_, _, hks, hk, -⟩ := h
    cases hks
    exact ⟨_, hk⟩
  | cons g done ih =>
    cases ks with
    | nil => cases hlength
    | cons l ks =>
      obtain ⟨_, _, hks, -, hrest⟩ := h
      cases hks
      exact ih hrest (Nat.succ.inj hlength)

/-- There are words for every field. -/
theorem exists_taken (fs : List Field) : ∃ ks vs, Taken fs ks vs ∧ ∀ k ∈ ks, ∃ w, k.IsSpelled w := by
  induction fs with
  | nil => exact ⟨[], (), rfl, List.forall_mem_nil _⟩
  | cons f fs ih =>
    obtain ⟨ks, vs, hks, hall⟩ := ih
    cases f with
    | word role =>
      refine ⟨.identifier "x" :: ks, ("x", vs), ⟨_, _, rfl, rfl, hks⟩, List.forall_mem_cons.2 ⟨⟨['x'], ?_⟩, hall⟩⟩
      exact Kind.isSpelled_ofWord ['x'] (by decide) (by decide)
    | integer =>
      refine ⟨.integer "0" :: ks, (0, vs), ⟨_, _, rfl, ⟨"0", rfl, by decide⟩, hks⟩,
        List.forall_mem_cons.2 ⟨⟨['0'], ?_⟩, hall⟩⟩
      exact Kind.isSpelled_ofWord ['0'] (by decide) (by decide)

end Field

/-! ## Lines that cannot go on -/

namespace Kind

structure BreaksLine (ks : List Kind) (k : Kind) : Prop where
  goesOn : ∃ more c, Command.Says (ks ++ more) c ∧ ∀ l ∈ more, ∃ w, l.IsSpelled w
  stops : ∀ line c stop, Command.Says line c → stop = .newline ∨ stop = .endOfText → ¬ks ++ [k] <+: line ++ [stop]

theorem breaksLine_command {k : Kind} (h : ∀ keyword, k ≠ .keyword keyword) : BreaksLine [] k where
  goesOn := by
    refine ⟨[.keyword .reset], .reset, .reset, List.forall_mem_singleton.2 ⟨"reset".toList, ?_⟩⟩
    exact isSpelled_ofWord "reset".toList (by decide) (by decide)
  stops := by
    intro line c stop hsays hstop hpre
    obtain ⟨keyword, rest, vs, rfl, -, -⟩ := Command.says_iff.1 hsays
    exact h keyword (List.cons_prefix_cons.1 hpre).1

section Fields
variable {keyword : Keyword} {ks : List Kind} {k : Kind}

/-- The fields before are taken and the rest could be, but this one is not. -/
theorem breaksLine_field {done todo : List Field} {f : Field} (hfields : keyword.fields = done ++ f :: todo)
    {vs : Field.Values done} (htaken : Field.Taken done ks vs) (h : ∀ v, ¬f.Takes k v) :
    BreaksLine (.keyword keyword :: ks) k where
  goesOn := by
    obtain ⟨more, ws, hmore, hall⟩ := Field.exists_taken (f :: todo)
    have hline : ∃ us, Field.Taken (done ++ f :: todo) (ks ++ more) us := htaken.append hmore
    rw [← hfields] at hline
    obtain ⟨us, hus⟩ := hline
    exact ⟨more, keyword.command us, Command.says_iff.2 ⟨keyword, ks ++ more, us, rfl, hus, rfl⟩, hall⟩
  stops := by
    intro line c stop hsays hstop hpre
    obtain ⟨_, rest, us, rfl, hus, -⟩ := Command.says_iff.1 hsays
    obtain ⟨hkeyword, hfront⟩ := List.cons_prefix_cons.1 hpre
    cases hkeyword
    have hline : ∃ us, Field.Taken keyword.fields rest us := ⟨us, hus⟩
    rw [hfields] at hline
    obtain ⟨us, hus⟩ := hline
    have hdone := htaken.length_eq
    have hall := hus.length_eq
    rw [List.length_append, List.length_cons] at hall
    have hrest : ks ++ [k] <+: rest := by
      refine List.prefix_of_prefix_length_le hfront (List.prefix_append _ _) ?_
      rw [List.length_append, List.length_singleton]
      omega
    obtain ⟨more, rfl⟩ := hrest
    rw [List.append_assoc] at hus
    obtain ⟨v, hv⟩ := hus.exists_takes hdone
    exact h v hv

/-- All fields are taken, but the line does not end. -/
theorem breaksLine_end {vs : Field.Values keyword.fields} (htaken : Field.Taken keyword.fields ks vs)
    (hnewline : k ≠ .newline) (hend : k ≠ .endOfText) : BreaksLine (.keyword keyword :: ks) k where
  goesOn := by
    refine ⟨[], keyword.command vs, Command.says_iff.2 ⟨keyword, ks, vs, by simp, htaken, rfl⟩, ?_⟩
    exact List.forall_mem_nil _
  stops := by
    intro line c stop hsays hstop hpre
    obtain ⟨_, rest, us, rfl, hus, -⟩ := Command.says_iff.1 hsays
    obtain ⟨hkeyword, hfront⟩ := List.cons_prefix_cons.1 hpre
    cases hkeyword
    have hlength : (ks ++ [k]).length = (rest ++ [stop]).length := by
      rw [List.length_append, List.length_append, htaken.length_eq, hus.length_eq]
      rfl
    obtain ⟨-, hk⟩ := List.append_inj' (hfront.eq_of_length hlength) rfl
    cases hk
    exact hstop.elim hnewline hend

end Fields
end Kind

/-! ## Faults -/

/-- The token is not what is called for, or it is an integer out of range. -/
inductive SyntaxFault.IsAt : SyntaxFault → Token → Prop
  | unexpected (what : Expected) (t : Token) : IsAt ⟨.unexpected what t.kind, t.span⟩ t
  | outOfRange {t : Token} {digits : String} (h : t.kind = .integer digits) : IsAt ⟨.outOfRange, t.span⟩ t

theorem SyntaxFault.IsAt.span_eq {f : SyntaxFault} {t : Token} (h : f.IsAt t) : f.span = t.span := by
  cases h <;> rfl

namespace Reader

theorem run_field_error {g : Field} {c d : Cursor} {f : SyntaxFault} (h : run (field g) c = (.error f, d)) :
    f.IsAt c.current ∧ ∀ v, ¬g.Takes c.current.kind v := by
  constructor
  · cases g with
    | word role =>
      simp only [field, word, run_bind, run_get] at h
      cases hk : c.current.kind.text? with
      | none =>
        rw [hk] at h
        cases h
        exact .unexpected role c.current
      | some text =>
        rw [hk] at h
        cases h
    | integer =>
      simp only [field, integer, run_bind, run_token] at h
      split at h
      · next digits hk =>
        split at h
        · cases h
        · cases h
          exact .outOfRange hk
      · cases h
        exact .unexpected .integer c.current
  · intro v hv
    have hok := run_field_ok_iff.2 ⟨hv, rfl, rfl⟩
    rw [h] at hok
    cases hok

theorem run_fields_error {last : Span} {fs : List Field} {c d : Cursor} {f : SyntaxFault}
    (h : run (fields last fs) c = (.error f, d)) :
    ∃ done g todo part vs t rest, fs = done ++ g :: todo ∧ Field.Taken done (part.map (·.kind)) vs ∧
      c.tokens = part ++ t :: rest ∧ f.span = t.span ∧ ∀ v, ¬g.Takes t.kind v := by
  induction fs generalizing last c with
  | nil => cases h
  | cons g fs ih =>
    rw [fields, run_bind] at h
    rcases hg : run (field g) c with ⟨e | ⟨v, s⟩, c'⟩
    · rw [hg] at h
      cases h
      obtain ⟨hat, hnot⟩ := run_field_error hg
      obtain ⟨rest, hrest⟩ := c.exists_tokens_eq_cons
      exact ⟨[], g, fs, [], (), c.current, rest, rfl, rfl, hrest, hat.span_eq, hnot⟩
    · rw [hg] at h
      obtain ⟨htake, rfl, rfl⟩ := run_field_ok_iff.1 hg
      dsimp only at h
      rw [run_bind] at h
      rcases hfs : run (fields c.current.span fs) c.advance with ⟨e | ⟨ws, s⟩, e'⟩
      · rw [hfs] at h
        cases h
        obtain ⟨done, g', todo, part, vs, t, rest, rfl, htaken, htokens, hspan, hnot⟩ := ih hfs
        refine ⟨g :: done, g', todo, c.current :: part, (v, vs), t, rest, rfl, ⟨_, _, rfl, htake, htaken⟩, ?_,
          hspan, hnot⟩
        rw [Cursor.tokens_of_current htake.ne_endOfText, htokens]
        rfl
      · rw [hfs] at h
        cases h

theorem run_endOfLine_error {c d : Cursor} {f : SyntaxFault} (h : run endOfLine c = (.error f, d)) :
    f.IsAt c.current ∧ c.current.kind ≠ .newline ∧ c.current.kind ≠ .endOfText := by
  simp only [endOfLine, run_bind, run_get] at h
  split at h
  · cases h
  · cases h
  · next hnewline hend =>
    cases h
    exact ⟨.unexpected .endOfLine c.current, hnewline, hend⟩

/-- **A statement fails at the token that breaks its line.** -/
theorem run_statement_error {c d : Cursor} {f : SyntaxFault} (h : run statement c = (.error f, d)) :
    ∃ part t rest, c.tokens = part ++ t :: rest ∧ f.span = t.span ∧
      Kind.BreaksLine (part.map (·.kind)) t.kind := by
  rw [statement, run_bind, run_token] at h
  dsimp only at h
  split at h
  · next keyword hkeyword =>
    have htokens := c.tokens_of_current (by rw [hkeyword]; exact Kind.noConfusion)
    rw [run_bind] at h
    rcases hfs : run (fields c.current.span keyword.fields) c.advance with ⟨e | ⟨vs, last⟩, e'⟩
    · rw [hfs] at h
      cases h
      obtain ⟨done, g, todo, part, vs, t, rest, hfields, htaken, hpart, hspan, hnot⟩ := run_fields_error hfs
      refine ⟨c.current :: part, t, rest, by rw [htokens, hpart]; rfl, hspan, ?_⟩
      rw [List.map_cons, hkeyword]
      exact Kind.breaksLine_field hfields htaken hnot
    · rw [hfs] at h
      dsimp only at h
      rw [run_bind] at h
      rcases hend : run endOfLine e' with ⟨e | ⟨⟩, e''⟩
      · rw [hend] at h
        cases h
        obtain ⟨hat, hnewline, hstop⟩ := run_endOfLine_error hend
        obtain ⟨part, hpart, hstop', htaken, -⟩ := run_fields_ok_iff.1 hfs
        obtain ⟨rest, hrest⟩ := e'.exists_tokens_eq_cons
        refine ⟨c.current :: part, e'.current, rest, ?_, hat.span_eq, ?_⟩
        · rw [htokens, Cursor.tokens, hpart, hstop', List.append_assoc, ← Cursor.tokens, hrest]
          rfl
        · rw [List.map_cons, hkeyword]
          exact Kind.breaksLine_end htaken hnewline hstop
      · rw [hend] at h
        cases h
  · next hnot =>
    cases h
    obtain ⟨rest, hrest⟩ := c.exists_tokens_eq_cons
    exact ⟨[], c.current, rest, hrest, rfl, Kind.breaksLine_command hnot⟩

end Reader
end ThreeAddress
