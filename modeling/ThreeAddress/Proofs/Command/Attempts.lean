import ThreeAddress.Proofs.Command.OneLine
import ThreeAddress.Text.Class

/-!
# The attempts of a call

A call of `Reader.script` tries to read a statement at one cursor after another. Everything below is by
`Reader.script_induction`, along these attempts.

* `Reader.traced` : a call together with its attempts. It gives what the call gives (`Reader.fst_traced`);
* `Reader.oneLine_of_mem_attempts` : every attempt passes over a token and stays in one line;
* `Reader.mem_attempts_or_ahead` : so no attempt crosses the end of a line, and a line that lies ahead of a call is
  either where one of its attempts starts or still ahead of the next call.
-/

namespace ThreeAddress
open Text

namespace Cursor

theorem current_skipNewlines_ne (c : Cursor) : c.skipNewlines.current.kind ≠ .newline := by
  have hends : EndsRun (fun t : Token => t.kind = .newline) c.skipNewlines.ahead := endsRun_dropWhile _ c.ahead
  unfold current
  cases h : c.skipNewlines.ahead with
  | nil => exact Kind.noConfusion
  | cons t ts =>
    have ht := hends t (by rw [h]; rfl)
    exact of_decide_eq_false ht

/-- Line ends in front belong to complete lines. -/
theorem ahead_skipNewlines {c : Cursor} {front rest : List Token} (hfront : WholeLines front)
    (hrest : EndsRun (fun t : Token => t.kind = .newline) rest) (h : c.ahead = front ++ rest) :
    ∃ front', WholeLines front' ∧ c.skipNewlines.ahead = front' ++ rest := by
  refine ⟨front.dropWhile (·.kind = .newline), ?_, ?_⟩
  · rw [← List.takeWhile_append_dropWhile (p := (·.kind = .newline)) (l := front)] at hfront
    exact hfront.of_append
  · rw [skipNewlines, h]
    exact dropWhile_append_of_endsRun hrest front

end Cursor

namespace Reader

/-! ## Recording the attempts -/

/-- `script`, and the cursors at which it tries to read a statement. -/
def traced (c : Cursor) : (Except SyntaxFault (List Statement) × Cursor) × List Cursor :=
  let c' := c.skipNewlines
  if _ : c'.ahead = [] then ((.ok [], c'), [])
  else
    match run statement c', length_statement_lt (c := c') ‹_› with
    | (.error f, d), _ => ((.error f, d), [c'])
    | (.ok s, d), _ =>
      match traced d with
      | ((.ok ss, e), cs) => ((.ok (s :: ss), e), c' :: cs)
      | ((.error f, e), cs) => ((.error f, e), c' :: cs)
termination_by c.ahead.length
decreasing_by
  rename_i h
  exact Nat.lt_of_lt_of_le h c.leadsTo_skipNewlines.length_le

def attempts (c : Cursor) : List Cursor := (traced c).2

section Equations

variable {c d : Cursor}

theorem traced_of_nil (h : c.skipNewlines.ahead = []) : traced c = ((.ok [], c.skipNewlines), []) := by
  rw [traced, dif_pos h]

theorem traced_of_error {f : SyntaxFault} (h : c.skipNewlines.ahead ≠ [])
    (hs : run statement c.skipNewlines = (.error f, d)) : traced c = ((.error f, d), [c.skipNewlines]) := by
  rw [traced, dif_neg h]
  split
  · next heq _ =>
    rw [hs] at heq
    cases heq
    rfl
  · next heq _ =>
    rw [hs] at heq
    cases heq

theorem traced_of_ok {s : Statement} (h : c.skipNewlines.ahead ≠ [])
    (hs : run statement c.skipNewlines = (.ok s, d)) :
    traced c = (((traced d).1.1.map (s :: ·), (traced d).1.2), c.skipNewlines :: attempts d) := by
  rw [traced, dif_neg h]
  split
  · next heq _ =>
    rw [hs] at heq
    cases heq
  · next heq _ =>
    rw [hs] at heq
    cases heq
    rw [attempts]
    rcases traced d with ⟨⟨_ | ss, e⟩, cs⟩ <;> rfl

theorem attempts_of_nil (h : c.skipNewlines.ahead = []) : attempts c = [] := by
  rw [attempts, traced_of_nil h]

theorem attempts_of_error {f : SyntaxFault} (h : c.skipNewlines.ahead ≠ [])
    (hs : run statement c.skipNewlines = (.error f, d)) : attempts c = [c.skipNewlines] := by
  rw [attempts, traced_of_error h hs]

theorem attempts_of_ok {s : Statement} (h : c.skipNewlines.ahead ≠ [])
    (hs : run statement c.skipNewlines = (.ok s, d)) : attempts c = c.skipNewlines :: attempts d := by
  rw [attempts, traced_of_ok h hs]

end Equations

/-- Recording changes nothing. -/
theorem fst_traced (c : Cursor) : (traced c).1 = script c := by
  induction c using script_induction with
  | nil c h => rw [traced_of_nil h, script_of_nil h]
  | error c d f h hs => rw [traced_of_error h hs, script_of_error h hs]
  | ok c d s h hs ih => rw [traced_of_ok h hs, script_of_ok h hs, ← ih]

/-! ## No attempt crosses a line end -/

theorem exists_eq_skipNewlines_of_mem_attempts {c s : Cursor} (hs : s ∈ attempts c) :
    ∃ d : Cursor, s = d.skipNewlines ∧ s.ahead ≠ [] := by
  induction c using script_induction with
  | nil c h =>
    rw [attempts_of_nil h] at hs
    cases hs
  | error c d f h hrun =>
    rw [attempts_of_error h hrun, List.mem_singleton] at hs
    exact ⟨c, hs, hs ▸ h⟩
  | ok c d t h hrun ih =>
    rw [attempts_of_ok h hrun] at hs
    rcases List.mem_cons.1 hs with rfl | hs
    · exact ⟨c, rfl, h⟩
    · exact ih hs

/-- An attempt passes over tokens of one line, and over one at least. -/
theorem oneLine_of_mem_attempts {c s : Cursor} (hs : s ∈ attempts c) :
    ∃ part, s.ahead = part ++ (run statement s).2.ahead ∧ part ≠ [] ∧ OneLine part := by
  obtain ⟨d, rfl, hne⟩ := exists_eq_skipNewlines_of_mem_attempts hs
  obtain ⟨rest, hahead, hline⟩ := oneLine_statement hne d.current_skipNewlines_ne
  exact ⟨_, hahead, List.cons_ne_nil _ _, hline⟩

section Lines

variable {front rest : List Token}

/-- An attempt starts at the line, or before it and then stops before it. -/
theorem statement_before {c : Cursor} (hfront : WholeLines front) (hne : rest ≠ [])
    (hrest : EndsRun (fun t : Token => t.kind = .newline) rest) (h : c.ahead = front ++ rest) :
    c.skipNewlines.ahead = rest ∨
      ∃ front', WholeLines front' ∧ (run statement c.skipNewlines).2.ahead = front' ++ rest := by
  obtain ⟨front', hfront', hahead⟩ := Cursor.ahead_skipNewlines hfront hrest h
  by_cases hnil : front' = []
  · exact .inl (by rw [hahead, hnil, List.nil_append])
  · have hskip : c.skipNewlines.ahead ≠ [] := by
      rw [hahead]
      exact List.append_ne_nil_of_right_ne_nil _ hne
    obtain ⟨part, hpart, hline⟩ := oneLine_statement hskip c.current_skipNewlines_ne
    rw [hahead] at hpart
    exact .inr (hfront'.exists_append hnil hline hpart)

theorem mem_attempts_or_ahead (c : Cursor) (hfront : WholeLines front) (hne : rest ≠ [])
    (hrest : EndsRun (fun t : Token => t.kind = .newline) rest) (h : c.ahead = front ++ rest) :
    (∃ s ∈ attempts c, s.ahead = rest) ∨ ∃ front', WholeLines front' ∧ (script c).2.ahead = front' ++ rest := by
  induction c using script_induction generalizing front with
  | nil c hnil =>
    obtain ⟨front', -, hahead⟩ := Cursor.ahead_skipNewlines hfront hrest h
    rw [hnil] at hahead
    exact absurd hahead.symm (List.append_ne_nil_of_right_ne_nil _ hne)
  | error c d f hc hs =>
    rw [attempts_of_error hc hs, script_of_error hc hs]
    rcases statement_before hfront hne hrest h with hstart | hahead
    · exact .inl ⟨_, List.mem_singleton_self _, hstart⟩
    · rw [hs] at hahead
      exact .inr hahead
  | ok c d t hc hs ih =>
    rw [attempts_of_ok hc hs, script_of_ok hc hs]
    rcases statement_before hfront hne hrest h with hstart | ⟨front', hfront', hahead⟩
    · exact .inl ⟨_, List.mem_cons_self, hstart⟩
    · rw [hs] at hahead
      exact (ih hfront' hahead).imp_left fun ⟨s, hmem, hstart⟩ => ⟨s, List.mem_cons_of_mem _ hmem, hstart⟩

end Lines

end Reader
end ThreeAddress
