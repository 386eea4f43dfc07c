import ThreeAddress.Proofs.Command.Attempts

/-!
# Reading on after a fault

A reader of scripts may be called again after a fault, and goes on where it stopped.

* `Reader.afterCalls c n`, `Reader.call c n` : the cursor after `n` calls from `c` on, and what the next one gives;
* `Reader.exists_word_of_error` : a call that fails has passed over a word, so that some call succeeds
  (`Reader.exists_first_ok`);
* `Reader.ahead_of_script_ok` : a call that succeeds has read the text to its end;
* `Reader.mem_attempts_or_ahead_afterCalls` : a line at which no call has started an attempt is still ahead;
* `Reader.calls_recover` : so at every line with a word in it an attempt starts, whatever the lines before it hold.
-/

namespace ThreeAddress
open Text

namespace Cursor

theorem skipNewlines_of_nil {c : Cursor} (h : c.ahead = []) : c.skipNewlines = c := by
  unfold skipNewlines
  rw [h, List.dropWhile_nil, ← h]

theorem Plain.isWord_current {c : Cursor} (hc : c.Plain) (h : c.skipNewlines.ahead ≠ []) :
    c.skipNewlines.current.isWord = true := by
  have hplain := hc.of_leadsTo c.leadsTo_skipNewlines
  exact decide_eq_true ⟨c.current_skipNewlines_ne, fun hend => h (hplain.current_eq_iff.1 hend)⟩

end Cursor

namespace Reader

variable {c : Cursor}

/-! ## One call -/

theorem leadsTo_script (c : Cursor) : c.LeadsTo (script c).2 := by
  induction c using script_induction with
  | nil c h =>
    rw [script_of_nil h]
    exact c.leadsTo_skipNewlines
  | error c d f h hs =>
    rw [script_of_error h hs]
    exact c.leadsTo_skipNewlines.trans (leadsTo_of_run hs)
  | ok c d s h hs ih =>
    rw [script_of_ok h hs]
    exact c.leadsTo_skipNewlines.trans ((leadsTo_of_run hs).trans ih)

/-- Where a token other than a line end is ahead, a call passes over it. -/
theorem advance_leadsTo_script (h : c.skipNewlines.ahead ≠ []) : c.skipNewlines.advance.LeadsTo (script c).2 := by
  rcases hs : run statement c.skipNewlines with ⟨f | s, d⟩
  · rw [script_of_error h hs]
    exact advance_leadsTo_of_run hs
  · rw [script_of_ok h hs]
    exact (advance_leadsTo_of_run hs).trans (leadsTo_script d)

theorem exists_word_of_error (hc : c.Plain) {f : SyntaxFault} (h : (script c).1 = .error f) :
    ∃ part, c.ahead = part ++ (script c).2.ahead ∧ ∃ t ∈ part, t.isWord = true := by
  have hne : c.skipNewlines.ahead ≠ [] := by
    intro hnil
    rw [script_of_nil hnil] at h
    cases h
  obtain ⟨ends, hends⟩ := c.leadsTo_skipNewlines.1
  obtain ⟨rest, hrest⟩ := (advance_leadsTo_script hne).1
  refine ⟨ends ++ c.skipNewlines.current :: rest, ?_, c.skipNewlines.current, ?_, hc.isWord_current hne⟩
  · rw [← hends, Cursor.ahead_eq_cons hne, ← hrest, List.append_assoc]
    rfl
  · exact List.mem_append_right _ List.mem_cons_self

theorem countP_isWord_lt_of_error (hc : c.Plain) {f : SyntaxFault} (h : (script c).1 = .error f) :
    (script c).2.ahead.countP Token.isWord < c.ahead.countP Token.isWord := by
  obtain ⟨part, hahead, hword⟩ := exists_word_of_error hc h
  have hpos := List.countP_pos_iff.2 hword
  rw [hahead, List.countP_append]
  omega

theorem ahead_of_script_ok {ss : List Statement} (h : (script c).1 = .ok ss) : (script c).2.ahead = [] := by
  refine script_ok_induction (P := fun c _ => (script c).2.ahead = []) (fun c hnil => ?_)
    (fun c d s ss hne hs _ ih => ?_) h
  · rw [script_of_nil hnil]
    exact hnil
  · rw [script_of_ok hne hs]
    exact ih

theorem script_of_ahead_nil (h : c.ahead = []) : script c = (.ok [], c) := by
  have hskip := Cursor.skipNewlines_of_nil h
  rw [script_of_nil (by rw [hskip, h]), hskip]

/-! ## Calls one after another -/

def afterCalls (c : Cursor) : Nat → Cursor
  | 0 => c
  | n + 1 => (script (afterCalls c n)).2

def call (c : Cursor) (n : Nat) : Except SyntaxFault (List Statement) := (script (afterCalls c n)).1

theorem afterCalls_succ (c : Cursor) (n : Nat) : afterCalls c (n + 1) = afterCalls (script c).2 n := by
  induction n with
  | zero => rfl
  | succ n ih => rw [afterCalls, ih, afterCalls]

theorem call_succ (c : Cursor) (n : Nat) : call c (n + 1) = call (script c).2 n := by
  rw [call, afterCalls_succ, call]

theorem leadsTo_afterCalls (c : Cursor) (n : Nat) : c.LeadsTo (afterCalls c n) := by
  induction n with
  | zero => exact .refl c
  | succ n ih => exact ih.trans (leadsTo_script _)

theorem plain_afterCalls (hc : c.Plain) (n : Nat) : (afterCalls c n).Plain :=
  hc.of_leadsTo (leadsTo_afterCalls c n)

/-- Every call before the first that succeeds uses up a word. -/
theorem exists_first_ok (hc : c.Plain) :
    ∃ k ≤ c.ahead.countP Token.isWord, (∀ n < k, ∃ f, call c n = .error f) ∧ ∃ ss, call c k = .ok ss := by
  induction hwords : c.ahead.countP Token.isWord using Nat.strongRecOn generalizing c with
  | ind words ih =>
    cases hs : (script c).1 with
    | ok ss => exact ⟨0, Nat.zero_le _, fun n hn => absurd hn n.not_lt_zero, ss, hs⟩
    | error f =>
      have hlt := countP_isWord_lt_of_error hc hs
      rw [hwords] at hlt
      obtain ⟨k, hk, hfail, ss, hok⟩ := ih _ hlt (hc.of_leadsTo (leadsTo_script c)) rfl
      refine ⟨k + 1, by omega, fun n hn => ?_, ss, by rw [call_succ, hok]⟩
      cases n with
      | zero => exact ⟨f, hs⟩
      | succ n =>
        rw [call_succ]
        exact hfail n (Nat.lt_of_succ_lt_succ hn)

theorem ahead_afterCalls_of_ok {k : Nat} {ss : List Statement} (h : call c k = .ok ss) {n : Nat} (hn : k < n) :
    (afterCalls c n).ahead = [] := by
  induction n with
  | zero => exact absurd hn k.not_lt_zero
  | succ n ih =>
    rw [afterCalls]
    rcases Nat.lt_succ_iff_lt_or_eq.1 hn with hlt | rfl
    · rw [script_of_ahead_nil (ih hlt)]
      exact ih hlt
    · exact ahead_of_script_ok h

theorem call_of_ok {k : Nat} {ss : List Statement} (h : call c k = .ok ss) {n : Nat} (hn : k < n) :
    call c n = .ok [] := by
  rw [call, script_of_ahead_nil (ahead_afterCalls_of_ok h hn)]

/-! ## Lines that calls come to -/

theorem mem_attempts_or_ahead_afterCalls {front rest : List Token} (hfront : WholeLines front) (hne : rest ≠ [])
    (hrest : EndsRun (fun t : Token => t.kind = .newline) rest) (h : c.ahead = front ++ rest) (n : Nat) :
    (∃ m < n, ∃ s ∈ attempts (afterCalls c m), s.ahead = rest) ∨
      ∃ front', WholeLines front' ∧ (afterCalls c n).ahead = front' ++ rest := by
  induction n with
  | zero => exact .inr ⟨front, hfront, h⟩
  | succ n ih =>
    rcases ih with ⟨m, hm, hstart⟩ | ⟨front', hfront', hahead⟩
    · exact .inl ⟨m, Nat.lt_succ_of_lt hm, hstart⟩
    · rcases mem_attempts_or_ahead _ hfront' hne hrest hahead with hstart | hahead'
      · exact .inl ⟨n, n.lt_succ_self, hstart⟩
      · exact .inr hahead'

/-- By the first call that succeeds, an attempt has started at every line with a word in it. -/
theorem exists_attempt_of_isLine {k : Nat} {ss : List Statement} (h : call c k = .ok ss)
    {front line back : List Token} (hahead : c.ahead = front ++ line ++ back) (hline : IsLine front line back)
    {t : Token} (ht : t ∈ line) (hword : t.isWord = true) :
    ∃ n ≤ k, ∃ s ∈ attempts (afterCalls c n), s.ahead = line ++ back := by
  have hne : line ≠ [] := List.ne_nil_of_mem ht
  have hstart : EndsRun (fun t : Token => t.kind = .newline) line := fun u hu =>
    decide_eq_false (hline.oneLine.head_ne_newline ht hword u hu)
  rw [List.append_assoc] at hahead
  rcases mem_attempts_or_ahead_afterCalls hline.whole (List.append_ne_nil_of_left_ne_nil hne back)
    (hstart.append hne back) hahead (k + 1) with ⟨n, hn, hmem⟩ | ⟨front', -, hahead'⟩
  · exact ⟨n, Nat.le_of_lt_succ hn, hmem⟩
  · rw [ahead_afterCalls_of_ok h k.lt_succ_self] at hahead'
    exact absurd hahead'.symm (by simp [hne])

/-- **Calls on one text recover from every fault.** A call that fails has passed over a word; after at most as many of
them as the text has words a call succeeds, and from then on calls give nothing more. Up to there an attempt starts at
the first token of every line with a word in it, and no attempt passes over tokens of two lines. -/
theorem calls_recover (text : String) :
    (∀ n f, call (.ofText text) n = .error f →
      ∃ part, (afterCalls (.ofText text) n).ahead = part ++ (afterCalls (.ofText text) (n + 1)).ahead ∧
        ∃ t ∈ part, t.isWord = true) ∧
    (∀ n, (traced (afterCalls (.ofText text) n)).1 =
      (call (.ofText text) n, afterCalls (.ofText text) (n + 1))) ∧
    (∀ n, ∀ s ∈ attempts (afterCalls (.ofText text) n),
      ∃ part, s.ahead = part ++ (run statement s).2.ahead ∧ part ≠ [] ∧ OneLine part) ∧
    ∃ k ≤ (Token.ofText text).countP Token.isWord,
      (∀ n < k, ∃ f, call (.ofText text) n = .error f) ∧ (∃ ss, call (.ofText text) k = .ok ss) ∧
      (∀ n > k, call (.ofText text) n = .ok []) ∧
      ∀ front line back, (Cursor.ofText text).ahead = front ++ line ++ back → IsLine front line back →
        (∃ t ∈ line, t.isWord = true) →
        ∃ n ≤ k, ∃ s ∈ attempts (afterCalls (.ofText text) n), s.ahead = line ++ back := by
  have hc : (Cursor.ofText text).Plain := Cursor.plain_ofText text
  refine ⟨fun n f h => exists_word_of_error (plain_afterCalls hc n) h, fun n => fst_traced _,
    fun n s hs => oneLine_of_mem_attempts hs, ?_⟩
  obtain ⟨k, hk, hfail, ss, hok⟩ := exists_first_ok hc
  have hwords : (Cursor.ofText text).ahead.countP Token.isWord ≤ (Token.ofText text).countP Token.isWord :=
    (List.dropLast_sublist _).countP_le
  refine ⟨k, Nat.le_trans hk hwords, hfail, ⟨ss, hok⟩, fun n hn => call_of_ok hok hn, ?_⟩
  rintro front line back hahead hline ⟨t, ht, hword⟩
  exact exists_attempt_of_isLine hok hahead hline ht hword

/-- The integer of an insertion that lacks one is looked for in its line end; still the next line is tried as a whole. -/
theorem calls_recover_missing_integer :
    let c := Cursor.ofText "insert x int\nlookup y"
    let front := c.ahead.take 4
    let line := c.ahead.drop 4
    ((∃ f, call c 0 = .error f) ∧
      ∃ part, c.ahead = part ++ (afterCalls c 1).ahead ∧ ∃ t ∈ part, t.isWord = true) ∧
    (⟨line, c.stop⟩ ∈ attempts (afterCalls c 1) ∧
      ∃ part, line = part ++ (run statement ⟨line, c.stop⟩).2.ahead ∧ part ≠ [] ∧ OneLine part) ∧
    (c.ahead = front ++ line ++ [] ∧ IsLine front line [] ∧ (∃ t ∈ line, t.isWord = true) ∧
      ∃ n, ∃ s ∈ attempts (afterCalls c n), s.ahead = line ++ []) := by
  intro c front line
  obtain ⟨hword, -, hattempt, k, -, -, -, -, hlines⟩ := calls_recover "insert x int\nlookup y"
  have hcall : ∃ f, call c 0 = .error f := by
    have hnone : (call c 0).toOption = none := by decide +kernel
    cases h : call c 0 with
    | error f => exact ⟨f, rfl⟩
    | ok ss =>
      rw [h] at hnone
      cases hnone
  have hmem : ⟨line, c.stop⟩ ∈ attempts (afterCalls c 1) := by decide +kernel
  have hahead : c.ahead = front ++ line ++ [] := by decide +kernel
  have hline : IsLine front line [] := ⟨by unfold WholeLines; decide +kernel, by unfold OneLine; decide +kernel, .inl rfl⟩
  have ht : ∃ t ∈ line, t.isWord = true := by decide +kernel
  obtain ⟨f, hf⟩ := hcall
  obtain ⟨n, -, hstart⟩ := hlines front line [] hahead hline ht
  exact ⟨⟨⟨f, hf⟩, hword 0 f hf⟩, ⟨hmem, hattempt 1 _ hmem⟩, hahead, hline, ht, n, hstart⟩

end Reader
end ThreeAddress
