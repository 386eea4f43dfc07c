import ThreeAddress.Proofs.Command.FirstFault
import ThreeAddress.Proofs.Command.Place

/-!
# Scripts that are written for commands

A command can be written when its line is read as this command again.

* `Command.IsWritable c` : each text of `c` is one word, but for a second operand that is not there; one that is there
  is not spelled as a missing one;
* `Command.IsWritable.says_words`, `Command.Says.isWritable` : such commands are what lines of words say;
* `Command.script_reads` : lists of such commands are written without loss, no others are, and every call gives such a
  list.
-/

namespace ThreeAddress
open Text

/-! ## Spellings of values -/

theorem isInteger_ofInt64 (v : Int64) : isInteger (Decimal.ofInt64 v).toList = true := by
  have hdigits (n : Nat) : (!(Decimal.ofNat n).toList.isEmpty && (Decimal.ofNat n).toList.all Char.isDigit) = true := by
    rw [Bool.and_eq_true_iff, Bool.not_eq_true', List.isEmpty_eq_false_iff, List.all_eq_true]
    exact ⟨Decimal.toList_ofNat_ne_nil n, fun c hc => Decimal.isDigit_of_mem_ofNat hc⟩
  unfold Decimal.ofInt64 isInteger
  split
  · rw [String.toList_append]
    exact hdigits v.toInt.natAbs
  · have hsign : (Decimal.ofNat v.toInt.natAbs).toList.head? ≠ some '-' := by
      intro hhead
      have hdigit := Decimal.isDigit_of_mem_ofNat (List.mem_of_head? hhead)
      cases hdigit
    rw [if_neg hsign]
    exact hdigits v.toInt.natAbs

/-! ## Commands that can be written -/

namespace Command

/-- Each text of the command is one word. A second operand may be missing, but is not spelled like one that is. -/
def IsWritable : Command → Prop
  | insert s => IsRun s.name.toList ∧ IsRun s.type.toList
  | lookup name => IsRun name.toList
  | emit i => IsRun i.op.toList ∧ IsRun i.arg1.toList ∧
      (i.arg2 = "" ∨ IsRun i.arg2.toList ∧ i.arg2 ≠ blankOperand) ∧ IsRun i.result.toList
  | reset | print => True

instance : DecidablePred IsWritable
  | insert _ => inferInstanceAs (Decidable (_ ∧ _))
  | lookup _ => inferInstanceAs (Decidable (IsRun _))
  | emit _ => inferInstanceAs (Decidable (_ ∧ _))
  | reset | print => inferInstanceAs (Decidable True)

/-- What is said in words can be written. -/
theorem Says.isWritable {line : List Kind} {c : Command} (h : Says line c)
    (hline : ∀ k ∈ line, ∀ w, k.text? = some w → IsRun w.toList) : c.IsWritable := by
  cases h with
  | insert hname htype => exact ⟨hline _ (by simp) _ hname, hline _ (by simp) _ htype⟩
  | lookup hname => exact hline _ (by simp) _ hname
  | emit hop harg1 harg2 hresult =>
    refine ⟨hline _ (by simp) _ hop, hline _ (by simp) _ harg1, ?_, hline _ (by simp) _ hresult⟩
    dsimp only
    split
    · exact .inl rfl
    · next hblank => exact .inr ⟨hline _ (by simp) _ harg2, hblank⟩
  | reset => trivial
  | print => trivial

namespace IsWritable

variable {c : Command}

theorem isRun_of_mem_operands (h : c.IsWritable) : ∀ w ∈ c.operands, IsRun w.toList := by
  cases c with
  | insert s =>
    have hvalue : IsRun (Decimal.ofInt64 s.value).toList := isRun_of_isInteger (isInteger_ofInt64 s.value)
    simp only [operands, List.forall_mem_cons]
    exact ⟨h.1, h.2, hvalue, List.forall_mem_nil _⟩
  | lookup name => exact List.forall_mem_singleton.2 h
  | emit i =>
    obtain ⟨hop, harg1, harg2, hresult⟩ := h
    have hblank : IsRun (if i.arg2 = "" then blankOperand else i.arg2).toList := by
      split
      · decide
      · next hne => exact (harg2.resolve_left hne).1
    simp only [operands, List.forall_mem_cons]
    exact ⟨hop, harg1, hblank, hresult, List.forall_mem_nil _⟩
  | reset => exact List.forall_mem_nil _
  | print => exact List.forall_mem_nil _

/-- Blank operands are told from those that are there. -/
theorem unblanked_eq {w : String} (h : w = "" ∨ IsRun w.toList ∧ w ≠ blankOperand) :
    (if (if w = "" then blankOperand else w) = "_" then "" else if w = "" then blankOperand else w) = w := by
  by_cases hnone : w = ""
  · have hblank : blankOperand = "_" := rfl
    rw [if_pos hnone, if_pos hblank, hnone]
  · have hne : w ≠ "_" := (h.resolve_left hnone).2
    rw [if_neg hnone, if_neg hne]

/-- The words of its line say the command, whatever words its texts are. -/
theorem says_words (h : c.IsWritable) :
    Says ((c.keyword.spelling :: c.operands).map (Kind.ofWord ·.toList)) c := by
  have htext (w : String) : (Kind.ofWord w.toList).text? = some w := by
    rw [Kind.text?_ofWord, String.ofList_toList]
  rw [List.map_cons, Kind.ofWord_spelling]
  cases c with
  | insert s =>
    have hvalue : Kind.ofWord (Decimal.ofInt64 s.value).toList = .integer (Decimal.ofInt64 s.value) := by
      rw [Kind.ofWord_of_isInteger (isInteger_ofInt64 s.value), String.ofList_toList]
    exact says_iff.2 ⟨.insert, _, (s.name, s.type, s.value, ()), rfl, ⟨_, _, rfl, htext s.name, _, _, rfl, htext s.type,
      _, _, rfl, ⟨_, hvalue, Decimal.int64?_ofInt64 s.value⟩, rfl⟩, rfl⟩
  | lookup name => exact .lookup (htext name)
  | emit i =>
    have hsays := Says.emit (htext i.op) (htext i.arg1) (htext (if i.arg2 = "" then blankOperand else i.arg2))
      (htext i.result)
    rwa [unblanked_eq h.2.2.1] at hsays
  | reset => exact .reset
  | print => exact .print

theorem exists_ofText?_line (h : c.IsWritable) :
    ∃ ss, Statement.ofText? c.line = .ok ss ∧ ss.map (·.command) = [c] := by
  have hwords : ∀ w ∈ c.keyword.spelling :: c.operands, IsRun w.toList :=
    List.forall_mem_cons.2 ⟨isRun_spelling c.keyword, h.isRun_of_mem_operands⟩
  have hkinds : (Cursor.ofText c.line).ahead.map (·.kind) =
      (c.keyword.spelling :: c.operands).map (Kind.ofWord ·.toList) := by
    rw [Cursor.ofText, List.map_dropLast, Token.ofText, Scanner.ofText, Scanner.kinds_tokens, line,
      Kind.ofLines_intercalate hwords, List.dropLast_concat]
  refine (Reader.script_ok_iff (Cursor.plain_ofText c.line) [c]).2 ?_
  rw [hkinds, Kind.lines_of_says h.says_words]
  exact .cons h.says_words .nil

end IsWritable

/-! ## Lists of commands -/

theorem exists_ofText?_script {cs : List Command} (h : ∀ c ∈ cs, c.IsWritable) :
    ∃ ss, Statement.ofText? (script cs) = .ok ss ∧ ss.map (·.command) = cs := by
  induction cs with
  | nil => exact ⟨[], by decide +kernel, rfl⟩
  | cons c cs ih =>
    rw [List.forall_mem_cons] at h
    obtain ⟨ss₁, hline, hc⟩ := h.1.exists_ofText?_line
    cases cs with
    | nil =>
      refine ⟨ss₁, ?_, hc⟩
      rwa [script, List.map_singleton, String.intercalate_singleton]
    | cons d cs =>
      obtain ⟨ss₂, hscript, hcs⟩ := ih h.2
      obtain ⟨ss, hss, hcommands⟩ := Statement.exists_ofText?_append_newline hline hscript
      refine ⟨ss, ?_, ?_⟩
      · rwa [script, List.map_cons, List.map_cons, String.intercalate_cons_cons]
      · rw [hcommands, hc, hcs]
        rfl

/-- A text holds nothing but words, so that what is read from it can be written. -/
theorem isWritable_of_call {text : String} {n : Nat} {ss : List Statement}
    (h : Reader.call (Cursor.ofText text) n = .ok ss) : ∀ c ∈ ss.map (·.command), c.IsWritable := by
  intro c hc
  obtain ⟨s, hs, rfl⟩ := List.mem_map.1 hc
  obtain ⟨before, part, after, hahead, hread⟩ := (Reader.areReadAlong_of_call h).exists_part hs
  refine hread.says_command.isWritable fun k hk w hw => ?_
  obtain ⟨t, ht, rfl⟩ := List.mem_map.1 hk
  have htext : t ∈ (Cursor.ofText text).ahead := by
    rw [hahead]
    exact List.mem_append_left _ (List.mem_append_right _ ht)
  exact (Token.word_of_mem_ofText ((List.dropLast_sublist _).subset htext) hw).1

/-- **Writing commands and reading them are inverse to each other.** A list of commands is read from its own script
exactly when all of them can be written. The commands that a call gives are of this kind, so that writing and reading
changes nothing about them. -/
theorem script_reads :
    (∀ cs, (∃ ss, Statement.ofText? (script cs) = .ok ss ∧ ss.map (·.command) = cs) ↔ ∀ c ∈ cs, c.IsWritable) ∧
    ∀ text n ss, Reader.call (Cursor.ofText text) n = .ok ss →
      (∀ c ∈ ss.map (·.command), c.IsWritable) ∧
      ∃ again, Statement.ofText? (script (ss.map (·.command))) = .ok again ∧
        again.map (·.command) = ss.map (·.command) := by
  refine ⟨fun cs => ⟨?_, exists_ofText?_script⟩, fun text n ss h => ?_⟩
  · rintro ⟨ss, hss, rfl⟩
    have hcall : Reader.call (Cursor.ofText (script (ss.map (·.command)))) 0 = .ok ss := hss
    exact isWritable_of_call hcall
  · exact ⟨isWritable_of_call h, exists_ofText?_script (isWritable_of_call h)⟩

/-- Names that are keywords, integers or `_`, and the least value. -/
theorem script_reads_lookalikes :
    let cs : List Command := [.insert ⟨"insert", "_", Int64.minValue⟩, .emit ⟨"007", "_", "", "reset"⟩, .print]
    let text := "bogus\nemit = 1 _ -1"
    (∀ c ∈ cs, c.IsWritable) ∧
    (∃ ss, Statement.ofText? (script cs) = .ok ss ∧ ss.map (·.command) = cs) ∧
    ∃ ss, Reader.call (Cursor.ofText text) 1 = .ok ss ∧ ss ≠ [] ∧ (∀ c ∈ ss.map (·.command), c.IsWritable) := by
  intro cs text
  have hcs : ∀ c ∈ cs, c.IsWritable := by decide +kernel
  have hcall : Reader.call (Cursor.ofText text) 1 = .ok [⟨.emit ⟨"=", "1", "", "-1"⟩, 6, 19⟩] := by decide +kernel
  exact ⟨hcs, (script_reads.1 cs).2 hcs, _, hcall, List.cons_ne_nil _ _, (script_reads.2 text 1 _ hcall).1⟩

end Command
end ThreeAddress
