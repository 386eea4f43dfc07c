import ThreeAddress.Proofs.Command.Language
import ThreeAddress.Proofs.Replay.Execution
import ThreeAddress.Proofs.Token.Place

/-!
# The words that a script brings into a unit

* `Command.MadeOf P`, `CompilationUnit.MadeOf P` : all names, types, operators and operands have the property `P`
  of words, a second operand that is not there apart;
* `Statement.madeOf_of_ofText?` : the commands that are read are made of the words of the script;
* `Command.MadeOf.run`, `replay_madeOf` : so is what a replay puts into a unit, also one that fails;
* `CompilationUnit.MadeOf.replay` : so nothing but words is put into it, and one replay after the other keeps this
  (`replayAll`, `CompilationUnit.MadeOf.replayAll`).
-/

namespace ThreeAddress
open Text

/-! ## What is made of words -/

def Symbol.MadeOf (P : String → Prop) (s : Symbol) : Prop := P s.name ∧ P s.type

structure Instruction.MadeOf (P : String → Prop) (i : Instruction) : Prop where
  op : P i.op
  arg1 : P i.arg1
  arg2 : i.arg2 = "" ∨ P i.arg2
  result : P i.result

def Command.MadeOf (P : String → Prop) : Command → Prop
  | insert s => s.MadeOf P
  | lookup name => P name
  | emit i => i.MadeOf P
  | reset | print => True

structure CompilationUnit.MadeOf (P : String → Prop) (u : CompilationUnit) : Prop where
  symbols : ∀ s ∈ u.symbols.chain, s.MadeOf P
  code : ∀ i ∈ u.program.code.toList, i.MadeOf P

variable {P : String → Prop}

theorem CompilationUnit.madeOf_ofLimit (l : Limit) : (ofLimit l).MadeOf P :=
  ⟨List.forall_mem_nil _, List.forall_mem_nil _⟩

theorem CompilationUnit.MadeOf.mono {Q : String → Prop} (h : ∀ w, P w → Q w) {u : CompilationUnit}
    (hu : u.MadeOf P) : u.MadeOf Q where
  symbols s hs := ⟨h _ (hu.symbols s hs).1, h _ (hu.symbols s hs).2⟩
  code i hi :=
    have hp := hu.code i hi
    ⟨h _ hp.op, h _ hp.arg1, hp.arg2.imp_right (h _), h _ hp.result⟩

/-- What a line says is made of the words in it. -/
theorem Command.Says.madeOf {line : List Kind} {c : Command} (h : Says line c)
    (hP : ∀ k ∈ line, ∀ w, k.text? = some w → P w) : c.MadeOf P := by
  cases h with
  | insert hname htype => exact ⟨hP _ (by simp) _ hname, hP _ (by simp) _ htype⟩
  | lookup hname => exact hP _ (by simp) _ hname
  | emit hop harg1 harg2 hresult =>
    refine ⟨hP _ (by simp) _ hop, hP _ (by simp) _ harg1, ?_, hP _ (by simp) _ hresult⟩
    dsimp only
    split
    · exact .inl rfl
    · exact .inr (hP _ (by simp) _ harg2)
  | reset => trivial
  | print => trivial

theorem Command.madeOf_of_forall₂_says {lines : List (List Kind)} {cs : List Command}
    (h : List.Forall₂ Says lines cs) (hP : ∀ line ∈ lines, ∀ k ∈ line, ∀ w, k.text? = some w → P w) :
    ∀ c ∈ cs, c.MadeOf P := by
  induction h with
  | nil => exact List.forall_mem_nil _
  | cons hhead _ ih =>
    rw [List.forall_mem_cons] at hP ⊢
    exact ⟨hhead.madeOf hP.1, ih hP.2⟩

theorem Statement.madeOf_of_ofText? {text : String} {ss : List Statement} (h : ofText? text = .ok ss)
    (hP : ∀ t ∈ Token.ofText text, ∀ w, t.kind.text? = some w → P w) :
    ∀ c ∈ ss.map (·.command), c.MadeOf P := by
  have hsays := (Reader.script_ok_iff (Cursor.plain_ofText text) _).1 ⟨ss, h, rfl⟩
  refine Command.madeOf_of_forall₂_says hsays fun line hline k hk w hw => ?_
  obtain ⟨t, ht, rfl⟩ := List.mem_map.1 (of_mem_runs hline hk).1
  exact hP t ((List.dropLast_sublist _).subset ht) w hw

/-! ## Replays -/

theorem Command.MadeOf.run {c : Command} (hc : c.MadeOf P) {u : CompilationUnit} (hu : u.MadeOf P) :
    (c.run u).2.MadeOf P := by
  cases c with
  | insert s =>
    rw [run_insert]
    refine ⟨?_, hu.code⟩
    rw [SymbolTable.chain_insert, List.forall_mem_cons]
    exact ⟨hc, hu.symbols⟩
  | lookup name => exact hu
  | emit i =>
    rcases run_emit_cases u i with hrun | ⟨n, -, -, hrun⟩
    · rw [hrun]
      refine ⟨hu.symbols, ?_⟩
      rw [Array.toList_push, List.forall_mem_append, List.forall_mem_singleton]
      exact ⟨hu.code, hc⟩
    · rwa [hrun]
  | reset => exact CompilationUnit.madeOf_ofLimit _
  | print => exact hu

/-- Whatever comes of a replay, the unit is made of what it was made of and of the words of the script. -/
theorem replay_madeOf {text : String} (hP : ∀ t ∈ Token.ofText text, ∀ w, t.kind.text? = some w → P w)
    {u : CompilationUnit} (hu : u.MadeOf P) (tell : Verbosity) {grants : Grants} :
    (replay tell text u grants).unit.MadeOf P :=
  replay_invariant (fun _ hread c hc _ hv => (Statement.madeOf_of_ofText? hread hP c hc).run hv) tell hu

/-- Scripts bring nothing but words into a unit. -/
theorem CompilationUnit.MadeOf.replay {u : CompilationUnit} (hu : u.MadeOf fun w => IsRun w.toList) (tell : Verbosity)
    (text : String) : (replay tell text u).unit.MadeOf fun w => IsRun w.toList :=
  replay_madeOf (fun _ ht _ hw => (Token.word_of_mem_ofText ht hw).1) hu tell

/-- The unit after several replays, whatever comes of each. -/
def replayAll (u : CompilationUnit) (scripts : List (Verbosity × String)) : CompilationUnit :=
  scripts.foldl (fun v s => (replay s.1 s.2 v).unit) u

theorem CompilationUnit.MadeOf.replayAll {u : CompilationUnit} (hu : u.MadeOf fun w => IsRun w.toList)
    (scripts : List (Verbosity × String)) : (replayAll u scripts).MadeOf fun w => IsRun w.toList := by
  induction scripts generalizing u with
  | nil => exact hu
  | cons s scripts ih => exact ih (hu.replay s.1 s.2)

end ThreeAddress
