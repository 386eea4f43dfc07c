import ThreeAddress.Proofs.Replay.Execution

/-!
# Symbols and instructions do not influence each other

A run acts on the parts of a unit side by side: the table follows the declarations and resets alone, the program
follows the emissions and resets alone, and only the program can make it fail.

* `Command.isForSymbols`, `Command.isForProgram` : the commands that act on a part;
* `Command.Executes.symbols_eq`, `Command.Executes.names_eq` : the other parts of the unit that an execution leads to;
* `Command.runAll_filter_isForProgram` : a run fails or succeeds, and leaves the program, as the commands for the program
  do alone, whatever else the two units hold. The two runs are out of step, so the induction is over all units that
  agree in their programs;
* `Command.runAll_of_filter_eq` : so two runs with the same commands for each part come to the same end.
-/

namespace ThreeAddress

namespace Command

def isForSymbols : Command → Bool
  | insert _ | reset => true
  | lookup _ | emit _ | print => false

def isForProgram : Command → Bool
  | emit _ | reset => true
  | insert _ | lookup _ | print => false

/-! ## Symbols and names -/

theorem onSymbols_of_not_isForSymbols {c : Command} (h : ¬c.isForSymbols = true) (t : SymbolTable) :
    onSymbols t c = t := by
  cases c with
  | insert _ | reset => exact absurd rfl h
  | lookup _ | emit _ | print => rfl

theorem names_run (u : CompilationUnit) (c : Command) :
    (c.run u).2.names = if c = .reset then {} else u.names := by
  cases c with
  | emit i => rcases run_emit_cases u i with hrun | ⟨n, -, -, hrun⟩ <;> simp [hrun]
  | insert s => simp [run_insert]
  | lookup _ | reset | print => rfl

theorem Executes.symbols_eq {u v : CompilationUnit} {cs : List Command} {out : List String} (h : Executes u cs out v) :
    v.symbols = (cs.filter isForSymbols).foldl onSymbols u.symbols := by
  induction h using Executes.unrefused_induction_on with
  | nil u => rfl
  | @cons u v _ c cs _ _ head _ ih =>
    have hv : v.symbols = onSymbols u.symbols c := by rw [← symbols_run, head]
    by_cases hc : c.isForSymbols = true
    · rw [ih, List.filter_cons_of_pos hc, List.foldl_cons, hv]
    · rw [ih, List.filter_cons_of_neg hc, hv, onSymbols_of_not_isForSymbols hc]

theorem Executes.names_eq {u v : CompilationUnit} {cs : List Command} {out : List String} (h : Executes u cs out v) :
    v.names = if .reset ∈ cs then {} else u.names := by
  induction h using Executes.unrefused_induction_on with
  | nil u => rfl
  | @cons u v _ c cs _ _ head _ ih =>
    have hv : v.names = if c = .reset then {} else u.names := by rw [← names_run, head]
    rw [ih, hv]
    by_cases hcs : .reset ∈ cs
    · rw [if_pos hcs, if_pos (List.mem_cons_of_mem _ hcs)]
    · have hmem : .reset ∈ c :: cs ↔ c = .reset := by simp [hcs, eq_comm]
      rw [if_neg hcs]
      simp only [hmem]

theorem reset_mem_iff_of_filter_eq {cs ds : List Command} (h : cs.filter isForSymbols = ds.filter isForSymbols) :
    .reset ∈ cs ↔ .reset ∈ ds := by
  have hmem (es : List Command) : .reset ∈ es ↔ .reset ∈ es.filter isForSymbols := by
    rw [List.mem_filter]
    exact (and_iff_left rfl).symm
  rw [hmem, h, ← hmem]

/-! ## The program -/

/-- The fault of a run that failed. -/
def fault? {α : Type} : Except Fault α → Option Fault
  | .ok _ => none
  | .error f => some f

@[simp] theorem fault?_map {α β : Type} (r : Except Fault α) (f : α → β) : fault? (r.map f) = fault? r := by
  cases r <;> rfl

/-- A command for the program sees nothing else of a unit. -/
theorem run_of_isForProgram {u v : CompilationUnit} (h : u.program = v.program) {c : Command}
    (hc : c.isForProgram = true) : (c.run u).1 = (c.run v).1 ∧ (c.run u).2.program = (c.run v).2.program := by
  cases c with
  | emit i =>
    rw [run, run, h]
    rcases v.program.push i with ⟨f | k, p⟩
    · exact ⟨rfl, rfl⟩
    · exact ⟨rfl, rfl⟩
  | reset => exact ⟨rfl, congrArg Program.clear h⟩
  | insert _ | lookup _ | print => cases hc

/-- Any other command succeeds and leaves the program alone. -/
theorem run_of_not_isForProgram {c : Command} (hc : ¬c.isForProgram = true) (u : CompilationUnit) :
    ∃ out v, c.run u = (.ok out, v) ∧ v.program = u.program := by
  cases c with
  | insert s => exact ⟨_, _, run_insert u s, rfl⟩
  | lookup _ | print => exact ⟨_, _, rfl, rfl⟩
  | emit _ | reset => exact absurd rfl hc

theorem runAll_filter_isForProgram {u v : CompilationUnit} (h : u.program = v.program) (cs : List Command) :
    fault? (runAll u cs).1 = fault? (runAll v (cs.filter isForProgram)).1 ∧
      (runAll u cs).2.program = (runAll v (cs.filter isForProgram)).2.program := by
  induction cs generalizing u v with
  | nil => exact ⟨rfl, h⟩
  | cons c cs ih =>
    by_cases hc : c.isForProgram = true
    · rw [List.filter_cons_of_pos hc]
      obtain ⟨hresult, hprogram⟩ := run_of_isForProgram h hc
      cases hv : (c.run v).1 with
      | error f =>
        rw [runAll_cons_of_error (Prod.ext (hresult.trans hv) rfl), runAll_cons_of_error (Prod.ext hv rfl)]
        exact ⟨rfl, hprogram⟩
      | ok out =>
        obtain ⟨hfault, hprograms⟩ := ih hprogram
        rw [runAll_cons_of_ok (Prod.ext (hresult.trans hv) rfl), runAll_cons_of_ok (Prod.ext hv rfl), fault?_map,
          fault?_map]
        exact ⟨hfault, hprograms⟩
    · rw [List.filter_cons_of_neg hc]
      obtain ⟨out, w, hrun, hprogram⟩ := run_of_not_isForProgram hc u
      obtain ⟨hfault, hprograms⟩ := ih (hprogram.trans h)
      rw [runAll_cons_of_ok hrun, fault?_map]
      exact ⟨hfault, hprograms⟩

/-- **Symbols and instructions do not influence each other, and look-ups and reports influence nothing.** Two lists with
the same declarations and resets and with the same emissions and resets, in whatever order the two mix, either both
succeed and lead to the same unit or both fail by the same full program and leave the same instructions. -/
theorem runAll_of_filter_eq (u : CompilationUnit) {cs ds : List Command}
    (hsymbols : cs.filter isForSymbols = ds.filter isForSymbols)
    (hprogram : cs.filter isForProgram = ds.filter isForProgram) :
    (∃ out out' v, runAll u cs = (.ok out, v) ∧ runAll u ds = (.ok out', v)) ∨
      ∃ n v w, runAll u cs = (.error (.capacityExceeded n), v) ∧ runAll u ds = (.error (.capacityExceeded n), w) ∧
        v.program = w.program := by
  obtain ⟨hfault, hcode⟩ : fault? (runAll u cs).1 = fault? (runAll u ds).1 ∧
      (runAll u cs).2.program = (runAll u ds).2.program := by
    obtain ⟨hf, hp⟩ := runAll_filter_isForProgram (u := u) rfl cs
    obtain ⟨hf', hp'⟩ := runAll_filter_isForProgram (u := u) rfl ds
    rw [hf, hp, hf', hp', hprogram]
    exact ⟨rfl, rfl⟩
  rcases hcs : runAll u cs with ⟨f | out, v⟩
  · rcases hds : runAll u ds with ⟨g | out', w⟩
    · rw [hcs, hds] at hfault hcode
      obtain rfl : f = g := Option.some.inj hfault
      obtain ⟨n, rfl⟩ := exists_eq_capacityExceeded hcs
      exact .inr ⟨n, v, w, rfl, rfl, hcode⟩
    · rw [hcs, hds] at hfault
      cases hfault
  · rcases hds : runAll u ds with ⟨g | out', w⟩
    · rw [hcs, hds] at hfault
      cases hfault
    · rw [hcs, hds] at hcode
      have hv := runAll_ok_iff.1 hcs
      have hw := runAll_ok_iff.1 hds
      have hsymbol : v.symbols = w.symbols := by rw [hv.symbols_eq, hw.symbols_eq, hsymbols]
      have hname : v.names = w.names := by
        rw [hv.names_eq, hw.names_eq]
        simp only [reset_mem_iff_of_filter_eq hsymbols]
      obtain ⟨_, _, _⟩ := v
      obtain ⟨_, _, _⟩ := w
      cases hsymbol
      cases hcode
      cases hname
      exact .inl ⟨out, out', _, rfl, rfl⟩

/-- The second emission does not fit, wherever the declarations stand. -/
theorem runAll_of_filter_eq_full :
    let cs : List Command := [.insert ⟨"x", "int", 1⟩, .emit ⟨"=", "x", "", "y"⟩, .print, .emit ⟨"+", "x", "y", "t"⟩,
      .insert ⟨"t", "int", 0⟩]
    let ds : List Command := [.emit ⟨"=", "x", "", "y"⟩, .emit ⟨"+", "x", "y", "t"⟩, .insert ⟨"x", "int", 1⟩, .lookup "y",
      .insert ⟨"t", "int", 0⟩]
    (cs.filter isForSymbols = ds.filter isForSymbols ∧ cs.filter isForProgram = ds.filter isForProgram) ∧
      ∃ v w, runAll (.ofLimit (.bounded 1)) cs = (.error (.capacityExceeded 1), v) ∧
        runAll (.ofLimit (.bounded 1)) ds = (.error (.capacityExceeded 1), w) ∧ v.program = w.program := by
  intro cs ds
  have hsymbols : cs.filter isForSymbols = ds.filter isForSymbols := by decide
  have hprogram : cs.filter isForProgram = ds.filter isForProgram := by decide
  have hfault : (runAll (.ofLimit (.bounded 1)) ds).1 = .error (.capacityExceeded 1) := rfl
  refine ⟨⟨hsymbols, hprogram⟩, ?_⟩
  rcases runAll_of_filter_eq (.ofLimit (.bounded 1)) hsymbols hprogram with
    ⟨out, out', v, -, hds⟩ | ⟨n, v, w, hcs, hds, hcode⟩
  · rw [hds] at hfault
    cases hfault
  · rw [hds] at hfault
    cases hfault
    exact ⟨v, w, hcs, hds, hcode⟩

end Command
end ThreeAddress
