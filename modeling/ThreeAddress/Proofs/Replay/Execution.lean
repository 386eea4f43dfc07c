import ThreeAddress.Replay

/-!
# Commands one after the other

* `Command.run_emit_of_hasRoom`, `Command.run_emit_of_full` : the two ways an emission can go, and one of them it goes
  (`Command.run_emit_cases`);
* `Command.run_insert_eq` : so can a declaration, by the storage that is granted;
* `Command.run_error_iff` : a command fails only in these two ways, and then it changes nothing;
* `Command.run_of_ok` : one that succeeds does what it does when nothing is refused;
* `Command.eq_lookup_of_mem_out` : besides print commands only look-ups print;
* `Command.symbols_run` : what a command does to the symbols, which depends on nothing else;
* `Command.Executes u cs out v grants` : the commands `cs`, none of them failing under these grants, lead from the unit
  `u` to `v` and print `out`, as they do when nothing is refused (`Command.Executes.unrefused`). A run that succeeds is
  such an execution (`Command.runAll_ok_iff`), and one that fails is an execution of the commands before the first that
  fails (`Command.runAll_error_iff`);
* `Command.fault_of_runAll_error` : the fault of such a run, which is that of a full program if nothing is refused
  (`Command.exists_eq_capacityExceeded`);
* `Command.runAll_append_of_error`, `Command.Executes.runAll_append` : commands with others behind them;
* `Command.runAll_invariant`, `replay_invariant` : what every command keeps, a run keeps and so does a replay, also one
  that fails;
* `replay_error_iff` : how a replay fails, and what it leaves.
-/

namespace ThreeAddress

namespace Command

/-! ## One command -/

theorem run_emit_of_hasRoom {u : CompilationUnit} (h : u.program.HasRoom) (i : Instruction) :
    (emit i).run u = (.ok [], { u with program := { u.program with code := u.program.code.push i } }) := by
  rw [run, Program.push_of_hasRoom h]

theorem run_emit_of_full {u : CompilationUnit} {n : Nat} (h : u.program.limit = .bounded n)
    (hn : n ≤ u.program.size) (i : Instruction) :
    (emit i).run u = (.error (.capacityExceeded n), u) := by
  rw [run, Program.push_of_full h hn]

/-- An emission goes one way or the other. -/
theorem run_emit_cases (u : CompilationUnit) (i : Instruction) :
    (emit i).run u = (.ok [], { u with program := { u.program with code := u.program.code.push i } }) ∨
      ∃ n, u.program.limit = .bounded n ∧ n ≤ u.program.size ∧ (emit i).run u = (.error (.capacityExceeded n), u) := by
  by_cases hroom : u.program.HasRoom
  · exact .inl (run_emit_of_hasRoom hroom i)
  · obtain ⟨n, hlimit, hn⟩ := Program.not_hasRoom_iff.1 hroom
    exact .inr ⟨n, hlimit, hn, run_emit_of_full hlimit hn i⟩

/-- A declaration is made, or it is refused for want of storage. -/
theorem run_insert_eq (u : CompilationUnit) (s : Symbol) (granted : Storage → Bool) :
    (insert s).run u granted =
      if (u.symbols.needs s.name).all granted then (.ok [], { u with symbols := u.symbols.insert s })
      else (.error (.outOfMemory s.name), u) := by
  simp only [run, SymbolTable.declare_eq]
  cases (u.symbols.needs s.name).all granted <;> rfl

theorem run_insert (u : CompilationUnit) (s : Symbol) :
    (insert s).run u = (.ok [], { u with symbols := u.symbols.insert s }) := by
  rw [run_insert_eq, if_pos (List.all_eq_true.2 fun _ _ => rfl)]

theorem run_error_iff {u v : CompilationUnit} {c : Command} {granted : Storage → Bool} {f : Fault} :
    c.run u granted = (.error f, v) ↔ v = u ∧
      ((∃ s, c = .insert s ∧ (u.symbols.needs s.name).all granted = false ∧ f = .outOfMemory s.name) ∨
        ∃ i n, c = .emit i ∧ u.program.limit = .bounded n ∧ n ≤ u.program.size ∧ f = .capacityExceeded n) := by
  constructor
  · intro h
    cases c with
    | insert s =>
      rw [run_insert_eq] at h
      split at h
      · cases h
      · next hneeds =>
        cases h
        exact ⟨rfl, .inl ⟨s, rfl, Bool.eq_false_iff.2 hneeds, rfl⟩⟩
    | emit i =>
      rcases run_emit_cases u i with hrun | ⟨n, hlimit, hn, hrun⟩
      · cases hrun.symm.trans h
      · cases hrun.symm.trans h
        exact ⟨rfl, .inr ⟨i, n, rfl, hlimit, hn, rfl⟩⟩
    | lookup name => cases h
    | reset => cases h
    | print => cases h
  · rintro ⟨rfl, ⟨s, rfl, hneeds, rfl⟩ | ⟨i, n, rfl, hlimit, hn, rfl⟩⟩
    · rw [run_insert_eq, if_neg (Bool.eq_false_iff.1 hneeds)]
    · exact run_emit_of_full hlimit hn i

theorem eq_of_run_error {u v : CompilationUnit} {c : Command} {granted : Storage → Bool} {f : Fault}
    (h : c.run u granted = (.error f, v)) : v = u :=
  (run_error_iff.1 h).1

/-- Every command either succeeds or changes nothing. -/
theorem run_ok_or_unchanged (u : CompilationUnit) (c : Command) (granted : Storage → Bool) :
    (∃ out, (c.run u granted).1 = .ok out) ∨ (c.run u granted).2 = u := by
  rcases h : c.run u granted with ⟨f | out, v⟩
  · exact .inr (eq_of_run_error h)
  · exact .inl ⟨out, rfl⟩

/-- A command that succeeds under some grant does what it does when nothing is refused. -/
theorem run_of_ok {u v : CompilationUnit} {c : Command} {granted : Storage → Bool} {out : List String}
    (h : c.run u granted = (.ok out, v)) : c.run u = (.ok out, v) := by
  cases c with
  | insert s =>
    rw [run_insert_eq] at h
    split at h
    · rw [run_insert, h]
    · cases h
  | lookup _ | emit _ | reset | print => exact h

theorem run_snd_cases (u : CompilationUnit) (c : Command) (granted : Storage → Bool) :
    (c.run u granted).2 = u ∨ (c.run u granted).2 = (c.run u).2 := by
  rcases h : c.run u granted with ⟨f | out, v⟩
  · exact .inl (eq_of_run_error h)
  · exact .inr (by rw [run_of_ok h])

/-- Besides print commands only look-ups print. -/
theorem eq_lookup_of_mem_out {u v : CompilationUnit} {c : Command} {out : List String} (h : c.run u = (.ok out, v))
    (hc : c ≠ .print) {l : String} (hl : l ∈ out) : ∃ name, c = .lookup name ∧ l = u.symbols.answer name := by
  have hout : (c.run u).1 = .ok out := congrArg Prod.fst h
  cases c with
  | lookup name =>
    rw [← Except.ok.inj hout] at hl
    exact ⟨name, rfl, List.mem_singleton.1 hl⟩
  | emit i =>
    rcases run_emit_cases u i with hrun | ⟨n, -, -, hrun⟩
    · rw [hrun] at hout
      rw [← Except.ok.inj hout] at hl
      cases hl
    · rw [hrun] at hout
      cases hout
  | insert s =>
    rw [run_insert] at hout
    rw [← Except.ok.inj hout] at hl
    cases hl
  | reset =>
    rw [← Except.ok.inj hout] at hl
    cases hl
  | print => exact absurd rfl hc

/-- What a command does to the table of symbols. -/
def onSymbols (t : SymbolTable) : Command → SymbolTable
  | insert s => t.insert s
  | reset => .empty
  | lookup _ | emit _ | print => t

/-- The instructions of a unit never matter to its symbols. -/
theorem symbols_run (u : CompilationUnit) (c : Command) : (c.run u).2.symbols = onSymbols u.symbols c := by
  cases c with
  | insert s => rw [run_insert, onSymbols]
  | emit i => rcases run_emit_cases u i with hrun | ⟨n, -, -, hrun⟩ <;> rw [hrun, onSymbols]
  | lookup _ | reset | print => rfl

/-! ## Runs -/

/-- The commands succeed one after the other, from the first unit to the second, and print these lines. -/
inductive Executes : CompilationUnit → List Command → List String → CompilationUnit →
    (grants : Grants := []) → Prop
  | nil (u : CompilationUnit) (grants : Grants) : Executes u [] [] u grants
  | cons {u v w : CompilationUnit} {c : Command} {cs : List Command} {out outs : List String}
      {grants : Grants} (head : c.run u (grants.nth 0) = (.ok out, v))
      (tail : Executes v cs outs w grants.tail) : Executes u (c :: cs) (out ++ outs) w grants

section Runs
variable {u v : CompilationUnit} {c : Command} {cs : List Command} {grants : Grants} {f : Fault}

theorem runAll_under_cons_of_error (h : c.run u (grants.nth 0) = (.error f, v)) (cs : List Command) :
    runAll u (c :: cs) grants = (.error f, v) := by
  rw [runAll, h]

theorem runAll_under_cons_of_ok {out : List String} (h : c.run u (grants.nth 0) = (.ok out, v))
    (cs : List Command) :
    runAll u (c :: cs) grants = ((runAll v cs grants.tail).1.map (out ++ ·), (runAll v cs grants.tail).2) := by
  simp only [runAll, h]
  rcases runAll v cs grants.tail with ⟨f | outs, w⟩ <;> rfl

theorem runAll_cons_of_error (h : c.run u = (.error f, v)) (cs : List Command) : runAll u (c :: cs) = (.error f, v) :=
  runAll_under_cons_of_error h cs

theorem runAll_cons_of_ok {out : List String} (h : c.run u = (.ok out, v)) (cs : List Command) :
    runAll u (c :: cs) = ((runAll v cs).1.map (out ++ ·), (runAll v cs).2) :=
  runAll_under_cons_of_ok h cs

theorem runAll_ok_iff {out : List String} : runAll u cs grants = (.ok out, v) ↔ Executes u cs out v grants := by
  constructor
  · intro h
    induction cs generalizing u out grants with
    | nil =>
      cases h
      exact .nil _ _
    | cons c cs ih =>
      rcases hc : c.run u (grants.nth 0) with ⟨f | head, w⟩
      · rw [runAll_under_cons_of_error hc] at h
        cases h
      · rw [runAll_under_cons_of_ok hc] at h
        rcases hcs : runAll w cs grants.tail with ⟨f | tail, x⟩
        · rw [hcs] at h
          cases h
        · rw [hcs] at h
          cases h
          exact .cons hc (ih hcs)
  · intro h
    induction h with
    | nil u grants => rfl
    | cons head _ ih =>
      rw [runAll_under_cons_of_ok head, ih]
      rfl

/-- A run that fails has executed the commands before the first that fails, and that one changes nothing. -/
theorem runAll_error_iff :
    runAll u cs grants = (.error f, v) ↔
      ∃ before c after out, cs = before ++ c :: after ∧ Executes u before out v grants ∧
        (c.run v (grants.nth before.length)).1 = .error f := by
  constructor
  · intro h
    induction cs generalizing u grants with
    | nil => cases h
    | cons c cs ih =>
      rcases hc : c.run u (grants.nth 0) with ⟨g | head, w⟩
      · rw [runAll_under_cons_of_error hc] at h
        cases h
        obtain rfl := eq_of_run_error hc
        exact ⟨[], c, cs, [], rfl, .nil _ _, by rw [List.length_nil, hc]⟩
      · rw [runAll_under_cons_of_ok hc] at h
        have htail : runAll w cs grants.tail = (.error f, v) := by
          rcases hcs : runAll w cs grants.tail with ⟨g | tail, x⟩
          · rw [hcs] at h
            cases h
            rfl
          · rw [hcs] at h
            cases h
        obtain ⟨before, d, after, out, rfl, hbefore, hd⟩ := ih htail
        exact ⟨c :: before, d, after, head ++ out, rfl, .cons hc hbefore, by rwa [Grants.nth_tail] at hd⟩
  · rintro ⟨before, c, after, out, rfl, hbefore, hc⟩
    induction hbefore with
    | nil u grants =>
      rw [List.length_nil] at hc
      rcases hrun : c.run u (grants.nth 0) with ⟨g | head, w⟩
      · rw [hrun] at hc
        cases hc
        obtain rfl := eq_of_run_error hrun
        exact runAll_under_cons_of_error hrun after
      · rw [hrun] at hc
        cases hc
    | cons head _ ih =>
      rw [List.length_cons, ← Grants.nth_tail] at hc
      rw [List.cons_append, runAll_under_cons_of_ok head, ih hc]
      rfl

example :
    let r := runAll (.ofLimit .default) [.emit ⟨"=", "1", "", "x"⟩, .insert ⟨"x", "int", 1⟩, .reset]
      [fun _ => true, (· ≠ .name)]
    r.1 = .error (.outOfMemory "x") ∧ r.2.program.code = #[⟨"=", "1", "", "x"⟩] :=
  ⟨rfl, rfl⟩

theorem fault_of_runAll_error (h : runAll u cs grants = (.error f, v)) :
    (∃ name, f = .outOfMemory name) ∨ ∃ n, f = .capacityExceeded n := by
  obtain ⟨before, c, -, -, -, -, hc⟩ := runAll_error_iff.1 h
  rcases (run_error_iff.1 (Prod.ext hc rfl)).2 with ⟨s, -, -, hf⟩ | ⟨-, n, -, -, -, hf⟩
  · exact .inl ⟨s.name, hf⟩
  · exact .inr ⟨n, hf⟩

/-- Nothing but a full program makes a run fail that is refused nothing. -/
theorem exists_eq_capacityExceeded (h : runAll u cs = (.error f, v)) : ∃ n, f = .capacityExceeded n := by
  obtain ⟨before, c, -, -, -, -, hc⟩ := runAll_error_iff.1 h
  rw [Grants.nth_nil] at hc
  rcases (run_error_iff.1 (Prod.ext hc rfl)).2 with ⟨s, rfl, -, -⟩ | ⟨-, n, -, -, -, hf⟩
  · rw [run_insert] at hc
    cases hc
  · exact ⟨n, hf⟩

/-- Nothing is run behind a command that fails. -/
theorem runAll_append_of_error (h : runAll u cs grants = (.error f, v)) (ds : List Command) :
    runAll u (cs ++ ds) grants = (.error f, v) := by
  obtain ⟨before, c, after, out, rfl, hbefore, hc⟩ := runAll_error_iff.1 h
  rw [List.append_assoc]
  exact runAll_error_iff.2 ⟨before, c, after ++ ds, out, rfl, hbefore, hc⟩

/-- What is executed under some grants is so when nothing is refused. -/
theorem Executes.unrefused {out : List String} (h : Executes u cs out v grants) : Executes u cs out v := by
  induction h with
  | nil u => exact .nil u []
  | cons head _ ih => exact .cons (run_of_ok head) ih

theorem Executes.insert {s : Symbol} {out : List String}
    (h : Executes { u with symbols := u.symbols.insert s } cs out v) : Executes u (.insert s :: cs) out v := by
  rw [← List.nil_append out]
  exact .cons (run_insert u s) h

/-- Induction over an execution that is refused nothing. -/
@[elab_as_elim]
theorem Executes.unrefused_induction_on {motive : ∀ u cs out v, Executes u cs out v → Prop} {u : CompilationUnit}
    {cs : List Command} {out : List String} {v : CompilationUnit} (h : Executes u cs out v)
    (nil : ∀ u, motive u [] [] u (.nil u []))
    (cons : ∀ {u v w c cs out outs} (head : c.run u = (.ok out, v)) (tail : Executes v cs outs w),
      motive v cs outs w tail → motive u (c :: cs) (out ++ outs) w (.cons head tail)) :
    motive u cs out v h := by
  induction cs generalizing u out with
  | nil =>
    cases h
    exact nil _
  | cons c cs ih =>
    cases h with
    | cons head tail => exact cons head tail (ih tail)

/-- A run goes on from where the commands before have led. -/
theorem Executes.runAll_append {out : List String} (h : Executes u cs out v grants) (ds : List Command) :
    let rest := runAll v ds (grants.drop cs.length)
    runAll u (cs ++ ds) grants = (rest.1.map (out ++ ·), rest.2) := by
  induction h with
  | nil u grants =>
    intro rest
    rcases h : runAll u ds grants with ⟨f | outs, w⟩ <;> simp [rest, h, Except.map]
  | cons head _ ih =>
    rw [List.cons_append, runAll_under_cons_of_ok head, ih, List.length_cons, ← List.drop_tail]
    rcases runAll _ ds _ with ⟨f | outs, w⟩ <;> simp [Except.map]

/-- What each of the commands keeps when nothing is refused, a run of them keeps in any case. -/
theorem runAll_invariant {P : CompilationUnit → Prop} {cs : List Command}
    (h : ∀ c ∈ cs, ∀ u, P u → P (c.run u).2) {u : CompilationUnit} (hu : P u) : P (runAll u cs grants).2 := by
  induction cs generalizing u grants with
  | nil => exact hu
  | cons c cs ih =>
    rw [List.forall_mem_cons] at h
    have hv : P (c.run u (grants.nth 0)).2 := by
      rcases run_snd_cases u c (grants.nth 0) with hrun | hrun
      · rwa [hrun]
      · rw [hrun]
        exact h.1 u hu
    rcases hc : c.run u (grants.nth 0) with ⟨f | out, v⟩
    · rw [hc] at hv
      rwa [runAll_under_cons_of_error hc]
    · rw [hc] at hv
      rw [runAll_under_cons_of_ok hc]
      exact ih h.2 hv

end Runs

end Command

/-! ## Replays -/

theorem replay_of_error {text : String} {f : SyntaxFault} (h : Statement.ofText? text = .error f)
    (tell : Verbosity) (u : CompilationUnit) (grants : Grants := []) :
    (replay tell text u grants).result = .error f.toFault ∧ (replay tell text u grants).unit = u := by
  unfold replay
  rw [h]
  exact ⟨rfl, rfl⟩

theorem replay_of_ok {text : String} {ss : List Statement} (h : Statement.ofText? text = .ok ss)
    (tell : Verbosity) (u : CompilationUnit) (grants : Grants := []) :
    ((replay tell text u grants).result, (replay tell text u grants).unit) =
      Command.runAll u (ss.map (·.command)) grants := by
  unfold replay
  rw [h]

theorem replay_of_executes {text : String} {ss : List Statement} (hread : Statement.ofText? text = .ok ss)
    {u v : CompilationUnit} {out : List String} (h : Command.Executes u (ss.map (·.command)) out v) (tell : Verbosity) :
    (replay tell text u).result = .ok out ∧ (replay tell text u).unit = v := by
  rw [← Prod.mk.injEq, replay_of_ok hread, Command.runAll_ok_iff.2 h]

/-- A replay that succeeds is an execution of the commands of its text. -/
theorem executes_of_replay_ok {text : String} {ss : List Statement} (hread : Statement.ofText? text = .ok ss)
    {tell : Verbosity} {u : CompilationUnit} {grants : Grants} {out : List String}
    (h : (replay tell text u grants).result = .ok out) :
    Command.Executes u (ss.map (·.command)) out (replay tell text u grants).unit grants := by
  have hrun := replay_of_ok hread tell u grants
  rw [h] at hrun
  exact Command.runAll_ok_iff.1 hrun.symm

/-- What all the commands of a text keep, its replay keeps, whatever is refused and whatever comes of it. -/
theorem replay_invariant {P : CompilationUnit → Prop} {text : String}
    (h : ∀ ss, Statement.ofText? text = .ok ss → ∀ c ∈ ss.map (·.command), ∀ u, P u → P (c.run u).2)
    (tell : Verbosity) {u : CompilationUnit} (hu : P u) {grants : Grants} : P (replay tell text u grants).unit := by
  cases hread : Statement.ofText? text with
  | error f => rwa [(replay_of_error hread tell u grants).2]
  | ok ss =>
    have hunit : (replay tell text u grants).unit = (Command.runAll u _ grants).2 :=
      congrArg Prod.snd (replay_of_ok hread tell u grants)
    rw [hunit]
    exact Command.runAll_invariant (h ss hread) hu

/-- **A replay that fails leaves the effects of the commands before the fault, and nothing else.** A text that
cannot be read is reported as a fault of the script and has no effect; in one that can be read, some command fails
after all before it succeeded, be it for want of storage or of room in the program, and the unit is the one that these
have made. -/
theorem replay_error_iff (tell : Verbosity) (text : String) (u : CompilationUnit) (grants : Grants) :
    (∀ f v, (replay tell text u grants).result = .error f ∧ (replay tell text u grants).unit = v ↔
      (∃ g, Statement.ofText? text = .error g ∧ f = .script g.mismatch.message g.span ∧ v = u) ∨
      ∃ ss before c after out, Statement.ofText? text = .ok ss ∧ ss.map (·.command) = before ++ c :: after ∧
        Command.Executes u before out v grants ∧ (c.run v (grants.nth before.length)).1 = .error f) ∧
    ∀ c v granted, (∃ out, (Command.run v c granted).1 = .ok out) ∨ (Command.run v c granted).2 = v := by
  refine ⟨fun f v => ?_, fun c v => Command.run_ok_or_unchanged v c⟩
  cases h : Statement.ofText? text with
  | error g =>
    obtain ⟨hresult, hunit⟩ := replay_of_error h tell u grants
    rw [hresult, hunit]
    constructor
    · rintro ⟨hf, rfl⟩
      cases hf
      exact .inl ⟨g, rfl, rfl, rfl⟩
    · rintro (⟨_, hg, rfl, rfl⟩ | ⟨_, _, _, _, _, hok, -⟩)
      · cases hg
        exact ⟨rfl, rfl⟩
      · cases hok
  | ok ss =>
    rw [← Prod.mk.injEq, replay_of_ok h tell u grants, Command.runAll_error_iff]
    constructor
    · rintro ⟨before, c, after, out, hsplit, hbefore, hc⟩
      exact .inr ⟨ss, before, c, after, out, rfl, hsplit, hbefore, hc⟩
    · rintro (⟨_, hg, -⟩ | ⟨_, before, c, after, out, hok, hsplit, hbefore, hc⟩)
      · cases hg
      · cases hok
        exact ⟨before, c, after, out, hsplit, hbefore, hc⟩

end ThreeAddress
