import ThreeAddress.Proofs.Replay.Capacity
import ThreeAddress.Proofs.Symbol.Chain

/-!
# What look-ups answer

The answer to a look-up stands in the script: it is found by a search backwards from the look-up, up to the last reset.

* `Command.binding? start cs n` : what the commands `cs` bind the name `n` to, where `start` is its binding before them;
* `Command.find?_chain_onSymbols`, `Command.indexed_onSymbols` : one command moves the newest declaration of each name
  to its binding, and the stacks of the table keep following its history;
* `Command.Executes.out_eq` : each command of an execution adds the lines that the commands before it determine;
* `replay_lines` : so a replay prints the answers of its look-ups and its reports, in order.
-/

namespace ThreeAddress
open Text

/-! ## Bindings -/

namespace Command

/-- The line for a name that is bound to a symbol, or to nothing. -/
def lookupLine (name : String) : Option Symbol → String
  | some s => "found " ++ name ++ ": " ++ s.type ++ " = " ++ Decimal.ofInt64 s.value
  | none => "not found: " ++ name

def declared? (n : String) : Command → Option Symbol
  | insert s => if s.name = n then some s else none
  | _ => none

/-- The last declaration of a name since the last reset, or else its first binding if nothing is reset. -/
def binding? (start : Option Symbol) (cs : List Command) (n : String) : Option Symbol :=
  ((sinceReset cs).reverse.findSome? (declared? n)).or (if .reset ∈ cs then none else start)

variable (start : Option Symbol) (n : String)

@[simp] theorem binding?_nil : binding? start [] n = start := rfl

@[simp] theorem binding?_insert (s : Symbol) : binding? start [.insert s] n = if s.name = n then some s else start := by
  have hsince : sinceReset [.insert s] = [.insert s] := rfl
  by_cases h : s.name = n <;> simp [binding?, hsince, declared?, h]

@[simp] theorem binding?_lookup (name : String) : binding? start [.lookup name] n = start := rfl

@[simp] theorem binding?_emit (i : Instruction) : binding? start [.emit i] n = start := rfl

@[simp] theorem binding?_reset : binding? start [.reset] n = none := rfl

@[simp] theorem binding?_print : binding? start [.print] n = start := rfl

/-- Commands bind a name one after the other. -/
theorem binding?_cons (c : Command) (cs : List Command) :
    binding? start (c :: cs) n = binding? (binding? start [c] n) cs n := by
  by_cases h : .reset ∈ cs
  · rw [binding?, sinceReset_cons_of_mem h, if_pos (List.mem_cons_of_mem _ h), binding?, if_pos h]
  · have hmem : .reset ∈ c :: cs ↔ .reset ∈ [c] := by simp [h]
    have hcs (first : Option Symbol) : binding? first cs n = (cs.reverse.findSome? (declared? n)).or first := by
      rw [binding?, sinceReset_of_notMem h, if_neg h]
    rw [hcs, binding?, sinceReset_cons_of_notMem h, List.reverse_append, List.findSome?_append, Option.or_assoc,
      binding?]
    simp only [hmem]

end Command

theorem SymbolTable.Indexed.answer_eq {t : SymbolTable} (h : t.Indexed) (n : String) :
    t.answer n = Command.lookupLine n (t.chain.find? (·.name = n)) := by
  rw [SymbolTable.answer, h.lookup?_eq]
  cases hfind : t.chain.find? (·.name = n) with
  | none => rfl
  | some s =>
    have hname := List.find?_some hfind
    rw [decide_eq_true_iff] at hname
    rw [← hname]
    rfl

/-! ## Commands one after the other -/

namespace Command

theorem find?_chain_onSymbols (t : SymbolTable) (c : Command) (n : String) :
    (onSymbols t c).chain.find? (·.name = n) = binding? (t.chain.find? (·.name = n)) [c] n := by
  cases c with
  | insert s =>
    rw [onSymbols, SymbolTable.chain_insert, List.find?_cons, binding?_insert]
    by_cases hs : s.name = n <;> simp [hs]
  | lookup name => rw [onSymbols, binding?_lookup]
  | emit i => rw [onSymbols, binding?_emit]
  | reset => rw [onSymbols, SymbolTable.chain_empty, List.find?_nil, binding?_reset]
  | print => rw [onSymbols, binding?_print]

theorem indexed_onSymbols {t : SymbolTable} (h : t.Indexed) (c : Command) : (onSymbols t c).Indexed := by
  cases c with
  | insert s => exact h.insert s
  | reset => exact SymbolTable.indexed_empty
  | lookup _ | emit _ | print => exact h

/-- The lines that a command prints behind others, the first of which runs on `u`. -/
def linesAfter (u : CompilationUnit) (before : List Command) : Command → List String
  | lookup n => [lookupLine n (binding? (u.symbols.chain.find? (·.name = n)) before n)]
  | print => (lines (runAll u before).2.report.toList).map String.ofList
  | insert _ | emit _ | reset => []

theorem linesAfter_print {u v : CompilationUnit} {before : List Command} {out : List String}
    (h : Executes u before out v) : linesAfter u before .print = (lines v.report.toList).map String.ofList := by
  rw [linesAfter, runAll_ok_iff.2 h]

theorem linesAfter_nil {u v : CompilationUnit} (hu : u.symbols.Indexed) {c : Command} {out : List String}
    (h : c.run u = (.ok out, v)) : linesAfter u [] c = out := by
  have hout : (c.run u).1 = .ok out := congrArg Prod.fst h
  cases c with
  | lookup n => rw [linesAfter, binding?_nil, ← hu.answer_eq, Except.ok.inj hout]
  | emit i =>
    rcases run_emit_cases u i with hrun | ⟨n, -, -, hrun⟩
    · rw [hrun] at hout
      exact Except.ok.inj hout
    · rw [hrun] at hout
      cases hout
  | insert s =>
    rw [run_insert] at hout
    exact Except.ok.inj hout
  | reset | print => exact Except.ok.inj hout

theorem linesAfter_cons {u v : CompilationUnit} {c : Command} {out : List String} (h : c.run u = (.ok out, v))
    (before : List Command) (d : Command) : linesAfter u (c :: before) d = linesAfter v before d := by
  have hv : v.symbols = onSymbols u.symbols c := by rw [← symbols_run, h]
  cases d with
  | lookup n => rw [linesAfter, binding?_cons, ← find?_chain_onSymbols, ← hv, linesAfter]
  | print => rw [linesAfter, runAll_cons_of_ok h, linesAfter]
  | insert _ | emit _ | reset => rfl

theorem Executes.out_eq {u v : CompilationUnit} {cs : List Command} {out : List String} (h : Executes u cs out v)
    (hu : u.symbols.Indexed) : out = cs.zipIdx.flatMap fun p => linesAfter u (cs.take p.2) p.1 := by
  induction h using Executes.unrefused_induction_on with
  | nil u => rfl
  | @cons u v _ c _ _ _ head _ ih =>
    have hv : v.symbols = onSymbols u.symbols c := by rw [← symbols_run, head]
    rw [List.zipIdx_cons, List.flatMap_cons, List.take_zero, linesAfter_nil hu head,
      ih (hv ▸ indexed_onSymbols hu c), List.zipIdx_succ, List.flatMap_map]
    simp only [List.take_succ_cons, linesAfter_cons head]

end Command

/-! ## Replays -/

/-- **A look-up prints the binding that the script gives its name.** In a replay that succeeds on a table made by
declarations and resets, the output is that of its commands, one behind the other: a look-up prints its one line, a
print command the report of the unit there, and any other command nothing. -/
theorem replay_lines {changes : List SymbolTable.Change} {u : CompilationUnit}
    (hu : u.symbols = SymbolTable.run changes) {tell : Verbosity} {text : String} {grants : Grants} {out : List String}
    (h : (replay tell text u grants).result = .ok out) :
    ∃ ss, Statement.ofText? text = .ok ss ∧
      out = (ss.map (·.command)).zipIdx.flatMap fun p =>
        Command.linesAfter u ((ss.map (·.command)).take p.2) p.1 := by
  cases hread : Statement.ofText? text with
  | error f =>
    rw [(replay_of_error hread tell u grants).1] at h
    cases h
  | ok ss =>
    have hindexed : u.symbols.Indexed := hu ▸ (SymbolTable.tracks_run changes).indexed
    exact ⟨ss, rfl, (executes_of_replay_ok hread h).unrefused.out_eq hindexed⟩

/-- A unit with two declarations of one name. -/
def redeclaredUnit : CompilationUnit where
  symbols := .run [.insert ⟨"x", "int", 1⟩, .insert ⟨"x", "int", -1⟩]
  program := { limit := .unbounded }

theorem replay_lines_redeclaredUnit :
    let text := "lookup x\ninsert x real 2\ninsert y int 3\nlookup x\nreset\ninsert y int 4\nlookup x\nprint"
    redeclaredUnit.symbols = .run [.insert ⟨"x", "int", 1⟩, .insert ⟨"x", "int", -1⟩] ∧
      (replay {} text redeclaredUnit).result =
        .ok ["found x: int = -1", "found x: real = 2", "not found: x", "Symbol Table:", "Name    Type    Value",
          "-------------------------", "y\tint\t4", "", "Intermediate Code:"] := by
  intro text
  refine ⟨rfl, ?_⟩
  have hread : Statement.ofText? text = .ok
      [⟨.lookup "x", 0, 8⟩, ⟨.insert ⟨"x", "real", 2⟩, 9, 24⟩, ⟨.insert ⟨"y", "int", 3⟩, 25, 39⟩, ⟨.lookup "x", 40, 48⟩,
        ⟨.reset, 49, 54⟩, ⟨.insert ⟨"y", "int", 4⟩, 55, 69⟩, ⟨.lookup "x", 70, 78⟩, ⟨.print, 79, 84⟩] := by
    decide +kernel
  have hbefore : Command.Executes redeclaredUnit [.lookup "x", .insert ⟨"x", "real", 2⟩, .insert ⟨"y", "int", 3⟩,
      .lookup "x", .reset, .insert ⟨"y", "int", 4⟩, .lookup "x"] _ _ :=
    .cons rfl (.insert (.insert (.cons rfl (.cons rfl (.insert (.cons rfl (.nil _ _)))))))
  obtain ⟨out, _, hunder⟩ := replay_withLimit hread {} redeclaredUnit
  have hresult : (replay {} text redeclaredUnit).result = .ok out := (hunder .unbounded (Limit.fits_unbounded _ _)).1
  obtain ⟨ss, hss, hout⟩ := replay_lines (u := redeclaredUnit) rfl hresult
  rw [hread] at hss
  cases hss
  rw [hresult, hout]
  simp only [List.map_cons, List.map_nil, List.zipIdx_cons, List.zipIdx_nil, List.flatMap_cons, List.flatMap_nil,
    List.take_succ_cons, List.take_zero, Nat.zero_add, Nat.reduceAdd, Command.linesAfter_print hbefore]
  decide +kernel

end ThreeAddress
