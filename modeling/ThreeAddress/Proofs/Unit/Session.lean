import Mathlib.Control.Monad.Basic
import ThreeAddress.Proofs.Replay.Execution

/-!
# Sessions: operations on one unit, in any order

* `Operation` : a call that changes a unit, or a `Reading` of it; `Operation.run` gives its answer and the unit after it,
  `Operation.runAll` the answers of a whole session;
* `Operation.limit_run`, `Operation.limit_runAll` : no operation changes the limit, whether it succeeds or fails;
* `Operation.runAll_reset` : nothing else is left of a session behind a reset, so that the session goes on as one on a new
  unit does.
-/

namespace ThreeAddress

/-! ## Operations -/

/-- What can be read of a unit without changing it. -/
inductive Reading where
  | report
  | declarations
  | lookup (name : String)
  | shadowed (name : String)
  | live
  | instruction (position : Nat)
  | remaining
deriving DecidableEq, Repr

inductive Operation where
  | insert (symbol : Symbol)
  | init
  | push (instruction : Instruction)
  | clear
  | temp
  | label
  | script (tell : Verbosity) (text : String)
  | command (c : Command)
  | reset
  | read (r : Reading)
deriving DecidableEq, Repr

inductive Answer where
  | done
  | text (s : String)
  | symbol (s : Option Symbol)
  | symbols (ss : List Symbol)
  | position (result : Except Fault Nat)
  | instruction (i : Option Instruction)
  | room (remaining : Option Nat)
  | printed (result : Except Fault (List String)) (log : String)
deriving DecidableEq

def Reading.answer (u : CompilationUnit) : Reading → Answer
  | report => .text u.report
  | declarations => .symbols u.symbols.chain
  | lookup name => .symbol (u.symbols.lookup? name)
  | shadowed name => .symbols (u.symbols.shadowed name)
  | live => .symbols u.symbols.live
  | instruction position => .instruction (u.program.get? position)
  | remaining => .room u.program.remaining?

namespace Operation

/-- A declaration answers with the new entry of the table. -/
def run (u : CompilationUnit) : Operation → Answer × CompilationUnit
  | insert s =>
    let t := u.symbols.insert s
    (.symbol t.history[u.symbols.size]?, { u with symbols := t })
  | init => (.done, { u with symbols := .empty })
  | push i =>
    let (position, p) := u.program.push i
    (.position position, { u with program := p })
  | clear => (.done, { u with program := u.program.clear })
  | temp =>
    let (name, n) := u.names.temp
    (.text name, { u with names := n })
  | label =>
    let (name, n) := u.names.label
    (.text name, { u with names := n })
  | script tell text =>
    let r := replay tell text u
    (.printed r.result r.log, r.unit)
  | command c =>
    let (result, v) := c.run u
    (.printed result "", v)
  | reset => (.done, u.reset)
  | read r => (r.answer u, u)

/-- The answers in order, and the unit at the end. No failure ends a session. -/
def runAll (u : CompilationUnit) : List Operation → List Answer × CompilationUnit
  | [] => ([], u)
  | op :: ops =>
    let (answer, v) := op.run u
    let (answers, w) := runAll v ops
    (answer :: answers, w)

end Operation

/-! ## The limit -/

theorem Command.limit_run (u : CompilationUnit) (c : Command) : (c.run u).2.program.limit = u.program.limit := by
  cases c with
  | emit i => rcases run_emit_cases u i with hrun | ⟨n, -, -, hrun⟩ <;> rw [hrun]
  | insert s => rw [run_insert]
  | lookup _ | reset | print => rfl

theorem Command.limit_runAll (u : CompilationUnit) (cs : List Command) :
    (runAll u cs).2.program.limit = u.program.limit :=
  runAll_invariant (P := fun v => v.program.limit = u.program.limit) (fun c _ v hv => (limit_run v c).trans hv) rfl

theorem limit_replay (tell : Verbosity) (text : String) (u : CompilationUnit) :
    (replay tell text u).unit.program.limit = u.program.limit :=
  replay_invariant (P := fun v => v.program.limit = u.program.limit)
    (fun _ _ c _ v hv => (Command.limit_run v c).trans hv) tell rfl

namespace Operation

theorem limit_run (u : CompilationUnit) (op : Operation) : (op.run u).2.program.limit = u.program.limit := by
  cases op with
  | push i => exact Program.limit_push u.program i
  | script tell text => exact limit_replay tell text u
  | command c => exact Command.limit_run u c
  | insert _ | init | clear | temp | label | reset | read _ => rfl

theorem limit_runAll (u : CompilationUnit) (ops : List Operation) :
    (runAll u ops).2.program.limit = u.program.limit := by
  induction ops generalizing u with
  | nil => rfl
  | cons op ops ih => exact (ih (op.run u).2).trans (limit_run u op)

end Operation

/-! ## Resets -/

/-- Behind a reset that is reached, commands run as on a new unit. -/
theorem Command.Executes.runAll_append_reset {u v : CompilationUnit} {cs : List Command} {out : List String}
    (h : Command.Executes u cs out v) (ds : List Command) :
    let new := Command.runAll (.ofLimit u.program.limit) ds
    Command.runAll u (cs ++ .reset :: ds) = (new.1.map (out ++ ·), new.2) := by
  intro new
  have hlimit : v.program.limit = u.program.limit := by
    rw [← Command.limit_runAll u cs, Command.runAll_ok_iff.2 h]
  have hreset : Command.run v .reset = (.ok [], .ofLimit u.program.limit) := by rw [← hlimit]; rfl
  rw [h.runAll_append, List.drop_nil, Command.runAll_cons_of_ok hreset]
  show (Except.map _ (Except.map _ new.1), new.2) = _
  rcases new.1 with f | outs
  · rfl
  · rfl

namespace Operation

/-- **A unit that is reset cannot be told from a new one** with its limit, whatever was done to it before: every operation
of the session that goes on answers the same on both. A reset inside a script that is reached does the same: the commands
behind it print or fail as on a new unit, and so does all that comes behind the script. -/
theorem runAll_reset (l : Limit) (before after : List Operation) :
    let used := (runAll (.ofLimit l) before).2
    runAll used.reset after = runAll (.ofLimit l) after ∧
      ∀ (tell : Verbosity) (text : String) (ss : List Statement) (cs ds : List Command) (out : List String)
        (v : CompilationUnit), Statement.ofText? text = .ok ss → ss.map (·.command) = cs ++ .reset :: ds →
        Command.Executes used cs out v →
        let new := Command.runAll (.ofLimit l) ds
        (replay tell text used).result = new.1.map (out ++ ·) ∧
          runAll (replay tell text used).unit after = runAll new.2 after := by
  intro used
  have hlimit : used.program.limit = l := limit_runAll (.ofLimit l) before
  refine ⟨by rw [CompilationUnit.reset_eq, hlimit], fun tell text ss cs ds out v hread hsplit hcs => ?_⟩
  have hrun := replay_of_ok hread tell used
  rw [hsplit, hcs.runAll_append_reset, hlimit] at hrun
  obtain ⟨hresult, hunit⟩ := Prod.mk.inj hrun
  exact ⟨hresult, by rw [hunit]⟩

/-- A session with refused instructions, a script that stops at its second command, and all counters moved. -/
def busySession : List Operation :=
  [.insert ⟨"x", "int", 1⟩, .temp, .label, .push ⟨"=", "x", "", "t1"⟩, .push ⟨"+", "x", "t1", "y"⟩,
    .script {} "insert y int 2\nemit + x y z\nreset", .insert ⟨"x", "real", -1⟩]

theorem runAll_reset_busySession :
    let used := (runAll (.ofLimit (.bounded 1)) busySession).2
    let after := [.temp, .read .declarations, .read .remaining, .push ⟨"=", "1", "", "x"⟩, .push ⟨"=", "2", "", "x"⟩]
    let text := "insert z int 3\nreset\nemit = 1 _ x\nprint"
    used.symbols.size = 3 ∧ used.program.size = 1 ∧ used.names = ⟨1, 1⟩ ∧
      (runAll used.reset after).1 = [.text "t1", .symbols [], .room (some 1), .position (.ok 0),
        .position (.error (.capacityExceeded 1))] ∧
      (replay {} text used).result = .ok ["Symbol Table:", "Name    Type    Value", "-------------------------", "",
        "Intermediate Code:", "x = 1"] ∧
      (runAll (replay {} text used).unit after).1 = [.text "t1", .symbols [], .room (some 0),
        .position (.error (.capacityExceeded 1)), .position (.error (.capacityExceeded 1))] := by
  intro used after text
  have hread : Statement.ofText? text =
      .ok [⟨.insert ⟨"z", "int", 3⟩, 0, 14⟩, ⟨.reset, 15, 20⟩, ⟨.emit ⟨"=", "1", "", "x"⟩, 21, 33⟩, ⟨.print, 34, 39⟩] := by
    decide +kernel
  have hread' : Statement.ofText? "insert y int 2\nemit + x y z\nreset" =
      .ok [⟨.insert ⟨"y", "int", 2⟩, 0, 14⟩, ⟨.emit ⟨"+", "x", "y", "z"⟩, 15, 27⟩, ⟨.reset, 28, 33⟩] := by
    decide +kernel
  let full := (runAll (.ofLimit (.bounded 1)) (busySession.take 5)).2
  have hstops : (replay {} "insert y int 2\nemit + x y z\nreset" full).unit =
      { full with symbols := full.symbols.insert ⟨"y", "int", 2⟩ } := by
    have hrun := congrArg Prod.snd (replay_of_ok hread' {} full)
    rwa [List.map_cons, Command.runAll_cons_of_ok (Command.run_insert _ _), List.map_cons,
      Command.runAll_cons_of_error (Command.run_emit_of_full (n := 1) rfl (by decide +kernel) _)] at hrun
  have hused : used = (run { full with symbols := full.symbols.insert ⟨"y", "int", 2⟩ }
      (.insert ⟨"x", "real", -1⟩)).2 := by
    rw [← hstops]
    rfl
  have hfirst : Command.Executes used [.insert ⟨"z", "int", 3⟩] [] _ := .insert (.nil _ _)
  obtain ⟨hafter, hscript⟩ := runAll_reset (.bounded 1) busySession after
  obtain ⟨hresult, hunit⟩ := hscript {} text _ _ _ _ _ hread rfl hfirst
  refine ⟨?_, ?_, ?_, ?_, ?_, ?_⟩
  · rw [hused]
    decide +kernel
  · rw [hused]
    decide +kernel
  · rw [hused]
    decide +kernel
  · rw [hafter]
    decide +kernel
  · rw [hresult]
    decide +kernel
  · rw [hunit]
    decide +kernel

end Operation

end ThreeAddress
