import Mathlib.Data.List.DropRight
import ThreeAddress.Proofs.Replay.Execution

/-!
# When a replay stays within its limit

* `Command.load n cs` : how many instructions there are after the commands `cs`, with `n` of them before. It is
  counted from the commands alone, from the last reset on; `Limit.Fits l n cs` : no prefix of `cs` has a load above
  the limit `l`;
* `Command.run_withLimit`, `Command.runAll_withLimit` : what commands do is the same under every limit that they
  fit; `Command.runAll_of_not_fits` : under any other one the run fails;
* `replay_bounded_iff` : so a replay succeeds exactly when it fits, and then the limit makes no difference.
-/

namespace ThreeAddress

/-! ## Loads -/

namespace Command

def isEmit : Command → Bool
  | emit _ => true
  | _ => false

/-- The commands behind the last reset, or all of them where there is none. -/
def sinceReset (cs : List Command) : List Command := cs.rtakeWhile (· ≠ .reset)

def load (n : Nat) (cs : List Command) : Nat :=
  (if .reset ∈ cs then 0 else n) + (sinceReset cs).countP isEmit

theorem sinceReset_of_notMem {cs : List Command} (h : .reset ∉ cs) : sinceReset cs = cs := by
  unfold sinceReset
  rw [List.rtakeWhile_eq_self_iff]
  intro c hc
  exact decide_eq_true fun hreset => h (hreset ▸ hc)

theorem sinceReset_cons_of_mem {cs : List Command} (h : .reset ∈ cs) (c : Command) :
    sinceReset (c :: cs) = sinceReset cs := by
  have hne : (cs.reverse.takeWhile (· ≠ .reset)).length ≠ cs.reverse.length := by
    intro hlen
    have hall := (List.takeWhile_prefix (· ≠ Command.reset)).eq_of_length hlen
    rw [List.takeWhile_eq_self_iff] at hall
    exact absurd (hall _ (List.mem_reverse.2 h)) (by decide)
  unfold sinceReset List.rtakeWhile
  rw [List.reverse_cons, List.takeWhile_append, if_neg hne]

theorem sinceReset_cons_of_notMem {cs : List Command} (h : .reset ∉ cs) (c : Command) :
    sinceReset (c :: cs) = sinceReset [c] ++ cs := by
  have hall : ∀ d ∈ cs.reverse, decide (d ≠ .reset) = true := fun d hd =>
    decide_eq_true fun hreset => h (hreset ▸ List.mem_reverse.1 hd)
  unfold sinceReset List.rtakeWhile
  rw [List.reverse_cons, List.takeWhile_append_of_pos hall, List.reverse_append, List.reverse_reverse]
  rfl

@[simp] theorem load_nil (n : Nat) : load n [] = n := by
  simp [load, sinceReset]

@[simp] theorem load_insert (n : Nat) (s : Symbol) : load n [.insert s] = n := rfl

@[simp] theorem load_lookup (n : Nat) (name : String) : load n [.lookup name] = n := rfl

@[simp] theorem load_emit (n : Nat) (i : Instruction) : load n [.emit i] = n + 1 := rfl

@[simp] theorem load_reset (n : Nat) : load n [.reset] = 0 := rfl

@[simp] theorem load_print (n : Nat) : load n [.print] = n := rfl

/-- Commands add to the load one after the other. -/
theorem load_cons (n : Nat) (c : Command) (cs : List Command) : load n (c :: cs) = load (load n [c]) cs := by
  unfold load
  by_cases h : .reset ∈ cs
  · rw [if_pos (List.mem_cons_of_mem _ h), if_pos h, sinceReset_cons_of_mem h]
  · have hmem : .reset ∈ c :: cs ↔ .reset ∈ [c] := by simp [h]
    rw [if_neg h, sinceReset_cons_of_notMem h, sinceReset_of_notMem h, List.countP_append, ← Nat.add_assoc]
    simp only [hmem]

end Command

namespace Limit

/-- A program of `k` instructions is within the limit. -/
def Admits (l : Limit) (k : Nat) : Prop := ∀ n, l = .bounded n → k ≤ n

/-- With `n` instructions at the start, no prefix of the commands leads above the limit. -/
def Fits (l : Limit) (n : Nat) (cs : List Command) : Prop := ∀ p, p <+: cs → l.Admits (Command.load n p)

@[simp] theorem admits_bounded {n k : Nat} : (bounded n).Admits k ↔ k ≤ n := by
  simp [Admits]

@[simp] theorem admits_unbounded (k : Nat) : unbounded.Admits k := by
  simp [Admits]

theorem fits_unbounded (n : Nat) (cs : List Command) : unbounded.Fits n cs := fun _ _ => admits_unbounded _

theorem Fits.mono {m n k : Nat} (h : m ≤ n) {cs : List Command} (hm : (bounded m).Fits k cs) :
    (bounded n).Fits k cs := by
  intro p hp
  have hload := hm p hp
  rw [admits_bounded] at hload ⊢
  omega

theorem fits_nil_iff {l : Limit} {n : Nat} : l.Fits n [] ↔ l.Admits n := by
  simp [Fits]

theorem fits_cons_iff {l : Limit} {n : Nat} {c : Command} {cs : List Command} :
    l.Fits n (c :: cs) ↔ l.Admits n ∧ l.Fits (Command.load n [c]) cs := by
  constructor
  · intro h
    refine ⟨by simpa using h [] (List.nil_prefix), fun p hp => ?_⟩
    rw [← Command.load_cons]
    exact h (c :: p) (List.cons_prefix_cons.2 ⟨rfl, hp⟩)
  · rintro ⟨hn, h⟩ p hp
    rcases List.prefix_cons_iff.1 hp with rfl | ⟨q, rfl, hq⟩
    · rwa [Command.load_nil]
    · rw [Command.load_cons]
      exact h q hq

theorem Fits.admits {l : Limit} {n : Nat} {cs : List Command} (h : l.Fits n cs) : l.Admits n := by
  simpa using h [] List.nil_prefix

end Limit

/-! ## Units under other limits -/

/-- The same unit under another limit. -/
def CompilationUnit.withLimit (u : CompilationUnit) (l : Limit) : CompilationUnit :=
  { u with program := { u.program with limit := l } }

theorem CompilationUnit.withLimit_eq_self {u : CompilationUnit} {l : Limit} (h : u.program.limit = l) :
    u.withLimit l = u := by
  rw [← h]
  rfl

namespace Command

/-- A command does the same under every limit that it fits. -/
theorem run_withLimit (u : CompilationUnit) (c : Command) :
    ∃ (out : List String) (v : CompilationUnit), v.program.size = load u.program.size [c] ∧
      ∀ l : Limit, l.Admits v.program.size → c.run (u.withLimit l) = (.ok out, v.withLimit l) := by
  cases c with
  | emit i =>
    refine ⟨[], { u with program := { u.program with code := u.program.code.push i } }, ?_, fun l hl => ?_⟩
    · exact Array.size_push ..
    · have hroom : (u.withLimit l).program.HasRoom := by
        intro n hn
        have hsize : u.program.code.size + 1 ≤ n := by
          have := hl n hn
          rwa [Program.size, Array.size_push] at this
        exact hsize
      rw [run_emit_of_hasRoom hroom]
      rfl
  | insert s => exact ⟨[], { u with symbols := u.symbols.insert s }, rfl, fun l _ => run_insert (u.withLimit l) s⟩
  | lookup name => exact ⟨[u.symbols.answer name], u, rfl, fun _ _ => rfl⟩
  | reset => exact ⟨[], u.reset, rfl, fun _ _ => rfl⟩
  | print => exact ⟨(Text.lines u.report.toList).map String.ofList, u, rfl, fun _ _ => rfl⟩

theorem runAll_withLimit (u : CompilationUnit) (cs : List Command) :
    ∃ (out : List String) (v : CompilationUnit), v.program.size = load u.program.size cs ∧
      ∀ l : Limit, l.Fits u.program.size cs → runAll (u.withLimit l) cs = (.ok out, v.withLimit l) := by
  induction cs generalizing u with
  | nil => exact ⟨[], u, (load_nil _).symm, fun _ _ => rfl⟩
  | cons c cs ih =>
    obtain ⟨out, v, hv, hrun⟩ := run_withLimit u c
    obtain ⟨outs, w, hw, hruns⟩ := ih v
    refine ⟨out ++ outs, w, by rw [load_cons, ← hv, hw], fun l hl => ?_⟩
    obtain ⟨-, hfits⟩ := Limit.fits_cons_iff.1 hl
    rw [← hv] at hfits
    rw [runAll_cons_of_ok (hrun l hfits.admits), hruns l hfits]
    rfl

/-- The first command that does not fit is an emission into a full program. -/
theorem runAll_of_not_fits {u : CompilationUnit} {n : Nat} (hsize : u.program.size ≤ n) {cs : List Command}
    (h : ¬(Limit.bounded n).Fits u.program.size cs) :
    (runAll (u.withLimit (.bounded n)) cs).1 = .error (.capacityExceeded n) := by
  induction cs generalizing u with
  | nil => exact absurd (Limit.fits_nil_iff.2 (Limit.admits_bounded.2 hsize)) h
  | cons c cs ih =>
    obtain ⟨out, v, hv, hrun⟩ := run_withLimit u c
    by_cases hload : load u.program.size [c] ≤ n
    · have hrest : ¬(Limit.bounded n).Fits v.program.size cs := by
        rw [hv]
        exact fun hfits => h (Limit.fits_cons_iff.2 ⟨Limit.admits_bounded.2 hsize, hfits⟩)
      have hvsize : v.program.size ≤ n := hv ▸ hload
      rw [runAll_cons_of_ok (hrun _ (Limit.admits_bounded.2 hvsize)), ih hvsize hrest]
      rfl
    · cases c with
      | emit i =>
        have hfull : n ≤ u.program.size := by
          rw [load_emit] at hload
          omega
        rw [runAll_cons_of_error (run_emit_of_full (u := u.withLimit (.bounded n)) rfl hfull i)]
      | reset => exact absurd (Nat.zero_le n) hload
      | insert s => exact absurd hsize hload
      | lookup name => exact absurd hsize hload
      | print => exact absurd hsize hload

end Command

/-! ## Replays under other limits -/

section Replays

variable {text : String} {ss : List Statement}

theorem replay_withLimit (hread : Statement.ofText? text = .ok ss) (tell : Verbosity) (u : CompilationUnit) :
    ∃ (out : List String) (v : CompilationUnit), ∀ l : Limit, l.Fits u.program.size (ss.map (·.command)) →
      (replay tell text (u.withLimit l)).result = .ok out ∧
        (replay tell text (u.withLimit l)).unit = v.withLimit l := by
  obtain ⟨out, v, -, hrun⟩ := Command.runAll_withLimit u (ss.map (·.command))
  refine ⟨out, v, fun l hl => ?_⟩
  rw [← Prod.mk.injEq, replay_of_ok hread]
  exact hrun l hl

theorem replay_of_not_fits (hread : Statement.ofText? text = .ok ss) (tell : Verbosity) {u : CompilationUnit} {n : Nat}
    (hsize : u.program.size ≤ n) (h : ¬(Limit.bounded n).Fits u.program.size (ss.map (·.command))) :
    (replay tell text (u.withLimit (.bounded n))).result = .error (.capacityExceeded n) := by
  have hrun := Command.runAll_of_not_fits hsize h
  rwa [← replay_of_ok hread tell] at hrun

end Replays

/-- **A replay succeeds under a limit exactly when no prefix of its commands has a load above it**, and then it
prints, declares and emits what it would without a limit. Otherwise it ends with the fault of a full program. So a
larger limit is never in the way. -/
theorem replay_bounded_iff {text : String} {ss : List Statement} (hread : Statement.ofText? text = .ok ss)
    {u : CompilationUnit} {n : Nat} (hlimit : u.program.limit = .bounded n) (hsize : u.program.size ≤ n)
    (tell : Verbosity) :
    let fits := ∀ p, p <+: ss.map (·.command) → Command.load u.program.size p ≤ n
    let here := replay tell text u
    let free := replay tell text (u.withLimit .unbounded)
    ((∃ out, here.result = .ok out) ↔ fits) ∧
    (fits → here.result = free.result ∧ here.unit.symbols = free.unit.symbols ∧
      here.unit.program.code = free.unit.program.code ∧ here.unit.report = free.unit.report) ∧
    (¬fits → here.result = .error (.capacityExceeded n)) ∧
    ∀ m, n ≤ m → (∃ out, here.result = .ok out) →
      ∃ out, (replay tell text (u.withLimit (.bounded m))).result = .ok out := by
  intro fits here free
  have hfits : fits ↔ (Limit.bounded n).Fits u.program.size (ss.map (·.command)) := by
    simp only [Limit.Fits, Limit.admits_bounded, fits]
  have hself : u.withLimit (.bounded n) = u := CompilationUnit.withLimit_eq_self hlimit
  obtain ⟨out, v, hunder⟩ := replay_withLimit hread tell u
  have hhere (h : fits) : here.result = .ok out ∧ here.unit = v.withLimit (.bounded n) := by
    have := hunder _ (hfits.1 h)
    rwa [hself] at this
  have hfull (h : ¬fits) : here.result = .error (.capacityExceeded n) := by
    have := replay_of_not_fits hread tell hsize (mt hfits.2 h)
    rwa [hself] at this
  have hok : (∃ out, here.result = .ok out) ↔ fits := by
    refine ⟨fun ⟨out, hout⟩ => ?_, fun h => ⟨out, (hhere h).1⟩⟩
    by_contra h
    rw [hfull h] at hout
    cases hout
  refine ⟨hok, fun h => ?_, hfull, fun m hm h => ?_⟩
  · obtain ⟨hresult, hunit⟩ := hhere h
    obtain ⟨hresult', hunit'⟩ := hunder _ (Limit.fits_unbounded _ _)
    rw [hresult, hunit, show free.result = _ from hresult', show free.unit = _ from hunit']
    exact ⟨rfl, rfl, rfl, rfl⟩
  · exact ⟨out, (hunder _ ((hfits.1 (hok.1 h)).mono hm)).1⟩

/-- A full program, in which an emission needs a reset before it. -/
def fullUnit : CompilationUnit := { program := { limit := .bounded 1, code := #[⟨"=", "a", "", "b"⟩] } }

theorem replay_bounded_iff_fullUnit :
    fullUnit.program.limit = .bounded 1 ∧ fullUnit.program.size ≤ 1 ∧
      (Statement.ofText? "reset\nemit + a b t" = .ok [⟨.reset, 0, 5⟩, ⟨.emit ⟨"+", "a", "b", "t"⟩, 6, 18⟩] ∧
        ∃ out, (replay {} "reset\nemit + a b t" fullUnit).result = .ok out) ∧
      (Statement.ofText? "emit + a b t" = .ok [⟨.emit ⟨"+", "a", "b", "t"⟩, 0, 12⟩] ∧
        (replay {} "emit + a b t" fullUnit).result = .error (.capacityExceeded 1)) := by
  have hread : Statement.ofText? "reset\nemit + a b t" =
      .ok [⟨.reset, 0, 5⟩, ⟨.emit ⟨"+", "a", "b", "t"⟩, 6, 18⟩] := by decide +kernel
  have hread' : Statement.ofText? "emit + a b t" = .ok [⟨.emit ⟨"+", "a", "b", "t"⟩, 0, 12⟩] := by decide +kernel
  have hsize : fullUnit.program.size ≤ 1 := by decide
  have hfits : (Limit.bounded 1).Fits fullUnit.program.size [.reset, .emit ⟨"+", "a", "b", "t"⟩] := by
    simp [Limit.fits_cons_iff, Limit.fits_nil_iff, hsize]
  have hfull : ¬Command.load fullUnit.program.size [.emit ⟨"+", "a", "b", "t"⟩] ≤ 1 := by decide
  refine ⟨rfl, hsize, ⟨hread, ?_⟩, hread', ?_⟩
  · exact (replay_bounded_iff hread rfl hsize {}).1.2 fun p hp => Limit.admits_bounded.1 (hfits p hp)
  · exact (replay_bounded_iff hread' rfl hsize {}).2.2.1 fun h => hfull (h _ (List.prefix_refl _))

end ThreeAddress
