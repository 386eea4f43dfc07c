import ThreeAddress.Code.Program

/-!
# A program keeps the first instructions that it is offered

* `Program.Call` : a call that changes a program, with its answer; `Program.after l calls` is the program after a
  sequence of calls, from an empty one with the limit `l`;
* `Call.offered calls` : the instructions of all calls since the last clear, refused ones included, and
  `Limit.admitted l n` : how many of `n` instructions the limit lets in;
* `Program.Keeps l is p` : `p` holds the first of the instructions `is` as far as the limit `l` admits them. Every call
  keeps this (`Keeps.run`), and so does a run (`keeps_after`);
* `Program.calls_keep_first` : what can be read of a program after any calls, and the answer to the next one.
-/

namespace ThreeAddress

namespace Limit

def admitted : Limit → Nat → Nat
  | bounded c, n => min n c
  | unbounded, n => n

/-- The answer to an instruction that is offered behind `k` others. -/
def answer : Limit → Nat → Except Fault Nat
  | bounded c, k => if k < c then .ok k else .error (.capacityExceeded c)
  | unbounded, k => .ok k

theorem admitted_le (l : Limit) (n : Nat) : l.admitted n ≤ n := by
  cases l with
  | bounded c => exact Nat.min_le_left n c
  | unbounded => exact Nat.le_refl n

/-- An instruction is admitted, or there were enough of them before. -/
theorem admitted_succ_cases (l : Limit) (n : Nat) :
    (l.admitted n = n ∧ l.admitted (n + 1) = n + 1 ∧ l.answer n = .ok n) ∨
      ∃ c, l = .bounded c ∧ c ≤ n ∧ l.admitted n = c ∧ l.admitted (n + 1) = c ∧
        l.answer n = .error (.capacityExceeded c) := by
  cases l with
  | unbounded => exact .inl ⟨rfl, rfl, rfl⟩
  | bounded c =>
    rcases Nat.lt_or_ge n c with hlt | hge
    · exact .inl ⟨Nat.min_eq_left (Nat.le_of_lt hlt), Nat.min_eq_left hlt, if_pos hlt⟩
    · refine .inr ⟨c, rfl, hge, Nat.min_eq_right hge, Nat.min_eq_right (by omega), if_neg ?_⟩
      omega

end Limit

namespace Program

/-! ## Calls -/

inductive Call where
  | emit (op arg1 arg2 result : String)
  | push (instruction : Instruction)
  | clear
deriving DecidableEq, Repr

namespace Call

def offer? : Call → Option Instruction
  | emit op arg1 arg2 result => some ⟨op, arg1, arg2, result⟩
  | push i => some i
  | clear => none

/-- The answer of a call, and the program after it. A clear has no answer. -/
def run (p : Program) : Call → Option (Except Fault Nat) × Program
  | emit op arg1 arg2 result =>
    let (answer, q) := p.emit op arg1 arg2 result
    (some answer, q)
  | push i =>
    let (answer, q) := p.push i
    (some answer, q)
  | clear => (none, p.clear)

def onOffered (is : List Instruction) (call : Call) : List Instruction :=
  match call.offer? with
  | some i => is ++ [i]
  | none => []

/-- The instructions offered since the last clear, in order. -/
def offered (calls : List Call) : List Instruction := calls.foldl onOffered []

/-- An emission is a push of its instruction, so that there are but two kinds of calls. -/
theorem run_cases (p : Program) (call : Call) :
    (∃ i, call.offer? = some i ∧ call.run p = (some (p.push i).1, (p.push i).2)) ∨
      call.offer? = none ∧ call.run p = (none, p.clear) := by
  cases call with
  | emit op arg1 arg2 result => exact .inl ⟨_, rfl, rfl⟩
  | push i => exact .inl ⟨i, rfl, rfl⟩
  | clear => exact .inr ⟨rfl, rfl⟩

end Call

def after (l : Limit) (calls : List Call) : Program := calls.foldl (fun p call => (call.run p).2) { limit := l }

/-! ## The invariant -/

structure Keeps (l : Limit) (is : List Instruction) (p : Program) : Prop where
  limit : p.limit = l
  code : p.code.toList = is.take (l.admitted is.length)

namespace Keeps

variable {l : Limit} {is : List Instruction} {p : Program}

theorem nil (h : p.limit = l) : Keeps l [] p.clear := ⟨h, by rw [List.take_nil]; rfl⟩

theorem size_eq (h : Keeps l is p) : p.size = l.admitted is.length := by
  rw [size, ← Array.length_toList, h.code, List.length_take, Nat.min_eq_left (l.admitted_le is.length)]

theorem push (h : Keeps l is p) (i : Instruction) :
    (p.push i).1 = l.answer is.length ∧ Keeps l (is ++ [i]) (p.push i).2 := by
  have hlength : (is ++ [i]).length = is.length + 1 := List.length_append
  rcases l.admitted_succ_cases is.length with ⟨hnow, hnext, hanswer⟩ | ⟨c, rfl, hc, hnow, hnext, hanswer⟩
  · have hsize : p.size = is.length := h.size_eq.trans hnow
    have hroom : p.HasRoom := by
      intro c hlimit
      rw [h.limit] at hlimit
      subst hlimit
      have hle : min (is.length + 1) c = is.length + 1 := hnext
      omega
    rw [push_of_hasRoom hroom, hanswer, hsize]
    refine ⟨rfl, h.limit, ?_⟩
    show (p.code.push i).toList = _
    rw [Array.toList_push, h.code, hnow, hlength, hnext, List.take_length, ← hlength, List.take_length]
  · have hfull : c ≤ p.size := Nat.le_of_eq (h.size_eq.trans hnow).symm
    rw [push_of_full h.limit hfull, hanswer]
    refine ⟨rfl, h.limit, ?_⟩
    rw [h.code, hnow, hlength, hnext, List.take_append_of_le_length hc]

theorem run (h : Keeps l is p) (call : Call) :
    (call.run p).1 = call.offer?.map (fun _ => l.answer is.length) ∧ Keeps l (call.onOffered is) (call.run p).2 := by
  rcases call.run_cases p with ⟨i, hoffer, hrun⟩ | ⟨hoffer, hrun⟩
  · obtain ⟨hanswer, hkeeps⟩ := h.push i
    rw [hrun, Call.onOffered, hoffer, hanswer]
    exact ⟨rfl, hkeeps⟩
  · rw [hrun, Call.onOffered, hoffer]
    exact ⟨rfl, nil h.limit⟩

theorem foldl (h : Keeps l is p) (calls : List Call) :
    Keeps l (calls.foldl Call.onOffered is) (calls.foldl (fun p call => (call.run p).2) p) := by
  induction calls generalizing is p with
  | nil => exact h
  | cons call calls ih => exact ih (h.run call).2

theorem get?_eq (h : Keeps l is p) (i : Nat) : p.get? i = if i < l.admitted is.length then is[i]? else none := by
  rw [get?, ← Array.getElem?_toList, h.code, List.getElem?_take]

theorem remaining?_eq (h : Keeps l is p) : p.remaining? = l.capacity?.map (· - l.admitted is.length) := by
  rw [remaining?, h.limit, h.size_eq]

end Keeps

theorem keeps_after (l : Limit) (calls : List Call) : Keeps l (Call.offered calls) (after l calls) :=
  (Keeps.nil (p := { limit := l }) rfl).foldl calls

/-- A refused instruction leaves the program as it is. -/
theorem eq_of_push_error {p : Program} {i : Instruction} {f : Fault} (h : (p.push i).1 = .error f) :
    (p.push i).2 = p := by
  by_cases hroom : p.HasRoom
  · rw [push_of_hasRoom hroom] at h
    cases h
  · obtain ⟨c, hlimit, hc⟩ := not_hasRoom_iff.1 hroom
    rw [push_of_full hlimit hc]

/-- **A program keeps the first instructions that it is offered**, in order and as many as its limit admits. The limit
stays, and what is left of it is what the program does not hold. The next instruction is taken at the position that
counts those offered before it, or refused with the limit, and then nothing changes. A prefix of a sequence of calls is a
sequence of calls, so this holds at each of them. -/
theorem calls_keep_first (l : Limit) (calls : List Call) :
    (after l calls).limit = l ∧
    (after l calls).code.toList = (Call.offered calls).take (l.admitted (Call.offered calls).length) ∧
    (after l calls).size = l.admitted (Call.offered calls).length ∧
    (∀ i, (after l calls).get? i =
      if i < l.admitted (Call.offered calls).length then (Call.offered calls)[i]? else none) ∧
    (∀ c, l = .bounded c → ∃ room, (after l calls).remaining? = some room ∧ (after l calls).size + room = c) ∧
    (l = .unbounded → (after l calls).remaining? = none) ∧
    ∀ call : Call, (call.run (after l calls)).1 = call.offer?.map (fun _ => l.answer (Call.offered calls).length) ∧
      ∀ f, (call.run (after l calls)).1 = some (.error f) →
        (call.run (after l calls)).2.code = (after l calls).code ∧
          (call.run (after l calls)).2.report = (after l calls).report := by
  have h := keeps_after l calls
  refine ⟨h.limit, h.code, h.size_eq, h.get?_eq, ?bounded, ?unbounded,
    fun call => ⟨(h.run call).1, fun f hf => ?refused⟩⟩
  case bounded =>
    rintro c rfl
    have hle : (Limit.bounded c).admitted (Call.offered calls).length ≤ c := Nat.min_le_right _ c
    refine ⟨c - (Limit.bounded c).admitted (Call.offered calls).length, h.remaining?_eq, ?_⟩
    rw [h.size_eq]
    omega
  case unbounded =>
    rintro rfl
    exact h.remaining?_eq
  case refused =>
    rcases call.run_cases (after l calls) with ⟨i, -, hrun⟩ | ⟨-, hrun⟩
    · rw [hrun] at hf ⊢
      rw [eq_of_push_error (Option.some.inj hf)]
      exact ⟨rfl, rfl⟩
    · rw [hrun] at hf
      cases hf

/-- The second instruction behind the clear is refused, and so is the one after it; without a limit none is. -/
theorem calls_keep_first_oneRoom :
    let calls : List Call := [.push ⟨"*", "a", "b", "t"⟩, .clear, .emit "=" "1" "" "x", .push ⟨"+", "x", "x", "y"⟩]
    let next : Call := .emit "=" "y" "" "x"
    Call.offered calls = [⟨"=", "1", "", "x"⟩, ⟨"+", "x", "x", "y"⟩] ∧
      (after (.bounded 1) calls).remaining? = some 0 ∧
      (next.run (after (.bounded 1) calls)).1 = some (.error (.capacityExceeded 1)) ∧
      (next.run (after (.bounded 1) calls)).2.report = "Intermediate Code:\nx = 1\n" ∧
      (after .unbounded calls).remaining? = none ∧ (next.run (after .unbounded calls)).1 = some (.ok 2) := by
  intro calls next
  obtain ⟨-, -, hsize, -, hroom, -, hnext⟩ := calls_keep_first (.bounded 1) calls
  obtain ⟨room, hremaining, hsum⟩ := hroom 1 rfl
  obtain ⟨hanswer, hrefused⟩ := hnext next
  have hone : (after (.bounded 1) calls).size = 1 := hsize
  have hnone : room = 0 := by omega
  obtain ⟨-, -, -, -, -, hunbounded, htaken⟩ := calls_keep_first .unbounded calls
  refine ⟨rfl, hnone ▸ hremaining, hanswer, ?_, hunbounded rfl, (htaken next).1⟩
  rw [(hrefused _ hanswer).2]
  decide +kernel

end Program

end ThreeAddress
