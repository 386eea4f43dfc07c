import Mathlib.Data.List.Nodup
import ThreeAddress.Proofs.Replay.Independence
import ThreeAddress.Proofs.Unit.Session

/-!
# Fresh names between resets

A counter is moved by one operation only and set back by resets only, so that between two resets the names of a sort are
numbered from one, whatever else is done to the unit.

* `Operation.mentionsReset` : the operation is a reset or has one in its script; `Operation.Resets u op` : it does empty
  the unit `u`;
* `Operation.runAll_append` : a session in two parts; `Operation.answersTo` : the answers to some of its operations;
* `Numbering` : a sort of names, given by the operation that hands them out, their letter and their counter.
  `Numbering.answersTo_eq` : the names of the sort that a session hands out;
* `fresh_since_reset` : the names that are handed out behind a reset are numbered by sort and all different.
-/

namespace ThreeAddress
open Text

namespace Operation

/-! ## Resets -/

/-- The operation is a reset, or a command of its script is one. -/
def mentionsReset : Operation → Bool
  | reset => true
  | command c => c = .reset
  | script _ text => (Statement.ofText? text).toOption.any fun ss => ss.any (·.command = .reset)
  | insert _ | init | push _ | clear | temp | label | read _ => false

/-- The operation empties the unit. A reset in a script does so when the commands in front of it succeed. -/
inductive Resets (u : CompilationUnit) : Operation → Prop
  | reset : Resets u .reset
  | command : Resets u (.command .reset)
  | script {tell : Verbosity} {text : String} {ss : List Statement} {cs ds : List Command} {out : List String}
      {v : CompilationUnit} (read : Statement.ofText? text = .ok ss)
      (commands : ss.map (·.command) = cs ++ .reset :: ds) (reached : Command.Executes u cs out v) :
      Resets u (.script tell text)

/-- Behind a reset in a script no other command of it hands out a name. -/
theorem Resets.names_eq {u : CompilationUnit} {op : Operation} (h : op.Resets u) : (op.run u).2.names = {} := by
  cases h with
  | reset => rfl
  | command => rfl
  | @script tell text ss cs ds out v read commands reached =>
    have hrun := replay_of_ok read tell u
    rw [commands, reached.runAll_append_reset] at hrun
    have hunit : ((Operation.script tell text).run u).2 = (Command.runAll (.ofLimit u.program.limit) ds).2 :=
      congrArg Prod.snd hrun
    rw [hunit]
    refine Command.runAll_invariant (P := fun w => w.names = {}) (fun c _ w hw => ?_) rfl
    rw [Command.names_run, hw, ite_self]

theorem names_run {op : Operation} (h : op.mentionsReset = false) (htemp : op ≠ .temp) (hlabel : op ≠ .label)
    (u : CompilationUnit) : (op.run u).2.names = u.names := by
  cases op with
  | temp => exact absurd rfl htemp
  | label => exact absurd rfl hlabel
  | reset => cases h
  | command c =>
    have hc : c ≠ .reset := of_decide_eq_false h
    exact (Command.names_run u c).trans (if_neg hc)
  | script tell text =>
    refine replay_invariant (P := fun w => w.names = u.names) (fun ss hread c hc w hw => ?_) tell rfl
    have hnone : ∀ s ∈ ss, s.command ≠ .reset := by
      rw [mentionsReset, hread] at h
      simpa using List.any_eq_false.1 h
    obtain ⟨s, hs, rfl⟩ := List.mem_map.1 hc
    rw [Command.names_run, if_neg (hnone s hs), hw]
  | insert _ | init | push _ | clear | read _ => rfl

/-! ## Sessions and their answers -/

theorem runAll_cons (u : CompilationUnit) (op : Operation) (ops : List Operation) :
    runAll u (op :: ops) = ((op.run u).1 :: (runAll (op.run u).2 ops).1, (runAll (op.run u).2 ops).2) := rfl

theorem length_answers (u : CompilationUnit) (ops : List Operation) : (runAll u ops).1.length = ops.length := by
  induction ops generalizing u with
  | nil => rfl
  | cons op ops ih => exact congrArg (· + 1) (ih (op.run u).2)

theorem runAll_append (u : CompilationUnit) (before after : List Operation) :
    runAll u (before ++ after) =
      ((runAll u before).1 ++ (runAll (runAll u before).2 after).1, (runAll (runAll u before).2 after).2) := by
  induction before generalizing u with
  | nil => rfl
  | cons op before ih =>
    rw [List.cons_append, runAll_cons, ih]
    rfl

theorem drop_answers (u : CompilationUnit) (before after : List Operation) :
    (runAll u (before ++ after)).1.drop before.length = (runAll (runAll u before).2 after).1 := by
  rw [runAll_append, ← length_answers u before, List.drop_left]

theorem names_eq_of_resets {l : Limit} {before : List Operation}
    (h : before = [] ∨ ∃ front op, before = front ++ [op] ∧ op.Resets (runAll (.ofLimit l) front).2) :
    (runAll (.ofLimit l) before).2.names = {} := by
  rcases h with rfl | ⟨front, op, rfl, hop⟩
  · rfl
  · rw [runAll_append]
    exact hop.names_eq

/-- The answers to the operations that `p` picks out, in order. -/
def answersTo (p : Operation → Bool) (ops : List Operation) (answers : List Answer) : List Answer :=
  ((ops.zip answers).filter (p ·.1)).map (·.2)

theorem answersTo_cons (p : Operation → Bool) (op : Operation) (ops : List Operation) (answer : Answer)
    (answers : List Answer) :
    answersTo p (op :: ops) (answer :: answers) =
      if p op then answer :: answersTo p ops answers else answersTo p ops answers := by
  unfold answersTo
  rw [List.zip_cons_cons, List.filter_cons]
  split <;> rfl

/-- Where no operation is of two sorts, the answers to both sorts are those to the one and those to the other. -/
theorem answersTo_or_perm {p q : Operation → Bool} (h : ∀ op, p op = true → q op = false) (ops : List Operation)
    (answers : List Answer) :
    (answersTo (fun op => p op || q op) ops answers).Perm (answersTo p ops answers ++ answersTo q ops answers) := by
  unfold answersTo
  rw [← List.map_append]
  refine List.Perm.map _ ((List.filter_append_perm (p ·.1) _).symm.trans (.of_eq ?_))
  rw [List.filter_filter, List.filter_filter]
  congr 1
  · refine List.filter_congr fun e _ => ?_
    cases hp : p e.1 <;> simp [hp]
  · refine List.filter_congr fun e _ => ?_
    cases hp : p e.1
    · simp [hp]
    · simp [hp, h e.1 hp]

end Operation

/-! ## Names of one sort -/

/-- A sort of names: one operation hands them out, and nothing but a reset moves their counter besides. -/
structure Numbering where
  ask : Operation
  letter : String
  counter : FreshNames → UInt32
  counter_new : counter {} = 0
  answer_ask : ∀ u, (ask.run u).1 = .text (letter ++ Decimal.ofNat (counter u.names + 1).toNat)
  counter_ask : ∀ u, counter (ask.run u).2.names = counter u.names + 1
  counter_run : ∀ op u, op ≠ ask → op.mentionsReset = false → counter (op.run u).2.names = counter u.names

namespace Numbering
open Operation

def temps : Numbering where
  ask := .temp
  letter := "t"
  counter := (·.temps)
  counter_new := rfl
  answer_ask _ := rfl
  counter_ask _ := rfl
  counter_run op u hne h := by
    by_cases hlabel : op = .label
    · rw [hlabel]
      rfl
    · rw [names_run h hne hlabel]

def labels : Numbering where
  ask := .label
  letter := "L"
  counter := (·.labels)
  counter_new := rfl
  answer_ask _ := rfl
  counter_ask _ := rfl
  counter_run op u hne h := by
    by_cases htemp : op = .temp
    · rw [htemp]
      rfl
    · rw [names_run h htemp hne]

variable (sort : Numbering)

/-- The name with the number `k`. -/
def name (k : Nat) : Answer := .text (sort.letter ++ toString k)

theorem name_injective : Function.Injective sort.name := by
  intro j k h
  have hdigits := (String.append_right_inj _).1 (Answer.text.inj h)
  rw [Nat.toString_eq_ofList_toDigits, Nat.toString_eq_ofList_toDigits] at hdigits
  exact Decimal.ofNat_injective hdigits

/-- A session numbers its names from where the counter stands, as long as the counter does not run over. -/
theorem answersTo_eq {ops : List Operation} (h : ∀ op ∈ ops, op.mentionsReset = false) (u : CompilationUnit)
    (hcount : (sort.counter u.names).toNat + ops.count sort.ask < UInt32.size) :
    answersTo (· = sort.ask) ops (runAll u ops).1 =
      (List.range' ((sort.counter u.names).toNat + 1) (ops.count sort.ask)).map sort.name := by
  induction ops generalizing u with
  | nil => rfl
  | cons op ops ih =>
    rw [List.forall_mem_cons] at h
    rw [runAll_cons, answersTo_cons]
    by_cases hop : op = sort.ask
    · rw [hop, List.count_cons_self] at hcount
      have hnext : (sort.counter u.names + 1).toNat = (sort.counter u.names).toNat + 1 := by
        rw [UInt32.toNat_add]
        exact Nat.mod_eq_of_lt (Nat.lt_of_le_of_lt (Nat.add_le_add_left (Nat.le_add_left 1 _) _) hcount)
      have hih := ih h.2 (op.run u).2
      rw [hop, sort.counter_ask, hnext] at hih
      rw [hop, if_pos (decide_eq_true rfl), List.count_cons_self, List.range'_succ, List.map_cons, hih (by omega),
        sort.answer_ask, hnext, name, Nat.toString_eq_ofList_toDigits, Decimal.ofNat]
    · rw [List.count_cons_of_ne hop] at hcount
      have hih := ih h.2 (op.run u).2
      rw [sort.counter_run op u hop h.1] at hih
      rw [if_neg (by simpa using hop), List.count_cons_of_ne hop]
      exact hih hcount

/-- From a unit that has handed out no name the numbers start with one. -/
theorem answersTo_of_new {ops : List Operation} (h : ∀ op ∈ ops, op.mentionsReset = false) {u : CompilationUnit}
    (hu : u.names = {}) (hcount : ops.count sort.ask < UInt32.size) :
    answersTo (· = sort.ask) ops (runAll u ops).1 = (List.range' 1 (ops.count sort.ask)).map sort.name := by
  have hzero : (sort.counter u.names).toNat = 0 := by
    rw [hu, sort.counter_new]
    rfl
  have hnames := sort.answersTo_eq h u
  rw [hzero, Nat.zero_add, Nat.zero_add] at hnames
  exact hnames hcount

theorem nodup_map_name (n : Nat) : ((List.range' 1 n).map sort.name).Nodup :=
  List.Nodup.map sort.name_injective (List.nodup_range' 1)

theorem temps_ne_labels (j k : Nat) : temps.name j ≠ labels.name k := by
  intro h
  have hletter := congrArg (·.toList.head?) (Answer.text.inj h)
  simp [temps, labels] at hletter

end Numbering

/-! ## All names -/

/-- **No name is handed out twice between two resets.** Behind a reset, in a script or not, and at the start of a session,
the `k`-th temporary is `t` and the `k`-th label `L` with the number `k` behind it, until a counter runs over. No name of
one sort is one of the other, and none comes again, in whatever order they are asked for and whatever is done to the table
and the program in between. -/
theorem fresh_since_reset (l : Limit) {before after : List Operation}
    (hbefore : before = [] ∨
      ∃ front op, before = front ++ [op] ∧ op.Resets (Operation.runAll (.ofLimit l) front).2)
    (hafter : ∀ op ∈ after, op.mentionsReset = false) (htemps : after.count .temp < UInt32.size)
    (hlabels : after.count .label < UInt32.size) :
    let answers := (Operation.runAll (.ofLimit l) (before ++ after)).1.drop before.length
    let temps := Operation.answersTo (· = .temp) after answers
    let labels := Operation.answersTo (· = .label) after answers
    temps = (List.range' 1 (after.count .temp)).map (fun k => .text ("t" ++ toString k)) ∧
      labels = (List.range' 1 (after.count .label)).map (fun k => .text ("L" ++ toString k)) ∧
      (∀ name ∈ temps, name ∉ labels) ∧
      (Operation.answersTo (fun op => op = .temp || op = .label) after answers).Nodup := by
  intro answers temps labels
  have hnew := Operation.names_eq_of_resets hbefore
  have hanswers : answers = (Operation.runAll (Operation.runAll (.ofLimit l) before).2 after).1 :=
    Operation.drop_answers (.ofLimit l) before after
  have htemp : temps = (List.range' 1 (after.count .temp)).map Numbering.temps.name := by
    show Operation.answersTo _ after answers = _
    rw [hanswers]
    exact Numbering.temps.answersTo_of_new hafter hnew htemps
  have hlabel : labels = (List.range' 1 (after.count .label)).map Numbering.labels.name := by
    show Operation.answersTo _ after answers = _
    rw [hanswers]
    exact Numbering.labels.answersTo_of_new hafter hnew hlabels
  have hdisjoint : ∀ name ∈ temps, name ∉ labels := by
    intro name ht hl
    rw [htemp] at ht
    rw [hlabel] at hl
    obtain ⟨j, -, rfl⟩ := List.mem_map.1 ht
    obtain ⟨k, -, hk⟩ := List.mem_map.1 hl
    exact Numbering.temps_ne_labels j k hk.symm
  refine ⟨htemp, hlabel, hdisjoint, ?_⟩
  refine (Operation.answersTo_or_perm (fun op hop => ?_) after answers).nodup_iff.2 (List.nodup_append.2 ⟨?_, ?_, ?_⟩)
  · rw [of_decide_eq_true hop]
    rfl
  · show temps.Nodup
    rw [htemp]
    exact Numbering.temps.nodup_map_name _
  · show labels.Nodup
    rw [hlabel]
    exact Numbering.labels.nodup_map_name _
  · rintro name ht _ hl rfl
    exact hdisjoint name ht hl

/-- The last reset stands in a script whose last command then fails. -/
theorem fresh_since_reset_scriptedReset :
    let before : List Operation := [.temp, .label, .script {} "lookup x\nreset\nemit = 1 _ x\nemit = 2 _ x"]
    let after : List Operation := [.label, .temp, .script {} "insert x int 1", .init, .temp, .command .print, .label,
      .clear, .push ⟨"=", "1", "", "t2"⟩, .temp]
    let answers := (Operation.runAll (.ofLimit (.bounded 1)) (before ++ after)).1.drop 3
    (∃ front op, before = front ++ [op] ∧ op.Resets (Operation.runAll (.ofLimit (.bounded 1)) front).2) ∧
      (∀ op ∈ after, op.mentionsReset = false) ∧ after.count .temp < UInt32.size ∧ after.count .label < UInt32.size ∧
      Operation.answersTo (· = .temp) after answers = [.text "t1", .text "t2", .text "t3"] ∧
      Operation.answersTo (· = .label) after answers = [.text "L1", .text "L2"] := by
  intro before after answers
  have hread : Statement.ofText? "lookup x\nreset\nemit = 1 _ x\nemit = 2 _ x" = .ok
      [⟨.lookup "x", 0, 8⟩, ⟨.reset, 9, 14⟩, ⟨.emit ⟨"=", "1", "", "x"⟩, 15, 27⟩,
        ⟨.emit ⟨"=", "2", "", "x"⟩, 28, 40⟩] := by decide +kernel
  have hreset : ∃ front op, before = front ++ [op] ∧
      op.Resets (Operation.runAll (.ofLimit (.bounded 1)) front).2 :=
    ⟨[.temp, .label], _, rfl,
      .script hread (rfl : _ = [Command.lookup "x"] ++ .reset :: _) (Command.runAll_ok_iff.1 rfl)⟩
  have hafter : ∀ op ∈ after, op.mentionsReset = false := by decide +kernel
  have htemps : after.count .temp < UInt32.size := by decide +kernel
  have hlabels : after.count .label < UInt32.size := by decide +kernel
  obtain ⟨htemp, hlabel, -⟩ := fresh_since_reset (.bounded 1) (.inr hreset) hafter htemps hlabels
  refine ⟨hreset, hafter, htemps, hlabels, htemp.trans ?_, hlabel.trans ?_⟩
  · decide +kernel
  · decide +kernel

end ThreeAddress
