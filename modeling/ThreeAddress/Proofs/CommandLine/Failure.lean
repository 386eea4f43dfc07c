import ThreeAddress.Proofs.CommandLine.Output
import ThreeAddress.Proofs.Replay.Capacity

/-!
# Runs that fail

A run whose script cannot be replayed tells why, and that is all it does.

* `Options.Refuses o content reason` : why a script of this content is not replayed under the options `o`. It is no
  text, some line of it is no command, or its commands go over the limit; else it is replayed
  (`Options.refuses_or_replays`);
* `run_of_decode_error`, `run_of_replay_error` : what a run leaves behind that stops before or in its script;
* `run_of_refuses` : whatever was printed before the fault, such a run writes to standard error only.
-/

namespace ThreeAddress.CommandLine
open Text

/-! ## Scripts that are not replayed -/

/-- Why the content of a script file is not replayed, as it is told behind `error: `. -/
inductive Options.Refuses (o : Options) (content : ByteArray) : String → Prop
  | notText (htext : String.fromUTF8? content = none) :
      Refuses o content ("cannot read " ++ o.input ++ ": " ++ "stream did not contain valid UTF-8")
  | badScript {source : String} {f : SyntaxFault} (htext : String.fromUTF8? content = some source)
      (hread : Statement.ofText? source = .error f) : Refuses o content "invalid command script"
  | overLimit {source : String} {ss : List Statement} {n : Nat} (htext : String.fromUTF8? content = some source)
      (hread : Statement.ofText? source = .ok ss) (hlimit : o.limit = .bounded n)
      (hfull : ¬(Limit.bounded n).Fits 0 (ss.map (·.command))) :
      Refuses o content (Fault.capacityExceeded n).message

/-- The content is a script, and all its commands succeed on a fresh unit. -/
def Options.Replays (o : Options) (content : ByteArray) : Prop :=
  ∃ source lines, String.fromUTF8? content = some source ∧
    (replay o.verbosity source (.ofLimit o.limit)).result = .ok lines

section
variable {o : Options} {source : String} {ss : List Statement}

theorem replay_of_over_limit {n : Nat} (hread : Statement.ofText? source = .ok ss) (hlimit : o.limit = .bounded n)
    (hfull : ¬(Limit.bounded n).Fits 0 (ss.map (·.command))) :
    (replay o.verbosity source (.ofLimit o.limit)).result = .error (.capacityExceeded n) := by
  rw [hlimit]
  exact replay_of_not_fits (u := .ofLimit (.bounded n)) hread o.verbosity (Nat.zero_le n) hfull

theorem replay_of_fits (hread : Statement.ofText? source = .ok ss) (hfits : o.limit.Fits 0 (ss.map (·.command))) :
    ∃ lines, (replay o.verbosity source (.ofLimit o.limit)).result = .ok lines := by
  obtain ⟨lines, _, hunder⟩ := replay_withLimit hread o.verbosity (.ofLimit o.limit)
  exact ⟨lines, (hunder o.limit hfits).1⟩

theorem Options.refuses_or_replays (o : Options) (content : ByteArray) :
    (∃ reason, o.Refuses content reason) ∨ o.Replays content := by
  cases htext : String.fromUTF8? content with
  | none => exact .inl ⟨_, .notText htext⟩
  | some source =>
    cases hread : Statement.ofText? source with
    | error f => exact .inl ⟨_, .badScript htext hread⟩
    | ok ss =>
      by_cases hfits : o.limit.Fits 0 (ss.map (·.command))
      · obtain ⟨lines, hlines⟩ := replay_of_fits hread hfits
        exact .inr ⟨source, lines, htext, hlines⟩
      · cases hlimit : o.limit with
        | unbounded =>
          rw [hlimit] at hfits
          exact absurd (Limit.fits_unbounded 0 _) hfits
        | bounded n =>
          rw [hlimit] at hfits
          exact .inl ⟨_, .overLimit htext hread hlimit hfits⟩

end

/-! ## Runs -/

section
variable {tree : FileTree} {args : List String} {o : Options} {content : ByteArray} {source : String}

theorem run_of_decode_error {cause : String} (hargs : Options.ofArgs? args = .ok o)
    (hsource : decode ((tree.read o.input).mapError PathFault.message) = .error cause) :
    (run FileTree.access args).run tree =
      (⟨1, "", errorLine ("cannot read " ++ o.input ++ ": " ++ cause)⟩, tree) := by
  rw [run, hargs]
  show (replayFile FileTree.access o).run tree = _
  rw [replayFile, StateT.run_bind, FileTree.run_read]
  simp only [bind, hsource]
  rfl

/-- What was printed before the fault is not written. -/
theorem run_of_replay_error {f : Fault} (hargs : Options.ofArgs? args = .ok o)
    (hsource : decode ((tree.read o.input).mapError PathFault.message) = .ok source)
    (hreplay : (replay o.verbosity source (.ofLimit o.limit)).result = .error f) :
    ∃ log, (run FileTree.access args).run tree = (⟨1, "", log ++ faultText o source f⟩, tree) := by
  rw [run, hargs]
  show ∃ log, (replayFile FileTree.access o).run tree = _
  rw [replayFile, StateT.run_bind, FileTree.run_read]
  simp only [bind, hsource, hreplay]
  exact ⟨_, rfl⟩

/-- **A script that is not replayed publishes nothing.** Whatever the options are and whatever was printed before the
fault, the exit code is 1, standard output is empty and all files stay as they are; the last text on standard error is
the reason. Any other script is replayed, and then the exit code is 0 if the report goes to standard output. -/
theorem run_of_refuses (hargs : Options.ofArgs? args = .ok o) (hfile : tree.read o.input = .ok content) :
    (∀ reason, o.Refuses content reason →
      ∃ log, (run FileTree.access args).run tree = (⟨1, "", log ++ ("error: " ++ reason ++ "\n")⟩, tree)) ∧
    (o.Replays content → o.output = none →
      ∃ out log, (run FileTree.access args).run tree = (⟨0, out, log⟩, tree)) ∧
    ((∃ reason, o.Refuses content reason) ∨ o.Replays content) := by
  have hsource : (tree.read o.input).mapError PathFault.message = .ok content := by
    rw [hfile]
    rfl
  refine ⟨fun reason h => ?_, ?_, o.refuses_or_replays content⟩
  · cases h with
    | notText htext =>
      refine ⟨"", ?_⟩
      rw [run_of_decode_error hargs (by rw [hsource, decode_of_none htext]), String.empty_append]
      rfl
    | @badScript source f htext hread =>
      obtain ⟨log, hrun⟩ := run_of_replay_error hargs (by rw [hsource, decode_of_some htext])
        (replay_of_error hread o.verbosity (.ofLimit o.limit)).1
      refine ⟨log ++ f.toFault.diagnostic [⟨o.input, source⟩] 0, ?_⟩
      rw [hrun, String.append_assoc]
      rfl
    | overLimit htext hread hlimit hfull =>
      exact run_of_replay_error hargs (by rw [hsource, decode_of_some htext]) (replay_of_over_limit hread hlimit hfull)
  · rintro ⟨source, lines, htext, hreplay⟩ hout
    obtain ⟨log, hrun⟩ := run_of_replay_ok hargs hout (by rw [hsource, decode_of_some htext]) hreplay
    exact ⟨_, log, hrun⟩

end

/-- A script that prints before its second instruction. -/
def twoInstructions : String := "insert x int 1\nlookup x\nprint\nemit = x _ y\nemit = y _ z"

/-- The answer and the report that are there by then are lost, and a file for the report is left as it is. -/
theorem run_of_refuses_twoInstructions :
    let tree := FileTree.ofHome ["home".toList]
      [(["in".toList], twoInstructions.toUTF8), (["out".toList], "old".toUTF8)]
    (Options.ofArgs? ["-o", "out", "--capacity=1", "in"] = .ok ⟨"in", some "out", .bounded 1, .both, {}⟩ ∧
      ∃ log, (run FileTree.access ["-o", "out", "--capacity=1", "in"]).run tree =
        (⟨1, "", log ++ ("error: " ++ (Fault.capacityExceeded 1).message ++ "\n")⟩, tree)) ∧
    Options.ofArgs? ["in", "--unbounded"] = .ok ⟨"in", none, .unbounded, .both, {}⟩ ∧
      ∃ out log, (run FileTree.access ["in", "--unbounded"]).run tree = (⟨0, out, log⟩, tree) := by
  intro tree
  have hread : Statement.ofText? twoInstructions = .ok
      [⟨.insert ⟨"x", "int", 1⟩, 0, 14⟩, ⟨.lookup "x", 15, 23⟩, ⟨.print, 24, 29⟩,
        ⟨.emit ⟨"=", "x", "", "y"⟩, 30, 42⟩, ⟨.emit ⟨"=", "y", "", "z"⟩, 43, 55⟩] := by decide +kernel
  have hfile : tree.read "in" = .ok twoInstructions.toUTF8 := rfl
  have htext := fromUTF8?_toUTF8 twoInstructions
  have hfull : Options.ofArgs? ["-o", "out", "--capacity=1", "in"] = .ok ⟨"in", some "out", .bounded 1, .both, {}⟩ := by
    decide
  have hroom : Options.ofArgs? ["in", "--unbounded"] = .ok ⟨"in", none, .unbounded, .both, {}⟩ := by decide
  refine ⟨⟨hfull, (run_of_refuses hfull hfile).1 _ (.overLimit htext hread rfl fun hfits => ?_)⟩, hroom, ?_⟩
  · exact absurd (Limit.admits_bounded.1 (hfits _ (List.prefix_refl _))) (by decide)
  · refine (run_of_refuses hroom hfile).2.1 ?_ rfl
    obtain ⟨lines, hlines⟩ := replay_of_fits (o := ⟨"in", none, .unbounded, .both, {}⟩) hread (Limit.fits_unbounded 0 _)
    exact ⟨twoInstructions, lines, htext, hlines⟩

end ThreeAddress.CommandLine
