import ThreeAddress.Proofs.Command.Language
import ThreeAddress.Proofs.Replay.Execution

/-!
# Scripts in pieces

A line end cuts a script into two that can be run one after the other: neither a word nor a comment goes on behind it,
no command stands on both sides of it, and no command knows what comes later.

The whole is read as the commands of its pieces, so that its replay is that of the first piece and then, if that
succeeded, of the second one (`replay_append_newline`).
-/

namespace ThreeAddress

/-- **Replaying a script in pieces is replaying it whole.** When the first piece fails, the whole fails with its fault
and leaves what it leaves. Otherwise the second piece goes on from there, with the grants that the first one has left: the
whole prints the lines of both or fails with the fault of the second one, and leaves the unit that the second one leaves. -/
theorem replay_append_newline {text₁ text₂ : String} {ss₁ ss₂ : List Statement}
    (h₁ : Statement.ofText? text₁ = .ok ss₁) (h₂ : Statement.ofText? text₂ = .ok ss₂) (tell : Verbosity)
    (u : CompilationUnit) (grants : Grants) :
    let first := replay tell text₁ u grants
    let second := replay tell text₂ first.unit (grants.drop ss₁.length)
    let whole := replay tell (text₁ ++ "\n" ++ text₂) u grants
    (∀ f, first.result = .error f → whole.result = .error f ∧ whole.unit = first.unit) ∧
    ∀ out, first.result = .ok out → whole.result = second.result.map (out ++ ·) ∧ whole.unit = second.unit := by
  intro first second whole
  have hfirst : (first.result, first.unit) = Command.runAll u (ss₁.map (·.command)) grants :=
    replay_of_ok h₁ tell u grants
  have hsecond : (second.result, second.unit) =
      Command.runAll first.unit (ss₂.map (·.command)) (grants.drop (ss₁.map (·.command)).length) := by
    rw [List.length_map]
    exact replay_of_ok h₂ tell first.unit _
  have hwhole : (whole.result, whole.unit) = Command.runAll u (ss₁.map (·.command) ++ ss₂.map (·.command)) grants := by
    obtain ⟨ss, hss, hcommands⟩ := Statement.exists_ofText?_append_newline h₁ h₂
    rw [← hcommands]
    exact replay_of_ok hss tell u grants
  refine ⟨fun f hf => ?_, fun out hout => ?_⟩
  · rw [hf] at hfirst
    rw [Command.runAll_append_of_error hfirst.symm] at hwhole
    exact Prod.mk.inj hwhole
  · rw [hout] at hfirst
    rw [(Command.runAll_ok_iff.1 hfirst.symm).runAll_append, ← hsecond] at hwhole
    exact Prod.mk.inj hwhole

/-- The comment at the end of the first piece ends with it, and the second one finds the program full. -/
theorem replay_append_newline_full :
    let first := "reset\nemit + a b t # full"
    let second := "print\nemit * t t t\n"
    (Statement.ofText? first = .ok [⟨.reset, 0, 5⟩, ⟨.emit ⟨"+", "a", "b", "t"⟩, 6, 18⟩] ∧
      Statement.ofText? second = .ok [⟨.print, 0, 5⟩, ⟨.emit ⟨"*", "t", "t", "t"⟩, 6, 18⟩]) ∧
      (replay {} first (.ofLimit (.bounded 1))).result = .ok [] ∧
      (replay {} (first ++ "\n" ++ second) (.ofLimit (.bounded 1))).result = .error (.capacityExceeded 1) := by
  intro first second
  have hread₁ : Statement.ofText? first = .ok [⟨.reset, 0, 5⟩, ⟨.emit ⟨"+", "a", "b", "t"⟩, 6, 18⟩] := by
    decide +kernel
  have hread₂ : Statement.ofText? second = .ok [⟨.print, 0, 5⟩, ⟨.emit ⟨"*", "t", "t", "t"⟩, 6, 18⟩] := by
    decide +kernel
  have hfirst : (replay {} first (.ofLimit (.bounded 1))).result = .ok [] := by decide +kernel
  refine ⟨⟨hread₁, hread₂⟩, hfirst, ?_⟩
  obtain ⟨hresult, -⟩ := (replay_append_newline hread₁ hread₂ {} (.ofLimit (.bounded 1)) []).2 [] hfirst
  rw [hresult]
  decide +kernel

end ThreeAddress
