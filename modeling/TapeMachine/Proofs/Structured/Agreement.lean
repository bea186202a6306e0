import TapeMachine.Proofs.Budget
import TapeMachine.Proofs.Structured.Simulation

/-!
A run that no budget stops does what the block does that its text is parsed as. Both directions
rest on the simulation: a result of the block is where the steps of the machine end, and since the
steps end in one way at most, a machine that ended did so with the result of the block.
-/

namespace TapeMachine

namespace Sandbox

variable {σ : Type} [Clock σ] {sandbox : Sandbox} {clock clock' : σ} {o : Outcome}
  {block : Block} {status : Status} {s : Store}

theorem exists_halts_of_runs (htext : block.text = sandbox.program.instructions.toList)
    (hdepth : block.depth ≤ sandbox.limits.loopDepth)
    (h : Block.Runs sandbox.limits.output 0 block (.start sandbox.session.input) status s) :
    ∃ n q inner, sandbox.after? n = some (s.machine q inner) ∧
      sandbox.program.Halts sandbox.limits (s.machine q inner) status := by
  have hholds := Program.holds_of_eq htext
  have hroom : (#[] : Array Nat).size + block.depth ≤ sandbox.limits.loopDepth := by
    simpa using hdepth
  have hend : sandbox.program.get? (0 + block.text.length) = none := by
    rw [Program.get?_eq_none_iff, htext, Nat.zero_add, Array.length_toList]
    exact Nat.le_refl _
  exact (h.finishes hholds hroom).exists_halts hend

theorem exists_after?_of_diverges (htext : block.text = sandbox.program.instructions.toList)
    (hdepth : block.depth ≤ sandbox.limits.loopDepth)
    (h : Block.Diverges sandbox.limits.output 0 block (.start sandbox.session.input))
    (n : Nat) : ∃ m, sandbox.after? n = some m := by
  obtain ⟨D, hblock, hD⟩ := h
  have hholds := Program.holds_of_eq htext
  have hroom : (#[] : Array Nat).size + block.depth ≤ sandbox.limits.loopDepth := by
    simpa using hdepth
  exact Block.exists_after?_of_goesOn hD n hblock hholds hroom

theorem exists_yields_of_runs (htext : block.text = sandbox.program.instructions.toList)
    (hdepth : block.depth ≤ sandbox.limits.loopDepth)
    (hbudget : ∀ j, sandbox.expiresAt clock j = false)
    (h : Block.Runs sandbox.limits.output 0 block (.start sandbox.session.input) status s) :
    ∃ o clock', sandbox.Yields clock o clock' ∧ o.status = status ∧
      o.tape = s.tape.visible ∧ o.output = s.output := by
  obtain ⟨n, q, inner, hsteps, hhalts⟩ := exists_halts_of_runs htext hdepth h
  exact exists_yields_of_halts hsteps (fun j _ => hbudget j) hhalts

theorem Yields.exists_runs (h : sandbox.Yields clock o clock')
    (htext : block.text = sandbox.program.instructions.toList)
    (hdepth : block.depth ≤ sandbox.limits.loopDepth)
    (hbudget : ∀ j, sandbox.expiresAt clock j = false) :
    ∃ s, Block.Runs sandbox.limits.output 0 block (.start sandbox.session.input) o.status s ∧
      s.tape.visible = o.tape ∧ s.output = o.output := by
  obtain ⟨n, m, hsteps, hhalts, htape, houtput⟩ := h.exists_halts hbudget
  have hresult : ∃ status s,
      Block.Runs sandbox.limits.output 0 block (.start sandbox.session.input) status s := by
    apply Classical.byContradiction
    intro hnone
    have hdiverges := (Block.diverges_iff _ _ _ _).mpr hnone
    obtain ⟨later, hlater⟩ := exists_after?_of_diverges htext hdepth hdiverges (n + 1)
    have hle := hhalts.le_of_after? hsteps hlater
    omega
  obtain ⟨status, s, hruns⟩ := hresult
  obtain ⟨k, q, inner, hsteps', hhalts'⟩ := exists_halts_of_runs htext hdepth hruns
  obtain ⟨-, rfl, hstatus⟩ := hhalts.after?_unique hsteps hhalts' hsteps'
  rw [hstatus]
  exact ⟨s, hruns, htape.symm, houtput.symm⟩

/-- A program whose brackets match and are not too deep is a block, and without a budget the run
and the block agree: on every end, with its status, tape and output, and on whether there is one. -/
theorem run_agrees_with_block (sandbox : Sandbox) (clock : σ)
    (hbalanced : sandbox.program.brackets.isBalanced = true)
    (hdepth : sandbox.program.brackets.maxDepth ≤ sandbox.limits.loopDepth)
    (hbudget : ∀ j, sandbox.expiresAt clock j = false) :
    ∃ block, Block.parse? sandbox.program.instructions.toList = some block ∧
      (∀ status tape output,
        (∃ o clock', sandbox.Yields clock o clock' ∧
            o.status = status ∧ o.tape = tape ∧ o.output = output) ↔
          ∃ s, Block.Runs sandbox.limits.output 0 block (.start sandbox.session.input) status s ∧
            s.tape.visible = tape ∧ s.output = output) ∧
      ((∀ bound, sandbox.run bound clock = none) ↔
        Block.Diverges sandbox.limits.output 0 block (.start sandbox.session.input)) := by
  obtain ⟨block, hparse, htext, hblock⟩ := Program.exists_block_of_isBalanced hbalanced
  rw [← hblock] at hdepth
  refine ⟨block, hparse, ?_, ?_⟩
  · intro status tape output
    constructor
    · rintro ⟨o, clock', hyields, rfl, rfl, rfl⟩
      exact hyields.exists_runs htext hdepth hbudget
    · rintro ⟨s, hruns, rfl, rfl⟩
      exact exists_yields_of_runs htext hdepth hbudget hruns
  · rw [Block.diverges_iff]
    constructor
    · rintro hnone ⟨status, s, hruns⟩
      obtain ⟨o, clock', ⟨bound, hrun⟩, -⟩ := exists_yields_of_runs htext hdepth hbudget hruns
      rw [hnone bound] at hrun
      cases hrun
    · intro hnone bound
      cases hrun : sandbox.run bound clock with
      | none => rfl
      | some answer =>
          have hyields : sandbox.Yields clock answer.1 answer.2 := ⟨bound, hrun⟩
          obtain ⟨s, hruns, -⟩ := hyields.exists_runs htext hdepth hbudget
          exact absurd ⟨_, s, hruns⟩ hnone

/-- That the block of a loop has a result is found by running the machine. -/
theorem run_agrees_with_block_on_loop :
    let sandbox := ofText "++[-]"
      { timeout := .ofMilliseconds 10, startedAt := .zero, input := [], debug := false }
    sandbox.program.brackets.isBalanced = true ∧
      sandbox.program.brackets.maxDepth ≤ sandbox.limits.loopDepth ∧
      (∀ j, sandbox.expiresAt (SteppingClock.new .zero) j = false) ∧
      ∃ block s o clock', Block.parse? sandbox.program.instructions.toList = some block ∧
        sandbox.Yields (SteppingClock.new .zero) o clock' ∧
        Block.Runs sandbox.limits.output 0 block (.start sandbox.session.input) .completed s ∧
        s.tape.visible = o.tape ∧ s.output = o.output := by
  intro sandbox
  have hbalanced : sandbox.program.brackets.isBalanced = true := by decide
  have hdepth : sandbox.program.brackets.maxDepth ≤ sandbox.limits.loopDepth := by decide
  have hbudget : ∀ j, sandbox.expiresAt (SteppingClock.new .zero) j = false :=
    expiresAt_standing (by decide)
  have hrun : (sandbox.run 8 (SteppingClock.new .zero)).map (fun answer => answer.1.status) =
      some .completed := by
    decide +kernel
  obtain ⟨answer, hanswer, hstatus⟩ := Option.map_eq_some_iff.mp hrun
  have hyields : sandbox.Yields (SteppingClock.new .zero) answer.1 answer.2 := ⟨8, hanswer⟩
  obtain ⟨block, hparse, hends, -⟩ :=
    run_agrees_with_block sandbox (SteppingClock.new .zero) hbalanced hdepth hbudget
  obtain ⟨s, hruns, htape, houtput⟩ := (hends .completed answer.1.tape answer.1.output).mp
    ⟨answer.1, answer.2, hyields, hstatus, rfl, rfl⟩
  exact ⟨hbalanced, hdepth, hbudget, block, s, answer.1, answer.2, hparse, hyields, hruns, htape,
    houtput⟩

end Sandbox

end TapeMachine
