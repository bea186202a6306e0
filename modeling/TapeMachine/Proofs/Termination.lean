import TapeMachine.Proofs.Budget

/-!
Which budgets end every run. A program may loop for ever, so a run on a clock that goes on by a step
is sure to end only if some check of its budget fires. That is so exactly when the clock moves at
all and its readings do not stop at the greatest span before the budget is used up. Past that
boundary no check ever fires, for any program, and a loop on a cell that stays as it is goes on
without end.
-/

namespace TapeMachine

variable {σ : Type} [Clock σ]

namespace Program

variable {program : Program} {limits : Limits} {m : Machine}

/-- A machine that a step leads back to itself goes on for ever. -/
theorem after?_of_next?_self (h : program.next? limits m = some m) (n : Nat) :
    program.after? limits n m = some m := by
  induction n with
  | zero => rfl
  | succ n ih => exact after?_succ_eq_some_iff.mpr ⟨m, ih, h⟩

end Program

namespace Sandbox

variable {sandbox : Sandbox} {clock : σ} {step : Duration} {k : Nat}

/-- A program that is dispatched for ever and whose budget is never used up has no outcome. -/
theorem run_eq_none_of_endless (hsteps : ∀ n, ∃ m, sandbox.after? n = some m)
    (hbudget : ∀ j, sandbox.expiresAt clock j = false) (bound : Nat) :
    sandbox.run bound clock = none := by
  cases hrun : sandbox.run bound clock with
  | none => rfl
  | some answer =>
      have hyields : sandbox.Yields clock answer.1 answer.2 := ⟨bound, hrun⟩
      obtain ⟨n, m, hm, hhalts, -, -⟩ := hyields.exists_halts hbudget
      obtain ⟨m', hm'⟩ := hsteps (n + 1)
      have hle : n + 1 ≤ n := hhalts.le_of_after? hm hm'
      omega

/-- A text that begins with a count and the start of a loop enters the loop with a one under the
head. -/
theorem exists_entered (hcounts : sandbox.program.get? 0 = some .increment)
    (hopens : sandbox.program.get? 1 = some .loopStart)
    (hdepth : 0 < sandbox.limits.loopDepth) :
    ∃ m, sandbox.after? 2 = some m ∧ m.position = 2 ∧ m.loopStack = #[1] ∧
      m.tape.head.val = 0 ∧ m.tape.current = 1 := by
  let counted := sandbox.machine.execute .increment
  have hcounted : sandbox.program.next? sandbox.limits sandbox.machine = some counted := by
    apply Program.next?_of_get? hcounts
    simp [Machine.fault?, machine, Machine.start, Tape.current, Tape.blank, Tape.greatestCell]
  have hentered : sandbox.program.next? sandbox.limits counted =
      some (counted.execute .loopStart) := by
    apply Program.next?_of_get? hopens
    have hempty : counted.loopStack.size = 0 := rfl
    simp [Machine.fault?, hempty, hdepth]
  have hone : (counted.execute .loopStart).tape.current = 1 := by
    simp [counted, Machine.execute, Machine.write, Machine.advance, machine, Machine.start,
      Tape.current, Tape.blank, Tape.write]
  exact ⟨_, Program.after?_succ_eq_some_iff.mpr ⟨counted, Program.after?_one hcounted, hentered⟩,
    rfl, rfl, rfl, hone⟩

/-- The loop is entered with a one under the head, and from there its end leads back to itself. -/
theorem exists_after?_of_endlessLoop (hprogram : sandbox.program = .ofText "+[]")
    (hdepth : 0 < sandbox.limits.loopDepth) (n : Nat) : ∃ m, sandbox.after? n = some m := by
  obtain ⟨m, htwo, hposition, hstack, -, hone⟩ :=
    exists_entered (by rw [hprogram]; rfl) (by rw [hprogram]; rfl) hdepth
  -- From here on every step is the same: the jump back leads to the loop end itself.
  have hround : sandbox.program.next? sandbox.limits m = some m := by
    have hback : m.loopStack.back? = some 1 := by rw [hstack]; rfl
    have hexecute : m.execute .loopEnd = m := by
      simp [Machine.execute, Machine.endLoop, hback, hone, ← hposition]
    rw [Program.next?_of_get? (i := .loopEnd), hexecute]
    · rw [hprogram, hposition]
      rfl
    · simp [Machine.fault?, hstack]
  have hlater : sandbox.after? (2 + n) = some m :=
    Program.after?_trans htwo (Program.after?_of_next?_self hround n)
  exact Program.after?_of_le (Nat.le_add_left n 2) hlater

theorem endlessLoop_goesOn (hbudget : ∀ j, sandbox.expiresAt clock j = false)
    (hprogram : sandbox.program = .ofText "+[]") (hdepth : 0 < sandbox.limits.loopDepth) :
    (∀ n, ∃ m clock', sandbox.Reaches clock n m clock') ∧
      ∀ bound, sandbox.run bound clock = none := by
  have hsteps := exists_after?_of_endlessLoop hprogram hdepth
  refine ⟨?_, run_eq_none_of_endless hsteps hbudget⟩
  intro n
  obtain ⟨m, hm⟩ := hsteps n
  exact ⟨m, _, reaches_iff.mpr ⟨hm, fun j _ => hbudget j, rfl⟩⟩

/-- Past the boundary the readings are too close to the start for any check to fire: the clock
stands, or it stops at the greatest span. -/
theorem expiresAt_stepping_eq_false (htimeout : 0 < sandbox.session.timeout.nanoseconds)
    (hpast : ¬ (0 < step.nanoseconds ∧ min (k * step.nanoseconds) Duration.greatest +
      sandbox.session.timeout.nanoseconds ≤ Duration.greatest)) (n : Nat) :
    sandbox.expiresAt (Clock.after (SteppingClock.new step) k) n = false := by
  have hstart := SteppingClock.nanoseconds_read_after_new step k 0
  have hnow := SteppingClock.nanoseconds_read_after_new step k (n + 1)
  rw [Bool.eq_false_iff]
  intro hexpired
  have hle := expiresAt_iff.mp hexpired
  rw [hnow] at hle
  rw [Clock.after, Nat.add_zero] at hstart
  rw [hstart] at hle
  rcases Nat.eq_zero_or_pos step.nanoseconds with hzero | hpos
  · simp [hzero] at hle
    omega
  · omega

/-- A run inside the boundary ends, and its checks are at most as many as the steps it takes to
fill the budget. -/
theorem exists_run_of_stepping (htimeout : 0 < sandbox.session.timeout.nanoseconds)
    (hstep : 0 < step.nanoseconds)
    (hfits : min (k * step.nanoseconds) Duration.greatest +
      sandbox.session.timeout.nanoseconds ≤ Duration.greatest) :
    let clock := Clock.after (SteppingClock.new step) k
    let most := (sandbox.session.timeout.nanoseconds + step.nanoseconds - 1) / step.nanoseconds
    ∃ o clock', sandbox.run most clock = some (o, clock') ∧
      ∃ n m clock₁ checks, sandbox.Reaches clock n m clock₁ ∧
        sandbox.Cut clock n m o.status checks ∧ checks ≤ most := by
  intro clock most
  have hlast : ∀ j, sandbox.expiresAt clock j = true ↔ sandbox.session.allowance step ≤ j := by
    intro j
    exact expiresAt_stepping_iff hstep (by omega)
  obtain ⟨hbefore, n, m, status, checks, hle, hm, hcut⟩ := exists_cut_of_expiresAt_iff hlast
  have hsome : 0 < most := Nat.div_pos (by omega) hstep
  have hlt : n < most := by
    have hallowance : sandbox.session.allowance step = most - 1 := rfl
    omega
  have hchecks : checks ≤ n + 1 := by
    rw [Run.Cut.checks_eq hcut]
    split <;> omega
  have hbudget : ∀ j < n, sandbox.expiresAt clock j = false := fun j hj => hbefore j (by omega)
  exact ⟨_, _, run_of_cut hm hbudget hcut hlt, n, m, _, checks,
    reaches_iff.mpr ⟨hm, hbudget, rfl⟩, hcut, by omega⟩

/-- On a clock that goes on by a step, a budget ends every run exactly if the clock moves and can
still show the moment at which the budget is used up. Then no run has more checks than the steps it
takes to fill the budget, and a clock that was not read before leaves room for every budget. Past
the boundary no check of any run ever fires, and a loop goes round for ever. -/
theorem stepping_clock_ends_every_run_iff (step : Duration) (k : Nat) {timeout : Duration}
    (htimeout : 0 < timeout.nanoseconds) :
    let clock := Clock.after (SteppingClock.new step) k
    let startedAt := min (k * step.nanoseconds) Duration.greatest
    (∀ sandbox : Sandbox,
        (sandbox.start clock).1.session.startedAt.nanoseconds = startedAt) ∧
      ((∀ sandbox : Sandbox, sandbox.session.timeout = timeout →
          ∃ o clock', sandbox.Yields clock o clock') ↔
        0 < step.nanoseconds ∧ startedAt + timeout.nanoseconds ≤ Duration.greatest) ∧
      (k = 0 → startedAt + timeout.nanoseconds ≤ Duration.greatest) ∧
      (0 < step.nanoseconds → startedAt + timeout.nanoseconds ≤ Duration.greatest →
        ∀ sandbox : Sandbox, sandbox.session.timeout = timeout →
          ∃ o clock', sandbox.Yields clock o clock' ∧
            ∃ n m clock₁ checks, sandbox.Reaches clock n m clock₁ ∧
              sandbox.Cut clock n m o.status checks ∧
              checks ≤ (timeout.nanoseconds + step.nanoseconds - 1) / step.nanoseconds) ∧
      (¬ (0 < step.nanoseconds ∧ startedAt + timeout.nanoseconds ≤ Duration.greatest) →
        ∀ sandbox : Sandbox, sandbox.session.timeout = timeout →
          (∀ n, sandbox.expiresAt clock n = false) ∧
            (sandbox.program = .ofText "+[]" → 0 < sandbox.limits.loopDepth →
              (∀ n, ∃ m clock', sandbox.Reaches clock n m clock') ∧
                ∀ bound, sandbox.run bound clock = none)) := by
  intro clock startedAt
  refine ⟨?_, ⟨?_, ?_⟩, ?_, ?_, ?_⟩
  · intro sandbox
    exact SteppingClock.nanoseconds_read_after_new step k 0
  · intro hall
    apply Classical.byContradiction
    intro hpast
    let looping : Sandbox := ofText "+[]"
      { timeout := timeout, startedAt := .zero, input := [], debug := false }
    have hdepth : 0 < Limits.default.loopDepth := by decide
    obtain ⟨o, clock', bound, hrun⟩ := hall looping rfl
    have hbudget : ∀ n, looping.expiresAt clock n = false :=
      expiresAt_stepping_eq_false htimeout hpast
    obtain ⟨-, hnone⟩ := endlessLoop_goesOn hbudget rfl hdepth
    rw [hnone bound] at hrun
    cases hrun
  · rintro ⟨hstep, hfits⟩ sandbox rfl
    obtain ⟨o, clock', hrun, -⟩ := exists_run_of_stepping htimeout hstep hfits
    exact ⟨o, clock', _, hrun⟩
  · rintro rfl
    have hle := timeout.le_greatest
    simp only [startedAt]
    omega
  · rintro hstep hfits sandbox rfl
    obtain ⟨o, clock', hrun, hends⟩ := exists_run_of_stepping htimeout hstep hfits
    exact ⟨o, clock', ⟨_, hrun⟩, hends⟩
  · rintro hpast sandbox rfl
    have hbudget := expiresAt_stepping_eq_false htimeout hpast
    exact ⟨hbudget, fun hprogram hdepth => endlessLoop_goesOn hbudget hprogram hdepth⟩

/-- A clock whose second reading is the greatest span was started too late for any budget: the same
loop that a fresh clock stops then goes round for ever. -/
theorem stepping_clock_ends_every_run_iff_at_greatest :
    let sandbox := ofText "+[]"
      { timeout := .ofMilliseconds 1, startedAt := .zero, input := [], debug := false }
    let step := Duration.ofNanoseconds Duration.greatest
    0 < sandbox.session.timeout.nanoseconds ∧ 0 < step.nanoseconds ∧
      (∃ o clock', sandbox.Yields (SteppingClock.new step) o clock' ∧
        ∃ n m clock₁ checks, sandbox.Reaches (SteppingClock.new step) n m clock₁ ∧
          sandbox.Cut (SteppingClock.new step) n m o.status checks ∧ checks ≤ 1) ∧
      ∀ bound, sandbox.run bound (Clock.after (SteppingClock.new step) 1) = none := by
  intro sandbox step
  have htimeout : 0 < sandbox.session.timeout.nanoseconds := by decide
  have hstep : 0 < step.nanoseconds := by decide
  have hdepth : 0 < sandbox.limits.loopDepth := by decide
  obtain ⟨-, -, hfresh, hinside, -⟩ := stepping_clock_ends_every_run_iff step 0 htimeout
  obtain ⟨-, -, -, -, hpast⟩ := stepping_clock_ends_every_run_iff step 1 htimeout
  refine ⟨htimeout, hstep, ?_, ?_⟩
  · obtain ⟨o, clock', hyields, n, m, clock₁, checks, hreach, hcut, hle⟩ :=
      hinside hstep (hfresh rfl) sandbox rfl
    exact ⟨o, clock', hyields, n, m, clock₁, checks, hreach, hcut,
      Nat.le_trans hle (by decide)⟩
  · exact ((hpast (by decide) sandbox rfl).2 rfl hdepth).2

end Sandbox

end TapeMachine
