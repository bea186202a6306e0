import TapeMachine.Proofs.Course

/-!
The time budget on a clock that goes on by the same step at every reading. The readings say exactly
before which instruction the budget is used up, so the run is known from the steps that the machine
makes without a budget: where these end in time the run ends as they do, and otherwise it is cut
after a number of instructions that the budget and the step alone decide. How far the clock had
gone before the run makes no difference to that, as long as its readings have not stopped at the
greatest span when the budget is used up.
-/

namespace TapeMachine

variable {σ : Type} [Clock σ]

namespace Program

variable {program : Program} {limits : Limits} {m m' : Machine}

/-- As many steps as asked for are made, unless the machine comes to an end before. -/
theorem after?_or_halts (program : Program) (limits : Limits) (m : Machine) (n : Nat) :
    (∃ m', program.after? limits n m = some m') ∨
      ∃ j < n, ∃ m' status, program.after? limits j m = some m' ∧
        program.Halts limits m' status := by
  induction n with
  | zero => exact .inl ⟨m, rfl⟩
  | succ n ih =>
      rcases ih with ⟨mid, hmid⟩ | ⟨j, hj, hend⟩
      · rcases program.next?_or_halts limits mid with ⟨m', hnext⟩ | ⟨status, hhalts⟩
        · exact .inl ⟨m', after?_succ_eq_some_iff.mpr ⟨mid, hmid, hnext⟩⟩
        · exact .inr ⟨n, Nat.lt_succ_self n, mid, status, hmid, hhalts⟩
      · exact .inr ⟨j, Nat.lt_succ_of_lt hj, hend⟩

end Program

namespace Run

variable {run : Run} {m₀ : Machine} {clock : σ}

/-- A run whose budget is used up at some check ends there or before. -/
theorem exists_cut {last : Nat} (m₀ : Machine)
    (hbefore : ∀ j < last, run.expiresAt clock j = false)
    (hlast : run.expiresAt clock last = true) :
    ∃ n m status checks, n ≤ last ∧ run.program.after? run.limits n m₀ = some m ∧
      run.Cut clock n m status checks := by
  rcases run.program.after?_or_halts run.limits m₀ last with ⟨m, hm⟩ | ⟨n, hlt, m, status, hm, hend⟩
  · cases hget : run.program.get? m.position with
    | none => exact ⟨last, m, _, _, Nat.le_refl _, hm, .completed hget⟩
    | some i => exact ⟨last, m, _, _, Nat.le_refl _, hm, .timedOut hget hlast⟩
  · cases hend with
    | completed ended => exact ⟨n, m, _, _, Nat.le_of_lt hlt, hm, .completed ended⟩
    | faulted here raised =>
        exact ⟨n, m, _, _, Nat.le_of_lt hlt, hm, .faulted here (hbefore n hlt) raised⟩

theorem Cut.checks_eq {n checks : Nat} {m : Machine} {status : Status}
    (h : run.Cut clock n m status checks) :
    checks = if status = .completed then n else n + 1 := by
  cases h <;> simp

end Run

namespace SteppingClock

/-- A clock that goes on by a step shows multiples of it, up to the greatest span. -/
theorem after_new (step : Duration) (n : Nat) :
    Clock.after (new step) n = ⟨step, .ofNanoseconds (n * step.nanoseconds)⟩ := by
  induction n with
  | zero => simp [Clock.after, new, Duration.zero]
  | succ n ih =>
      rw [Clock.after_succ, ih]
      simp only [Clock.read, SteppingClock.mk.injEq, true_and]
      apply Duration.ext
      simp only [Duration.nanoseconds_add, Duration.nanoseconds_ofNanoseconds, Nat.succ_mul]
      omega

theorem nanoseconds_read_after_new (step : Duration) (k n : Nat) :
    (Clock.read (Clock.after (Clock.after (new step) k) n)).1.nanoseconds =
      min ((k + n) * step.nanoseconds) Duration.greatest := by
  rw [← Clock.after_add, after_new]
  rfl

end SteppingClock

/-- How many checks of the budget pass when every reading of the clock is a step ahead: one less
than the steps it takes to fill the budget. -/
def Session.allowance (session : Session) (step : Duration) : Nat :=
  (session.timeout.nanoseconds + step.nanoseconds - 1) / step.nanoseconds - 1

theorem Session.allowance_le_iff {session : Session} {step : Duration} {n : Nat}
    (hstep : 0 < step.nanoseconds) :
    session.allowance step ≤ n ↔
      session.timeout.nanoseconds ≤ (n + 1) * step.nanoseconds := by
  have hsplit : (n + 2) * step.nanoseconds = (n + 1) * step.nanoseconds + step.nanoseconds :=
    Nat.succ_mul (n + 1) step.nanoseconds
  have hdiv := Nat.div_lt_iff_lt_mul hstep
    (x := session.timeout.nanoseconds + step.nanoseconds - 1) (y := n + 2)
  unfold allowance
  omega

namespace Sandbox

variable {sandbox : Sandbox} {step : Duration} {k n : Nat}

/-- Without a budget, the program ends after a number of instructions. -/
def EndsAfter (sandbox : Sandbox) (n : Nat) (status : Status) : Prop :=
  ∃ m, sandbox.after? n = some m ∧ sandbox.program.Halts sandbox.limits m status

/-- A program has one end at most. -/
theorem EndsAfter.unique {n' : Nat} {status status' : Status} (h : sandbox.EndsAfter n status)
    (h' : sandbox.EndsAfter n' status') : n = n' ∧ status = status' := by
  obtain ⟨m, hm, hhalts⟩ := h
  obtain ⟨m', hm', hhalts'⟩ := h'
  obtain ⟨hsteps, -, hstatus⟩ := hhalts.after?_unique hm hhalts' hm'
  exact ⟨hsteps, hstatus⟩

theorem expiresAt_iff {clock : σ} :
    sandbox.expiresAt clock n = true ↔
      sandbox.session.timeout.nanoseconds ≤
        (Clock.read (Clock.after clock (n + 1))).1.nanoseconds -
          (Clock.read clock).1.nanoseconds :=
  Session.expiredAt_iff

theorem expiresAt_standing (htimeout : 0 < sandbox.session.timeout.nanoseconds) (n : Nat) :
    sandbox.expiresAt (SteppingClock.new .zero) n = false := by
  have hnow := SteppingClock.nanoseconds_read_after_new .zero 0 (n + 1)
  have hzero : Duration.zero.nanoseconds = 0 := rfl
  rw [hzero, Nat.mul_zero] at hnow
  rw [Bool.eq_false_iff]
  intro hexpired
  have hle := expiresAt_iff.mp hexpired
  rw [Clock.after] at hnow
  omega

/-- The readings before a run cancel out of the check. -/
theorem expiresAt_stepping_iff (hstep : 0 < step.nanoseconds)
    (hk : k * step.nanoseconds + sandbox.session.timeout.nanoseconds ≤ Duration.greatest) :
    sandbox.expiresAt (Clock.after (SteppingClock.new step) k) n = true ↔
      sandbox.session.allowance step ≤ n := by
  have hstart : (Clock.read (Clock.after (SteppingClock.new step) k)).1.nanoseconds =
      min (k * step.nanoseconds) Duration.greatest :=
    SteppingClock.nanoseconds_read_after_new step k 0
  have hnow := SteppingClock.nanoseconds_read_after_new step k (n + 1)
  rw [Nat.add_mul] at hnow
  rw [expiresAt_iff, hnow, hstart, Session.allowance_le_iff hstep]
  omega

theorem expiresAt_new_iff (hstep : 0 < step.nanoseconds) (n : Nat) :
    sandbox.expiresAt (SteppingClock.new step) n = true ↔ sandbox.session.allowance step ≤ n := by
  apply expiresAt_stepping_iff (k := 0) hstep
  rw [Nat.zero_mul, Nat.zero_add]
  exact sandbox.session.timeout.le_greatest

theorem expiresAt_stepping_eq (hstep : 0 < step.nanoseconds)
    (hk : k * step.nanoseconds + sandbox.session.timeout.nanoseconds ≤ Duration.greatest)
    (n : Nat) :
    sandbox.expiresAt (Clock.after (SteppingClock.new step) k) n =
      sandbox.expiresAt (SteppingClock.new step) n := by
  rw [Bool.eq_iff_iff, expiresAt_stepping_iff hstep hk, expiresAt_new_iff hstep]

/-- A budget that is used up at one check and all later ones leaves the checks before it, and the
run ends there or before. -/
theorem exists_cut_of_expiresAt_iff {clock : σ} {last : Nat}
    (hlast : ∀ j, sandbox.expiresAt clock j = true ↔ last ≤ j) :
    (∀ j < last, sandbox.expiresAt clock j = false) ∧
      ∃ n m status checks, n ≤ last ∧ sandbox.after? n = some m ∧
        sandbox.Cut clock n m status checks := by
  have hbefore : ∀ j < last, sandbox.expiresAt clock j = false := by
    intro j hj
    rw [Bool.eq_false_iff]
    intro hexpired
    exact Nat.not_le_of_lt hj ((hlast j).mp hexpired)
  exact ⟨hbefore, Run.exists_cut sandbox.machine hbefore ((hlast last).mpr (Nat.le_refl last))⟩

theorem Cut.congr {τ : Type} [Clock τ] {clock : σ} {clock' : τ} {m : Machine} {status : Status}
    {checks : Nat} (hcheck : sandbox.expiresAt clock' n = sandbox.expiresAt clock n)
    (h : sandbox.Cut clock n m status checks) : sandbox.Cut clock' n m status checks := by
  cases h with
  | completed here => exact .completed here
  | timedOut here expired => exact .timedOut here (hcheck.trans expired)
  | faulted here inTime raised => exact .faulted here (hcheck.trans inTime) raised

theorem elapsed_stepping (sandbox : Sandbox) (checks : Nat) (ending : Ending)
    (hk : k * step.nanoseconds + sandbox.session.timeout.nanoseconds ≤ Duration.greatest) :
    let clock := Clock.after (SteppingClock.new step) k
    ((sandbox.start clock).1.outcome ending
        (Clock.read (Clock.after clock (checks + 1))).1).elapsed.nanoseconds =
      min ((k + checks + 1) * step.nanoseconds) Duration.greatest - k * step.nanoseconds := by
  intro clock
  have hstart : (Clock.read clock).1.nanoseconds =
      min (k * step.nanoseconds) Duration.greatest :=
    SteppingClock.nanoseconds_read_after_new step k 0
  have hend : (Clock.read (Clock.after clock (checks + 1))).1.nanoseconds =
      min ((k + (checks + 1)) * step.nanoseconds) Duration.greatest :=
    SteppingClock.nanoseconds_read_after_new step k (checks + 1)
  have helapsed : ((sandbox.start clock).1.outcome ending
        (Clock.read (Clock.after clock (checks + 1))).1).elapsed.nanoseconds =
      (Clock.read (Clock.after clock (checks + 1))).1.nanoseconds -
        (Clock.read clock).1.nanoseconds := rfl
  have hfits : k * step.nanoseconds ≤ Duration.greatest := by omega
  rw [helapsed, hend, hstart, Nat.min_eq_left hfits, Nat.add_assoc]

/-- The end that a budget leaves to a run, from the end that the program has without one. -/
theorem Cut.status_iff {clock : σ} {last : Nat} {m : Machine} {status : Status} {checks : Nat}
    (hlast : ∀ j, sandbox.expiresAt clock j = true ↔ last ≤ j) (hle : n ≤ last)
    (hm : sandbox.after? n = some m) (h : sandbox.Cut clock n m status checks) :
    (status = .completed ↔ ∃ j ≤ last, sandbox.EndsAfter j .completed) ∧
      (∀ fault, status = .faulted fault ↔ ∃ j < last, sandbox.EndsAfter j (.faulted fault)) ∧
      (status = .timedOut → n = last) := by
  cases h with
  | completed here =>
      have hends : sandbox.EndsAfter n .completed := ⟨m, hm, .completed here⟩
      refine ⟨iff_of_true rfl ⟨n, hle, hends⟩, ?_, by simp⟩
      intro fault
      apply iff_of_false (by simp)
      rintro ⟨j, -, hfault⟩
      cases (hends.unique hfault).2
  | timedOut here expired =>
      have hn : n = last := Nat.le_antisymm hle ((hlast n).mp expired)
      have hlate : ∀ j ≤ last, ∀ status, sandbox.EndsAfter j status →
          j = n ∧ sandbox.program.Halts sandbox.limits m status := by
        rintro j hj status ⟨m', hm', hhalts⟩
        have hnj : n ≤ j := hhalts.le_of_after? hm' hm
        obtain rfl : j = n := by omega
        rw [hm] at hm'
        cases hm'
        exact ⟨rfl, hhalts⟩
      refine ⟨iff_of_false (by simp) ?_, ?_, fun _ => hn⟩
      · rintro ⟨j, hj, hends⟩
        cases (hlate j hj _ hends).2 with
        | completed ended =>
            have hget : sandbox.program.get? m.position = some _ := here
            rw [ended] at hget
            cases hget
      · intro fault
        apply iff_of_false (by simp)
        rintro ⟨j, hj, hends⟩
        have heq := (hlate j (Nat.le_of_lt hj) _ hends).1
        omega
  | @faulted i fault here inTime raised =>
      have hlt : n < last := by
        apply Nat.lt_of_not_le
        intro hge
        have hcheck : sandbox.expiresAt clock n = false := inTime
        rw [(hlast n).mpr hge] at hcheck
        cases hcheck
      have hends : sandbox.EndsAfter n (.faulted fault) := ⟨m, hm, .faulted here raised⟩
      refine ⟨iff_of_false (by simp) ?_, ?_, by simp⟩
      · rintro ⟨j, -, hcompleted⟩
        cases (hends.unique hcompleted).2
      · intro fault'
        constructor
        · intro heq
          cases heq
          exact ⟨n, hlt, hends⟩
        · rintro ⟨j, -, hfault⟩
          exact (hends.unique hfault).2

/-- A clock that goes on by a step cuts a run exactly where the budget is filled. The run ends as
the program does without a budget if that is early enough, and otherwise it is cut after as many
instructions as checks pass; the number of readings, and with it the time that is accounted for,
follows. All of this is the same however often the clock was read before. -/
theorem stepping_clock_cuts_exactly (sandbox : Sandbox) {step : Duration}
    (hstep : 0 < step.nanoseconds) :
    ∃ n m status checks, sandbox.after? n = some m ∧
      (status = .completed ↔
        ∃ j ≤ sandbox.session.allowance step, sandbox.EndsAfter j .completed) ∧
      (∀ fault, status = .faulted fault ↔
        ∃ j < sandbox.session.allowance step, sandbox.EndsAfter j (.faulted fault)) ∧
      (status = .timedOut → n = sandbox.session.allowance step) ∧
      (status ≠ .timedOut → sandbox.EndsAfter n status) ∧
      (checks = if status = .completed then n else n + 1) ∧
      ∀ k, k * step.nanoseconds + sandbox.session.timeout.nanoseconds ≤ Duration.greatest →
        (∃ o clock', sandbox.Yields (Clock.after (SteppingClock.new step) k) o clock') ∧
        ∀ o clock', sandbox.Yields (Clock.after (SteppingClock.new step) k) o clock' →
          o.status = status ∧ o.tape = m.tape.visible ∧ o.output = m.output ∧
          o.executed = min n greatestCount ∧
          o.elapsed.nanoseconds =
            min ((k + checks + 1) * step.nanoseconds) Duration.greatest -
              k * step.nanoseconds ∧
          (Clock.read clock').1.nanoseconds =
            min ((k + checks + 2) * step.nanoseconds) Duration.greatest ∧
          ((k + checks + 1) * step.nanoseconds ≤ Duration.greatest →
            o.elapsed.nanoseconds = (checks + 1) * step.nanoseconds) := by
  have hlast : ∀ j, sandbox.expiresAt (SteppingClock.new step) j = true ↔
      sandbox.session.allowance step ≤ j := expiresAt_new_iff hstep
  obtain ⟨hbefore, n, m, status, checks, hle, hm, hcut⟩ := exists_cut_of_expiresAt_iff hlast
  obtain ⟨hcompleted, hfaulted, htimedOut⟩ := Cut.status_iff hlast hle hm hcut
  have hends : status ≠ .timedOut → sandbox.EndsAfter n status := by
    intro hne
    exact ⟨m, hm, Run.Cut.halts hcut hne⟩
  refine ⟨n, m, status, checks, hm, hcompleted, hfaulted, htimedOut, hends,
    Run.Cut.checks_eq hcut, ?_⟩
  intro k hk
  have hcheck := expiresAt_stepping_eq hstep hk
  have hyields := yields_iff.mpr ⟨n, m, status, checks, hm,
    fun j hj => (hcheck j).trans (hbefore j (by omega)), Cut.congr (hcheck n) hcut, rfl, rfl⟩
  refine ⟨⟨_, _, hyields⟩, ?_⟩
  intro o clock' h
  obtain ⟨rfl, rfl⟩ := h.unique hyields
  have helapsed := elapsed_stepping sandbox checks ⟨status, m, min n greatestCount⟩ hk
  refine ⟨rfl, rfl, rfl, rfl, helapsed, ?_, ?_⟩
  · exact SteppingClock.nanoseconds_read_after_new step k (checks + 2)
  · intro hfits
    rw [helapsed, Nat.min_eq_left hfits, Nat.add_assoc, Nat.add_mul, Nat.add_sub_cancel_left]

/-- Three milliseconds on a clock of milliseconds are two instructions, wherever the clock was. -/
theorem stepping_clock_cuts_after_two :
    let sandbox := ofText "+++."
      { timeout := .ofMilliseconds 3, startedAt := .zero, input := [], debug := false }
    let step := Duration.ofMilliseconds 1
    0 < step.nanoseconds ∧ sandbox.session.allowance step = 2 ∧
      5 * step.nanoseconds + sandbox.session.timeout.nanoseconds ≤ Duration.greatest ∧
      ∃ n m status checks, sandbox.after? n = some m ∧
        (status = .completed ↔ ∃ j ≤ 2, sandbox.EndsAfter j .completed) ∧
        (status = .timedOut → n = 2) ∧
        ∃ o clock', sandbox.Yields (Clock.after (SteppingClock.new step) 5) o clock' ∧
          o.status = status ∧ o.executed = min n greatestCount ∧
          o.elapsed.nanoseconds =
            min ((5 + checks + 1) * step.nanoseconds) Duration.greatest -
              5 * step.nanoseconds := by
  intro sandbox step
  have hstep : 0 < step.nanoseconds := by decide
  have hallowance : sandbox.session.allowance step = 2 := by decide
  have hfits : 5 * step.nanoseconds + sandbox.session.timeout.nanoseconds ≤
      Duration.greatest := by decide
  obtain ⟨n, m, status, checks, hm, hcompleted, -, htimedOut, -, -, hclock⟩ :=
    stepping_clock_cuts_exactly sandbox hstep
  rw [hallowance] at hcompleted htimedOut
  obtain ⟨⟨o, clock', hyields⟩, hout⟩ := hclock 5 hfits
  obtain ⟨hstatus, -, -, hexecuted, helapsed, -, -⟩ := hout o clock' hyields
  exact ⟨hstep, hallowance, hfits, n, m, status, checks, hm, hcompleted, htimedOut, o, clock',
    hyields, hstatus, hexecuted, helapsed⟩

end Sandbox

end TapeMachine
