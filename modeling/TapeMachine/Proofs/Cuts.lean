import TapeMachine.Proofs.Budget
import TapeMachine.Proofs.Coherence

/-!
Two runs of one task. Whatever their clocks show and however large their budgets are, both runs go
along the one sequence of steps that the program makes on its input, and differ only in where they
leave it: a budget decides where a run is cut, never what it computes. What is shown only grows
along the sequence, so the run that is cut earlier shows a front part of what the other one shows.
On the same readings a larger budget cuts later or not at all.
-/

namespace TapeMachine

namespace Sandbox

variable {σ τ : Type} [Clock σ] [Clock τ]

/-- Two sandboxes run the same program within the same limits on the same input. Their budgets may
differ, and so may what they report to the log. -/
structure SameTask (first second : Sandbox) : Prop where
  program : second.program = first.program
  limits : second.limits = first.limits
  input : second.session.input = first.session.input

variable {first second : Sandbox} {clock₁ : σ} {clock₂ : τ} {m : Machine} {status : Status}
  {n : Nat}

theorem SameTask.after?_eq (h : SameTask first second) (n : Nat) :
    second.after? n = first.after? n := by
  unfold after? machine
  rw [h.program, h.limits, h.input]

theorem SameTask.halts (h : SameTask first second)
    (hhalts : second.program.Halts second.limits m status) :
    first.program.Halts first.limits m status := by
  rw [h.program, h.limits] at hhalts
  exact hhalts

/-- On the same readings a check of the larger budget fires no earlier. -/
theorem expiresAt_of_timeout_le
    (hreadings : ∀ n, Clock.readings clock₂ n = Clock.readings clock₁ n)
    (htimeout : first.session.timeout ≤ second.session.timeout)
    (h : second.expiresAt clock₂ n = true) : first.expiresAt clock₁ n = true := by
  have hstart : (Clock.read clock₂).1 = (Clock.read clock₁).1 :=
    Clock.read_after_congr hreadings 0
  have hnow := Clock.read_after_congr hreadings (n + 1)
  have hexpired := expiresAt_iff.mp h
  rw [hstart, hnow] at hexpired
  exact expiresAt_iff.mpr (Nat.le_trans htimeout hexpired)

/-- On the same readings a run under the larger budget is cut no earlier. -/
theorem SameTask.le_of_timeout_le (h : SameTask first second)
    (hreadings : ∀ n, Clock.readings clock₂ n = Clock.readings clock₁ n)
    (htimeout : first.session.timeout ≤ second.session.timeout) {n₁ n₂ checks : Nat}
    {m₁ m₂ : Machine} (hm₁ : first.after? n₁ = some m₁)
    (hbudget : ∀ j < n₁, first.expiresAt clock₁ j = false) (hm₂ : first.after? n₂ = some m₂)
    (hcut : second.Cut clock₂ n₂ m₂ status checks) : n₁ ≤ n₂ := by
  apply Nat.le_of_not_lt
  intro hlt
  -- Where the first run went on, the program did not end and the smaller budget was not used up.
  rcases Run.Cut.halts_or_expired hcut with hhalts | hexpired
  · have hle : n₁ ≤ n₂ := (h.halts hhalts).le_of_after? hm₂ hm₁
    omega
  · have hfirst := expiresAt_of_timeout_le hreadings htimeout hexpired
    rw [hbudget n₂ hlt] at hfirst
    cases hfirst

theorem SameTask.cut_of_not_expired (h : SameTask first second) {checks : Nat}
    (hcut : first.Cut clock₁ n m status checks) (hstatus : status ≠ .timedOut)
    (hinTime : first.expiresAt clock₁ n = false → second.expiresAt clock₂ n = false) :
    second.Cut clock₂ n m status checks := by
  cases hcut with
  | completed here =>
      have hend : second.program.get? m.position = none := by
        rw [h.program]
        exact here
      exact .completed hend
  | timedOut here expired => exact absurd rfl hstatus
  | @faulted i fault here inTime raised =>
      have hget : second.program.get? m.position = some i := by
        rw [h.program]
        exact here
      have hfault : m.fault? second.limits i = some fault := by
        rw [h.limits]
        exact raised
      exact .faulted hget (hinTime inTime) hfault

/-- On the same readings a run that ends by itself ends likewise under a larger budget. -/
theorem SameTask.yields_of_timeout_le (h : SameTask first second)
    (hreadings : ∀ n, Clock.readings clock₂ n = Clock.readings clock₁ n)
    (htimeout : first.session.timeout ≤ second.session.timeout) {o : Outcome} {end₁ : σ}
    (hyields : first.Yields clock₁ o end₁) (hstatus : o.status ≠ .timedOut) :
    ∃ end₂, second.Yields clock₂ o end₂ := by
  have hinTime : ∀ j, first.expiresAt clock₁ j = false → second.expiresAt clock₂ j = false := by
    intro j hj
    rw [Bool.eq_false_iff]
    intro hexpired
    rw [expiresAt_of_timeout_le hreadings htimeout hexpired] at hj
    cases hj
  obtain ⟨n, m, status, checks, hm, hbudget, hcut, rfl, -⟩ := yields_iff.mp hyields
  have hcut' := h.cut_of_not_expired hcut hstatus (hinTime n)
  have hstart : (Clock.read clock₂).1 = (Clock.read clock₁).1 :=
    Clock.read_after_congr hreadings 0
  have hend := Clock.read_after_congr hreadings (checks + 1)
  refine ⟨_, yields_iff.mpr ⟨n, m, status, checks, (h.after?_eq n).trans hm,
    fun j hj => hinTime j (hbudget j hj), hcut', ?_, rfl⟩⟩
  rw [hend]
  simp only [Run.outcome, start, Session.start, Session.elapsedAt, hstart]

/-- The clock and the budget decide where a run is cut, never what it computes. Runs that both end
by themselves agree; none executes more than one that ends by itself; and what the run shows that
executes fewer instructions, the other one shows as well. The bounds leave out runs of more
instructions than can be counted. On the same readings a larger budget lets a run execute at least
as much, and leaves alone a run that ends by itself. -/
theorem clock_only_decides_the_cut (h : SameTask first second) (clock₁ : σ) (clock₂ : τ) :
    (∀ bound₁ bound₂ o₁ o₂ end₁ end₂, bound₁ ≤ greatestCount + 1 → bound₂ ≤ greatestCount + 1 →
      first.run bound₁ clock₁ = some (o₁, end₁) → second.run bound₂ clock₂ = some (o₂, end₂) →
        (o₁.status ≠ .timedOut → o₂.status ≠ .timedOut →
          o₂.status = o₁.status ∧ o₂.tape = o₁.tape ∧ o₂.output = o₁.output ∧
            o₂.executed = o₁.executed) ∧
        (o₁.status ≠ .timedOut → o₂.executed ≤ o₁.executed) ∧
        (o₁.executed ≤ o₂.executed → o₁.output.toList <+: o₂.output.toList ∧
          o₁.tape.length ≤ o₂.tape.length)) ∧
      ((∀ n, Clock.readings clock₂ n = Clock.readings clock₁ n) →
        first.session.timeout ≤ second.session.timeout →
          ∀ o₁ end₁, first.Yields clock₁ o₁ end₁ →
            (∀ o₂ end₂, second.Yields clock₂ o₂ end₂ → o₁.executed ≤ o₂.executed) ∧
            (o₁.status ≠ .timedOut → ∃ end₂, second.Yields clock₂ o₁ end₂)) := by
  constructor
  · intro bound₁ bound₂ o₁ o₂ end₁ end₂ hbound₁ hbound₂ hrun₁ hrun₂
    obtain ⟨n₁, m₁, status₁, checks₁, hlt₁, hm₁, -, hcut₁, rfl, -⟩ := run_eq_some_iff_cut.mp hrun₁
    obtain ⟨n₂, m₂, status₂, checks₂, hlt₂, hm₂, -, hcut₂, rfl, -⟩ := run_eq_some_iff_cut.mp hrun₂
    rw [h.after?_eq] at hm₂
    have hhalts₁ : status₁ ≠ .timedOut → first.program.Halts first.limits m₁ status₁ :=
      Run.Cut.halts hcut₁
    simp only [Run.outcome]
    refine ⟨?_, ?_, ?_⟩
    · intro hne₁ hne₂
      have hhalts₂ := h.halts (Run.Cut.halts hcut₂ hne₂)
      obtain ⟨rfl, rfl, rfl⟩ := (hhalts₁ hne₁).after?_unique hm₁ hhalts₂ hm₂
      exact ⟨rfl, rfl, rfl, rfl⟩
    · intro hne₁
      have hle : n₂ ≤ n₁ := (hhalts₁ hne₁).le_of_after? hm₁ hm₂
      omega
    · intro hexecuted
      have hle : n₁ ≤ n₂ := by omega
      have hgrown := extends_of_after? hle hm₁ hm₂
      exact ⟨hgrown.output, hgrown.length_visible_le⟩
  · intro hreadings htimeout o₁ end₁ hyields
    refine ⟨?_, h.yields_of_timeout_le hreadings htimeout hyields⟩
    intro o₂ end₂ hyields₂
    obtain ⟨n₁, m₁, status₁, checks₁, hm₁, hbudget, -, rfl, -⟩ := yields_iff.mp hyields
    obtain ⟨n₂, m₂, status₂, checks₂, hm₂, -, hcut₂, rfl, -⟩ := yields_iff.mp hyields₂
    rw [h.after?_eq] at hm₂
    have hle := h.le_of_timeout_le hreadings htimeout hm₁ hbudget hm₂ hcut₂
    simp only [Run.outcome]
    omega

/-- A run that is killed after three instructions shows a front part of what the same program shows
that has the time to end. -/
theorem clock_only_decides_the_cut_of_printing :
    let short := ofText "+.+.+."
      { timeout := .ofMilliseconds 4, startedAt := .zero, input := [], debug := false }
    let long := ofText "+.+.+."
      { timeout := .ofMilliseconds 9, startedAt := .zero, input := [], debug := false }
    SameTask short long ∧ ∃ o₁ end₁ o₂ end₂,
      short.run 4 SteppingClock.perMillisecond = some (o₁, end₁) ∧
      long.run 7 SteppingClock.perMillisecond = some (o₂, end₂) ∧
      o₁.status = .timedOut ∧ o₁.executed = 3 ∧ o₂.status = .completed ∧ o₂.executed = 6 ∧
      o₁.output.toList <+: o₂.output.toList ∧ o₁.tape.length ≤ o₂.tape.length := by
  intro short long
  have htask : SameTask short long := ⟨rfl, rfl, rfl⟩
  have hshort : (short.run 4 SteppingClock.perMillisecond).map
      (fun answer => (answer.1.status, answer.1.executed)) = some (.timedOut, 3) := by
    decide +kernel
  have hlong : (long.run 7 SteppingClock.perMillisecond).map
      (fun answer => (answer.1.status, answer.1.executed)) = some (.completed, 6) := by
    decide +kernel
  obtain ⟨⟨o₁, end₁⟩, hrun₁, hpair₁⟩ := Option.map_eq_some_iff.mp hshort
  obtain ⟨⟨o₂, end₂⟩, hrun₂, hpair₂⟩ := Option.map_eq_some_iff.mp hlong
  obtain ⟨hstatus₁, hexecuted₁⟩ := Prod.mk.inj hpair₁
  obtain ⟨hstatus₂, hexecuted₂⟩ := Prod.mk.inj hpair₂
  obtain ⟨hcuts, hlarger⟩ := clock_only_decides_the_cut htask SteppingClock.perMillisecond
    SteppingClock.perMillisecond
  obtain ⟨-, -, hgrown⟩ := hcuts 4 7 o₁ o₂ end₁ end₂ (by decide) (by decide) hrun₁ hrun₂
  have hle := (hlarger (fun _ => rfl) (by decide) o₁ end₁ ⟨4, hrun₁⟩).1 o₂ end₂ ⟨7, hrun₂⟩
  obtain ⟨hfront, hlength⟩ := hgrown hle
  exact ⟨htask, o₁, end₁, o₂, end₂, hrun₁, hrun₂, hstatus₁, hexecuted₁, hstatus₂, hexecuted₂,
    hfront, hlength⟩

end Sandbox

end TapeMachine
