import Mathlib.Data.Nat.Find
import TapeMachine.Proofs.Cuts

/-!
What a run takes from its clock. It reads the clock at the start, before every instruction and after
the end, and nothing else of the clock gets into what it leaves behind. So two runs of one task
under the same budget have the same outcome, or none within the same bound, if their clocks show
the same whenever they are read.
-/

namespace TapeMachine

namespace Sandbox

variable {σ τ : Type} [Clock σ] [Clock τ] {sandbox first second : Sandbox} {clock₁ : σ}
  {clock₂ : τ} {bound n : Nat} {o : Outcome}

/-- What a run leaves behind, without its clock. -/
def outcome? (sandbox : Sandbox) (bound : Nat) (clock : σ) : Option Outcome :=
  (sandbox.run bound clock).map Prod.fst

theorem outcome?_eq_some_iff :
    sandbox.outcome? bound clock₁ = some o ↔
      ∃ clock', sandbox.run bound clock₁ = some (o, clock') := by
  simp [outcome?]

theorem expiresAt_congr (htimeout : second.session.timeout = first.session.timeout)
    (hreadings : ∀ n, Clock.readings clock₂ n = Clock.readings clock₁ n) (n : Nat) :
    second.expiresAt clock₂ n = first.expiresAt clock₁ n := by
  have hstart : (Clock.read clock₂).1 = (Clock.read clock₁).1 :=
    Clock.read_after_congr hreadings 0
  have hnow := Clock.read_after_congr hreadings (n + 1)
  rw [Bool.eq_iff_iff, expiresAt_iff, expiresAt_iff, htimeout, hstart, hnow]

/-- The record of an end is made from readings: the one at the start and the one taken last. -/
theorem outcome_congr (first second : Sandbox)
    (hreadings : ∀ n, Clock.readings clock₂ n = Clock.readings clock₁ n) (ending : Ending)
    (n : Nat) :
    (second.start clock₂).1.outcome ending (Clock.read (Clock.after clock₂ n)).1 =
      (first.start clock₁).1.outcome ending (Clock.read (Clock.after clock₁ n)).1 := by
  have hstart : (Clock.read clock₂).1 = (Clock.read clock₁).1 :=
    Clock.read_after_congr hreadings 0
  rw [Clock.read_after_congr hreadings n]
  simp only [Run.outcome, start, Session.start, Session.elapsedAt, hstart]

/-- A run that is cut like another one after as many steps has the other one's outcome. -/
theorem outcome?_of_cut (hreadings : ∀ n, Clock.readings clock₂ n = Clock.readings clock₁ n)
    {m : Machine} {status : Status} {checks : Nat} (hsteps : second.after? n = some m)
    (hbudget : ∀ j < n, second.expiresAt clock₂ j = false)
    (hcut : second.Cut clock₂ n m status checks) (hlt : n < bound) :
    second.outcome? bound clock₂ =
      some ((first.start clock₁).1.outcome ⟨status, m, min n greatestCount⟩
        (Clock.read (Clock.after clock₁ (checks + 1))).1) := by
  rw [outcome?, run_of_cut hsteps hbudget hcut hlt, ← outcome_congr first second hreadings]
  rfl

/-- A run is cut where another one is if its program goes on there in the same way and its check
fires along with the other one's. -/
theorem Cut.transport (hlimits : second.limits = first.limits)
    (hcheck : second.expiresAt clock₂ n = first.expiresAt clock₁ n) {m : Machine} {status : Status}
    {checks : Nat}
    (hend : status = .completed → first.program.get? m.position = none →
      second.program.get? m.position = none)
    (hget : ∀ i, first.program.get? m.position = some i → second.program.get? m.position = some i)
    (hcut : first.Cut clock₁ n m status checks) : second.Cut clock₂ n m status checks := by
  cases hcut with
  | completed here => exact .completed (hend rfl here)
  | @timedOut i here expired => exact .timedOut (hget i here) (hcheck.trans expired)
  | @faulted i fault here inTime raised =>
      have hraised : m.fault? second.limits i = some fault := by
        rw [hlimits]
        exact raised
      exact .faulted (hget i here) (hcheck.trans inTime) hraised

theorem SameTask.cut (h : SameTask first second)
    (hcheck : second.expiresAt clock₂ n = first.expiresAt clock₁ n) {m : Machine} {status : Status}
    {checks : Nat} (hcut : first.Cut clock₁ n m status checks) :
    second.Cut clock₂ n m status checks := by
  have hsame : ∀ answer, first.program.get? m.position = answer →
      second.program.get? m.position = answer := by
    rw [h.program]
    exact fun _ => id
  exact hcut.transport h.limits hcheck (fun _ => hsame none) (fun i => hsame (some i))

/-- A run has the outcome of another one if it makes the other one's steps and is cut where the
other one is. -/
theorem outcome?_transport (htimeout : second.session.timeout = first.session.timeout)
    (hreadings : ∀ n, Clock.readings clock₂ n = Clock.readings clock₁ n)
    (hsteps : ∀ n m, first.after? n = some m → second.after? n = some m)
    (hcut : ∀ n m checks, second.expiresAt clock₂ n = first.expiresAt clock₁ n →
      first.Cut clock₁ n m o.status checks → second.Cut clock₂ n m o.status checks)
    (ho : first.outcome? bound clock₁ = some o) : second.outcome? bound clock₂ = some o := by
  obtain ⟨clock', hrun⟩ := outcome?_eq_some_iff.mp ho
  obtain ⟨n, m, status, checks, hlt, hm, hbudget, hended, rfl, -⟩ := run_eq_some_iff_cut.mp hrun
  have hcheck := expiresAt_congr htimeout hreadings
  exact outcome?_of_cut hreadings (hsteps n m hm) (fun j hj => (hcheck j).trans (hbudget j hj))
    (hcut n m checks (hcheck n) hended) hlt

/-- On the same readings and under the same budget one task has one outcome. -/
theorem SameTask.outcome?_eq (h : SameTask first second)
    (htimeout : second.session.timeout = first.session.timeout)
    (hreadings : ∀ n, Clock.readings clock₂ n = Clock.readings clock₁ n) :
    second.outcome? bound clock₂ = first.outcome? bound clock₁ := by
  have hback : SameTask second first := ⟨h.program.symm, h.limits.symm, h.input.symm⟩
  apply Option.ext
  intro o
  constructor
  · exact outcome?_transport htimeout.symm (fun n => (hreadings n).symm)
      (fun n _ hm => (hback.after?_eq n).trans hm) fun _ _ _ hcheck => hback.cut hcheck
  · exact outcome?_transport htimeout hreadings (fun n _ hm => (h.after?_eq n).trans hm)
      fun _ _ _ hcheck => h.cut hcheck

theorem outcome?_congr (hreadings : ∀ n, Clock.readings clock₂ n = Clock.readings clock₁ n) :
    sandbox.outcome? bound clock₂ = sandbox.outcome? bound clock₁ :=
  SameTask.outcome?_eq ⟨rfl, rfl, rfl⟩ rfl hreadings

/-- A run is sure to end on a clock that lets some check of its budget fire. -/
theorem exists_outcome?_of_expiresAt (h : sandbox.expiresAt clock₁ n = true) :
    ∃ bound o, sandbox.outcome? bound clock₁ = some o := by
  have hfires : ∃ n, sandbox.expiresAt clock₁ n = true := ⟨n, h⟩
  obtain ⟨k, m, status, checks, hle, hsteps, hcut⟩ :=
    Run.exists_cut sandbox.machine
      (fun j hj => Bool.eq_false_iff.mpr (Nat.find_min hfires hj)) (Nat.find_spec hfires)
  have hbudget : ∀ j < k, sandbox.expiresAt clock₁ j = false := fun j hj =>
    Bool.eq_false_iff.mpr (Nat.find_min hfires (Nat.lt_of_lt_of_le hj hle))
  exact ⟨k + 1, _, outcome?_eq_some_iff.mpr
    ⟨_, run_of_cut hsteps hbudget hcut (Nat.lt_succ_self k)⟩⟩

end Sandbox

end TapeMachine
