import TapeMachine.Proofs.Course
import TapeMachine.Proofs.Nesting.Scan

/-!
The loop stack of a running machine is the stack of a reading of the text up to its position. A
machine pushes, pops and jumps back as the cells tell it to, over any number of rounds, but at each
position its stack can only be one: the loops that the text before the position leaves open. The
proof keeps this for one instruction; the jump back is the case that needs the bracket structure.
-/

namespace TapeMachine

namespace Machine

variable {m : Machine} {i : Instruction} {limits : Limits}

@[simp] theorem position_print (m : Machine) : m.print.position = m.position := by
  unfold print
  split <;> rfl

@[simp] theorem loopStack_print (m : Machine) : m.print.loopStack = m.loopStack := by
  unfold print
  split <;> rfl

@[simp] theorem position_receive (m : Machine) : m.receive.position = m.position := by
  unfold receive
  split <;> rfl

@[simp] theorem loopStack_receive (m : Machine) : m.receive.loopStack = m.loopStack := by
  unfold receive
  split <;> rfl

/-- Only a loop end can lead anywhere else than to the next position. -/
theorem position_execute (m : Machine) (h : i ≠ .loopEnd) :
    (m.execute i).position = m.position + 1 := by
  cases i <;> simp_all [execute, advance, write]

theorem loopStack_execute (m : Machine) (hstart : i ≠ .loopStart) (hend : i ≠ .loopEnd) :
    (m.execute i).loopStack = m.loopStack := by
  cases i <;> simp_all [execute, advance, write]

theorem loopStack_execute_loopStart (m : Machine) :
    (m.execute .loopStart).loopStack = m.loopStack.push m.position := rfl

theorem exists_start_of_fault? (h : m.fault? limits .loopEnd = none) :
    ∃ start, m.loopStack.back? = some start := by
  apply Option.ne_none_iff_exists'.mp
  intro hnone
  simp [fault?, Array.back?_eq_none_iff.mp hnone] at h

theorem execute_loopEnd_of_zero {start : Nat} (hback : m.loopStack.back? = some start)
    (hzero : m.tape.current = 0) :
    (m.execute .loopEnd).position = m.position + 1 ∧
      (m.execute .loopEnd).loopStack = m.loopStack.pop := by
  simp [execute, endLoop, hback, hzero, advance]

/-- Anything else under the head goes back to right after the innermost start, and the loop keeps
its place on the stack. -/
theorem execute_loopEnd_of_ne_zero {start : Nat} (hback : m.loopStack.back? = some start)
    (hne : m.tape.current ≠ 0) :
    (m.execute .loopEnd).position = start + 1 ∧
      (m.execute .loopEnd).loopStack = m.loopStack := by
  simp [execute, endLoop, hback, hne]

end Machine

/-- A machine's loops are those that a reading of the text up to its position leaves open, and
every loop end up to there closes something. -/
structure Machine.Follows (program : Program) (m : Machine) : Prop where
  closes : ∀ e < m.position, e ∉ program.brackets.unmatchedEnds
  stack : m.loopStack.toList = program.openBefore m.position

namespace Machine.Follows

variable {program : Program} {limits : Limits} {m m' : Machine} {i : Instruction}

theorem start (program : Program) (input : List Char) : Follows program (.start input) where
  closes := fun _ he => absurd he (Nat.not_lt_zero _)
  stack := rfl

theorem back? (h : Follows program m) :
    m.loopStack.back? = (program.openBefore m.position).getLast? := by
  rw [← h.stack, Array.getLast?_toList]

private theorem closes_succ (h : Follows program m)
    (hhere : program.get? m.position ≠ some .loopEnd ∨ m.loopStack.toList ≠ []) :
    ∀ e < m.position + 1, e ∉ program.brackets.unmatchedEnds := by
  intro e he hstray
  rcases Nat.lt_succ_iff_lt_or_eq.mp he with hlt | rfl
  · exact h.closes e hlt hstray
  · obtain ⟨hend, hopen⟩ := Program.mem_unmatchedEnds_iff.mp hstray
    rcases hhere with hne | hne
    · exact hne hend
    · exact hne (h.stack.trans hopen)

/-- An instruction that raises no fault keeps the loop stack on the text. -/
theorem execute (h : Follows program m) (hget : program.get? m.position = some i)
    (hfault : m.fault? limits i = none) : Follows program (m.execute i) := by
  have hsucc := program.openBefore_succ m.position
  rw [hget] at hsucc
  by_cases hend : i = .loopEnd
  · subst i
    obtain ⟨start, hback⟩ := exists_start_of_fault? hfault
    have hinner : (program.openBefore m.position).getLast? = some start := by
      rw [← h.back?, hback]
    by_cases hzero : m.tape.current = 0
    · obtain ⟨hposition, hstack⟩ := execute_loopEnd_of_zero hback hzero
      have hopen : m.loopStack.toList ≠ [] := by
        intro hempty
        rw [h.stack] at hempty
        simp [hempty] at hinner
      refine ⟨by rw [hposition]; exact h.closes_succ (.inr hopen), ?_⟩
      rw [hposition, hstack, hsucc, ← h.stack, Array.toList_pop]
    · obtain ⟨hposition, hstack⟩ := execute_loopEnd_of_ne_zero hback hzero
      obtain ⟨hlt, -, hopen⟩ := Program.openBefore_after_innermost hinner
      refine ⟨?_, by rw [hposition, hstack, hopen, h.stack]⟩
      intro e he
      rw [hposition] at he
      exact h.closes e (by omega)
  · have hposition := m.position_execute hend
    have hcloses := h.closes_succ (.inl (by simp [hget, hend]))
    refine ⟨by rw [hposition]; exact hcloses, ?_⟩
    by_cases hstart : i = .loopStart
    · subst i
      rw [hposition, hsucc, loopStack_execute_loopStart, Array.toList_push, h.stack]
    · rw [hposition, m.loopStack_execute hstart hend, h.stack]
      cases i <;> simp_all

theorem next? (h : Follows program m) (hnext : program.next? limits m = some m') :
    Follows program m' := by
  obtain ⟨i, hget, hfault, rfl⟩ := Program.next?_eq_some_iff.mp hnext
  exact h.execute hget hfault

end Machine.Follows

namespace Sandbox

variable {σ τ : Type} [Clock σ] [Clock τ]

theorem follows_of_after? {sandbox : Sandbox} {n : Nat} {m : Machine}
    (h : sandbox.after? n = some m) : m.Follows sandbox.program :=
  Program.after?_induction (fun _ _ hfollows hnext => hfollows.next? hnext) (.start _ _) h

theorem Reaches.follows {sandbox : Sandbox} {clock clock' : σ} {n : Nat} {m : Machine}
    (h : sandbox.Reaches clock n m clock') : m.Follows sandbox.program :=
  h.induction (.start _ _) fun _ _ hfollows hnext => hfollows.next? hnext

/-- In every run the loop stack is the one that a reading of the text up to the position has: the
same positions in the same order, whatever the input, the limits, the clock and the budget were and
however often loops went round. -/
theorem loopStack_eq_unmatchedStarts {sandbox : Sandbox} {clock clock' : σ} {n : Nat}
    {m : Machine} (h : sandbox.Reaches clock n m clock') :
    (∀ e ∈ sandbox.program.brackets.unmatchedEnds, m.position ≤ e) ∧
      m.loopStack = (sandbox.program.bracketsBefore m.position).unmatchedStarts ∧
      (∀ (other : Sandbox) (clock₁ clock₂ : τ) (k : Nat) (m' : Machine),
        other.program = sandbox.program → other.Reaches clock₁ k m' clock₂ →
          m'.position = m.position → m'.loopStack = m.loopStack) ∧
      m.loopStack.toList.Pairwise (· < ·) ∧
      (∀ s ∈ m.loopStack, s < m.position ∧ sandbox.program.get? s = some .loopStart) ∧
      (∀ m', sandbox.program.get? m.position = some .loopEnd → m.tape.current ≠ 0 →
        m.step sandbox.limits .loopEnd = .ok m' →
          ∃ s, sandbox.program.partner? m.position = some s ∧ m'.position = s + 1) := by
  have hfollows := h.follows
  refine ⟨?_, Array.toList_inj.mp hfollows.stack, ?_, ?_, ?_, ?_⟩
  · intro e he
    apply Nat.le_of_not_lt
    intro hlt
    exact hfollows.closes e hlt he
  · intro other clock₁ clock₂ k m' hprogram hother hposition
    apply Array.toList_inj.mp
    rw [hother.follows.stack, hfollows.stack, hprogram, hposition]
  · rw [hfollows.stack]
    exact sandbox.program.pairwise_openBefore m.position
  · intro s hs
    apply Program.mem_openBefore
    rw [← hfollows.stack]
    exact Array.mem_toList_iff.mpr hs
  · intro m' hend hne hstep
    have hfault : m.fault? sandbox.limits .loopEnd = none := by
      unfold Machine.step at hstep
      split at hstep
      · cases hstep
      · next hnone => exact hnone
    obtain ⟨s, hback⟩ := Machine.exists_start_of_fault? hfault
    refine ⟨s, ?_, ?_⟩
    · rw [Program.partner?, if_pos hend, ← hfollows.back?, hback]
    · have hexecute : m.execute .loopEnd = m' := by
        simpa [Machine.step, hfault] using hstep
      rw [← hexecute]
      exact (Machine.execute_loopEnd_of_ne_zero hback hne).1

/-- At the end of a loop body that is about to be entered once more, the stack is the one that the
text has there. -/
theorem loopStack_eq_unmatchedStarts_at_loopEnd :
    let sandbox := ofText "+[+[-]+]"
      { timeout := .ofMilliseconds 20, startedAt := .zero, input := [], debug := false }
    ∃ m clock', sandbox.Reaches SteppingClock.perMillisecond 9 m clock' ∧ m.position = 7 ∧
      m.loopStack = #[1] ∧
      m.loopStack = (sandbox.program.bracketsBefore m.position).unmatchedStarts ∧
      ∀ m', sandbox.program.get? m.position = some .loopEnd → m.tape.current ≠ 0 →
        m.step sandbox.limits .loopEnd = .ok m' →
          ∃ s, sandbox.program.partner? m.position = some s ∧ m'.position = s + 1 := by
  intro sandbox
  have hsteps : (sandbox.after? 9).map (fun m => (m.position, m.loopStack)) = some (7, #[1]) := by
    decide +kernel
  obtain ⟨m, hm, hpair⟩ := Option.map_eq_some_iff.mp hsteps
  obtain ⟨hposition, hstack⟩ := Prod.mk.inj hpair
  have hbudget : ∀ j < 9, sandbox.expiresAt SteppingClock.perMillisecond j = false := by decide
  have hreach : sandbox.Reaches SteppingClock.perMillisecond 9 m _ :=
    reaches_iff.mpr ⟨hm, hbudget, rfl⟩
  obtain ⟨-, hread, -, -, -, hjump⟩ :=
    @loopStack_eq_unmatchedStarts SteppingClock SteppingClock _ _ _ _ _ _ _ hreach
  exact ⟨m, _, hreach, hposition, hstack, hread, hjump⟩

end Sandbox

end TapeMachine
