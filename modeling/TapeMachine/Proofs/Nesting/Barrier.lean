import TapeMachine.Proofs.Nesting.LoopStack

/-!
Which bracket a run cannot get past. A loop end that closes nothing and a loop start that has as
many loops open before it as are allowed are known from the text alone. The first of them is where
every run that gets there faults, whatever it reads and whatever its cells hold: control moves on
by one or goes back, so nothing before it is skipped and nothing behind it is seen.
-/

namespace TapeMachine

namespace Program

/-- A bracket that raises a fault whenever it is dispatched. -/
def Impassable (program : Program) (depth p : Nat) : Prop :=
  p ∈ program.brackets.unmatchedEnds ∨
    program.get? p = some .loopStart ∧ depth ≤ (program.bracketsBefore p).unmatchedStarts.size

/-- The first bracket that no run gets past. -/
structure IsBarrier (program : Program) (depth b : Nat) : Prop where
  impassable : program.Impassable depth b
  first : ∀ q < b, ¬ program.Impassable depth q

variable {program : Program} {depth p : Nat}

theorem impassable_iff :
    program.Impassable depth p ↔
      program.get? p = some .loopEnd ∧ program.openBefore p = [] ∨
        program.get? p = some .loopStart ∧ depth ≤ (program.openBefore p).length :=
  or_congr mem_unmatchedEnds_iff Iff.rfl

instance : Decidable (program.Impassable depth p) :=
  decidable_of_iff _ impassable_iff.symm

theorem Impassable.lt_size (h : program.Impassable depth p) : p < program.size := by
  rcases impassable_iff.mp h with ⟨hget, -⟩ | ⟨hget, -⟩
  · exact lt_size_of_get? hget
  · exact lt_size_of_get? hget

theorem Impassable.exists_barrier (h : program.Impassable depth p) :
    ∃ b, program.IsBarrier depth b := by
  induction p using Nat.strongRecOn with
  | _ p ih =>
      by_cases hearlier : ∃ q, q < p ∧ program.Impassable depth q
      · obtain ⟨q, hq, himpassable⟩ := hearlier
        exact ih q hq himpassable
      · exact ⟨p, h, fun q hq himpassable => hearlier ⟨q, hq, himpassable⟩⟩

theorem exists_barrier_iff :
    (∃ b, program.IsBarrier depth b) ↔
      ¬ (program.brackets.unmatchedEnds = #[] ∧ program.brackets.maxDepth ≤ depth) := by
  constructor
  · rintro ⟨b, ⟨himpassable, -⟩⟩ ⟨hends, hdepth⟩
    rcases himpassable with hstray | ⟨hget, hopen⟩
    · simp [hends] at hstray
    · have hlt := maxDepth_le_iff.mp hdepth b hget
      exact absurd hopen (Nat.not_le_of_lt hlt)
  · intro h
    by_cases hends : program.brackets.unmatchedEnds = #[]
    · have hdepth : ∃ q, program.get? q = some .loopStart ∧
          depth ≤ (program.openBefore q).length := by
        apply Classical.byContradiction
        intro hnone
        refine h ⟨hends, maxDepth_le_iff.mpr fun q hget => ?_⟩
        apply Nat.lt_of_not_le
        intro hle
        exact hnone ⟨q, hget, hle⟩
      obtain ⟨q, hq⟩ := hdepth
      exact Impassable.exists_barrier (.inr hq)
    · obtain ⟨e, he⟩ := Array.exists_mem_of_ne_empty _ hends
      exact Impassable.exists_barrier (.inl he)

end Program

namespace Machine

variable {m m' : Machine} {limits : Limits} {i : Instruction}

theorem fault?_eq_unmatchedLoopEnd {q : Nat} (h : m.fault? limits i = some (.unmatchedLoopEnd q)) :
    i = .loopEnd ∧ m.loopStack.toList = [] ∧ q = m.position := by
  have hend : i = .loopEnd := by
    cases i <;> simp [fault?] at h ⊢
    split at h
    · simp at h
    · split at h <;> simp at h
  subst i
  simp only [fault?, Array.isEmpty_iff, Option.ite_none_right_eq_some, Option.some.injEq,
    Fault.unmatchedLoopEnd.injEq] at h
  exact ⟨rfl, Array.toList_eq_nil_iff.mpr h.1, h.2.symm⟩

theorem fault?_eq_loopTooDeep {q d : Nat} (h : m.fault? limits i = some (.loopTooDeep q d)) :
    i = .loopStart ∧ limits.loopDepth ≤ m.loopStack.toList.length ∧ q = m.position ∧
      d = limits.loopDepth := by
  have hstart : i = .loopStart := by
    cases i <;> simp [fault?] at h ⊢
    split at h
    · simp at h
    · split at h <;> simp at h
  subst i
  simp only [fault?, Option.ite_none_left_eq_some, Nat.not_lt, Option.some.injEq,
    Fault.loopTooDeep.injEq] at h
  exact ⟨rfl, h.1, h.2.1.symm, h.2.2.symm⟩

namespace Follows

variable {program : Program}

theorem step_impassable (h : Follows program m)
    (hp : program.Impassable limits.loopDepth m.position) :
    (program.get? m.position = some .loopEnd ∧
        m.step limits .loopEnd = .error (.unmatchedLoopEnd m.position)) ∨
      (program.get? m.position = some .loopStart ∧
        m.step limits .loopStart = .error (.loopTooDeep m.position limits.loopDepth)) := by
  rcases Program.impassable_iff.mp hp with ⟨hget, hopen⟩ | ⟨hget, hopen⟩
  · have hempty : m.loopStack = #[] := Array.toList_eq_nil_iff.mp (h.stack.trans hopen)
    exact .inl ⟨hget, by simp [step, fault?, hempty]⟩
  · rw [← h.stack, Array.length_toList] at hopen
    exact .inr ⟨hget, by simp [step, fault?, Nat.not_lt_of_le hopen]⟩

theorem passable_of_next? (h : Follows program m) (hnext : program.next? limits m = some m') :
    ¬ program.Impassable limits.loopDepth m.position := by
  intro hp
  rcases h.step_impassable hp with ⟨hget, hstep⟩ | ⟨hget, hstep⟩
  · simp [Program.next?, hget, hstep, Except.toOption] at hnext
  · simp [Program.next?, hget, hstep, Except.toOption] at hnext

/-- Control moves on by one position at most. -/
theorem position_next?_le (h : Follows program m) (hnext : program.next? limits m = some m') :
    m'.position ≤ m.position + 1 := by
  obtain ⟨i, hget, hfault, rfl⟩ := Program.next?_eq_some_iff.mp hnext
  by_cases hend : i = .loopEnd
  · subst i
    obtain ⟨start, hback⟩ := exists_start_of_fault? hfault
    by_cases hzero : m.tape.current = 0
    · exact Nat.le_of_eq (execute_loopEnd_of_zero hback hzero).1
    · have hinner : (program.openBefore m.position).getLast? = some start := by
        rw [← h.back?, hback]
      obtain ⟨hlt, -⟩ := Program.openBefore_after_innermost hinner
      rw [(execute_loopEnd_of_ne_zero hback hzero).1]
      omega
  · exact Nat.le_of_eq (m.position_execute hend)

/-- A fault at a bracket is raised at an impassable one, and names it. -/
theorem impassable_of_halts (h : Follows program m) {fault : Fault}
    (hhalts : program.Halts limits m (.faulted fault)) :
    (∀ q, fault = .unmatchedLoopEnd q → q = m.position ∧ program.get? q = some .loopEnd ∧
        program.Impassable limits.loopDepth q) ∧
      (∀ q d, fault = .loopTooDeep q d → q = m.position ∧ program.get? q = some .loopStart ∧
        d = limits.loopDepth ∧ program.Impassable limits.loopDepth q) := by
  cases hhalts with
  | faulted here raised =>
      constructor
      · rintro q rfl
        obtain ⟨rfl, hempty, rfl⟩ := fault?_eq_unmatchedLoopEnd raised
        rw [h.stack] at hempty
        exact ⟨rfl, here, Program.impassable_iff.mpr (.inl ⟨here, hempty⟩)⟩
      · rintro q d rfl
        obtain ⟨rfl, hdeep, rfl, rfl⟩ := fault?_eq_loopTooDeep raised
        rw [h.stack] at hdeep
        exact ⟨rfl, here, rfl, Program.impassable_iff.mpr (.inr ⟨here, hdeep⟩)⟩

end Follows

end Machine

namespace Sandbox

variable {σ : Type} [Clock σ] {sandbox : Sandbox} {clock clock' : σ} {n : Nat} {m : Machine}

/-- The run dispatches the instruction at a position: it stands there with budget left. -/
def Dispatches (sandbox : Sandbox) (clock : σ) (p : Nat) : Prop :=
  ∃ n m clock', sandbox.Reaches clock n m clock' ∧ m.position = p ∧ p < sandbox.program.size ∧
    (sandbox.start clock).1.session.expiredAt (Clock.read clock').1 = false

def withLoopDepth (sandbox : Sandbox) (depth : Nat) : Sandbox :=
  { sandbox with limits := { sandbox.limits with loopDepth := depth } }

/-- What lies before the position of a running machine can be passed. -/
theorem Reaches.passable (h : sandbox.Reaches clock n m clock') :
    ∀ q < m.position, ¬ sandbox.program.Impassable sandbox.limits.loopDepth q := by
  refine (h.induction (P := fun m => m.Follows sandbox.program ∧
    ∀ q < m.position, ¬ sandbox.program.Impassable sandbox.limits.loopDepth q)
    ⟨.start _ _, fun q hq => absurd hq (Nat.not_lt_zero q)⟩ ?_).2
  rintro m m' ⟨hfollows, hbefore⟩ hnext
  refine ⟨hfollows.next? hnext, ?_⟩
  intro q hq
  have hle := hfollows.position_next?_le hnext
  rcases Nat.lt_succ_iff_lt_or_eq.mp (Nat.lt_of_lt_of_le hq hle) with hlt | rfl
  · exact hbefore q hlt
  · exact hfollows.passable_of_next? hnext

theorem Reaches.position_le (h : sandbox.Reaches clock n m clock') : m.position ≤ n := by
  induction h with
  | start => exact Nat.le_refl 0
  | @turn n m m' clock' i before here goesOn ih =>
      obtain ⟨-, hfault, rfl⟩ := Run.turn_eq_running_iff.mp goesOn
      have hfollows : m.Follows sandbox.program := Reaches.follows before
      have hle := hfollows.position_next?_le (Program.next?_of_get? here hfault)
      omega

theorem Reaches.dispatches (h : sandbox.Reaches clock n m clock') :
    ∀ q < m.position, sandbox.Dispatches clock q := by
  induction h with
  | start => exact fun q hq => absurd hq (Nat.not_lt_zero q)
  | @turn n m m' clock' i before here goesOn ih =>
      obtain ⟨hnow, hfault, rfl⟩ := Run.turn_eq_running_iff.mp goesOn
      have hfollows : m.Follows sandbox.program := Reaches.follows before
      have hle := hfollows.position_next?_le (Program.next?_of_get? here hfault)
      intro q hq
      rcases Nat.lt_succ_iff_lt_or_eq.mp (Nat.lt_of_lt_of_le hq hle) with hlt | rfl
      · exact ih q hlt
      · exact ⟨n, m, clock', before, rfl, Program.lt_size_of_get? here, hnow⟩

/-- A run that stands with budget left where the program ends without one, ends there. -/
theorem Reaches.exists_yields_of_halts {status : Status} (h : sandbox.Reaches clock n m clock')
    (hnow : (sandbox.start clock).1.session.expiredAt (Clock.read clock').1 = false)
    (hhalts : sandbox.program.Halts sandbox.limits m status) :
    ∃ o clock₁, sandbox.Yields clock o clock₁ ∧ o.status = status := by
  obtain ⟨hsteps, hbudget, rfl⟩ := reaches_iff.mp h
  have hchecks : ∀ j ≤ n, sandbox.expiresAt clock j = false := by
    intro j hj
    rcases Nat.lt_or_eq_of_le hj with hlt | rfl
    · exact hbudget j hlt
    · exact hnow
  obtain ⟨o, clock₁, hyields, hstatus, -⟩ :=
    Sandbox.exists_yields_of_halts hsteps hchecks hhalts
  exact ⟨o, clock₁, hyields, hstatus⟩

theorem run_withLoopDepth {depth₁ depth₂ : Nat}
    (h₁ : sandbox.program.brackets.maxDepth ≤ depth₁)
    (h₂ : sandbox.program.brackets.maxDepth ≤ depth₂) (bound : Nat) (clock : σ) :
    (sandbox.withLoopDepth depth₁).run bound clock =
      (sandbox.withLoopDepth depth₂).run bound clock := by
  have hturns : ((sandbox.withLoopDepth depth₁).start clock).1.turns bound 0 sandbox.machine
        (sandbox.start clock).2 =
      ((sandbox.withLoopDepth depth₂).start clock).1.turns bound 0 sandbox.machine
        (sandbox.start clock).2 := by
    apply Run.turns_congr (I := Machine.Follows sandbox.program)
    · rfl
    · rfl
    · intro m i hfollows hget
      cases i with
      | loopStart =>
          have hlt₁ := Program.maxDepth_le_iff.mp h₁ m.position hget
          have hlt₂ := Program.maxDepth_le_iff.mp h₂ m.position hget
          rw [← hfollows.stack, Array.length_toList] at hlt₁ hlt₂
          simp [Machine.fault?, withLoopDepth, hlt₁, hlt₂]
      | _ => rfl
    · intro m i hfollows hget hfault
      exact hfollows.execute hget hfault
    · exact .start _ _
  rw [run_eq_map, run_eq_map]
  exact congrArg _ hturns

/-- The text decides how a run can end at a bracket. No run gets past the barrier, every run that
dispatches it faults there, and a run that faults at a bracket faults at the barrier. A run
completes only if there is none, and then it has dispatched every position of the text. -/
theorem brackets_decide_ending (sandbox : Sandbox) (clock : σ) :
    ((∃ b, sandbox.program.IsBarrier sandbox.limits.loopDepth b) ↔
        ¬ (sandbox.program.brackets.unmatchedEnds = #[] ∧
          sandbox.program.brackets.maxDepth ≤ sandbox.limits.loopDepth)) ∧
      (∀ b, sandbox.program.IsBarrier sandbox.limits.loopDepth b →
        (∀ p, sandbox.Dispatches clock p → p ≤ b) ∧
        (∀ n m clock', sandbox.Reaches clock n m clock' → m.position = b →
          (sandbox.program.get? b = some .loopEnd ∧
              m.step sandbox.limits .loopEnd = .error (.unmatchedLoopEnd b)) ∨
            (sandbox.program.get? b = some .loopStart ∧
              m.step sandbox.limits .loopStart =
                .error (.loopTooDeep b sandbox.limits.loopDepth))) ∧
        (sandbox.Dispatches clock b → ∃ o clock', sandbox.Yields clock o clock' ∧
          (o.status = .faulted (.unmatchedLoopEnd b) ∨
            o.status = .faulted (.loopTooDeep b sandbox.limits.loopDepth)))) ∧
      (∀ o clock', sandbox.Yields clock o clock' →
        (∀ q, o.status = .faulted (.unmatchedLoopEnd q) →
          sandbox.program.IsBarrier sandbox.limits.loopDepth q ∧
            sandbox.program.get? q = some .loopEnd) ∧
        (∀ q d, o.status = .faulted (.loopTooDeep q d) →
          sandbox.program.IsBarrier sandbox.limits.loopDepth q ∧
            sandbox.program.get? q = some .loopStart ∧ d = sandbox.limits.loopDepth) ∧
        (o.status = .completed →
          (¬ ∃ b, sandbox.program.IsBarrier sandbox.limits.loopDepth b) ∧
          (∀ p < sandbox.program.size, sandbox.Dispatches clock p) ∧
          (sandbox.program.size < 9223372036854775808 →
            sandbox.program.size ≤ o.executed))) ∧
      ∀ depth₁ depth₂, sandbox.program.brackets.maxDepth ≤ depth₁ →
        sandbox.program.brackets.maxDepth ≤ depth₂ → ∀ bound,
          (sandbox.withLoopDepth depth₁).run bound clock =
            (sandbox.withLoopDepth depth₂).run bound clock := by
  refine ⟨Program.exists_barrier_iff, ?_, ?_, ?_⟩
  · intro b hb
    have hstand : ∀ n m clock', sandbox.Reaches clock n m clock' → m.position ≤ b := by
      intro n m clock' hreach
      apply Nat.le_of_not_lt
      intro hlt
      exact hreach.passable b hlt hb.impassable
    refine ⟨?_, ?_, ?_⟩
    · rintro p ⟨n, m, clock', hreach, rfl, -⟩
      exact hstand n m clock' hreach
    · rintro n m clock' hreach rfl
      exact hreach.follows.step_impassable hb.impassable
    · rintro ⟨n, m, clock', hreach, rfl, -, hnow⟩
      rcases hreach.follows.step_impassable hb.impassable with ⟨hget, hstep⟩ | ⟨hget, hstep⟩
      · have hfault := Machine.step_eq_error_iff.mp hstep
        obtain ⟨o, clock₁, hyields, hstatus⟩ :=
          hreach.exists_yields_of_halts hnow (.faulted hget hfault)
        exact ⟨o, clock₁, hyields, .inl hstatus⟩
      · have hfault := Machine.step_eq_error_iff.mp hstep
        obtain ⟨o, clock₁, hyields, hstatus⟩ :=
          hreach.exists_yields_of_halts hnow (.faulted hget hfault)
        exact ⟨o, clock₁, hyields, .inr hstatus⟩
  · intro o clock' hyields
    obtain ⟨n, m, clock₁, checks, hreach, hcut, -, -, hexecuted⟩ := hyields.exists_reaches
    have hhalts : ∀ status, o.status = status → status ≠ .timedOut →
        sandbox.program.Halts sandbox.limits m status := by
      rintro status rfl hne
      exact Run.Cut.halts hcut hne
    refine ⟨?_, ?_, ?_⟩
    · intro q hstatus
      have hfault := hhalts _ hstatus (by simp)
      obtain ⟨rfl, hget, himpassable⟩ := (hreach.follows.impassable_of_halts hfault).1 q rfl
      exact ⟨⟨himpassable, hreach.passable⟩, hget⟩
    · intro q d hstatus
      have hfault := hhalts _ hstatus (by simp)
      obtain ⟨rfl, hget, hd, himpassable⟩ :=
        (hreach.follows.impassable_of_halts hfault).2 q d rfl
      exact ⟨⟨himpassable, hreach.passable⟩, hget, hd⟩
    · intro hstatus
      have hsize : sandbox.program.size ≤ m.position := by
        cases hhalts _ hstatus (by simp) with
        | completed ended => exact Program.get?_eq_none_iff.mp ended
      refine ⟨?_, ?_, ?_⟩
      · rintro ⟨b, hb⟩
        have hlt := hb.impassable.lt_size
        exact hreach.passable b (by omega) hb.impassable
      · intro p hp
        exact hreach.dispatches p (by omega)
      · intro hsmall
        have hle := hreach.position_le
        rw [hexecuted, greatestCount]
        omega
  · intro depth₁ depth₂ h₁ h₂ bound
    exact run_withLoopDepth h₁ h₂ bound clock

/-- A stray loop end is the barrier of a text that goes on behind it. -/
theorem brackets_decide_ending_at_stray_end :
    let sandbox := ofText "+]-"
      { timeout := .ofMilliseconds 10, startedAt := .zero, input := [], debug := false }
    sandbox.program.IsBarrier sandbox.limits.loopDepth 1 ∧
      (∀ p, sandbox.Dispatches SteppingClock.perMillisecond p → p ≤ 1) ∧
      ∀ o clock', sandbox.Yields SteppingClock.perMillisecond o clock' → o.status ≠ .completed := by
  intro sandbox
  have hbarrier : sandbox.program.IsBarrier sandbox.limits.loopDepth 1 := by
    refine ⟨by decide, ?_⟩
    intro q hq
    obtain rfl : q = 0 := by omega
    decide
  obtain ⟨-, hstand, hend, -⟩ :=
    brackets_decide_ending sandbox SteppingClock.perMillisecond
  refine ⟨hbarrier, (hstand 1 hbarrier).1, ?_⟩
  intro o clock' hyields hcompleted
  exact ((hend o clock' hyields).2.2 hcompleted).1 ⟨1, hbarrier⟩

end Sandbox

end TapeMachine
