import TapeMachine.Proofs.Nesting.LoopStack
import TapeMachine.Proofs.Readings

/-!
Loops that are never closed. The start of such a loop stays on the loop stack, below the starts of
loops that are opened and closed later on, however often these go round. A loop end looks at the top
of the stack alone, and the start that it finds there is one that the text closes. So a start that
is never closed is never looked at: as long as the stack has room for it, it is as good as a
comment.
-/

namespace TapeMachine

namespace Program

variable {program : Program} {p q s : Nat}

/-- A program whose loop starts without an end are comments. -/
def withoutUnclosed (program : Program) : Program where
  instructions := program.instructions.mapIdx fun p i =>
    if p ∈ program.brackets.unmatchedStarts then .nop else i

theorem get?_withoutUnclosed (program : Program) (p : Nat) :
    program.withoutUnclosed.get? p =
      (program.get? p).map fun i => if p ∈ program.brackets.unmatchedStarts then .nop else i := by
  simp [withoutUnclosed, get?]

theorem mem_unmatchedStarts_iff :
    s ∈ program.brackets.unmatchedStarts ↔ s ∈ program.openBefore program.size := by
  rw [openBefore, bracketsBefore_of_size_le (Nat.le_refl _), Array.mem_toList_iff]

theorem get?_of_mem_unmatchedStarts (h : s ∈ program.brackets.unmatchedStarts) :
    program.get? s = some .loopStart :=
  (mem_openBefore (mem_unmatchedStarts_iff.mp h)).2

/-- A loop end closes the innermost loop for good. -/
theorem not_mem_openBefore_of_closed (hget : program.get? p = some .loopEnd)
    (hinner : (program.openBefore p).getLast? = some s) (hlt : p < q) :
    s ∉ program.openBefore q := by
  have hstart := (openBefore_after_innermost hinner).1
  induction q with
  | zero => simp
  | succ q ih =>
      have hsucc := program.openBefore_succ q
      rcases Nat.lt_succ_iff_lt_or_eq.mp hlt with hbefore | rfl
      · have hnot := ih hbefore
        split at hsucc
        · rw [hsucc, List.mem_append, List.mem_singleton]
          rintro (hmem | rfl)
          · exact hnot hmem
          · omega
        · rw [hsucc]
          exact fun hmem => hnot (List.dropLast_subset _ hmem)
        · rw [hsucc]
          exact hnot
      · -- The starts that stay open here are all before the one that is closed.
        obtain ⟨rest, hrest⟩ := List.getLast?_eq_some_iff.mp hinner
        have hordered := program.pairwise_openBefore p
        rw [hrest, List.pairwise_append] at hordered
        rw [hget, hrest] at hsucc
        rw [hsucc, List.dropLast_concat]
        intro hmem
        exact Nat.lt_irrefl s (hordered.2.2 s hmem s (List.mem_singleton_self s))

theorem not_mem_unmatchedStarts_of_closed (hget : program.get? p = some .loopEnd)
    (hinner : (program.openBefore p).getLast? = some s) :
    s ∉ program.brackets.unmatchedStarts := by
  rw [mem_unmatchedStarts_iff]
  exact not_mem_openBefore_of_closed hget hinner (lt_size_of_get? hget)

end Program

namespace Machine

variable {m : Machine} {i : Instruction} {limits : Limits} {starts : Array Nat} {s : Nat}

/-- A machine that has never heard of some of its open loops. -/
def forget (starts : Array Nat) (m : Machine) : Machine :=
  { m with loopStack := m.loopStack.filter fun s => s ∉ starts }

@[simp] theorem position_forget (starts : Array Nat) (m : Machine) :
    (m.forget starts).position = m.position := rfl

/-- Only brackets look at the loop stack. -/
theorem fault?_forget (starts : Array Nat) (limits : Limits) (m : Machine)
    (hstart : i ≠ .loopStart) (hend : i ≠ .loopEnd) :
    (m.forget starts).fault? limits i = m.fault? limits i := by
  cases i with
  | loopStart => contradiction
  | loopEnd => contradiction
  | _ => rfl

theorem execute_forget (starts : Array Nat) (m : Machine) (hstart : i ≠ .loopStart)
    (hend : i ≠ .loopEnd) : (m.forget starts).execute i = (m.execute i).forget starts := by
  cases i with
  | loopStart => contradiction
  | loopEnd => contradiction
  | output =>
      simp only [execute, print, forget]
      split <;> rfl
  | input =>
      simp only [execute, receive, forget]
      split <;> rfl
  | _ => rfl

theorem fault?_forget_loopStart (hfault : m.fault? limits .loopStart = none) :
    (m.forget starts).fault? limits .loopStart = none := by
  have hroom : m.loopStack.size < limits.loopDepth := by
    simpa [fault?] using hfault
  have hfewer : (m.forget starts).loopStack.size ≤ m.loopStack.size :=
    Array.size_filter_le
  have hroom' : (m.forget starts).loopStack.size < limits.loopDepth :=
    Nat.lt_of_le_of_lt hfewer hroom
  simp [fault?, hroom']

theorem execute_forget_loopStart (hkept : m.position ∉ starts) :
    (m.forget starts).execute .loopStart = (m.execute .loopStart).forget starts := by
  simp [execute, advance, forget, hkept]

/-- To forget a loop at its start is to pass over the start. -/
theorem execute_nop_forget (hforgotten : m.position ∈ starts) :
    (m.forget starts).execute .nop = (m.execute .loopStart).forget starts := by
  simp [execute, advance, forget, hforgotten]

theorem fault?_forget_loopEnd (hkept : ∀ s, m.loopStack.back? = some s → s ∉ starts) :
    (m.forget starts).fault? limits .loopEnd = m.fault? limits .loopEnd := by
  cases hback : m.loopStack.back? with
  | none =>
      have hempty : m.loopStack = #[] := Array.back?_eq_none_iff.mp hback
      simp [fault?, forget, hempty]
  | some s =>
      obtain ⟨rest, hrest⟩ := Array.back?_eq_some_iff.mp hback
      simp [fault?, forget, hrest, hkept s hback]

/-- A loop end does the same if the innermost loop is not forgotten. -/
theorem execute_forget_loopEnd (hback : m.loopStack.back? = some s) (hkept : s ∉ starts) :
    (m.forget starts).execute .loopEnd = (m.execute .loopEnd).forget starts := by
  obtain ⟨rest, hrest⟩ := Array.back?_eq_some_iff.mp hback
  by_cases hzero : m.tape.current = 0
  · simp [execute, endLoop, forget, hrest, hkept, hzero, advance]
  · simp [execute, endLoop, forget, hrest, hkept, hzero]

namespace Follows

variable {program : Program}

theorem fault?_loopStart (h : m.Follows program)
    (hdepth : program.brackets.maxDepth ≤ limits.loopDepth)
    (hget : program.get? m.position = some .loopStart) :
    m.fault? limits .loopStart = none := by
  have hroom := Program.maxDepth_le_iff.mp hdepth m.position hget
  rw [← h.stack, Array.length_toList] at hroom
  have hfits : m.loopStack.size < limits.loopDepth := hroom
  simp [fault?, hfits]

/-- An instruction of a program does to a machine that has forgotten the loops without an end what
it does to one that has not, if it is a comment where it starts such a loop. -/
theorem forget_step (h : m.Follows program)
    (hdepth : program.brackets.maxDepth ≤ limits.loopDepth)
    (hget : program.get? m.position = some i) :
    ∃ i', program.withoutUnclosed.get? m.position = some i' ∧
      (m.forget program.brackets.unmatchedStarts).fault? limits i' = m.fault? limits i ∧
      (m.fault? limits i = none →
        (m.forget program.brackets.unmatchedStarts).execute i' =
            (m.execute i).forget program.brackets.unmatchedStarts ∧
          (m.execute i).Follows program) := by
  have hkeep := fun hfault : m.fault? limits i = none => h.execute hget hfault
  rw [Program.get?_withoutUnclosed, hget]
  by_cases hunclosed : m.position ∈ program.brackets.unmatchedStarts
  · obtain rfl : Instruction.loopStart = i :=
      Option.some.inj ((Program.get?_of_mem_unmatchedStarts hunclosed).symm.trans hget)
    refine ⟨.nop, by simp [hunclosed], ?_, fun hfault => ⟨?_, hkeep hfault⟩⟩
    · rw [h.fault?_loopStart hdepth hget]
      rfl
    · exact execute_nop_forget hunclosed
  · refine ⟨i, by simp [hunclosed], ?_⟩
    by_cases hstart : i = .loopStart
    · subst i
      have hfault := h.fault?_loopStart hdepth hget
      exact ⟨(fault?_forget_loopStart hfault).trans hfault.symm,
        fun _ => ⟨execute_forget_loopStart hunclosed, hkeep hfault⟩⟩
    · by_cases hend : i = .loopEnd
      · subst i
        have hkept : ∀ s, m.loopStack.back? = some s →
            s ∉ program.brackets.unmatchedStarts := by
          intro s hback
          rw [h.back?] at hback
          exact Program.not_mem_unmatchedStarts_of_closed hget hback
        refine ⟨fault?_forget_loopEnd hkept, fun hfault => ⟨?_, hkeep hfault⟩⟩
        obtain ⟨s, hback⟩ := exists_start_of_fault? hfault
        exact execute_forget_loopEnd hback (hkept s hback)
      · exact ⟨fault?_forget _ _ _ hstart hend,
          fun hfault => ⟨execute_forget _ _ hstart hend, hkeep hfault⟩⟩

end Follows

end Machine

/-- A program text in which every loop start that has no end is replaced by a comment. -/
def Text.withoutUnclosed (source : String) (comment : Nat → Char) : String :=
  String.ofList (source.toList.mapIdx fun p c =>
    if p ∈ (Program.ofText source).brackets.unmatchedStarts then comment p else c)

theorem Program.withoutUnclosed_ofText (source : String) {comment : Nat → Char}
    (hcomment : ∀ p, Instruction.ofChar (comment p) = .nop) :
    (ofText source).withoutUnclosed = ofText (Text.withoutUnclosed source comment) := by
  have hget : ∀ p, (ofText source).withoutUnclosed.get? p =
      (ofText (Text.withoutUnclosed source comment)).get? p := by
    intro p
    rw [get?_withoutUnclosed, get?_ofText, get?_ofText, Text.withoutUnclosed, String.toList_ofList,
      List.getElem?_mapIdx]
    cases source.toList[p]? with
    | none => rfl
    | some c =>
        by_cases hp : p ∈ (ofText source).brackets.unmatchedStarts <;> simp [hp, hcomment]
  exact congrArg Program.mk (Array.ext_getElem? hget)

namespace Sandbox

variable {σ τ : Type} [Clock σ] [Clock τ] {sandbox : Sandbox}

def withoutUnclosed (sandbox : Sandbox) : Sandbox :=
  { sandbox with program := sandbox.program.withoutUnclosed }

theorem run_withoutUnclosed
    (hdepth : sandbox.program.brackets.maxDepth ≤ sandbox.limits.loopDepth) (bound : Nat)
    (clock : σ) : sandbox.withoutUnclosed.run bound clock = sandbox.run bound clock := by
  have hturns : (sandbox.withoutUnclosed.start clock).1.turns bound 0
        (sandbox.machine.forget sandbox.program.brackets.unmatchedStarts) (sandbox.start clock).2 =
      ((sandbox.start clock).1.turns bound 0 sandbox.machine (sandbox.start clock).2).map
        fun stop => ({ stop.1 with
          machine := stop.1.machine.forget sandbox.program.brackets.unmatchedStarts }, stop.2) := by
    apply Run.turns_map (I := Machine.Follows sandbox.program)
    · exact fun _ => rfl
    · intro m _ hget
      have hnone : sandbox.program.get? m.position = none := hget
      exact (Program.get?_withoutUnclosed _ _).trans (by simp [hnone])
    · intro m i hfollows hget
      exact hfollows.forget_step hdepth hget
    · exact .start _ _
  rw [run_eq_map, run_eq_map]
  have hmachine : sandbox.withoutUnclosed.machine =
      sandbox.machine.forget sandbox.program.brackets.unmatchedStarts := rfl
  have hclock : (sandbox.withoutUnclosed.start clock).2 = (sandbox.start clock).2 := rfl
  rw [hmachine, hclock, hturns, Option.map_map]
  rfl

/-- A loop that is never closed does nothing. If the limit leaves room for every loop that the text
opens, then a text and the same text with comments in place of the loop starts that have no end give
the same run on the same readings: the same ending, the same fault at the same position, the same
tape, output, count and time, or no end for either. -/
theorem unclosed_loops_do_nothing (source : String) {comment : Nat → Char}
    (hcomment : ∀ p, Instruction.ofChar (comment p) = .nop) (session : Session) {limits : Limits}
    (hdepth : (Program.ofText source).brackets.maxDepth ≤ limits.loopDepth) {clock₁ : σ}
    {clock₂ : τ} (hreadings : ∀ n, Clock.readings clock₂ n = Clock.readings clock₁ n)
    (bound : Nat) :
    let unclosed : Sandbox := ⟨.ofText source, session, limits⟩
    let commented : Sandbox := ⟨.ofText (Text.withoutUnclosed source comment), session, limits⟩
    commented.outcome? bound clock₂ = unclosed.outcome? bound clock₁ := by
  intro unclosed commented
  have hcommented : commented = unclosed.withoutUnclosed := by
    simp only [commented, unclosed, withoutUnclosed, Program.withoutUnclosed_ofText source hcomment]
  rw [outcome?_congr hreadings, hcommented, outcome?, run_withoutUnclosed hdepth]
  rfl

/-- Two loops without an end, one of them around a loop that goes round twice. -/
theorem unclosed_loops_do_nothing_around_loop :
    let source := "+[+[-].[>"
    let session : Session :=
      { timeout := .ofMilliseconds 20, startedAt := .zero, input := [], debug := false }
    let clock := SteppingClock.perMillisecond
    Instruction.ofChar '#' = .nop ∧
      (Program.ofText source).brackets.maxDepth ≤ Limits.default.loopDepth ∧
      Text.withoutUnclosed source (fun _ => '#') = "+#+[-].#>" ∧
      ∃ o, (⟨.ofText source, session, .default⟩ : Sandbox).outcome? 20 clock = some o ∧
        o.status = .completed ∧ o.executed = 11 ∧
        (⟨.ofText "+#+[-].#>", session, .default⟩ : Sandbox).outcome? 20 clock = some o := by
  intro source session clock
  have hcomment : Instruction.ofChar '#' = .nop := rfl
  have hdepth : (Program.ofText source).brackets.maxDepth ≤ Limits.default.loopDepth := by
    decide +kernel
  have htext : Text.withoutUnclosed source (fun _ => '#') = "+#+[-].#>" := by decide +kernel
  have hrun : ((⟨.ofText source, session, .default⟩ : Sandbox).outcome? 20 clock).map
      (fun o => (o.status, o.executed)) = some (.completed, 11) := by
    decide +kernel
  obtain ⟨o, ho, hpair⟩ := Option.map_eq_some_iff.mp hrun
  obtain ⟨hstatus, hexecuted⟩ := Prod.mk.inj hpair
  have hreadings : ∀ n, Clock.readings clock n = Clock.readings clock n := fun _ => rfl
  have hsame := unclosed_loops_do_nothing source (fun _ => hcomment) session hdepth hreadings 20
  rw [htext] at hsame
  exact ⟨hcomment, hdepth, htext, o, ho, hstatus, hexecuted, hsame.trans ho⟩

end Sandbox

end TapeMachine
