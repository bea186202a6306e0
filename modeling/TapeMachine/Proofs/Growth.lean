import TapeMachine.Proofs.Faults
import TapeMachine.Proofs.Termination

/-!
How fast the cells of a run can grow. An instruction adds or takes one, or stores the code of a
character, and moves the head by one cell; so the number of instructions bounds how far every cell
and the head can have come, in whatever order the instructions came and however often loops went
round. A fault that tells of a cell or a head at its end thus tells of the instructions that it took
to bring it there, and a budget that is used up before so many of them keeps cells from overflowing.
-/

namespace TapeMachine

namespace Tape

variable {tape : Tape} {value : Int} {n : Nat}

/-- The values that a cell can have after a number of instructions: as far as that below zero, and
above the code of the last character. -/
def InReach (n : Nat) (value : Int) : Prop :=
  -(n : Int) ≤ value ∧ value ≤ 1114111 + n

theorem InReach.succ (h : InReach n value) : InReach (n + 1) value := by
  simp only [InReach] at *
  omega

theorem inReach_code (c : Char) (n : Nat) : InReach n (c.toNat : Int) := by
  have hvalid : c.val.toNat.isValidChar := c.valid
  have hcode : c.toNat = c.val.toNat := rfl
  simp only [Nat.isValidChar] at hvalid
  simp only [InReach]
  omega

theorem inReach_write (h : ∀ v ∈ tape.cells, InReach n v) (hvalue : InReach (n + 1) value) :
    ∀ v ∈ (tape.write value).cells, InReach (n + 1) v := by
  intro v hv
  have hset : v ∈ tape.cells.set tape.head.val value tape.head.isLt := hv
  rcases Vector.mem_or_eq_of_mem_set hset with hold | rfl
  · exact (h v hold).succ
  · exact hvalue

end Tape

namespace Machine

variable {limits : Limits} {m : Machine} {i : Instruction} {n : Nat}

/-- Every cell and the head are where a number of instructions can have brought them. -/
structure Within (n : Nat) (m : Machine) : Prop where
  cells : ∀ v ∈ m.tape.cells, Tape.InReach n v
  head : m.tape.head.val ≤ n

namespace Within

theorem start (input : List Char) : Within 0 (.start input) where
  cells := by simp [Machine.start, Tape.blank, Tape.InReach]
  head := Nat.le_refl 0

theorem current (h : m.Within n) : Tape.InReach n m.tape.current :=
  h.cells _ (Vector.getElem_mem m.tape.head.isLt)

theorem cells_succ (h : m.Within n) : ∀ v ∈ m.tape.cells, Tape.InReach (n + 1) v :=
  fun v hv => (h.cells v hv).succ

theorem cells_receive (h : m.Within n) : ∀ v ∈ m.receive.tape.cells, Tape.InReach (n + 1) v := by
  unfold receive
  split
  · exact h.cells_succ
  · exact Tape.inReach_write h.cells (Tape.inReach_code _ _)

theorem cells_execute (h : m.Within n) (i : Instruction) :
    ∀ v ∈ (m.execute i).tape.cells, Tape.InReach (n + 1) v := by
  obtain ⟨hleast, hgreatest⟩ := h.current
  rw [tape_execute]
  cases i with
  | increment =>
      apply Tape.inReach_write h.cells
      simp only [Tape.InReach]
      omega
  | decrement =>
      apply Tape.inReach_write h.cells
      simp only [Tape.InReach]
      omega
  | moveRight =>
      rw [Tape.cells_right]
      exact h.cells_succ
  | input => exact h.cells_receive
  | _ => exact h.cells_succ

theorem head_execute (h : m.Within n) (i : Instruction) :
    (m.execute i).tape.head.val ≤ n + 1 := by
  have hhead := h.head
  rw [tape_execute]
  cases i with
  | moveRight =>
      simp only [Tape.head_right]
      split <;> omega
  | moveLeft =>
      simp only [Tape.head_left]
      omega
  | input =>
      simp only [head_receive]
      omega
  | _ => exact Nat.le_succ_of_le hhead

/-- An instruction reaches one farther, whether it raises a fault or not. -/
theorem execute (h : m.Within n) (i : Instruction) : (m.execute i).Within (n + 1) where
  cells := h.cells_execute i
  head := h.head_execute i

end Within

/-- A cell at an end of its range has taken this many instructions. -/
theorem Raises.le_of_cellOverflow {p cell : Nat} (h : m.Raises limits i (.cellOverflow p cell))
    (hwithin : m.Within n) : 9223372036854775808 - 1114112 ≤ n := by
  obtain ⟨hleast, hgreatest⟩ := hwithin.current
  cases h with
  | overflow greatest =>
      simp only [Tape.greatestCell] at greatest
      omega
  | underflow least =>
      simp only [Tape.leastCell] at least
      omega

theorem Raises.le_of_tapeExhausted {p last : Nat} (h : m.Raises limits i (.tapeExhausted p last))
    (hwithin : m.Within n) : 29999 ≤ n := by
  have hhead := hwithin.head
  cases h with
  | tapeExhausted last => omega

end Machine

namespace Sandbox

variable {σ : Type} [Clock σ] {sandbox : Sandbox} {clock clock' : σ} {m : Machine} {o : Outcome}
  {fault : Fault} {n : Nat}

theorem within_of_after? (h : sandbox.after? n = some m) : m.Within n := by
  induction n generalizing m with
  | zero =>
      cases h
      exact .start _
  | succ n ih =>
      obtain ⟨mid, hmid, hnext⟩ := Program.after?_succ_eq_some_iff.mp h
      obtain ⟨i, -, -, rfl⟩ := Program.next?_eq_some_iff.mp hnext
      exact (ih hmid).execute i

/-- A fault comes by the rules, after a check of the budget that did not fire, and of a machine that
is no farther than the executed instructions allow. -/
theorem Yields.exists_raises (h : sandbox.Yields clock o clock')
    (hstatus : o.status = .faulted fault) :
    ∃ (n : Nat) (m : Machine) (i : Instruction), o.executed = min n greatestCount ∧
      sandbox.expiresAt clock n = false ∧ m.Within n ∧ m.Raises sandbox.limits i fault := by
  obtain ⟨n, m, clock₁, checks, hreach, hcut, -, -, hexecuted⟩ := h.exists_reaches
  rw [hstatus] at hcut
  cases hcut with
  | @faulted i _ here inTime raised =>
      exact ⟨n, m, i, hexecuted, inTime, within_of_after? (reaches_iff.mp hreach).1,
        hreach.coherent.raises raised⟩

/-- On a fresh clock that goes on by a step, a budget that a step fills in too few readings is used
up before any cell can overflow. -/
theorem status_ne_cellOverflow {step : Duration} (hstep : 0 < step.nanoseconds)
    (hfew : (sandbox.session.timeout.nanoseconds + step.nanoseconds - 1) / step.nanoseconds ≤
      9223372036854775808 - 1114112) {end' : SteppingClock}
    (h : sandbox.Yields (SteppingClock.new step) o end') (p cell : Nat) :
    o.status ≠ .faulted (.cellOverflow p cell) := by
  intro hstatus
  obtain ⟨n, m, i, -, hinTime, hwithin, hraises⟩ := h.exists_raises hstatus
  have hmany := hraises.le_of_cellOverflow hwithin
  have hlast : sandbox.session.allowance step ≤ n := by
    unfold Session.allowance
    omega
  rw [(expiresAt_new_iff hstep n).mpr hlast] at hinTime
  cases hinTime

/-- A text that does nothing but move to the right has the head on the last cell after the least
number of instructions that this can take. -/
theorem exists_after?_of_moves
    (hmoves : ∀ k < Tape.size, sandbox.program.get? k = some .moveRight) (hn : n < Tape.size) :
    ∃ m, sandbox.after? n = some m ∧ m.position = n ∧ m.tape.head.val = n := by
  induction n with
  | zero => exact ⟨sandbox.machine, rfl, rfl, rfl⟩
  | succ n ih =>
      obtain ⟨m, hm, hposition, hhead⟩ := ih (by omega)
      have hget : sandbox.program.get? m.position = some .moveRight := by
        rw [hposition]
        exact hmoves n (by omega)
      have hfault : m.fault? sandbox.limits .moveRight = none := by
        simp [Machine.fault?, Tape.atEnd, hhead]
        omega
      have hnext := Program.next?_of_get? hget hfault
      refine ⟨_, Program.after?_succ_eq_some_iff.mpr ⟨m, hm, hnext⟩, ?_, ?_⟩
      · rw [m.position_execute (by simp), hposition]
      · rw [Machine.tape_execute, Tape.head_right, hhead, if_pos hn]

/-- A round of a loop that does nothing but count leaves everything but the count as it was. -/
theorem after?_countingRound (hprogram : sandbox.program = .ofText "+[+]")
    (hposition : m.position = 2) (hstack : m.loopStack = #[1]) (hpos : 0 < m.tape.current)
    (hless : m.tape.current < Tape.greatestCell) :
    sandbox.program.after? sandbox.limits 2 m =
      some { m with tape := m.tape.write (m.tape.current + 1) } := by
  have hcounted : sandbox.program.next? sandbox.limits m = some (m.execute .increment) := by
    apply Program.next?_of_get?
    · rw [hprogram, hposition]
      rfl
    · simp [Machine.fault?, hless]
  have hback : m.loopStack.back? = some 1 := by
    rw [hstack]
    rfl
  have hround : (m.execute .increment).execute .loopEnd =
      { m with tape := m.tape.write (m.tape.current + 1) } := by
    have hne : m.tape.current + 1 ≠ 0 := by omega
    simp [Machine.execute, Machine.endLoop, Machine.advance, Machine.write, hback, hne,
      ← hposition]
  refine Program.after?_succ_eq_some_iff.mpr ⟨_, Program.after?_one hcounted, ?_⟩
  rw [← hround]
  apply Program.next?_of_get?
  · rw [hprogram, m.position_execute (by simp), hposition]
    rfl
  · simp [Machine.fault?, Machine.execute, Machine.advance, Machine.write, hstack]

/-- The loop counts on, two instructions for every one, as long as the cell has room. -/
theorem exists_after?_of_countingLoop (hprogram : sandbox.program = .ofText "+[+]")
    (hdepth : 0 < sandbox.limits.loopDepth) (hn : (n : Int) < Tape.greatestCell) :
    ∃ m, sandbox.after? (2 * n + 2) = some m ∧ m.position = 2 ∧ m.loopStack = #[1] ∧
      m.tape.head.val = 0 ∧ m.tape.current = n + 1 := by
  induction n with
  | zero => exact exists_entered (by rw [hprogram]; rfl) (by rw [hprogram]; rfl) hdepth
  | succ n ih =>
      obtain ⟨m, hm, hposition, hstack, hhead, hcurrent⟩ := ih (by omega)
      have hround := after?_countingRound hprogram hposition hstack (by omega) (by omega)
      refine ⟨_, Program.after?_trans hm hround, hposition, hstack, hhead, ?_⟩
      rw [Tape.current_write, hcurrent]
      rfl

/-- The cells grow by no more than one for an instruction, on top of the code of a character. After
`n` instructions every cell is at least `-n` and at most `1114111 + n`. So a run in which a cell
overflows has executed close to all the instructions that a signed 64-bit number can count, a run
whose head leaves the tape has executed one for every cell but the first, and on a fresh clock with
a step no cell overflows unless the budget lasts for more steps than that. -/
theorem cells_grow_by_one_per_instruction (sandbox : Sandbox) (clock : σ) :
    (∀ n m clock', sandbox.Reaches clock n m clock' →
      ∀ v ∈ m.tape.cells, -(n : Int) ≤ v ∧ v ≤ 1114111 + n) ∧
      (∀ o clock', sandbox.Yields clock o clock' →
        (∀ p cell, o.status = .faulted (.cellOverflow p cell) →
          9223372036854775808 - 1114112 ≤ o.executed) ∧
        (∀ p last, o.status = .faulted (.tapeExhausted p last) → 29999 ≤ o.executed)) ∧
      ∀ step : Duration, 0 < step.nanoseconds →
        (sandbox.session.timeout.nanoseconds + step.nanoseconds - 1) / step.nanoseconds ≤
            9223372036854775808 - 1114112 →
          ∀ o clock', sandbox.Yields (SteppingClock.new step) o clock' →
            ∀ p cell, o.status ≠ .faulted (.cellOverflow p cell) := by
  refine ⟨?_, ?_, ?_⟩
  · intro n m clock' hreach
    exact (within_of_after? (reaches_iff.mp hreach).1).cells
  · intro o clock' hyields
    constructor
    · intro p cell hstatus
      obtain ⟨n, m, i, hexecuted, -, hwithin, hraises⟩ := hyields.exists_raises hstatus
      have hmany := hraises.le_of_cellOverflow hwithin
      simp only [greatestCount] at hexecuted
      omega
    · intro p last hstatus
      obtain ⟨n, m, i, hexecuted, -, hwithin, hraises⟩ := hyields.exists_raises hstatus
      have hmany := hraises.le_of_tapeExhausted hwithin
      simp only [greatestCount] at hexecuted
      omega
  · intro step hstep hfew o clock' hyields
    exact status_ne_cellOverflow hstep hfew hyields

/-- Without an end of time a loop counts until its cell overflows, and a text of moves leaves the
tape; ten milliseconds on a clock of milliseconds are far from that. -/
theorem cells_grow_by_one_per_instruction_until_overflow :
    let session : Session :=
      { timeout := .ofMilliseconds 10, startedAt := .zero, input := [], debug := false }
    let counting := ofText "+[+]" session
    let moving := ofText (String.ofList (List.replicate Tape.size '>')) session
    let standing := SteppingClock.new .zero
    (∃ m clock', counting.Reaches standing 6 m clock' ∧ m.tape.current = 3 ∧
      ∀ v ∈ m.tape.cells, -6 ≤ v ∧ v ≤ 1114111 + 6) ∧
      (∃ o clock', counting.Yields standing o clock' ∧
        o.status = .faulted (.cellOverflow 2 0) ∧
        9223372036854775808 - 1114112 ≤ o.executed) ∧
      (∃ o clock', moving.Yields standing o clock' ∧
        o.status = .faulted (.tapeExhausted 29999 29999) ∧ 29999 ≤ o.executed) ∧
      ∃ o clock', counting.Yields SteppingClock.perMillisecond o clock' ∧
        ∀ p cell, o.status ≠ .faulted (.cellOverflow p cell) := by
  intro session counting moving standing
  have hbudget : ∀ j, counting.expiresAt standing j = false := expiresAt_standing (by decide)
  have hbudget' : ∀ j, moving.expiresAt standing j = false := expiresAt_standing (by decide)
  have hprogram : counting.program = .ofText "+[+]" := rfl
  have hdepth : 0 < counting.limits.loopDepth := by decide
  obtain ⟨hcells, hends, hinTime⟩ := cells_grow_by_one_per_instruction counting standing
  obtain ⟨-, hends', -⟩ := cells_grow_by_one_per_instruction moving standing
  refine ⟨?_, ?_, ?_, ?_⟩
  · obtain ⟨m, hm, -, -, -, hcurrent⟩ :=
      exists_after?_of_countingLoop (n := 2) hprogram hdepth (by decide)
    have hreach : counting.Reaches standing 6 m _ :=
      reaches_iff.mpr ⟨hm, fun j _ => hbudget j, rfl⟩
    exact ⟨m, _, hreach, hcurrent, hcells 6 m _ hreach⟩
  · obtain ⟨m, hm, hposition, -, hhead, hcurrent⟩ :=
      exists_after?_of_countingLoop (n := 9223372036854775806) hprogram hdepth (by decide)
    have hfault : m.fault? counting.limits .increment = some (.cellOverflow 2 0) := by
      simp [Machine.fault?, hcurrent, Tape.greatestCell, hposition, hhead]
    have hget : counting.program.get? m.position = some .increment := by
      rw [hposition]
      rfl
    obtain ⟨o, clock', hyields, hstatus, -, -⟩ :=
      exists_yields_of_halts hm (fun j _ => hbudget j) (.faulted hget hfault)
    exact ⟨o, clock', hyields, hstatus, (hends o clock' hyields).1 2 0 hstatus⟩
  · have hmoves : ∀ k < Tape.size, moving.program.get? k = some .moveRight := by
      intro k hk
      have hget := Program.get?_ofText (String.ofList (List.replicate Tape.size '>')) k
      rw [String.toList_ofList, List.getElem?_replicate, if_pos hk] at hget
      exact hget
    obtain ⟨m, hm, hposition, hhead⟩ :=
      exists_after?_of_moves (n := 29999) hmoves (by decide)
    have hfault : m.fault? moving.limits .moveRight = some (.tapeExhausted 29999 29999) := by
      simp [Machine.fault?, Tape.atEnd, Tape.size, hposition, hhead]
    have hget : moving.program.get? m.position = some .moveRight := by
      rw [hposition]
      exact hmoves 29999 (by decide)
    obtain ⟨o, clock', hyields, hstatus, -, -⟩ :=
      exists_yields_of_halts hm (fun j _ => hbudget' j) (.faulted hget hfault)
    exact ⟨o, clock', hyields, hstatus, (hends' o clock' hyields).2 _ _ hstatus⟩
  · have hsome : (counting.run 10 SteppingClock.perMillisecond).isSome = true := by
      decide +kernel
    obtain ⟨⟨o, clock'⟩, hrun⟩ := Option.isSome_iff_exists.mp hsome
    have hyields : counting.Yields SteppingClock.perMillisecond o clock' := ⟨10, hrun⟩
    exact ⟨o, clock', hyields, hinTime (.ofMilliseconds 1) (by decide) (by decide) o clock' hyields⟩

end Sandbox

end TapeMachine
