import TapeMachine.Proofs.Nesting.LoopStack

/-!
What holds of a machine at every moment of every run. The head is within the cells that are shown,
the cells that are not shown are the zeros of the beginning, every cell holds a signed 64-bit
number, the loop stack has the room that the limits give it, and the output is counted and within
its limit. Each instruction that raises no fault keeps this; so the cells that a run leaves behind,
with zeros after them, are its whole tape. What a machine shows only grows.
-/

namespace TapeMachine

namespace Tape

variable {tape : Tape} {value : Int}

theorem getElem_cells_write (tape : Tape) (value : Int) (p : Fin size) :
    (tape.write value).cells[p] = if p = tape.head then value else tape.cells[p] := by
  simp [write, Vector.getElem_set, Fin.ext_iff, eq_comm]

@[simp] theorem head_left (tape : Tape) : tape.left.head.val = tape.head.val - 1 := rfl

@[simp] theorem reach_left (tape : Tape) : tape.left.reach = tape.reach := rfl

@[simp] theorem cells_right (tape : Tape) : tape.right.cells = tape.cells := by
  unfold right
  split <;> rfl

theorem head_right (tape : Tape) :
    tape.right.head.val =
      if tape.head.val + 1 < size then tape.head.val + 1 else tape.head.val := by
  unfold right
  split <;> rfl

/-- The head has been within the shown cells, no cell beyond them was written, and what was written
are signed 64-bit numbers. -/
structure Tidy (tape : Tape) : Prop where
  head_le_reach : tape.head.val ≤ tape.reach.val
  zero_beyond : ∀ p : Fin size, tape.reach.val < p.val → tape.cells[p] = 0
  in_range : ∀ p : Fin size, leastCell ≤ tape.cells[p] ∧ tape.cells[p] ≤ greatestCell

/-- A move to the right takes the farthest cell along exactly if the head was on it. -/
theorem reach_right (h : tape.head.val ≤ tape.reach.val) :
    tape.right.reach.val = max tape.reach.val tape.right.head.val := by
  unfold right
  split
  · split <;> simp only <;> omega
  · omega

namespace Tidy

theorem blank : Tidy blank where
  head_le_reach := Nat.le_refl _
  zero_beyond := by simp [Tape.blank]
  in_range := by simp [Tape.blank, leastCell, greatestCell]

theorem write (h : tape.Tidy) (hleast : leastCell ≤ value) (hgreatest : value ≤ greatestCell) :
    (tape.write value).Tidy where
  head_le_reach := h.head_le_reach
  zero_beyond := by
    intro p hp
    have hhead := h.head_le_reach
    have hne : p ≠ tape.head := by
      rintro rfl
      exact Nat.not_lt_of_le hhead hp
    rw [getElem_cells_write, if_neg hne]
    exact h.zero_beyond p hp
  in_range := by
    intro p
    rw [getElem_cells_write]
    split
    · exact ⟨hleast, hgreatest⟩
    · exact h.in_range p

theorem left (h : tape.Tidy) : tape.left.Tidy where
  head_le_reach := Nat.le_trans (Nat.sub_le _ _) h.head_le_reach
  zero_beyond := h.zero_beyond
  in_range := h.in_range

theorem right (h : tape.Tidy) : tape.right.Tidy where
  head_le_reach := by
    rw [reach_right h.head_le_reach]
    exact Nat.le_max_right _ _
  zero_beyond := by
    intro p hp
    rw [reach_right h.head_le_reach] at hp
    simp only [cells_right]
    exact h.zero_beyond p (by omega)
  in_range := by
    simp only [cells_right]
    exact h.in_range

theorem current_in_range (h : tape.Tidy) :
    leastCell ≤ tape.current ∧ tape.current ≤ greatestCell :=
  h.in_range tape.head

/-- The cell under the head is among those that are shown. -/
theorem getElem?_visible (h : tape.Tidy) :
    tape.visible[tape.head.val]? = some tape.current := by
  have hhead := h.head_le_reach
  rw [visible_eq_take, List.getElem?_take_of_lt (by omega)]
  simp [current]

/-- The shown cells are the whole tape but for zeros. -/
theorem visible_append_zeros (h : tape.Tidy) :
    tape.visible ++ List.replicate (size - tape.visible.length) 0 = tape.cells.toList := by
  have hrest : tape.cells.toList.drop (tape.reach.val + 1) =
      List.replicate (size - tape.visible.length) 0 := by
    apply List.eq_replicate_iff.mpr
    refine ⟨by simp, ?_⟩
    intro value hvalue
    obtain ⟨k, hk, rfl⟩ := List.getElem_of_mem hvalue
    have hlt : tape.reach.val + 1 + k < size := by
      simp at hk
      omega
    have hzero := h.zero_beyond ⟨tape.reach.val + 1 + k, hlt⟩ (by simp only; omega)
    simpa using hzero
  rw [← hrest, visible_eq_take]
  exact List.take_append_drop _ _

end Tidy

end Tape

namespace Machine

variable {limits : Limits} {m : Machine} {i : Instruction}

@[simp] theorem tape_endLoop (m : Machine) : m.endLoop.tape = m.tape := by
  unfold endLoop
  split
  · rfl
  · split <;> rfl

@[simp] theorem output_endLoop (m : Machine) : m.endLoop.output = m.output := by
  unfold endLoop
  split
  · rfl
  · split <;> rfl

@[simp] theorem printed_endLoop (m : Machine) : m.endLoop.printed = m.printed := by
  unfold endLoop
  split
  · rfl
  · split <;> rfl

@[simp] theorem tape_print (m : Machine) : m.print.tape = m.tape := by
  unfold print
  split <;> rfl

@[simp] theorem output_receive (m : Machine) : m.receive.output = m.output := by
  unfold receive
  split <;> rfl

@[simp] theorem printed_receive (m : Machine) : m.receive.printed = m.printed := by
  unfold receive
  split <;> rfl

@[simp] theorem head_receive (m : Machine) : m.receive.tape.head = m.tape.head := by
  unfold receive
  split <;> rfl

@[simp] theorem reach_receive (m : Machine) : m.receive.tape.reach = m.tape.reach := by
  unfold receive
  split <;> rfl

/-- What an instruction does to the tape. -/
theorem tape_execute (m : Machine) (i : Instruction) :
    (m.execute i).tape =
      match i with
      | .increment => m.tape.write (m.tape.current + 1)
      | .decrement => m.tape.write (m.tape.current - 1)
      | .moveRight => m.tape.right
      | .moveLeft => m.tape.left
      | .input => m.receive.tape
      | _ => m.tape := by
  cases i <;> simp [execute, advance, write]

/-- Only one instruction prints. -/
theorem output_execute (m : Machine) (h : i ≠ .output) :
    (m.execute i).output = m.output ∧ (m.execute i).printed = m.printed := by
  cases i <;> simp_all [execute, advance, write]

/-- A character that is printed is the only change to the output, and it is counted. -/
theorem output_execute_output (h : m.fault? limits .output = none) :
    ∃ c, charOfCell? m.tape.current = some c ∧
      (m.execute .output).output = m.output.push c ∧
      (m.execute .output).printed = countOn m.printed := by
  cases hchar : charOfCell? m.tape.current with
  | none => simp [fault?, hchar] at h
  | some c => exact ⟨c, rfl, by simp [execute, print, hchar, advance]⟩

/-- The invariant of every run. -/
structure Coherent (limits : Limits) (m : Machine) : Prop where
  tidy : m.tape.Tidy
  stack_le : m.loopStack.size ≤ limits.loopDepth
  /-- The counter of printed characters stops at its greatest value. -/
  printed_eq : m.printed = min m.output.length greatestCount
  /-- A limit above all that the counter can show is none. -/
  output_le : ∀ limit ≤ greatestCount, limits.output = some limit → m.output.length ≤ limit

theorem tidy_receive (h : m.tape.Tidy) : m.receive.tape.Tidy := by
  unfold receive
  split
  · exact h
  · next c rest hinput =>
      have hcode : c.toNat < 4294967296 := UInt32.toNat_lt c.val
      apply h.write
      · simp only [Tape.leastCell]
        omega
      · simp only [Tape.greatestCell]
        omega

/-- A cell that would leave its range raises a fault instead. -/
theorem tidy_execute (h : m.tape.Tidy) (hfault : m.fault? limits i = none) :
    (m.execute i).tape.Tidy := by
  obtain ⟨hleast, hgreatest⟩ := h.current_in_range
  rw [tape_execute]
  cases i with
  | increment =>
      have hlt : m.tape.current < Tape.greatestCell := by
        simpa [fault?] using hfault
      exact h.write (by omega) (by omega)
  | decrement =>
      have hlt : Tape.leastCell < m.tape.current := by
        simpa [fault?] using hfault
      exact h.write (by omega) (by omega)
  | moveRight => exact h.right
  | moveLeft => exact h.left
  | input => exact tidy_receive h
  | _ => exact h

theorem size_loopStack_execute_le (h : m.loopStack.size ≤ limits.loopDepth)
    (hfault : m.fault? limits i = none) :
    (m.execute i).loopStack.size ≤ limits.loopDepth := by
  by_cases hstart : i = .loopStart
  · subst i
    have hroom : m.loopStack.size < limits.loopDepth := by
      simpa [fault?] using hfault
    rw [loopStack_execute_loopStart, Array.size_push]
    exact hroom
  · by_cases hend : i = .loopEnd
    · subst i
      obtain ⟨start, hback⟩ := exists_start_of_fault? hfault
      by_cases hzero : m.tape.current = 0
      · rw [(execute_loopEnd_of_zero hback hzero).2, Array.size_pop]
        omega
      · rw [(execute_loopEnd_of_ne_zero hback hzero).2]
        exact h
    · rw [m.loopStack_execute hstart hend]
      exact h

/-- The head can move the end of the shown cells to itself and no farther. -/
theorem reach_execute (h : m.tape.Tidy) (i : Instruction) :
    (m.execute i).tape.reach.val = max m.tape.reach.val (m.execute i).tape.head.val := by
  have hhead := h.head_le_reach
  rw [tape_execute]
  cases i with
  | moveRight => exact Tape.reach_right hhead
  | moveLeft =>
      simp only [Tape.reach_left, Tape.head_left]
      omega
  | input =>
      simp only [head_receive, reach_receive]
      exact (Nat.max_eq_left hhead).symm
  | _ => exact (Nat.max_eq_left hhead).symm

namespace Coherent

theorem start (limits : Limits) (input : List Char) : Coherent limits (.start input) where
  tidy := Tape.Tidy.blank
  stack_le := Nat.zero_le _
  printed_eq := rfl
  output_le := fun _ _ _ => Nat.zero_le _

theorem execute (h : Coherent limits m) (hfault : m.fault? limits i = none) :
    Coherent limits (m.execute i) where
  tidy := tidy_execute h.tidy hfault
  stack_le := size_loopStack_execute_le h.stack_le hfault
  printed_eq := by
    by_cases hout : i = .output
    · subst i
      obtain ⟨c, -, houtput, hprinted⟩ := output_execute_output hfault
      rw [houtput, hprinted, h.printed_eq, countOn_min, String.length_push]
    · obtain ⟨houtput, hprinted⟩ := m.output_execute hout
      rw [houtput, hprinted, h.printed_eq]
  output_le := by
    intro limit hlimit hsome
    have hle := h.output_le limit hlimit hsome
    by_cases hout : i = .output
    · subst i
      obtain ⟨c, hchar, houtput, -⟩ := output_execute_output hfault
      have hroom : m.printed < limit := by
        simpa [fault?, hchar, hsome] using hfault
      rw [h.printed_eq] at hroom
      rw [houtput, String.length_push]
      omega
    · rw [(m.output_execute hout).1]
      exact hle

theorem next? {program : Program} {m' : Machine} (h : Coherent limits m)
    (hnext : program.next? limits m = some m') : Coherent limits m' := by
  obtain ⟨i, -, hfault, rfl⟩ := Program.next?_eq_some_iff.mp hnext
  exact h.execute hfault

end Coherent

/-- What a machine shows, its output and the cells up to the farthest one, goes on from what an
earlier one showed. -/
structure Extends (m earlier : Machine) : Prop where
  output : earlier.output.toList <+: m.output.toList
  reach : earlier.tape.reach.val ≤ m.tape.reach.val

namespace Extends

theorem refl (m : Machine) : m.Extends m where
  output := List.prefix_refl _
  reach := Nat.le_refl _

theorem trans {m₁ m₂ m₃ : Machine} (h : m₃.Extends m₂) (h' : m₂.Extends m₁) : m₃.Extends m₁ where
  output := h'.output.trans h.output
  reach := Nat.le_trans h'.reach h.reach

theorem length_visible_le {earlier : Machine} (h : m.Extends earlier) :
    earlier.tape.visible.length ≤ m.tape.visible.length := by
  have hreach := h.reach
  rw [Tape.length_visible, Tape.length_visible]
  omega

end Extends

theorem Coherent.extends_execute (h : Coherent limits m) (hfault : m.fault? limits i = none) :
    (m.execute i).Extends m where
  output := by
    by_cases hout : i = .output
    · subst i
      obtain ⟨c, -, houtput, -⟩ := output_execute_output hfault
      rw [houtput, String.toList_push]
      exact List.prefix_append _ _
    · have hsame := (m.output_execute hout).1
      exact ⟨[], by rw [List.append_nil, hsame]⟩
  reach := by
    rw [reach_execute h.tidy]
    exact Nat.le_max_left _ _

end Machine

namespace Sandbox

variable {σ : Type} [Clock σ] {sandbox : Sandbox} {clock clock' clock₁ : σ} {j n : Nat}
  {m m' : Machine}

theorem coherent_of_after? (h : sandbox.after? n = some m) : m.Coherent sandbox.limits :=
  Program.after?_induction (fun _ _ hcoherent hnext => hcoherent.next? hnext) (.start _ _) h

theorem Reaches.coherent (h : sandbox.Reaches clock n m clock') : m.Coherent sandbox.limits :=
  coherent_of_after? (reaches_iff.mp h).1

/-- What is shown only grows along the steps of a machine. -/
theorem extends_of_after? (hle : j ≤ n) (hj : sandbox.after? j = some m)
    (hn : sandbox.after? n = some m') : m'.Extends m := by
  obtain ⟨d, rfl⟩ := Nat.exists_eq_add_of_le hle
  induction d generalizing m' with
  | zero =>
      rw [Nat.add_zero, hj] at hn
      cases hn
      exact .refl m
  | succ d ih =>
      obtain ⟨mid, hmid, hnext⟩ := Program.after?_succ_eq_some_iff.mp hn
      obtain ⟨i, -, hfault, rfl⟩ := Program.next?_eq_some_iff.mp hnext
      have hstep := (coherent_of_after? hmid).extends_execute hfault
      exact hstep.trans (ih (Nat.le_add_right j d) hmid)

theorem Reaches.head_le_reach (h : sandbox.Reaches clock n m clock')
    (hj : sandbox.Reaches clock j m' clock₁) (hle : j ≤ n) :
    m'.tape.head.val ≤ m.tape.reach.val := by
  have hgrown := extends_of_after? hle (reaches_iff.mp hj).1 (reaches_iff.mp h).1
  exact Nat.le_trans hj.coherent.tidy.head_le_reach hgrown.reach

/-- The farthest cell is one that the head was on. -/
theorem Reaches.exists_head_eq_reach (h : sandbox.Reaches clock n m clock') :
    ∃ j ≤ n, ∃ m' clock₁, sandbox.Reaches clock j m' clock₁ ∧
      m'.tape.head.val = m.tape.reach.val := by
  induction h with
  | start => exact ⟨0, Nat.le_refl 0, _, _, .start, rfl⟩
  | @turn n m m' clock' i before here goesOn ih =>
      obtain ⟨-, hfault, rfl⟩ := Run.turn_eq_running_iff.mp goesOn
      have hbefore : sandbox.Reaches clock n m clock' := before
      have hreach := Machine.reach_execute hbefore.coherent.tidy i
      -- Either the farthest cell is the one of the turns before, or the head has just moved to it.
      rcases Nat.le_total (m.execute i).tape.head.val m.tape.reach.val with hle | hle
      · obtain ⟨j, hj, m', clock₁, hstands, hhead⟩ := ih
        rw [Nat.max_eq_left hle] at hreach
        exact ⟨j, Nat.le_succ_of_le hj, m', clock₁, hstands, hhead.trans hreach.symm⟩
      · rw [Nat.max_eq_right hle] at hreach
        exact ⟨n + 1, Nat.le_refl _, _, _, .turn before here goesOn, hreach.symm⟩

/-- Every machine of every run is coherent: its tape has all its cells, the head is within the cells
up to the farthest that it has been on, the cells beyond are zero, and the loop stack and the output
keep within the limits. The cells that a run leaves behind are, with zeros after them, the whole
tape of the machine with which it ended. -/
theorem run_keeps_machine_coherent (sandbox : Sandbox) (clock : σ) :
    (∀ n m clock', sandbox.Reaches clock n m clock' →
      m.tape.cells.toList.length = 30000 ∧
        m.tape.head.val ≤ m.tape.reach.val ∧ m.tape.reach.val < 30000 ∧
        m.tape.cells.toList[m.tape.head.val]? = some m.tape.current ∧
        (∀ j m' clock₁, j ≤ n → sandbox.Reaches clock j m' clock₁ →
          m'.tape.head.val ≤ m.tape.reach.val) ∧
        (∃ j ≤ n, ∃ m' clock₁, sandbox.Reaches clock j m' clock₁ ∧
          m'.tape.head.val = m.tape.reach.val) ∧
        (∀ p : Fin Tape.size, m.tape.reach.val < p.val → m.tape.cells[p] = 0) ∧
        m.loopStack.size ≤ sandbox.limits.loopDepth ∧
        m.printed = min m.output.length greatestCount ∧
        ∀ limit ≤ greatestCount, sandbox.limits.output = some limit →
          m.output.length ≤ limit) ∧
      ∀ o clock', sandbox.Yields clock o clock' →
        ∃ n m clock₁ checks, sandbox.Reaches clock n m clock₁ ∧
          sandbox.Cut clock n m o.status checks ∧ o.output = m.output ∧
          o.tape.length = m.tape.reach.val + 1 ∧ 1 ≤ o.tape.length ∧ o.tape.length ≤ 30000 ∧
          o.tape ++ List.replicate (30000 - o.tape.length) 0 = m.tape.cells.toList := by
  constructor
  · intro n m clock' hreach
    have hcoherent := hreach.coherent
    have hcell : m.tape.cells.toList[m.tape.head.val]? = some m.tape.current := by
      simp [Tape.current]
    exact ⟨Vector.length_toList, hcoherent.tidy.head_le_reach, m.tape.reach.isLt, hcell,
      fun j m' clock₁ hle hj => hreach.head_le_reach hj hle, hreach.exists_head_eq_reach,
      hcoherent.tidy.zero_beyond, hcoherent.stack_le, hcoherent.printed_eq, hcoherent.output_le⟩
  · intro o clock' hyields
    obtain ⟨n, m, clock₁, checks, hreach, hcut, htape, houtput, -⟩ := hyields.exists_reaches
    have hlength := m.tape.length_visible
    have hlt : m.tape.reach.val < 30000 := m.tape.reach.isLt
    refine ⟨n, m, clock₁, checks, hreach, hcut, houtput, ?_⟩
    rw [htape]
    exact ⟨hlength, by omega, by omega, hreach.coherent.tidy.visible_append_zeros⟩

/-- A head that went back leaves the farthest cell shown. -/
theorem run_keeps_machine_coherent_behind_reach :
    let sandbox := ofText ">>+<."
      { timeout := .ofMilliseconds 10, startedAt := .zero, input := [], debug := false }
    ∃ m clock', sandbox.Reaches SteppingClock.perMillisecond 4 m clock' ∧
      m.tape.head.val = 1 ∧ m.tape.reach.val = 2 ∧
      (∀ p : Fin Tape.size, 2 < p.val → m.tape.cells[p] = 0) ∧
      ∃ o clock₁, sandbox.Yields SteppingClock.perMillisecond o clock₁ ∧ o.status = .completed ∧
        ∃ n last clock₂, sandbox.Reaches SteppingClock.perMillisecond n last clock₂ ∧
          o.tape ++ List.replicate (30000 - o.tape.length) 0 = last.tape.cells.toList := by
  intro sandbox
  have hsteps : (sandbox.after? 4).map (fun m => (m.tape.head.val, m.tape.reach.val)) =
      some (1, 2) := by
    decide +kernel
  obtain ⟨m, hm, hpair⟩ := Option.map_eq_some_iff.mp hsteps
  obtain ⟨hhead, hreach⟩ := Prod.mk.inj hpair
  have hbudget : ∀ j < 4, sandbox.expiresAt SteppingClock.perMillisecond j = false := by decide
  have hstands : sandbox.Reaches SteppingClock.perMillisecond 4 m _ :=
    reaches_iff.mpr ⟨hm, hbudget, rfl⟩
  have hrun : (sandbox.run 6 SteppingClock.perMillisecond).map (fun answer => answer.1.status) =
      some .completed := by
    decide +kernel
  obtain ⟨answer, hanswer, hstatus⟩ := Option.map_eq_some_iff.mp hrun
  have hyields : sandbox.Yields SteppingClock.perMillisecond answer.1 answer.2 := ⟨6, hanswer⟩
  obtain ⟨hevery, hend⟩ := run_keeps_machine_coherent sandbox SteppingClock.perMillisecond
  obtain ⟨-, -, -, -, -, -, hzero, -⟩ := hevery 4 m _ hstands
  obtain ⟨n, last, clock₂, checks, hlast, -, -, -, -, -, hwhole⟩ :=
    hend answer.1 answer.2 hyields
  rw [hreach] at hzero
  exact ⟨m, _, hstands, hhead, hreach, hzero, answer.1, answer.2, hyields, hstatus, n, last,
    clock₂, hlast, hwhole⟩

end Sandbox

end TapeMachine
