import TapeMachine.Proofs.Course
import TapeMachine.Proofs.Structured.Semantics

/-!
The machine carries out the block that its program is. Where a text stands in the program, and the
loops open there leave room for those of the text, the steps of the machine follow the rules of the
block: they come to the end of the text with the loops open that were open before it, or halt at a
fault, or never end. Whether the stack is long enough is asked of the block alone.
-/

namespace TapeMachine

namespace Program

/-- A text stands in a program at a position. -/
def Holds (program : Program) (p : Nat) (text : List Instruction) : Prop :=
  ∀ (k : Nat) (i : Instruction), text[k]? = some i → program.get? (p + k) = some i

variable {program : Program} {p : Nat} {i : Instruction} {text rest : List Instruction}

theorem holds_of_eq (h : text = program.instructions.toList) : program.Holds 0 text := by
  intro k i hi
  rw [h] at hi
  rw [Nat.zero_add]
  simpa [get?] using hi

theorem Holds.head (h : program.Holds p (i :: rest)) : program.get? p = some i :=
  h 0 i rfl

theorem Holds.tail (h : program.Holds p (i :: rest)) : program.Holds (p + 1) rest := by
  intro k j hj
  have hget := h (k + 1) j hj
  rwa [show p + (k + 1) = p + 1 + k by omega] at hget

theorem Holds.left (h : program.Holds p (text ++ rest)) : program.Holds p text := by
  intro k j hj
  obtain ⟨hlt, -⟩ := List.getElem?_eq_some_iff.mp hj
  apply h k j
  rw [List.getElem?_append_left hlt]
  exact hj

theorem Holds.right (h : program.Holds p (text ++ rest)) :
    program.Holds (p + text.length) rest := by
  intro k j hj
  have hget := h (text.length + k) j
  rw [List.getElem?_append_right (Nat.le_add_right _ _), Nat.add_sub_cancel_left] at hget
  rw [Nat.add_assoc]
  exact hget hj

theorem Holds.loop {body rest : Block} (h : program.Holds p (Block.loop body rest).text) :
    program.get? p = some .loopStart ∧ program.Holds (p + 1) body.text ∧
      program.get? (p + 1 + body.text.length) = some .loopEnd ∧
      program.Holds (p + (body.text.length + 2)) rest.text := by
  have hinner := h.tail
  have hend := hinner.right
  have hrest := hend.tail
  rw [show p + 1 + body.text.length + 1 = p + (body.text.length + 2) by omega] at hrest
  exact ⟨h.head, hinner.left, hend.head, hrest⟩

end Program

namespace Store

def machine (s : Store) (position : Nat) (stack : Array Nat) : Machine where
  position := position
  tape := s.tape
  loopStack := stack
  output := s.output
  printed := s.printed
  input := s.input

variable {program : Program} {limits : Limits} {s s' : Store} {p q : Nat} {stack : Array Nat}

theorem printed_push (s : Store) (c : Char) :
    printed { s with output := s.output.push c } = countOn s.printed := by
  rw [printed, printed, countOn_min, String.length_push]

/-- A machine's step at an instruction that is no bracket is the one of its store. -/
theorem step_machine (limits : Limits) (s : Store) (p : Nat) (stack : Array Nat)
    (first : Basic) :
    (s.machine p stack).step limits first.instruction =
      (s.perform limits.output p first).map fun s' => s'.machine (p + 1) stack := by
  cases first with
  | increment =>
      by_cases hlt : s.tape.current < Tape.greatestCell <;>
        simp [Machine.step, Machine.fault?, Basic.instruction, perform, machine, hlt, Except.map,
          Machine.execute, Machine.write, Machine.advance, printed]
  | decrement =>
      by_cases hlt : Tape.leastCell < s.tape.current <;>
        simp [Machine.step, Machine.fault?, Basic.instruction, perform, machine, hlt, Except.map,
          Machine.execute, Machine.write, Machine.advance, printed]
  | moveRight =>
      by_cases hend : s.tape.atEnd <;>
        simp [Machine.step, Machine.fault?, Basic.instruction, perform, machine, hend, Except.map,
          Machine.execute, Machine.advance, printed]
  | moveLeft => rfl
  | nop => rfl
  | input =>
      cases hinput : s.input <;>
        simp [Machine.step, Machine.fault?, Basic.instruction, perform, machine, Machine.execute,
          Machine.receive, hinput, Machine.advance, Except.map, printed]
  | output =>
      cases hchar : charOfCell? s.tape.current with
      | none =>
          simp [Machine.step, Machine.fault?, Basic.instruction, perform, machine, hchar,
            Except.map]
      | some c =>
          have hprinted := s.printed_push c
          cases hlimit : limits.output with
          | none =>
              simp [Machine.step, Machine.fault?, Basic.instruction, perform, machine, hchar,
                hlimit, Except.map, Machine.execute, Machine.print, Machine.advance, hprinted]
          | some limit =>
              by_cases hlt : s.printed < limit <;>
                simp [Machine.step, Machine.fault?, Basic.instruction, perform, machine, hchar,
                  hlimit, hlt, Except.map, Machine.execute, Machine.print, Machine.advance,
                  hprinted]

theorem next?_basic {first : Basic} (stack : Array Nat)
    (hget : program.get? p = some first.instruction)
    (now : s.perform limits.output p first = .ok s') :
    program.next? limits (s.machine p stack) = some (s'.machine (p + 1) stack) := by
  have hget' : program.get? (s.machine p stack).position = some first.instruction := hget
  rw [Program.next?, hget']
  simp only
  rw [step_machine, now]
  rfl

theorem halts_basic {first : Basic} {fault : Fault}
    (hget : program.get? p = some first.instruction)
    (now : s.perform limits.output p first = .error fault) :
    program.Halts limits (s.machine p stack) (.faulted fault) := by
  have hstep := step_machine limits s p stack first
  rw [now] at hstep
  exact .faulted hget (Machine.step_eq_error_iff.mp hstep)

theorem next?_loopStart (hget : program.get? p = some .loopStart)
    (hdepth : stack.size < limits.loopDepth) :
    program.next? limits (s.machine p stack) = some (s.machine (p + 1) (stack.push p)) := by
  apply Program.next?_of_get? (m := s.machine p stack) (i := .loopStart) hget
  simp [Machine.fault?, machine, hdepth]

theorem next?_loopEnd_of_zero (hget : program.get? q = some .loopEnd)
    (hzero : s.tape.current = 0) :
    program.next? limits (s.machine q (stack.push p)) = some (s.machine (q + 1) stack) := by
  have hfault : (s.machine q (stack.push p)).fault? limits .loopEnd = none := by
    simp [Machine.fault?, machine]
  have hnext := Program.next?_of_get? (m := s.machine q (stack.push p)) hget hfault
  simpa [Machine.execute, Machine.endLoop, machine, hzero, Machine.advance] using hnext

/-- A loop end with anything else under the head is where the loop start left the machine. -/
theorem next?_loopEnd_of_ne_zero (hget : program.get? q = some .loopEnd)
    (hne : s.tape.current ≠ 0) :
    program.next? limits (s.machine q (stack.push p)) =
      some (s.machine (p + 1) (stack.push p)) := by
  have hfault : (s.machine q (stack.push p)).fault? limits .loopEnd = none := by
    simp [Machine.fault?, machine]
  have hnext := Program.next?_of_get? (m := s.machine q (stack.push p)) hget hfault
  simpa [Machine.execute, Machine.endLoop, machine, hne] using hnext

end Store

/-- The steps of a machine finish a text: they come to its end with the loops open that were open
before it, or to a fault on the way. -/
inductive Program.Finishes (program : Program) (limits : Limits) (m : Machine) (p : Nat)
    (stack : Array Nat) : Status → Store → Prop where
  | completed {n : Nat} {s : Store}
      (steps : program.after? limits n m = some (s.machine p stack)) :
      Finishes program limits m p stack .completed s
  | faulted {n q : Nat} {s : Store} {inner : Array Nat} {fault : Fault}
      (steps : program.after? limits n m = some (s.machine q inner))
      (stuck : program.Halts limits (s.machine q inner) (.faulted fault)) :
      Finishes program limits m p stack (.faulted fault) s

namespace Program.Finishes

variable {program : Program} {limits : Limits} {m mid : Machine} {p q : Nat}
  {stack inner : Array Nat} {status : Status} {s : Store}

theorem of_after? {n : Nat} (hmid : program.after? limits n m = some mid)
    (h : program.Finishes limits mid p stack status s) :
    program.Finishes limits m p stack status s := by
  cases h with
  | completed steps => exact .completed (after?_trans hmid steps)
  | faulted steps stuck => exact .faulted (after?_trans hmid steps) stuck

/-- A machine that is not at the end of the text has its first step on the way there. -/
theorem of_next? (hmid : program.next? limits m = some mid) (hp : m.position ≠ p)
    (h : program.Finishes limits m p stack status s) :
    program.Finishes limits mid p stack status s := by
  cases h with
  | @completed n s steps =>
      cases n with
      | zero =>
          cases steps
          exact absurd rfl hp
      | succ n =>
          rw [after?_succ_of_next? hmid] at steps
          exact .completed steps
  | @faulted n q s inner fault steps stuck =>
      cases n with
      | zero =>
          cases steps
          have hnone := stuck.next?_eq_none
          rw [hmid] at hnone
          cases hnone
      | succ n =>
          rw [after?_succ_of_next? hmid] at steps
          exact .faulted steps stuck

theorem of_fault {fault : Fault} (h : program.Finishes limits m q inner (.faulted fault) s) :
    program.Finishes limits m p stack (.faulted fault) s := by
  cases h with
  | faulted steps stuck => exact .faulted steps stuck

theorem exists_halts (hend : program.get? p = none)
    (h : program.Finishes limits m p stack status s) :
    ∃ n q inner, program.after? limits n m = some (s.machine q inner) ∧
      program.Halts limits (s.machine q inner) status := by
  cases h with
  | completed steps => exact ⟨_, p, stack, steps, .completed hend⟩
  | faulted steps stuck => exact ⟨_, _, _, steps, stuck⟩

end Program.Finishes

namespace Block

variable {program : Program} {limits : Limits} {p : Nat} {b body rest : Block}
  {s s' : Store} {stack : Array Nat} {status : Status}

theorem next?_loop (hholds : program.Holds p (Block.loop body rest).text)
    (hdepth : stack.size + (Block.loop body rest).depth ≤ limits.loopDepth) :
    program.next? limits (s.machine p stack) = some (s.machine (p + 1) (stack.push p)) := by
  apply Store.next?_loopStart hholds.loop.1
  simp only [depth] at hdepth
  omega

theorem after?_round (hholds : program.Holds p (Block.loop body rest).text)
    (hdepth : stack.size + (Block.loop body rest).depth ≤ limits.loopDepth)
    (hround : program.Finishes limits (s.machine (p + 1) (stack.push p))
      (p + 1 + body.text.length) (stack.push p) .completed s') :
    ∃ n, program.after? limits (1 + n) (s.machine p stack) =
      some (s'.machine (p + 1 + body.text.length) (stack.push p)) := by
  cases hround with
  | @completed n _ steps =>
      have henter := Program.after?_one (next?_loop (s := s) hholds hdepth)
      exact ⟨n, Program.after?_trans henter steps⟩

/-- A round that is completed with a zero under the head leads past the loop, one with anything else
to where a further round begins. -/
theorem after?_leave (hholds : program.Holds p (Block.loop body rest).text)
    (hdepth : stack.size + (Block.loop body rest).depth ≤ limits.loopDepth)
    (hround : program.Finishes limits (s.machine (p + 1) (stack.push p))
      (p + 1 + body.text.length) (stack.push p) .completed s')
    (hzero : s'.tape.current = 0) :
    ∃ n, program.after? limits (1 + n + 1) (s.machine p stack) =
      some (s'.machine (p + (body.text.length + 2)) stack) := by
  obtain ⟨n, hn⟩ := after?_round hholds hdepth hround
  obtain ⟨-, -, hend, -⟩ := hholds.loop
  have hleave : program.next? limits (s'.machine (p + 1 + body.text.length) (stack.push p)) =
      some (s'.machine (p + 1 + body.text.length + 1) stack) :=
    Store.next?_loopEnd_of_zero hend hzero
  refine ⟨n, ?_⟩
  rw [show p + (body.text.length + 2) = p + 1 + body.text.length + 1 by omega]
  exact Program.after?_trans hn (Program.after?_one hleave)

theorem after?_again (hholds : program.Holds p (Block.loop body rest).text)
    (hdepth : stack.size + (Block.loop body rest).depth ≤ limits.loopDepth)
    (hround : program.Finishes limits (s.machine (p + 1) (stack.push p))
      (p + 1 + body.text.length) (stack.push p) .completed s')
    (hne : s'.tape.current ≠ 0) :
    ∃ n, program.after? limits (1 + n + 1) (s.machine p stack) =
      some (s'.machine (p + 1) (stack.push p)) := by
  obtain ⟨n, hn⟩ := after?_round hholds hdepth hround
  obtain ⟨-, -, hend, -⟩ := hholds.loop
  have hagain : program.next? limits (s'.machine (p + 1 + body.text.length) (stack.push p)) =
      some (s'.machine (p + 1) (stack.push p)) :=
    Store.next?_loopEnd_of_ne_zero hend hne
  exact ⟨n, Program.after?_trans hn (Program.after?_one hagain)⟩

theorem depth_body (p : Nat)
    (hdepth : stack.size + (Block.loop body rest).depth ≤ limits.loopDepth) :
    (stack.push p).size + body.depth ≤ limits.loopDepth := by
  simp only [depth] at hdepth
  rw [Array.size_push]
  omega

theorem depth_rest (hdepth : stack.size + (Block.loop body rest).depth ≤ limits.loopDepth) :
    stack.size + rest.depth ≤ limits.loopDepth := by
  simp only [depth] at hdepth
  omega

/-- Whatever the rules make of a block, the machine does at its text. -/
theorem Runs.finishes (h : Runs limits.output p b s status s')
    (hholds : program.Holds p b.text) (hdepth : stack.size + b.depth ≤ limits.loopDepth) :
    program.Finishes limits (s.machine p stack) (p + b.text.length) stack status s' := by
  induction h generalizing stack with
  | done => exact .completed (n := 0) rfl
  | @basic p first rest s s' s'' status now later ih =>
      have hlater := ih hholds.tail hdepth
      have hnext := Store.next?_basic stack hholds.head now
      rw [show p + 1 + rest.text.length = p + (Block.basic first rest).text.length by
        simp only [text, List.length_cons]; omega] at hlater
      exact hlater.of_after? (Program.after?_one hnext)
  | @basicFault p first rest s fault now =>
      exact .faulted (n := 0) rfl (Store.halts_basic hholds.head now)
  | @loopFault p body rest s s' fault round ih =>
      obtain ⟨-, hbody, -, -⟩ := hholds.loop
      have hround := ih hbody (depth_body p hdepth)
      exact hround.of_fault.of_after? (Program.after?_one (next?_loop hholds hdepth))
  | @again p body rest s s' s'' status round nonzero later ihround ihlater =>
      obtain ⟨-, hbody, -, -⟩ := hholds.loop
      have hround := ihround hbody (depth_body p hdepth)
      obtain ⟨n, hn⟩ := after?_again hholds hdepth hround nonzero
      have hlater := ihlater hholds hdepth
      have hposition : (s'.machine p stack).position ≠
          p + (Block.loop body rest).text.length := by
        simp only [Store.machine, text, List.length_cons]
        omega
      exact (hlater.of_next? (next?_loop hholds hdepth) hposition).of_after? hn
  | @leave p body rest s s' s'' status round zero later ihround ihlater =>
      obtain ⟨-, hbody, -, hrest⟩ := hholds.loop
      have hround := ihround hbody (depth_body p hdepth)
      obtain ⟨n, hn⟩ := after?_leave hholds hdepth hround zero
      have hlater := ihlater hrest (depth_rest hdepth)
      rw [show p + (body.text.length + 2) + rest.text.length =
          p + (Block.loop body rest).text.length by
        simp only [text, List.length_cons, List.length_append]; omega] at hlater
      exact hlater.of_after? hn

/-- What the rules carry out for ever, the machine does. Every rule costs the machine a step, so
the steps of any count are found by going on often enough. -/
theorem exists_after?_of_goesOn {D : Nat → Block → Store → Prop}
    (hD : ∀ p b s, D p b s → GoesOn limits.output D p b s) (n : Nat) (h : D p b s)
    (hholds : program.Holds p b.text) (hdepth : stack.size + b.depth ≤ limits.loopDepth) :
    ∃ m, program.after? limits n (s.machine p stack) = some m := by
  induction n using Nat.strongRecOn generalizing p b s stack with
  | ind n ih =>
      cases hD _ _ _ h with
      | basic now later =>
          have hnext := Store.next?_basic stack hholds.head now
          apply Program.exists_after?_of_rest (Program.after?_one hnext)
          rintro j rfl
          exact ih j (by omega) later hholds.tail hdepth
      | inside round =>
          obtain ⟨-, hbody, -, -⟩ := hholds.loop
          apply Program.exists_after?_of_rest (Program.after?_one (next?_loop hholds hdepth))
          rintro j rfl
          exact ih j (by omega) round hbody (depth_body p hdepth)
      | again round nonzero later =>
          obtain ⟨-, hbody, -, -⟩ := hholds.loop
          have hround := round.finishes hbody (depth_body p hdepth)
          obtain ⟨k, hk⟩ := after?_again hholds hdepth hround nonzero
          apply Program.exists_after?_of_rest hk
          rintro j rfl
          -- The further round is known from its loop start, which the machine does not pass again.
          have hlater := ih (j + 1) (by omega) later hholds hdepth
          rwa [Program.after?_succ_of_next? (next?_loop hholds hdepth)] at hlater
      | leave round zero later =>
          obtain ⟨-, hbody, -, hrest⟩ := hholds.loop
          have hround := round.finishes hbody (depth_body p hdepth)
          obtain ⟨k, hk⟩ := after?_leave hholds hdepth hround zero
          apply Program.exists_after?_of_rest hk
          rintro j rfl
          exact ih j (by omega) later hrest (depth_rest hdepth)

end Block

end TapeMachine
