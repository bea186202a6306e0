import TapeMachine.Fault
import TapeMachine.Limits
import TapeMachine.Program
import TapeMachine.Tape
import TapeMachine.Text.CodePoint

/-!
The machine that executes instructions one at a time, with no notion of time. What an instruction
would do wrong is decided before anything changes, so a machine that faults is left as it was.
-/

namespace TapeMachine

/-- Counters stop at the greatest unsigned 64-bit number. -/
def greatestCount : Nat := 18446744073709551615

def countOn (count : Nat) : Nat :=
  if count < greatestCount then count + 1 else count

/-- The character that a cell's value stands for; a negative number stands for none. -/
def charOfCell? : Int → Option Char
  | .ofNat n => Text.charOfCode? n
  | .negSucc _ => none

/-- The state of a run between two instructions. -/
structure Machine where
  /-- Position of the instruction that comes next. -/
  position : Nat
  tape : Tape
  /-- Positions of the loop starts that are open, the innermost last. -/
  loopStack : Array Nat
  output : String
  printed : Nat
  /-- Characters that the program has yet to read. -/
  input : List Char

namespace Machine

def start (input : List Char) : Machine where
  position := 0
  tape := .blank
  loopStack := #[]
  output := ""
  printed := 0
  input := input

/-- The fault that an instruction would raise, if any. A value that is no character is reported
before a full output. -/
def fault? (limits : Limits) (m : Machine) : Instruction → Option Fault
  | .increment =>
      if m.tape.current < Tape.greatestCell then none
      else some (.cellOverflow m.position m.tape.head.val)
  | .decrement =>
      if Tape.leastCell < m.tape.current then none
      else some (.cellOverflow m.position m.tape.head.val)
  | .moveRight =>
      if m.tape.atEnd then some (.tapeExhausted m.position m.tape.head.val) else none
  | .moveLeft => none
  | .loopStart =>
      if m.loopStack.size < limits.loopDepth then none
      else some (.loopTooDeep m.position limits.loopDepth)
  | .loopEnd =>
      if m.loopStack.isEmpty then some (.unmatchedLoopEnd m.position) else none
  | .output =>
      match charOfCell? m.tape.current with
      | none => some (.notACharacter m.position m.tape.current)
      | some _ =>
          match limits.output with
          | none => none
          | some limit =>
              if m.printed < limit then none else some (.outputFull m.position limit)
  | .input => none
  | .nop => none

def advance (m : Machine) : Machine :=
  { m with position := m.position + 1 }

def write (m : Machine) (value : Int) : Machine :=
  { m with tape := m.tape.write value }

/-- Prints the character under the head; a value that is none prints nothing. -/
def print (m : Machine) : Machine :=
  match charOfCell? m.tape.current with
  | some c => { m with output := m.output.push c, printed := countOn m.printed }
  | none => m

/-- Takes the next input character into the cell under the head; with no input left the cell
keeps its value. -/
def receive (m : Machine) : Machine :=
  match m.input with
  | [] => m
  | c :: rest => { m with tape := m.tape.write (c.toNat : Int), input := rest }

/-- Ends a loop body. A zero under the head closes the innermost loop; anything else goes back to
the instruction after its start, and the loop stays open. -/
def endLoop (m : Machine) : Machine :=
  match m.loopStack.back? with
  | none => m.advance
  | some start =>
      if m.tape.current = 0 then { m with loopStack := m.loopStack.pop }.advance
      else { m with position := start + 1 }

/-- Executes an instruction that raises no fault. A loop start does not look at its cell: the body
is always entered. -/
def execute (m : Machine) : Instruction → Machine
  | .increment => (m.write (m.tape.current + 1)).advance
  | .decrement => (m.write (m.tape.current - 1)).advance
  | .moveRight => { m with tape := m.tape.right }.advance
  | .moveLeft => { m with tape := m.tape.left }.advance
  | .loopStart => { m with loopStack := m.loopStack.push m.position }.advance
  | .loopEnd => m.endLoop
  | .output => m.print.advance
  | .input => m.receive.advance
  | .nop => m.advance

/-- One instruction: the fault it raises, or the state it leads to. -/
def step (limits : Limits) (m : Machine) (i : Instruction) : Except Fault Machine :=
  match m.fault? limits i with
  | some fault => .error fault
  | none => .ok (m.execute i)

end Machine

end TapeMachine
