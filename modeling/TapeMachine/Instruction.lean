/-!
The instructions of the tape language. Eight signs do something; every other character is a
comment. A comment is an instruction too, one that does nothing, so that the position of an
instruction is the position of its character in the source text.
-/

namespace TapeMachine

/-- What one character of a program asks for. -/
inductive Instruction where
  | increment
  | decrement
  | moveRight
  | moveLeft
  | loopStart
  | loopEnd
  | output
  | input
  | nop
  deriving DecidableEq

def Instruction.ofChar : Char → Instruction
  | '+' => .increment
  | '-' => .decrement
  | '>' => .moveRight
  | '<' => .moveLeft
  | '[' => .loopStart
  | ']' => .loopEnd
  | '.' => .output
  | ',' => .input
  | _ => .nop

end TapeMachine
