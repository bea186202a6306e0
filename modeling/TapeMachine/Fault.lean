/-!
The ways in which a program itself can stop its run. Each fault names the position of the
instruction that raised it.
-/

namespace TapeMachine

inductive Fault where
  | unmatchedLoopEnd (position : Nat)
  /-- A loop start with as many loops open as are allowed. -/
  | loopTooDeep (position maxDepth : Nat)
  | tapeExhausted (position last : Nat)
  /-- A count past the greatest or the least value of a cell. -/
  | cellOverflow (position cell : Nat)
  | notACharacter (position : Nat) (value : Int)
  | outputFull (position limit : Nat)
  deriving DecidableEq

namespace Fault

def position : Fault → Nat
  | unmatchedLoopEnd position
  | loopTooDeep position _
  | tapeExhausted position _
  | cellOverflow position _
  | notACharacter position _
  | outputFull position _ => position

def message : Fault → String
  | unmatchedLoopEnd position => "unmatched ']' at position " ++ position.repr
  | loopTooDeep position maxDepth =>
      "loop nesting deeper than " ++ maxDepth.repr ++ " at position " ++ position.repr
  | tapeExhausted position last =>
      "data pointer moved past cell " ++ last.repr ++ " at position " ++ position.repr
  | cellOverflow position cell =>
      "cell " ++ cell.repr ++ " overflowed at position " ++ position.repr
  | notACharacter position value =>
      "cell value " ++ value.repr ++ " is not a valid character at position " ++ position.repr
  | outputFull position limit =>
      "output limit of " ++ limit.repr ++ " characters reached at position " ++ position.repr

end Fault

end TapeMachine
