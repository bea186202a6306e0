import TapeMachine.Instruction

/-!
A loaded program: one instruction per character of its text. Loading accepts every text; what is
wrong with its brackets shows only when, and if, a run gets there.
-/

namespace TapeMachine

structure Program where
  instructions : Array Instruction
  deriving DecidableEq

namespace Program

def ofText (source : String) : Program where
  instructions := (source.toList.map Instruction.ofChar).toArray

def size (program : Program) : Nat :=
  program.instructions.size

def isEmpty (program : Program) : Bool :=
  program.instructions.isEmpty

def get? (program : Program) (position : Nat) : Option Instruction :=
  program.instructions[position]?

@[simp] theorem size_ofText (source : String) :
    (ofText source).size = source.length := by
  simp [ofText, size, String.length_toList]

@[simp] theorem get?_ofText (source : String) (position : Nat) :
    (ofText source).get? position = source.toList[position]?.map Instruction.ofChar := by
  simp [ofText, get?]

theorem get?_eq_none_iff {program : Program} {position : Nat} :
    program.get? position = none ↔ program.size ≤ position := by
  simp [get?, size]

end Program

end TapeMachine
