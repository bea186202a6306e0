import TapeMachine.Program
import TapeMachine.Text.Listing

/-!
The bracket structure of a program, read from left to right without running it. A loop end closes
the innermost loop start still open; one that finds none open is unmatched, and so is a loop start
that the end of the text leaves open.
-/

namespace TapeMachine

/-- What a left-to-right reading of a program's brackets has found so far. -/
structure Brackets where
  scanned : Nat
  /-- Positions of the loop starts still open, the innermost last. -/
  unmatchedStarts : Array Nat
  /-- Positions of the loop ends that closed nothing, in order. -/
  unmatchedEnds : Array Nat
  maxDepth : Nat
  deriving DecidableEq

namespace Brackets

def empty : Brackets :=
  ⟨0, #[], #[], 0⟩

def read : Brackets → Instruction → Brackets
  | ⟨scanned, starts, ends, maxDepth⟩, .loopStart =>
      let deepest := max maxDepth (starts.size + 1)
      ⟨scanned + 1, starts.push scanned, ends, deepest⟩
  | ⟨scanned, starts, ends, maxDepth⟩, .loopEnd =>
      if starts.isEmpty then ⟨scanned + 1, starts, ends.push scanned, maxDepth⟩
      else ⟨scanned + 1, starts.pop, ends, maxDepth⟩
  | ⟨scanned, starts, ends, maxDepth⟩, _ => ⟨scanned + 1, starts, ends, maxDepth⟩

def ofInstructions (instructions : List Instruction) : Brackets :=
  instructions.foldl read empty

def isBalanced (b : Brackets) : Bool :=
  b.unmatchedStarts.isEmpty && b.unmatchedEnds.isEmpty

def message (b : Brackets) : String :=
  if b.isBalanced then
    "balanced, max depth " ++ b.maxDepth.repr
  else
    "unmatched '[' at " ++ Text.natListing b.unmatchedStarts.toList
      ++ ", unmatched ']' at " ++ Text.natListing b.unmatchedEnds.toList
      ++ ", max depth " ++ b.maxDepth.repr

theorem ofInstructions_concat (instructions : List Instruction) (i : Instruction) :
    ofInstructions (instructions ++ [i]) = (ofInstructions instructions).read i := by
  simp [ofInstructions]

@[simp] theorem scanned_read (b : Brackets) (i : Instruction) :
    (b.read i).scanned = b.scanned + 1 := by
  cases i <;> simp only [read]
  split <;> rfl

end Brackets

namespace Program

def brackets (program : Program) : Brackets :=
  .ofInstructions program.instructions.toList

/-- The brackets of the instructions before a position. -/
def bracketsBefore (program : Program) (position : Nat) : Brackets :=
  .ofInstructions (program.instructions.toList.take position)

end Program

end TapeMachine
