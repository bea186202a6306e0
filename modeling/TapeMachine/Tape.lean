/-!
The tape: a fixed row of integer cells, a head on one of them, and the farthest cell that the head
has been on. Nothing beyond that cell can have been written, so the cells up to it are all there is
to show.
-/

namespace TapeMachine

namespace Tape

def size : Nat := 30000

def leastCell : Int := -9223372036854775808

def greatestCell : Int := 9223372036854775807

theorem size_pos : 0 < size := by decide

end Tape

structure Tape where
  cells : Vector Int Tape.size
  head : Fin Tape.size
  /-- The farthest cell to the right that the head has been on. -/
  reach : Fin Tape.size

namespace Tape

/-- A tape of zeros with its head on the first cell. -/
def blank : Tape where
  cells := .replicate size 0
  head := ⟨0, size_pos⟩
  reach := ⟨0, size_pos⟩

def current (tape : Tape) : Int :=
  tape.cells[tape.head]

def write (tape : Tape) (value : Int) : Tape :=
  { tape with cells := tape.cells.set tape.head value }

def atEnd (tape : Tape) : Bool :=
  size ≤ tape.head.val + 1

/-- Moves the head one cell to the right; on the last cell it stays. -/
def right (tape : Tape) : Tape :=
  if h : tape.head.val + 1 < size then
    { tape with
      head := ⟨tape.head.val + 1, h⟩
      reach := if tape.reach.val < tape.head.val + 1 then ⟨tape.head.val + 1, h⟩ else tape.reach }
  else tape

/-- Moves the head one cell to the left; on the first cell it stays. -/
def left (tape : Tape) : Tape :=
  { tape with head := ⟨tape.head.val - 1, Nat.lt_of_le_of_lt (Nat.sub_le ..) tape.head.isLt⟩ }

/-- The cells from the first to the farthest that the head has been on. -/
def visible (tape : Tape) : List Int :=
  (tape.cells.toArray.extract 0 (tape.reach.val + 1)).toList

@[simp] theorem length_visible (tape : Tape) :
    tape.visible.length = tape.reach.val + 1 := by
  have := tape.reach.isLt
  simp only [visible, Array.length_toList, Array.size_extract, Vector.size_toArray]
  omega

theorem visible_eq_take (tape : Tape) :
    tape.visible = tape.cells.toList.take (tape.reach.val + 1) := by
  simp [visible, Vector.toList]

@[simp] theorem current_write (tape : Tape) (value : Int) :
    (tape.write value).current = value := by
  simp [write, current]

end Tape

end TapeMachine
