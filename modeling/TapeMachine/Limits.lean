/-!
What a run may use besides time: how deep its loops may nest and how much it may print.
-/

namespace TapeMachine

/-- A limit that a host asked for and cannot have. -/
inductive LimitError where
  | invalidTimeout (milliseconds : Nat)
  | invalidLoopDepth (depth : Nat)
  deriving DecidableEq

structure Limits where
  /-- How many loops may be open at one time. -/
  loopDepth : Nat
  /-- How many characters may be printed; `none` is no limit. -/
  output : Option Nat
  deriving DecidableEq

namespace Limits

/-- The loop depth of a run whose host asks for none. -/
def defaultLoopDepth : Nat := 16

/-- The deepest nesting that a host may ask for. -/
def greatestLoopDepth : Nat := 4096

def default : Limits where
  loopDepth := defaultLoopDepth
  output := none

def Allowed (depth : Nat) : Prop :=
  0 < depth ∧ depth ≤ greatestLoopDepth

instance (depth : Nat) : Decidable (Allowed depth) :=
  inferInstanceAs (Decidable (_ ∧ _))

end Limits

def LimitError.message : LimitError → String
  | invalidTimeout milliseconds =>
      "Invalid timeout: " ++ milliseconds.repr ++ " ms (must be greater than zero)"
  | invalidLoopDepth depth =>
      "Invalid maximum loop depth " ++ depth.repr ++ " (must be between 1 and "
        ++ Limits.greatestLoopDepth.repr ++ ")"

end TapeMachine
