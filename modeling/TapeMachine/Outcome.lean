import TapeMachine.Duration
import TapeMachine.Fault
import TapeMachine.Text.Listing

/-!
What a finished run leaves behind, and the one line that reports it.
-/

namespace TapeMachine

inductive Status where
  /-- It ran off the end of the program. -/
  | completed
  /-- Its time budget was used up first. -/
  | timedOut
  | faulted (fault : Fault)
  deriving DecidableEq

namespace Status

/-- The word that opens the report. -/
def tag : Status → String
  | completed => "RESULT"
  | timedOut => "KILLED"
  | faulted _ => "ERROR"

def fault? : Status → Option Fault
  | faulted fault => some fault
  | _ => none

end Status

structure Outcome where
  status : Status
  /-- The cells up to the farthest one that the head was on. -/
  tape : List Int
  output : String
  executed : Nat
  elapsed : Duration
  deriving DecidableEq

namespace Outcome

/-- The report: tag, tape and output. A fault follows in parentheses, and then the blank before
the output is left out with an output that is empty. -/
def render (o : Outcome) : String :=
  let front := o.status.tag ++ " | " ++ Text.intListing o.tape
  match o.status with
  | .faulted fault =>
      if o.output.isEmpty then front ++ " (" ++ fault.message ++ ")"
      else front ++ " " ++ o.output ++ " (" ++ fault.message ++ ")"
  | _ => front ++ " " ++ o.output

end Outcome

end TapeMachine
