import TapeMachine.Yaml.Marked

/-!
The space between two parts of a scalar that goes on over it. Blanks on one line are kept. A single
line break folds into a blank; with several, the first is dropped and the rest are kept. Blanks
around breaks do not count.
-/

namespace TapeMachine.Yaml

inductive Gap where
  | absent
  /-- Blanks on the same line, the latest first. -/
  | blanks (latestFirst : List Char)
  /-- At least one break. The first is missing if an escape took it away; the others come the
  latest first. -/
  | breaks (first : Option Char) (latestFirst : List Char)

namespace Gap

def extend (gap : Gap) (c : Char) : Gap :=
  if isBreak c then
    match gap with
    | absent => breaks (some c) []
    | blanks _ => breaks (some c) []
    | breaks first more => breaks first (c :: more)
  else
    match gap with
    | absent => blanks [c]
    | blanks cs => blanks (c :: cs)
    | breaks first more => breaks first more

/-- What the gap stands for in the scalar. -/
def fold : Gap → List Char
  | absent => []
  | blanks cs => cs.reverse
  | breaks none more => more.reverse
  | breaks (some '\n') [] => [' ']
  | breaks (some '\n') more => more.reverse
  | breaks (some c) more => c :: more.reverse

def isAbsent : Gap → Bool
  | absent => true
  | _ => false

def hasBreak : Gap → Bool
  | breaks _ _ => true
  | _ => false

end Gap

end TapeMachine.Yaml
