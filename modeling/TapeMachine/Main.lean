import TapeMachine.Runner.Response

/-!
The runner as a program. All it does by itself is to read a file, to read the clock of the system
and to print.
-/

namespace TapeMachine.Runner

def readErrorOf : IO.Error → ReadError
  | .noFileOrDirectory .. => .notFound
  | .inappropriateType _ 20 _ => .notDirectory
  | .inappropriateType _ 21 _ => .isDirectory
  | .inappropriateType (some _) _ _ => .notDirectory
  | .inappropriateType none _ _ => .isDirectory
  | e => .other (toString e)

def readText (path : String) : IO (Except ReadError String) := do
  try
    match String.fromUTF8? (← IO.FS.readBinFile path) with
    | some text => return .ok text
    | none => return .error .notUtf8
  catch e => return .error (readErrorOf e)

/-- The time since some moment long past. -/
def now : IO Duration := do
  return .ofNanoseconds (← IO.monoNanosNow)

partial def takeTurns (run : Run) (executed : Nat) (m : Machine) : IO Ending := do
  match run.program.get? m.position with
  | none => return ⟨.completed, m, executed⟩
  | some i =>
      match run.turn (← now) i m with
      | .stopped status m => return ⟨status, m, executed⟩
      | .running m => takeTurns run (countOn executed) m

def carryOut (job : Job) : IO Response := do
  let session := { job.sandbox.session with startedAt := ← now }
  let run : Run := ⟨job.sandbox.program, job.sandbox.limits, session⟩
  let ending ← takeTurns run 0 job.sandbox.machine
  return job.response (run.outcome ending (← now))

/-- The file that a command line has read, if any. -/
def configPath? (arguments : List String) : Option String :=
  match Request.ofArguments arguments with
  | .ok (.run options) => options.config
  | _ => none

/-- Answers a command line, and gives the exit code. -/
def answer (arguments : List String) : IO UInt32 := do
  let text ←
    match configPath? arguments with
    | some path => readText path
    | none => pure (.error .notFound)
  let response ←
    match Plan.ofArguments (fun _ => text) arguments with
    | .respond response => pure response
    | .run job => carryOut job
  for line in response.errors do
    IO.eprintln line
  IO.print response.output
  return response.exitCode.toUInt32

end TapeMachine.Runner

def main (arguments : List String) : IO UInt32 :=
  TapeMachine.Runner.answer arguments
