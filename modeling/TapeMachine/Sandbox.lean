import TapeMachine.Brackets
import TapeMachine.Config
import TapeMachine.Log
import TapeMachine.Run

/-!
A program together with everything that one run of it may use. A host sets the sandbox up, runs it
once, and gets the outcome and the log entries that go with it.
-/

namespace TapeMachine

structure Sandbox where
  program : Program
  session : Session
  limits : Limits

namespace Sandbox

variable {σ : Type} [Clock σ]

def ofText (source : String) (session : Session) : Sandbox where
  program := .ofText source
  session := session
  limits := .default

/-- A sandbox with the settings of a config, if they are usable. -/
def ofConfig (source : String) (config : Config) : Except LimitError Sandbox :=
  match config.limitError? with
  | some e => .error e
  | none =>
      (Session.ofMilliseconds config.timeout).map fun session =>
        { ofText source session with limits := config.limits }

/-- Changes the loop depth, unless the host may not ask for it. -/
def setLoopDepth (sandbox : Sandbox) (depth : Nat) : Except LimitError Sandbox :=
  if Limits.Allowed depth then
    .ok { sandbox with limits := { sandbox.limits with loopDepth := depth } }
  else
    .error (.invalidLoopDepth depth)

def setOutputLimit (sandbox : Sandbox) (limit : Option Nat) : Sandbox :=
  { sandbox with limits := { sandbox.limits with output := limit } }

def pushInput (sandbox : Sandbox) (text : String) : Sandbox :=
  { sandbox with session := sandbox.session.pushInput text }

def enableDebug (sandbox : Sandbox) : Sandbox :=
  { sandbox with session := sandbox.session.enableDebug }

/-- The run as it stands after the clock has been read for the start. -/
def start (sandbox : Sandbox) (clock : σ) : Run × σ :=
  let (session, clock) := sandbox.session.start clock
  (⟨sandbox.program, sandbox.limits, session⟩, clock)

def machine (sandbox : Sandbox) : Machine :=
  .start sandbox.session.input

/-- Runs the program on a clock, for at most so many turns. -/
@[specialize] def run (sandbox : Sandbox) (bound : Nat) (clock : σ) : Option (Outcome × σ) :=
  let (run, clock) := sandbox.start clock
  (run.turns bound 0 sandbox.machine clock).map fun (ending, clock) =>
    let (now, clock) := Clock.read clock
    (run.outcome ending now, clock)

/-- What is logged when a program is loaded: its brackets, if they do not match. -/
def loadLog (sandbox : Sandbox) : List Log.Entry :=
  let brackets := sandbox.program.brackets
  if brackets.isBalanced then []
  else [⟨.debug, .machine, "Loaded unbalanced program: " ++ brackets.message⟩]

/-- What is logged when a run ends: a fault, if the session asks for it, and the count. -/
def endLog (sandbox : Sandbox) (o : Outcome) : List Log.Entry :=
  let fault :=
    match o.status.fault? with
    | some fault =>
        if sandbox.session.debug then
          [⟨.warn, .machine,
            "Program faulted after " ++ o.executed.repr ++ " instructions: " ++ fault.message⟩]
        else []
    | none => []
  fault ++ [⟨.debug, .machine,
    "Execution finished: " ++ o.executed.repr ++ " instructions, status = " ++ o.status.tag⟩]

end Sandbox

end TapeMachine
