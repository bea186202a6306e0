/-!
What the library reports besides its answers. Reports are values: whoever runs a program gets them
back and keeps those that are severe enough.
-/

namespace TapeMachine.Log

/-- Levels of a report, the most severe first. -/
inductive Level where
  | error
  | warn
  | info
  | debug
  | trace
  deriving DecidableEq

namespace Level

def name : Level → String
  | error => "ERROR"
  | warn => "WARN"
  | info => "INFO"
  | debug => "DEBUG"
  | trace => "TRACE"

def rank : Level → Nat
  | error => 0
  | warn => 1
  | info => 2
  | debug => 3
  | trace => 4

end Level

/-- The part of the system that reports. -/
inductive Source where
  | machine
  | chat
  | runner
  deriving DecidableEq

def Source.label : Source → String
  | machine => "tapevm_runtime::vm"
  | chat => "tapevm_commands::bf"
  | runner => "tapevm_runner"

structure Entry where
  level : Level
  source : Source
  message : String
  deriving DecidableEq

/-- A log line: the level in five columns, then the source and the message. -/
def Entry.render (e : Entry) : String :=
  let level := e.level.name.pushn ' ' (5 - e.level.name.length)
  "[" ++ level ++ " " ++ e.source.label ++ "] " ++ e.message

def upTo (level : Level) (entries : List Entry) : List Entry :=
  entries.filter (fun e => e.level.rank ≤ level.rank)

end TapeMachine.Log
