import TapeMachine.Config.Decode
import TapeMachine.Sandbox
import TapeMachine.Text.Blank

/-!
The chat command: a line of chat is answered with one line. The first word after the command is the
program; it runs under the config in force, which may be read again from its file at any time.
-/

namespace TapeMachine.Chat

def commandName : String := "bf"

/-- What a user needs to be granted for running it. -/
def permission : String := "brainfuck.exec"

def grantedByDefault : Bool := true

/-- What stands before a command's name in chat. -/
def defaultPrefix : String := "."

def defaultConfigPath : String := "config/plugins/brainfuck.yml"

inductive Origin where
  | channel (name caller : String)
  | direct (caller : String)
  deriving DecidableEq

inductive Target where
  | channel (name : String)
  | caller (name : String)
  deriving DecidableEq

namespace Origin

def caller : Origin → String
  | channel _ name => name
  | direct name => name

def target : Origin → Target
  | channel name _ => .channel name
  | direct name => .caller name

end Origin

structure Reply where
  target : Target
  text : String
  deriving DecidableEq

/-- Why a config was not read again. -/
inductive ReloadError where
  /-- The config did not come from a file. -/
  | noFile
  | config (error : ConfigError)
  deriving DecidableEq

/-- What the command knows between two messages. -/
structure Handler where
  config : Config
  path : Option String
  commandPrefix : String

namespace Handler

variable {σ : Type} [Clock σ]

def ofConfig (config : Config) : Handler where
  config := config
  path := none
  commandPrefix := defaultPrefix

/-- A handler with the config of a file, given how files are read. -/
def setup (read : String → Except ReadError String) (path : String) : Except ConfigError Handler :=
  (Config.ofFile path (read path)).map fun config => { ofConfig config with path := some path }

def setupLog (path : String) (e : ConfigError) : List Log.Entry :=
  [⟨.error, .chat, "Error loading configuration " ++ path ++ ": " ++ e.message⟩,
    ⟨.error, .chat, "Disabling.."⟩]

def withPrefix (h : Handler) (commandPrefix : String) : Handler :=
  { h with commandPrefix := commandPrefix }

/-- The handler with its config read again; if it cannot be, the handler stays as it is. -/
def reload (h : Handler) (read : String → Except ReadError String) : Except ReloadError Handler :=
  match h.path with
  | none => .error .noFile
  | some path =>
      match Config.ofFile path (read path) with
      | .ok config => .ok { h with config := config }
      | .error e => .error (.config e)

def reloadLog : ReloadError → List Log.Entry
  | .noFile => [⟨.warn, .chat, "No configuration file to reload"⟩]
  | .config e => [⟨.error, .chat, "Error reloading configuration: " ++ e.message⟩]

def usage (h : Handler) : String :=
  "Usage: " ++ h.commandPrefix ++ commandName ++ " <brainfuck program>"

/-- The reply to a program that the config does not let run. -/
def refusal (e : LimitError) : String :=
  "ERROR | " ++ e.message

def faultLog (o : Outcome) : List Log.Entry :=
  o.status.fault?.toList.map fun fault =>
    ⟨.warn, .chat, "Program faulted: " ++ fault.message⟩

/-- Answers a message, with the log entries that go with it; `args` is what follows the command.
The usage line goes to the caller alone, wherever the message came from. The run is measured on a
clock and bounded in its turns. -/
def handle (h : Handler) (bound : Nat) (clock : σ) (args : String) (origin : Origin) :
    Option (Reply × List Log.Entry) :=
  match Text.firstWord? args with
  | none => some (⟨.caller origin.caller, h.usage⟩, [])
  | some source =>
      match Sandbox.ofConfig source h.config with
      | .error e =>
          some (⟨origin.target, refusal e⟩,
            [⟨.error, .chat, commandName ++ " command failed: " ++ e.message⟩])
      | .ok sandbox =>
          (sandbox.run bound clock).map fun (o, _) =>
            (⟨origin.target, o.render⟩, sandbox.loadLog ++ sandbox.endLog o ++ faultLog o)

end Handler

end TapeMachine.Chat
