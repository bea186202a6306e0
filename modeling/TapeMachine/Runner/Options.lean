import TapeMachine.Text.Numeral

/-!
The command line of the runner. Arguments are taken from left to right. An option that takes a value
waits for the next argument, and what is wrong with it shows only when the next known option or the
program comes, or at the end; an argument that nobody knows is refused before that.
-/

namespace TapeMachine.Runner

/-- The options that take a value. -/
inductive ValueOption where
  | config
  | timeout
  | input
  deriving DecidableEq

namespace ValueOption

def name : ValueOption → String
  | config => "config"
  | timeout => "timeout"
  | input => "input"

def shown : ValueOption → String
  | config => "--config <CONFIG>"
  | timeout => "--timeout <TIMEOUT>"
  | input => "--input <INPUT>"

def ofName? (name : String) : Option ValueOption :=
  [config, timeout, input].find? (·.name = name)

end ValueOption

inductive NumberError where
  | empty
  | invalidDigit
  | tooLarge
  deriving DecidableEq

namespace NumberError

def message : NumberError → String
  | empty => "cannot parse integer from empty string"
  | invalidDigit => "invalid digit found in string"
  | tooLarge => "number too large to fit in target type"

end NumberError

/-- Reads digits on; the first that is none, or that makes the number too large, decides. -/
def readDigits : Nat → List Char → Except NumberError UInt64
  | n, [] => .ok n.toUInt64
  | n, c :: rest =>
      if !c.isDigit then .error .invalidDigit
      else
        let m := 10 * n + Text.digitValue c
        if UInt64.size ≤ m then .error .tooLarge else readDigits m rest

def readNumber (text : String) : Except NumberError UInt64 :=
  match text.toList with
  | [] => .error .empty
  | ['+'] => .error .invalidDigit
  | '+' :: digits => readDigits 0 digits
  | digits => readDigits 0 digits

inductive UsageError where
  | unexpectedArgument (argument : String)
  /-- A value for an option that takes none. -/
  | unexpectedValue (value option : String)
  | missingValue (option : ValueOption)
  | invalidNumber (value : String) (option : ValueOption) (reason : NumberError)
  | repeated (option : String)
  | missingProgram
  deriving DecidableEq

namespace UsageError

def message : UsageError → String
  | unexpectedArgument argument => "error: unexpected argument '" ++ argument ++ "' found"
  | unexpectedValue value option =>
      "error: unexpected value '" ++ value ++ "' for '" ++ option
        ++ "' found; no more were expected"
  | missingValue option =>
      "error: a value is required for '" ++ option.shown ++ "' but none was supplied"
  | invalidNumber value option reason =>
      "error: invalid value '" ++ value ++ "' for '" ++ option.shown ++ "': " ++ reason.message
  | repeated option => "error: the argument '" ++ option ++ "' cannot be used multiple times"
  | missingProgram => "error: the following required arguments were not provided:"

end UsageError

structure Options where
  program : String
  config : Option String
  timeout : Option UInt64
  input : String
  verbose : Bool
  deriving DecidableEq

inductive Request where
  | help
  | run (options : Options)
  deriving DecidableEq

structure Given where
  program : Option String
  config : Option String
  timeout : Option UInt64
  input : Option String
  verbose : Bool
  /-- The option that came last, and its value once it is there. -/
  pending : Option (ValueOption × Option String)
  /-- Whether all that follows is the program, after two dashes. -/
  onlyProgram : Bool

namespace Given

def nothing : Given where
  program := none
  config := none
  timeout := none
  input := none
  verbose := false
  pending := none
  onlyProgram := false

/-- Takes the value of an option. The option must not have been there before, and a path must not
be empty. -/
def set (g : Given) (option : ValueOption) (value : String) : Except UsageError Given :=
  match option with
  | .config =>
      if g.config.isSome then .error (.repeated option.shown)
      else if value.isEmpty then .error (.missingValue option)
      else .ok { g with config := some value }
  | .timeout =>
      if g.timeout.isSome then .error (.repeated option.shown)
      else
        match readNumber value with
        | .ok n => .ok { g with timeout := some n }
        | .error reason => .error (.invalidNumber value option reason)
  | .input =>
      if g.input.isSome then .error (.repeated option.shown)
      else .ok { g with input := some value }

def settle (g : Given) : Except UsageError Given :=
  match g.pending with
  | none => .ok g
  | some (option, none) => .error (.missingValue option)
  | some (option, some value) => { g with pending := none }.set option value

def setVerbose (g : Given) : Except UsageError Given := do
  let g ← g.settle
  if g.verbose then throw (.repeated "--verbose")
  return { g with verbose := true }

def setProgram (g : Given) (argument : String) : Except UsageError Given :=
  if g.program.isSome then .error (.unexpectedArgument argument)
  else do return { ← g.settle with program := some argument }

/-- What an argument leads to: more arguments, or help at once. -/
abbrev Next := Except UsageError (Option Given)

/-- Takes an argument that starts with two dashes and goes on. -/
def takeLong (g : Given) (body : String) : Next :=
  let chars := body.toList
  let name := String.ofList (chars.takeWhile (· ≠ '='))
  let value : Option String :=
    match chars.dropWhile (· ≠ '=') with
    | [] => none
    | _ :: value => some (String.ofList value)
  match ValueOption.ofName? name, value with
  | some option, none => do return some { ← g.settle with pending := some (option, none) }
  | some option, some value => do return some (← (← g.settle).set option value)
  | none, none =>
      if name = "verbose" then do return some (← g.setVerbose)
      else if name = "help" then do
        let _ ← g.settle
        return none
      else .error (.unexpectedArgument ("--" ++ name))
  | none, some value =>
      if name = "verbose" || name = "help" then .error (.unexpectedValue value ("--" ++ name))
      else .error (.unexpectedArgument ("--" ++ name))

/-- Takes the letters of an argument that starts with one dash. -/
def takeShort (g : Given) : List Char → Next
  | [] => .ok (some g)
  | 'v' :: rest => do takeShort (← g.setVerbose) rest
  | 'h' :: _ => do
      let _ ← g.settle
      return none
  | c :: _ => .error (.unexpectedArgument (String.ofList ['-', c]))

/-- Takes an argument that is no option: the value of the option before it, or the program. -/
def takePlain (g : Given) (argument : String) : Next :=
  match g.pending with
  | some (option, none) => .ok (some { g with pending := some (option, some argument) })
  | _ => do return some (← g.setProgram argument)

def take (g : Given) (argument : String) : Next :=
  if g.onlyProgram then do return some (← g.setProgram argument)
  else
    match argument.toList with
    | ['-', '-'] => .ok (some { g with onlyProgram := true })
    | '-' :: '-' :: body => g.takeLong (String.ofList body)
    | '-' :: c :: letters => g.takeShort (c :: letters)
    | _ => g.takePlain argument

def takeAll : Given → List String → Next
  | g, [] => .ok (some g)
  | g, argument :: rest => do
      match ← g.take argument with
      | some g => takeAll g rest
      | none => return none

end Given

def Request.ofArguments (arguments : List String) : Except UsageError Request := do
  match ← Given.nothing.takeAll arguments with
  | none => return .help
  | some g =>
      let g ← g.settle
      match g.program with
      | none => throw .missingProgram
      | some program => return .run {
          program := program
          config := g.config
          timeout := g.timeout
          input := g.input.getD ""
          verbose := g.verbose }

def helpLines : List String := [
  "Run a tape program with a time budget",
  "",
  "Usage: tapevm-runner [OPTIONS] <PROGRAM>",
  "",
  "Arguments:",
  "  <PROGRAM>  Program source (one token, as the chat command would receive it)",
  "",
  "Options:",
  "      " ++ ValueOption.config.shown
    ++ "    YAML config file providing `timeout` (and optionally `max_loop_depth`)",
  "      " ++ ValueOption.timeout.shown
    ++ "  Time budget in milliseconds, overrides the config file",
  "      " ++ ValueOption.input.shown
    ++ "      Characters made available to `,` [default: \"\"]",
  "  -v, --verbose            Log bracket diagnostics and run counters",
  "  -h, --help               Print help"]

def helpText : String :=
  String.join (helpLines.map (· ++ "\n"))

end TapeMachine.Runner
