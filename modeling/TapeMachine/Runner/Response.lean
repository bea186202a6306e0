import TapeMachine.Config.Decode
import TapeMachine.Runner.Options
import TapeMachine.Sandbox

/-!
What the runner does with a command line: it gets a config together, runs the program once, and
leaves an exit code and two texts.
-/

namespace TapeMachine.Runner

inductive SetupError where
  | noBudget
  | unloadable (path : String) (cause : ConfigError)
  | outOfRange (cause : LimitError)
  deriving DecidableEq

namespace SetupError

def message : SetupError → String
  | noBudget => "either --config or --timeout is required"
  | unloadable path _ => "Failed to load " ++ path
  | outOfRange cause => cause.message

/-- What led to the error, the nearest first. -/
def causes : SetupError → List String
  | unloadable _ cause => cause.message :: cause.innerMessage?.toList
  | _ => []

/-- The lines of a cause: its label before the first, and the others set in as far as it. -/
def labelled (label text : String) : List String :=
  match text.splitOn "\n" with
  | [] => []
  | first :: rest => (label ++ first) :: rest.map ("".pushn ' ' label.length ++ ·)

/-- The report, line by line: a single cause is set in, several are counted. -/
def report (e : SetupError) : List String :=
  ("Error: " ++ e.message).splitOn "\n" ++
    match e.causes with
    | [] => []
    | [cause] => "" :: "Caused by:" :: labelled "    " cause
    | causes =>
        "" :: "Caused by:" ::
          (causes.mapIdx fun i cause => labelled ("    " ++ i.repr ++ ": ") cause).flatten

end SetupError

structure Response where
  exitCode : UInt8
  output : String
  errors : List String
  deriving DecidableEq

def Options.logLevel (o : Options) : Log.Level :=
  if o.verbose then .debug else .warn

/-- The config of a run. A budget on the command line takes the place of the file's, which must be
usable by itself all the same. -/
def Options.usableConfig (o : Options) (read : String → Except ReadError String) :
    Except SetupError Config := do
  let config ←
    match o.config, o.timeout with
    | some path, _ =>
        match Config.ofFile path (read path) with
        | .ok config => .ok config
        | .error e => .error (.unloadable path e)
    | none, some timeout => .ok (Config.ofTimeout timeout)
    | none, none => .error .noBudget
  let config := { config with timeout := o.timeout.getD config.timeout }
  match config.limitError? with
  | some e => throw (.outOfRange e)
  | none => return config

structure Job where
  options : Options
  sandbox : Sandbox
  log : List Log.Entry

namespace Job

def ofConfig (o : Options) (config : Config) : Except SetupError Job :=
  match Sandbox.ofConfig o.program config with
  | .error e => .error (.outOfRange e)
  | .ok sandbox =>
      let sandbox := sandbox.pushInput o.input
      .ok {
        options := o
        sandbox := if o.verbose then sandbox.enableDebug else sandbox
        log :=
          ⟨.info, .runner, "Running " ++ o.program.length.repr ++ " characters with a "
            ++ config.timeout.toNat.repr ++ "ms budget"⟩ :: sandbox.loadLog }

def response (job : Job) (o : Outcome) : Response :=
  let count : Log.Entry :=
    ⟨.debug, .runner, o.executed.repr ++ " instructions in " ++ o.elapsed.render⟩
  let log := job.log ++ job.sandbox.endLog o ++ [count]
  ⟨0, o.render ++ "\n", (Log.upTo job.options.logLevel log).map Log.Entry.render⟩

end Job

/-- What a command line comes to before anything is run. -/
inductive Plan where
  | respond (response : Response)
  | run (job : Job)

namespace Plan

/-- The plan for a command line, given how files are read. -/
def ofArguments (read : String → Except ReadError String) (arguments : List String) : Plan :=
  match Request.ofArguments arguments with
  | .error e =>
      .respond ⟨2, "", e.message :: if e = .missingProgram then ["  <PROGRAM>"] else []⟩
  | .ok .help => .respond ⟨0, helpText, []⟩
  | .ok (.run options) =>
      match (options.usableConfig read).bind (Job.ofConfig options) with
      | .error e => .respond ⟨1, "", e.report⟩
      | .ok job => .run job

/-- Carries a plan out on a clock, for at most so many turns. -/
def carryOut {σ : Type} [Clock σ] (bound : Nat) (clock : σ) : Plan → Option Response
  | respond response => some response
  | run job => (job.sandbox.run bound clock).map fun (o, _) => job.response o

end Plan

end TapeMachine.Runner
