import TapeMachine.Clock
import TapeMachine.Limits

/-!
What a host hands to a single run: a time budget, the characters it may read, and whether to report
faults. The budget is charged from the start of the run, not from the making of the session.
-/

namespace TapeMachine

structure Session where
  timeout : Duration
  /-- The clock reading at the start of the run; zero before any start. -/
  startedAt : Duration
  input : List Char
  /-- Whether faults are reported to the log. -/
  debug : Bool

namespace Session

variable {σ : Type} [Clock σ]

/-- A session with a budget in milliseconds, which must be some. -/
def ofMilliseconds (milliseconds : UInt64) : Except LimitError Session :=
  if milliseconds = 0 then
    .error (.invalidTimeout milliseconds.toNat)
  else
    .ok {
      timeout := .ofMilliseconds milliseconds.toNat
      startedAt := .zero
      input := []
      debug := false }

/-- Reads the clock and charges the budget from there on. -/
def start (session : Session) (clock : σ) : Session × σ :=
  let (now, clock) := Clock.read clock
  ({ session with startedAt := now }, clock)

def elapsedAt (session : Session) (now : Duration) : Duration :=
  now - session.startedAt

/-- Whether the budget is used up at a clock reading. -/
def expiredAt (session : Session) (now : Duration) : Bool :=
  decide (session.timeout ≤ session.elapsedAt now)

def elapsed (session : Session) (clock : σ) : Duration × σ :=
  let (now, clock) := Clock.read clock
  (session.elapsedAt now, clock)

def isExpired (session : Session) (clock : σ) : Bool × σ :=
  let (now, clock) := Clock.read clock
  (session.expiredAt now, clock)

def pushInput (session : Session) (text : String) : Session :=
  { session with input := session.input ++ text.toList }

def readInput (session : Session) : Option Char × Session :=
  match session.input with
  | [] => (none, session)
  | c :: rest => (some c, { session with input := rest })

def enableDebug (session : Session) : Session :=
  { session with debug := true }

theorem expiredAt_iff {session : Session} {now : Duration} :
    session.expiredAt now = true ↔
      session.timeout.nanoseconds ≤ now.nanoseconds - session.startedAt.nanoseconds := by
  simp [expiredAt, elapsedAt, Duration.le_iff]

end Session

end TapeMachine
