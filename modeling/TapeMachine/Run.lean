import TapeMachine.Machine
import TapeMachine.Outcome
import TapeMachine.Session

/-!
A run: a machine executing a program until the program ends, an instruction faults, or the budget
is used up. The clock is read once at the start, once before every instruction and once after the
end; a program that has reached its end is not charged for another reading.

A program may loop for ever and a clock may stand still, so a run is given a bound on the number of
its turns. Within the bound the answer does not depend on it.
-/

namespace TapeMachine

structure Run where
  program : Program
  limits : Limits
  session : Session

/-- A machine after one more turn of its run. -/
inductive Turn where
  | stopped (status : Status) (m : Machine)
  | running (m : Machine)

structure Ending where
  status : Status
  machine : Machine
  executed : Nat

namespace Run

variable {σ : Type} [Clock σ]

/-- One turn at a clock reading: the budget is checked first, and only then is the instruction
executed. -/
@[inline] def turn (run : Run) (now : Duration) (i : Instruction) (m : Machine) : Turn :=
  if run.session.expiredAt now then .stopped .timedOut m
  else
    match m.fault? run.limits i with
    | some fault => .stopped (.faulted fault) m
    | none => .running (m.execute i)

/-- Turn after turn until the run ends, or `none` if the bound on the turns comes first. -/
@[specialize] def turns (run : Run) : Nat → Nat → Machine → σ → Option (Ending × σ)
  | 0, _, _, _ => none
  | bound + 1, executed, m, clock =>
      match run.program.get? m.position with
      | none => some (⟨.completed, m, executed⟩, clock)
      | some i =>
          let (now, clock) := Clock.read clock
          match run.turn now i m with
          | .stopped status m => some (⟨status, m, executed⟩, clock)
          | .running m => turns run bound (countOn executed) m clock

/-- The record of a run that ended, at the clock reading taken last. -/
def outcome (run : Run) (ending : Ending) (now : Duration) : Outcome where
  status := ending.status
  tape := ending.machine.tape.visible
  output := ending.machine.output
  executed := ending.executed
  elapsed := run.session.elapsedAt now

end Run

end TapeMachine
