import TapeMachine.Duration

/-!
Clocks that a time budget is measured with. A clock is a state that every reading may move on; what
a reading says is up to the clock. The stepping clock goes a fixed step ahead on every reading,
which pins down before which instruction a budget runs out.
-/

namespace TapeMachine

/-- A state that tells the time elapsed since the clock was made. -/
class Clock (σ : Type) where
  read : σ → Duration × σ

structure SteppingClock where
  step : Duration
  /-- What the next reading says. -/
  now : Duration
  deriving DecidableEq

namespace SteppingClock

/-- A clock whose first reading is zero. -/
def new (step : Duration) : SteppingClock where
  step := step
  now := .zero

def perMillisecond : SteppingClock :=
  new (.ofMilliseconds 1)

instance : Clock SteppingClock where
  read clock := (clock.now, { clock with now := clock.now + clock.step })

end SteppingClock

namespace Clock

variable {σ : Type} [Clock σ]

def after (clock : σ) : Nat → σ
  | 0 => clock
  | n + 1 => after (read clock).2 n

/-- The first readings of a clock, in order. -/
def readings (clock : σ) : Nat → List Duration
  | 0 => []
  | n + 1 => (read clock).1 :: readings (read clock).2 n

end Clock

end TapeMachine
