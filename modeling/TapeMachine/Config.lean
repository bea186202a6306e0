import TapeMachine.Limits

/-!
The settings that a host keeps for running programs.
-/

namespace TapeMachine

structure Config where
  /-- The time budget of a run, in milliseconds. -/
  timeout : UInt64
  maxLoopDepth : UInt64
  /-- How many characters a run may print; `none` is no limit. -/
  maxOutput : Option UInt64
  deriving DecidableEq

namespace Config

def ofTimeout (timeout : UInt64) : Config where
  timeout := timeout
  maxLoopDepth := Limits.defaultLoopDepth.toUInt64
  maxOutput := none

def limits (config : Config) : Limits where
  loopDepth := config.maxLoopDepth.toNat
  output := config.maxOutput.map UInt64.toNat

/-- What is wrong with the settings, if anything; the timeout is looked at first. -/
def limitError? (config : Config) : Option LimitError :=
  if config.timeout = 0 then
    some (.invalidTimeout config.timeout.toNat)
  else if Limits.Allowed config.maxLoopDepth.toNat then
    none
  else
    some (.invalidLoopDepth config.maxLoopDepth.toNat)

theorem limitError?_eq_none_iff {config : Config} :
    config.limitError? = none ↔
      config.timeout ≠ 0 ∧ Limits.Allowed config.maxLoopDepth.toNat := by
  unfold limitError?
  split
  · simp_all
  · split <;> simp_all

end Config

end TapeMachine
