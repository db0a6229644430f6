/-!
Limits and rules of playback and of the timing analysis.
-/

set_option autoImplicit false
set_option relaxedAutoImplicit false

namespace SpriteBytecode

/-- The cap on commands for one tick, and on the steps of a timing walk, when none is given. -/
def defaultMaxIterations : Nat := 1024

structure PlaybackConfig where
  /-- Commands that one tick may execute. -/
  maxIterations : Nat := defaultMaxIterations
  /-- How much a pending delay shrinks in one tick. -/
  ticksPerStep : Int32 := 2
  /-- A scale of the Y axis also sets the Z axis. -/
  scaleYSetsZ : Bool := true
  deriving DecidableEq

/-- The fields by the names that they have in files, in their order there. -/
def PlaybackConfig.fieldNames : List String :=
  ["max_iterations", "ticks_per_step", "legacy_scale_fallthrough"]

/-- The default limits, with a scale of one axis setting that axis only. -/
def PlaybackConfig.corrected : PlaybackConfig := { scaleYSetsZ := false }

structure TimingConfig where
  /-- Commands that the walk may visit. -/
  maxIterations : Nat := defaultMaxIterations
  deriving DecidableEq

def TimingConfig.fieldNames : List String := ["max_iterations"]

end SpriteBytecode
