/-!
The state of one animated component during playback. Position, rotation and scale last for the tick
that sets them; raster, palette and parent last until a command changes them.
-/

set_option autoImplicit false
set_option relaxedAutoImplicit false

namespace SpriteBytecode

structure Vec3 where
  x : Int
  y : Int
  z : Int
  deriving DecidableEq

namespace Vec3

def splat (value : Int) : Vec3 := ⟨value, value, value⟩

def ofWords (x y z : Int16) : Vec3 := ⟨x.toInt, y.toInt, z.toInt⟩

end Vec3

/-- Elapsed time stops growing here. -/
def maxElapsed : Nat := 0xFFFFFFFF

/-- Elapsed time after another wait. -/
def elapse (time : Nat) (wait : UInt16) : Nat := min (time + wait.toNat) maxElapsed

/-- Remaining repeats after a loop command is reached, or nothing when the loop is over. An idle
loop takes its count, so that it always jumps once. -/
def nextRepeats (active : Option Int) (count : Int16) : Option Int :=
  match active with
  | none => some count.toInt
  | some remaining => if remaining - 1 > 0 then some (remaining - 1) else none

structure AnimationState where
  /-- The command that runs next, or the wait that is pending. -/
  cursor : Nat := 0
  /-- What is left of the pending wait; not positive when none is pending. -/
  delay : Int := 0
  /-- Remaining repeats of the active loop. -/
  repeats : Option Int := none
  parent : Option Nat := none
  raster : Option Nat := none
  palette : Option Nat := none
  position : Vec3 := .splat 0
  rotation : Vec3 := .splat 0
  /-- Percentages. -/
  scale : Vec3 := .splat 100
  /-- A jump backwards has run before any wait. -/
  complete : Bool := false
  /-- Sum of the waits that have run. -/
  waited : Nat := 0
  deriving DecidableEq

namespace AnimationState

def initial : AnimationState := {}

/-- The cursor is at the command at `index` or past it. -/
def surpassed (state : AnimationState) (index : Nat) : Bool := index ≤ state.cursor

/-- The cursor goes on to the next command. -/
@[inline] def next (state : AnimationState) : AnimationState :=
  { state with cursor := state.cursor + 1 }

/-- Position, rotation and scale go back to their defaults. -/
def resetPulse (state : AnimationState) : AnimationState :=
  { state with position := .splat 0, rotation := .splat 0, scale := .splat 100 }

end AnimationState

end SpriteBytecode
