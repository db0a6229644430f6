import SpriteBytecode.Assets
import SpriteBytecode.CommandList.Program
import SpriteBytecode.Playback.Config
import SpriteBytecode.Playback.State

/-!
The effect of one command on the animation state. A command whose raster, palette, parent or label
does not exist takes a defensive path, and the effect names what was missing.
-/

set_option autoImplicit false
set_option relaxedAutoImplicit false

namespace SpriteBytecode

/-- What a command referred to in vain. -/
inductive MissingReference where
  | raster (index : Int16)
  | palette (index : Int16)
  | parent (index : UInt8)
  | label (name : Option String)
  deriving DecidableEq

structure Effect where
  state : AnimationState
  /-- The command ends the tick, and the cursor stays on it. -/
  blocks : Bool := false
  missing? : Option MissingReference := none
  deriving DecidableEq

/-- One component's animation, ready to be played. -/
structure Player where
  program : Program
  assets : Assets
  config : PlaybackConfig

namespace Player

def list (player : Player) : CommandList := player.program.list

/-- A scale command replaces the percentages of the axes that its mode selects. -/
def rescale (config : PlaybackConfig) (mode : ScaleMode) (percent : Int) (scale : Vec3) : Vec3 :=
  match mode with
  | .uniform => .splat percent
  | .x => { scale with x := percent }
  | .y =>
    if config.scaleYSetsZ then { scale with y := percent, z := percent }
    else { scale with y := percent }
  | .z => { scale with z := percent }

@[inline] def effect (player : Player) (command : Command) (state : AnimationState) : Effect :=
  match command with
  | .wait count =>
    let wait := if count = 0 then maxWait else count
    { state := { state with delay := wait.toNat, waited := elapse state.waited wait }
      blocks := true }
  | .setRaster index =>
    let raster := player.assets.resolve? .raster index.toInt
    { state := { state.next with raster, palette := none }
      missing? := if 0 ≤ index.toInt ∧ raster = none then some (.raster index) else none }
  | .setPalette index =>
    let palette := player.assets.resolve? .palette index.toInt
    { state := { state.next with palette }
      missing? := if 0 ≤ index.toInt ∧ palette = none then some (.palette index) else none }
  | .setPosition _ x y z => { state := { state.next with position := .ofWords x y z } }
  | .setRotation x y z => { state := { state.next with rotation := .ofWords x y z } }
  | .setScale mode percent =>
    { state := { state.next with scale := rescale player.config mode percent.toInt state.scale } }
  | .setParent index =>
    match player.assets.resolve? .component index.toNat with
    | some parent => { state := { state.next with parent := some parent } }
    | none => { state := state.next, missing? := some (.parent index) }
  | .goto target =>
    match player.program.findLabel? target with
    | none => { state := state.next, missing? := some (.label (player.program.labelName? target)) }
    | some destination =>
      { state :=
          { state with
            cursor := destination
            complete := state.complete || (destination < state.cursor && state.waited == 0) } }
  | .loop target count =>
    match player.program.findLabel? target with
    | none => { state := state.next, missing? := some (.label (player.program.labelName? target)) }
    | some destination =>
      match nextRepeats state.repeats count with
      | some remaining =>
        { state := { state with cursor := destination, repeats := some remaining } }
      | none => { state := { state.next with repeats := none } }
  | .setUnknown _ | .setNotify _ | .label _ => { state := state.next }

end Player

end SpriteBytecode
