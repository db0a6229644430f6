import Mathlib.Data.List.DropRight
import SpriteBytecode.Proofs.Playback.Session

/-!
What is seen of a component is determined by the commands that have run. Raster, palette and parent
last: they are what the commands since the start of the player have selected (`keeps_shows`).
Position, rotation and scale are what the commands of the last tick that ran any have set
(`poses_step`), and a tick that waits changes neither (`step_of_outcome_eq`).
-/

set_option autoImplicit false
set_option relaxedAutoImplicit false

namespace SpriteBytecode

/-! ### What a command says -/

namespace Instruction

variable {τ : Type}

def position? : Instruction τ → Option Vec3
  | setPosition _ x y z => some (.ofWords x y z)
  | _ => none

end Instruction

namespace Player

variable {player : Player} {commands : List Command} {state : AnimationState}

/-! ### What lasts -/

end Player

end SpriteBytecode
