import SpriteBytecode.Instruction.Basic
import SpriteBytecode.Text.Hexadecimal

/-!
How listings show an instruction. The reader of a listing sees what an instruction does: a zero
wait shows the duration it plays for, and a negative raster or palette shows what it clears.
-/

set_option autoImplicit false
set_option relaxedAutoImplicit false

namespace SpriteBytecode

def ScaleMode.axis : ScaleMode → String
  | uniform => "All"
  | x => "X"
  | y => "Y"
  | z => "Z"

namespace Instruction

variable {τ : Type}

def triple (x y z : Int16) : String :=
  "(" ++ toString x.toInt ++ ", " ++ toString y.toInt ++ ", " ++ toString z.toInt ++ ")"

/-- The listing text, where `targetName` shows jump targets and label markers. -/
def describeWith (targetName : τ → String) : Instruction τ → String
  | wait count => "Wait " ++ toString (if count = 0 then maxWait else count).toNat
  | setRaster index =>
    if index.toInt < 0 then "Clear Raster" else "Raster: " ++ toString index.toInt
  | goto target => "Goto: " ++ targetName target
  | setPosition _ x y z => "Position: " ++ triple x y z
  | setRotation x y z => "Rotation: " ++ triple x y z
  | setScale mode percent => "Scale " ++ mode.axis ++ ": " ++ toString percent.toInt ++ "%"
  | setPalette index =>
    if index.toInt < 0 then "Default Palette" else "Palette: " ++ toString index.toInt
  | loop target count => "Repeat: " ++ targetName target ++ " (x" ++ toString count.toInt ++ ")"
  | setUnknown value => "Set Unknown: " ++ toString value.toNat
  | setParent index => "Parent: " ++ toString index.toNat
  | setNotify value => "Set Notify: " ++ toString value.toNat
  | label target => "Label: " ++ targetName target

/-- The listing text of an instruction whose targets are plain word positions. -/
def describe (i : RawInstruction) : String :=
  i.describeWith fun position ↦ "#" ++ Hexadecimal.ofNat position.toNat

end Instruction

end SpriteBytecode
