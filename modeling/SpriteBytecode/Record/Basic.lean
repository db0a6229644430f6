import SpriteBytecode.Instruction.Basic

/-!
Records: the textual form of commands. Labels and jump destinations are written by name, and so are
rasters, palettes and parents whose container has names for them.
-/

set_option autoImplicit false
set_option relaxedAutoImplicit false

namespace SpriteBytecode

inductive AssetRef where
  | index (value : Int)
  | named (name : String)
  deriving DecidableEq

inductive CommandRecord where
  | label (name : String)
  | wait (duration : UInt16)
  /-- Nothing stands for drawing nothing. -/
  | setRaster (raster : Option AssetRef)
  /-- Nothing stands for the default palette. -/
  | setPalette (palette : Option AssetRef)
  | setParent (parent : AssetRef)
  | goto (destination : String)
  | loop (destination : String) (count : Int16)
  | setPosition (flag : Bool) (x y z : Int16)
  | setRotation (x y z : Int16)
  | setScale (mode : ScaleMode) (percent : Int16)
  | setNotify (value : UInt8)
  | setUnknown (value : UInt8)
  deriving DecidableEq

namespace CommandRecord

def labelName? : CommandRecord → Option String
  | label name => some name
  | _ => none

def destination? : CommandRecord → Option String
  | goto destination | loop destination _ => some destination
  | _ => none

end CommandRecord

/-- The raster and palette operand that selects nothing. -/
def noAsset : Int16 := -1

/-- The parent operand of a reference that could not be resolved. -/
def unresolvedParent : UInt8 := 0xFF

end SpriteBytecode
