import SpriteBytecode.Assets
import SpriteBytecode.CommandList.Basic
import SpriteBytecode.Record.Basic

/-!
From a command list to records, one for each command.
-/

set_option autoImplicit false
set_option relaxedAutoImplicit false

namespace SpriteBytecode

/-- An operand by the name of its asset, or by number if it has none. -/
def AssetRef.ofOperand (assets : Assets) (kind : AssetKind) (operand : Int) : AssetRef :=
  match (assets.resolve? kind operand).bind (assets.name? kind) with
  | some name => .named name
  | none => .index operand

namespace CommandList

/-- A handle from another list has an empty name. -/
def exportName (list : CommandList) (id : LabelId) : String := (list.labelName? id).getD ""

def exportOptional (assets : Assets) (kind : AssetKind) (operand : Int16) : Option AssetRef :=
  if operand = noAsset then none else some (.ofOperand assets kind operand.toInt)

def toRecord (list : CommandList) (assets : Assets) : Command → CommandRecord
  | .label id => .label (list.exportName id)
  | .wait count => .wait count
  | .setRaster index => .setRaster (exportOptional assets .raster index)
  | .setPalette index => .setPalette (exportOptional assets .palette index)
  | .setParent index => .setParent (.ofOperand assets .component index.toNat)
  | .goto target => .goto (list.exportName target)
  | .loop target count => .loop (list.exportName target) count
  | .setPosition flag x y z => .setPosition flag x y z
  | .setRotation x y z => .setRotation x y z
  | .setScale mode percent => .setScale mode percent
  | .setNotify value => .setNotify value
  | .setUnknown value => .setUnknown value

def toRecords (list : CommandList) (assets : Assets) : List CommandRecord :=
  list.commands.map (list.toRecord assets)

end CommandList

end SpriteBytecode
