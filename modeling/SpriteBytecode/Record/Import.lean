import SpriteBytecode.Assets
import SpriteBytecode.CommandList.Basic
import SpriteBytecode.Log
import SpriteBytecode.Record.Basic
import SpriteBytecode.Text.Quoted

/-!
From records to a command list, one command for each record. Every label record has a label of its
own, and a destination means the first of its name, before or after the jump. A destination that
names no label record gets a label without a marker. References to unknown assets become operands
that select nothing.
-/

set_option autoImplicit false
set_option relaxedAutoImplicit false

namespace SpriteBytecode

namespace AssetRef

def resolve? (assets : Assets) (kind : AssetKind) : AssetRef → Option Int
  | index value => some value
  | named name => (assets.find? kind name).map Int.ofNat

/-- The raster or palette operand of a reference. -/
def operand (assets : Assets) (kind : AssetKind) (reference : Option AssetRef) : Int16 :=
  match reference.bind (resolve? assets kind) with
  | some value => if -0x8000 ≤ value ∧ value < 0x8000 then Int16.ofInt value else noAsset
  | none => noAsset

def parentOperand (assets : Assets) (reference : AssetRef) : UInt8 :=
  match reference.resolve? assets .component with
  | some value => if 0 ≤ value ∧ value < 0x100 then UInt8.ofNat value.toNat else unresolvedParent
  | none => unresolvedParent

end AssetRef

namespace Import

/-- Names of the label records, in order. -/
def labelNames (records : List CommandRecord) : List String :=
  records.filterMap (·.labelName?)

/-- Destinations that name no label record, in order of first use. -/
def danglingNames (records : List CommandRecord) : List String :=
  ((records.filterMap (·.destination?)).filter (!(labelNames records).contains ·)).eraseDups

def arena (records : List CommandRecord) : List String :=
  labelNames records ++ danglingNames records

/-- The first label of a name. -/
def labelFor (arena : List String) (name : String) : LabelId := ⟨arena.idxOf name⟩

/-- The command of one record; `marker` is the label of a label record. -/
def command (assets : Assets) (arena : List String) (marker : LabelId) : CommandRecord → Command
  | .label _ => .label marker
  | .wait duration => .wait duration
  | .setRaster raster => .setRaster (AssetRef.operand assets .raster raster)
  | .setPalette palette => .setPalette (AssetRef.operand assets .palette palette)
  | .setParent parent => .setParent (parent.parentOperand assets)
  | .goto destination => .goto (labelFor arena destination)
  | .loop destination count => .loop (labelFor arena destination) count
  | .setPosition flag x y z => .setPosition flag x y z
  | .setRotation x y z => .setRotation x y z
  | .setScale mode percent => .setScale mode percent
  | .setNotify value => .setNotify value
  | .setUnknown value => .setUnknown value

/-- Commands in order; `marker` counts the label records so far. -/
def commandsFrom (assets : Assets) (arena : List String) (marker : Nat) :
    List CommandRecord → List Command
  | [] => []
  | record :: rest =>
    command assets arena ⟨marker⟩ record ::
      commandsFrom assets arena (marker + record.labelName?.toList.length) rest

def referenceLog (assets : Assets) (kind : AssetKind) : AssetRef → List Log.Entry
  | .index _ => []
  | .named name =>
    if (assets.find? kind name).isSome then []
    else [⟨.warn, "Unknown " ++ kind.name ++ " name " ++ Quoted.encode name⟩]

/-- Warnings in record order. A dangling destination is warned of when it is first used; `known`
holds the label names and the destinations warned of so far. -/
def logFrom (assets : Assets) (known : List String) : List CommandRecord → List Log.Entry
  | [] => []
  | record :: rest =>
    match record with
    | .setRaster (some raster) => referenceLog assets .raster raster ++ logFrom assets known rest
    | .setPalette (some palette) =>
      referenceLog assets .palette palette ++ logFrom assets known rest
    | .setParent parent => referenceLog assets .component parent ++ logFrom assets known rest
    | .goto destination | .loop destination _ =>
      if known.contains destination then logFrom assets known rest
      else
        ⟨.warn, "Destination " ++ Quoted.encode destination ++ " names no label"⟩ ::
          logFrom assets (destination :: known) rest
    | _ => logFrom assets known rest

def log (records : List CommandRecord) (assets : Assets) : List Log.Entry :=
  logFrom assets (labelNames records) records

end Import

namespace CommandList

def ofRecords (records : List CommandRecord) (assets : Assets) : CommandList :=
  let arena := Import.arena records
  { commands := Import.commandsFrom assets arena 0 records, labelNames := arena }

end CommandList

end SpriteBytecode
