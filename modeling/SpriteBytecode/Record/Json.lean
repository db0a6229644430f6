import SpriteBytecode.Assets
import SpriteBytecode.CommandList.Listing
import SpriteBytecode.Json.Outline
import SpriteBytecode.Record.Basic

/-!
JSON forms of records and of asset inventories. A record is an object whose `type` member says
which command it is, or an array of its type and all of its fields.
-/

set_option autoImplicit false
set_option relaxedAutoImplicit false

namespace SpriteBytecode

namespace AssetRef

def toJson : AssetRef → Json
  | index value => .integer value
  | named name => .string name

/-- An index has to fit in 32 bits. -/
def ofJson? : Json → Option AssetRef
  | .string name => some (named name)
  | json => (json.asInt? (-0x80000000) 0x80000000).map index

end AssetRef

namespace ScaleMode

def ofTag? (tag : String) : Option ScaleMode :=
  [uniform, x, y, z].find? (·.tag == tag)

/-- A mode is written as its tag, or as an object whose only member is the tag with no content. -/
def ofJson? : Json → Option ScaleMode
  | .string tag => ofTag? tag
  | .object [(tag, .null)] => ofTag? tag
  | .object [(tag, .object [])] => ofTag? tag
  | _ => none

end ScaleMode

namespace CommandRecord

def tagged (type : String) (fields : List (String × Json)) : Json :=
  .object (("type", .string type) :: fields)

def tripleFields (x y z : Int16) : List (String × Json) :=
  [("x", .ofInt16 x), ("y", .ofInt16 y), ("z", .ofInt16 z)]

def toJson : CommandRecord → Json
  | label name => tagged "Label" [("name", .string name)]
  | wait duration => tagged "Wait" [("duration", .ofNat duration.toNat)]
  | setRaster raster => tagged "SetRaster" [("raster", .ofOption AssetRef.toJson raster)]
  | setPalette palette => tagged "SetPalette" [("palette", .ofOption AssetRef.toJson palette)]
  | setParent parent => tagged "SetParent" [("parent", parent.toJson)]
  | goto destination => tagged "Goto" [("destination", .string destination)]
  | loop destination count =>
    tagged "Loop" [("destination", .string destination), ("count", .ofInt16 count)]
  | setPosition flag x y z => tagged "SetPos" (("flag", .bool flag) :: tripleFields x y z)
  | setRotation x y z => tagged "SetRot" (tripleFields x y z)
  | setScale mode percent =>
    tagged "SetScale" [("mode", .string mode.tag), ("percent", .ofInt16 percent)]
  | setNotify value => tagged "SetNotify" [("value", .ofNat value.toNat)]
  | setUnknown value => tagged "SetUnknown" [("value", .ofNat value.toNat)]

def ofFields? (type : String) (fields : JsonFields) : Option CommandRecord :=
  let int16? (name : String) := fields.required name Json.asInt16?
  match type with
  | "Label" => (fields.required "name" Json.asText?).map label
  | "Wait" => (fields.required "duration" Json.asUInt16?).map wait
  | "SetRaster" => (fields.nullable "raster" AssetRef.ofJson?).map setRaster
  | "SetPalette" => (fields.nullable "palette" AssetRef.ofJson?).map setPalette
  | "SetParent" => (fields.required "parent" AssetRef.ofJson?).map setParent
  | "Goto" => (fields.required "destination" Json.asText?).map goto
  | "Loop" => do
    return loop (← fields.required "destination" Json.asText?) (← int16? "count")
  | "SetPos" => do
    return setPosition (← fields.required "flag" Json.asBool?)
      (← int16? "x") (← int16? "y") (← int16? "z")
  | "SetRot" => do return setRotation (← int16? "x") (← int16? "y") (← int16? "z")
  | "SetScale" => do
    return setScale (← fields.required "mode" ScaleMode.ofJson?) (← int16? "percent")
  | "SetNotify" => (fields.required "value" Json.asUInt8?).map setNotify
  | "SetUnknown" => (fields.required "value" Json.asUInt8?).map setUnknown
  | _ => none

/-- The fields of a record in their order. -/
def fieldNames : String → List String
  | "Label" => ["name"]
  | "Wait" => ["duration"]
  | "SetRaster" => ["raster"]
  | "SetPalette" => ["palette"]
  | "SetParent" => ["parent"]
  | "Goto" => ["destination"]
  | "Loop" => ["destination", "count"]
  | "SetPos" => ["flag", "x", "y", "z"]
  | "SetRot" => ["x", "y", "z"]
  | "SetScale" => ["mode", "percent"]
  | "SetNotify" => ["value"]
  | "SetUnknown" => ["value"]
  | _ => []

def ofJson? : Json → Option CommandRecord
  | .object members => do
    let fields : JsonFields := members
    ofFields? (← fields.required "type" Json.asText?) fields
  | .array (.string type :: items) =>
    let names := fieldNames type
    if items.length = names.length then ofFields? type (names.zip items) else none
  | _ => none

def listToJson (records : List CommandRecord) : Json := .array (records.map toJson)

def listOfJson? (json : Json) : Option (List CommandRecord) := json.asList? ofJson?

def parseList? (text : String) : Option (List CommandRecord) :=
  (Json.parse? text).bind listOfJson?

end CommandRecord

namespace Inventory

def fieldNames : List String := ["rasters", "palettes", "components"]

/-- Kinds that are not listed have no assets. -/
def ofFields? (fields : JsonFields) : Option Inventory := do
  let names? (kind : String) :=
    fields.withDefault kind #[] fun json ↦ (json.asList? Json.asText?).map List.toArray
  return ⟨← names? "rasters", ← names? "palettes", ← names? "components"⟩

def ofJson? (json : Json) : Option Inventory := (json.asFields? fieldNames).bind ofFields?

/-- Reads an inventory from a text. Members that an object has beside its fields need no meaning. -/
def parse? (text : String) : Option Inventory :=
  match Json.fields? fieldNames text with
  | some fields => ofFields? fields
  | none => (Json.parse? text).bind ofJson?

end Inventory

end SpriteBytecode
