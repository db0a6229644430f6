import SpriteBytecode.Json.Outline
import SpriteBytecode.Label.Hints

/-!
JSON form of label hints: an object from decimal word positions to names.
-/

set_option autoImplicit false
set_option relaxedAutoImplicit false

namespace SpriteBytecode.LabelHints

def toJson (hints : LabelHints) : Json :=
  .object (hints.entries.map fun (position, name) ↦ (toString position.toNat, .string name))

/-- A position is a number by the grammar of JSON, so it has no sign and no leading zero. -/
def positionOf? (key : List Char) : Option UInt16 :=
  match JsonNumber.read key with
  | some (number, []) =>
    (number.integer?.filter fun value ↦ 0 ≤ value && value < 0x10000).map fun value ↦
      UInt16.ofNat value.toNat
  | _ => none

def insertMember? (hints : LabelHints) (member : String × Json) : Option LabelHints := do
  return hints.insert (← positionOf? member.1.toList) (← member.2.asText?)

/-- The last name of a position counts. -/
def ofJson? (json : Json) : Option LabelHints := do
  (← json.asMembers?).foldlM insertMember? empty

def insertWritten? (hints : LabelHints) (member : Json.Member) : Option LabelHints := do
  return hints.insert (← positionOf? member.1) (← Json.textOf? member.2)

/-- Reads hints from the text of an object. Positions are written without escapes. -/
def parse? (text : String) : Option LabelHints := do
  (← Json.outline? text).foldlM insertWritten? empty

end SpriteBytecode.LabelHints
