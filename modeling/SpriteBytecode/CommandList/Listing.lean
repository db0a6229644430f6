import SpriteBytecode.CommandList.LabelTable
import SpriteBytecode.Instruction.Listing
import SpriteBytecode.Text.Quoted

/-!
Texts of a command list: the listing line of each command, a one-line summary, and a structural
form that spells out every field.
-/

set_option autoImplicit false
set_option relaxedAutoImplicit false

namespace SpriteBytecode

/-- The name of a scale mode in structural and textual forms. -/
def ScaleMode.tag : ScaleMode → String
  | uniform => "Uniform"
  | x => "X"
  | y => "Y"
  | z => "Z"

namespace LabelTable

/-- How a jump or marker shows its label. A jump whose label has no marker says so. -/
def targetText (labels : LabelTable) (isMarker : Bool) (id : LabelId) : String :=
  match labels.name? id with
  | none => "(missing)"
  | some name => if isMarker || (labels.place? id).isSome then name else name ++ " (missing)"

/-- The listing text of a command. -/
def describe (labels : LabelTable) (command : Command) : String :=
  command.describeWith (labels.targetText command.isLabel)

end LabelTable

namespace CommandList

/-- The listing text of the command at `index`. -/
def describe? (list : CommandList) (index : Nat) : Option String :=
  (list.get? index).map list.labelTable.describe

/-- The listing text of every command. -/
def listing (list : CommandList) : List String :=
  let labels := list.labelTable
  list.commands.map labels.describe

def summary (list : CommandList) : String :=
  "CommandList(" ++ toString list.length ++ " commands, " ++ toString list.wordLen ++ " words)"

theorem getElem?_listing (list : CommandList) (index : Nat) :
    list.listing[index]? = list.describe? index := by
  simp [listing, describe?, get?]

end CommandList

namespace LabelId

def inspect (id : LabelId) : String := "LabelId(" ++ toString id.index ++ ")"

end LabelId

/-- A named group of fields, such as `Wait \x7b count: 2 \x7d`. -/
def inspectFields (name : String) (fields : List (String × String)) : String :=
  name ++ " \x7b " ++ ", ".intercalate (fields.map fun (field, value) ↦ field ++ ": " ++ value)
    ++ " \x7d"

def inspectList (items : List String) : String := "[" ++ ", ".intercalate items ++ "]"

def inspectTriple (x y z : Int16) : List (String × String) :=
  [("x", toString x.toInt), ("y", toString y.toInt), ("z", toString z.toInt)]

def Instruction.inspect : Command → String
  | wait count => inspectFields "Wait" [("count", toString count.toNat)]
  | setRaster index => inspectFields "SetRaster" [("index", toString index.toInt)]
  | goto target => inspectFields "Goto" [("target", target.inspect)]
  | setPosition flag x y z =>
    inspectFields "SetPosition" (("flag", toString flag) :: inspectTriple x y z)
  | setRotation x y z => inspectFields "SetRotation" (inspectTriple x y z)
  | setScale mode percent =>
    inspectFields "SetScale" [("mode", mode.tag), ("percent", toString percent.toInt)]
  | setPalette index => inspectFields "SetPalette" [("index", toString index.toInt)]
  | loop target count =>
    inspectFields "Loop" [("target", target.inspect), ("count", toString count.toInt)]
  | setUnknown value => inspectFields "SetUnknown" [("value", toString value.toNat)]
  | setParent index => inspectFields "SetParent" [("index", toString index.toNat)]
  | setNotify value => inspectFields "SetNotify" [("value", toString value.toNat)]
  | label target => "Label(" ++ target.inspect ++ ")"

/-- The structural form of a list, which also says whether an observer watches it. -/
def CommandList.inspect (list : CommandList) (observed : Bool) : String :=
  inspectFields "CommandList"
    [("commands", inspectList (list.commands.map Instruction.inspect)),
      ("label_names", inspectList (list.labelNames.map Quoted.encode)),
      ("observer", toString observed)]

end SpriteBytecode
