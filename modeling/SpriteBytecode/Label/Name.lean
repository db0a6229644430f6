import SpriteBytecode.Label.Hints
import SpriteBytecode.Text.Hexadecimal

/-!
Names of labels. A jump target is named by its hint, or after its position. A name of the form
`#1F` is an escape: it pins the position that it spells, wherever the label's marker stands, so
that jumps to places where no instruction starts keep their number.
-/

set_option autoImplicit false
set_option relaxedAutoImplicit false

namespace SpriteBytecode.LabelName

/-- The name of a label at the start of a stream. -/
def start : String := "Start"

/-- The name of a jump target at `position`; an empty hint counts as none. -/
def ofPosition (hints : LabelHints) (position : UInt16) : String :=
  match hints.get? position with
  | some name => if name.isEmpty then unhinted position else name
  | none => unhinted position
where
  unhinted (position : UInt16) : String :=
    if position = 0 then start else "Pos_" ++ Hexadecimal.ofNat position.toNat

/-- The name that pins `position`. -/
def escape (position : UInt16) : String := "#" ++ Hexadecimal.ofNat position.toNat

def unescapeChars? : List Char → Option UInt16
  | '#' :: text =>
    if text.isEmpty then none
    else
      match Hexadecimal.value? text with
      | some n => if n < 0x10000 then some (UInt16.ofNat n) else none
      | none => none
  | _ => none

/-- The position that a name pins, if it pins one. -/
def unescape? (name : String) : Option UInt16 := unescapeChars? name.toList

end SpriteBytecode.LabelName
