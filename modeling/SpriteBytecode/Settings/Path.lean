import SpriteBytecode.Settings.Tree
import SpriteBytecode.Text.Decimal

/-!
Names of settings that are paths. A path is a row of names with points between them; behind a name
may stand item numbers in brackets. A name that is no path means only itself.
-/

set_option autoImplicit false
set_option relaxedAutoImplicit false

namespace SpriteBytecode

namespace SettingPath

def isNameChar (c : Char) : Bool := c.isAlphanum || c == '_' || c == '-'

def isName (name : String) : Bool := !name.isEmpty && name.toList.all isNameChar

/-- Names with points between them. -/
def children? (text : List Char) : Option SettingPath :=
  let names := (String.ofList text).splitOn "."
  if names.all isName then some (names.map .child) else none

/-- A number of 64 bits with blanks around it at most. -/
def itemNumber? (text : List Char) : Option Int :=
  let isPad (c : Char) : Bool := c == ' ' || c == '\t'
  let number := ((text.dropWhile isPad).reverse.dropWhile isPad).reverse
  let value :=
    match number with
    | '-' :: digits => (Decimal.digits? digits).map fun size ↦ -(size : Int)
    | digits => (Decimal.digits? digits).map Int.ofNat
  value.filter fun value ↦ -0x8000000000000000 ≤ value && value < 0x8000000000000000

/-- What follows an opening bracket: an item number, its closing bracket, and further names. -/
def itemSteps? (text : String) : Option SettingPath :=
  match itemNumber? (text.toList.takeWhile (· != ']')), text.toList.dropWhile (· != ']') with
  | some number, [']'] => some [.item number]
  | some number, ']' :: '.' :: rest => (children? rest).map (.item number :: ·)
  | _, _ => none

def parse? (key : String) : Option SettingPath :=
  match key.splitOn "[" with
  | [] => none
  | front :: steps => do return (← children? front.toList) ++ (← steps.mapM itemSteps?).flatten

end SettingPath

/-- Puts a value where its key leads. -/
def Setting.define (tree : Setting) (key : String) (value : Setting) : Setting :=
  assign value ((SettingPath.parse? key).getD [.child key]) tree

end SpriteBytecode
