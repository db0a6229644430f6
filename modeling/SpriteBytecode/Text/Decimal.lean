/-!
Numbers read from decimal text: an optional sign and at least one digit, with nothing around them.
-/

set_option autoImplicit false
set_option relaxedAutoImplicit false

namespace SpriteBytecode.Decimal

/-- The number that a row of decimal digits stands for. -/
def value (digits : List Char) : Nat := digits.foldl (fun n c ↦ 10 * n + (c.toNat - 48)) 0

def digits? (text : List Char) : Option Nat :=
  if !text.isEmpty && text.all Char.isDigit then some (value text) else none

/-- A plus sign may stand in front. -/
def natural? (text : String) : Option Nat :=
  match text.toList with
  | '+' :: rest => digits? rest
  | rest => digits? rest

def integer? (text : String) : Option Int :=
  match text.toList with
  | '-' :: rest => (digits? rest).map fun n ↦ -(n : Int)
  | '+' :: rest => (digits? rest).map Int.ofNat
  | rest => (digits? rest).map Int.ofNat

end SpriteBytecode.Decimal
