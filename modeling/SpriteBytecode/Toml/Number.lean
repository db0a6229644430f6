import SpriteBytecode.Text.Decimal
import SpriteBytecode.Text.Hexadecimal

/-!
Numbers of TOML. Digits may be grouped by single underscores between them. An integer fits in 64
bits with its sign; a number with a fraction or an exponent is rounded to the nearest double and
must not be too large for one.
-/

set_option autoImplicit false
set_option relaxedAutoImplicit false

namespace SpriteBytecode.Toml

def ungroup (isDigit : Char → Bool) : List Char → Option (List Char)
  | [] => none
  | [c] => if isDigit c then some [c] else none
  | c :: '_' :: rest => if isDigit c then (ungroup isDigit rest).map (c :: ·) else none
  | c :: rest => if isDigit c then (ungroup isDigit rest).map (c :: ·) else none

def radixValue (base : Nat) (digits : List Char) : Option Nat :=
  digits.foldlM (fun n c ↦ (Hexadecimal.digitValue? c).map (base * n + ·)) 0

def isRadixDigit (base : Nat) (c : Char) : Bool :=
  ((Hexadecimal.digitValue? c).map fun value ↦ decide (value < base)).getD false

def readRadix (base : Nat) (text : List Char) : Option Int :=
  ((ungroup (isRadixDigit base) text).bind (radixValue base)).map Int.ofNat

/-- Digits of a decimal number in front of its point. There is no leading zero. -/
def wholeDigits? (text : List Char) : Option (List Char) :=
  match ungroup Char.isDigit text with
  | some ('0' :: _ :: _) => none
  | digits => digits

/-- The sign in front of a number, and what follows it. -/
def splitSign : List Char → Bool × List Char
  | '-' :: rest => (true, rest)
  | '+' :: rest => (false, rest)
  | text => (false, text)

def readDecimal (text : List Char) : Option Int :=
  let (negative, digits) := splitSign text
  (wholeDigits? digits).map fun digits ↦
    if negative then -(Decimal.value digits : Int) else Decimal.value digits

def readInteger (text : List Char) : Option Int :=
  let value :=
    match text with
    | '0' :: 'x' :: rest => readRadix 16 rest
    | '0' :: 'o' :: rest => readRadix 8 rest
    | '0' :: 'b' :: rest => readRadix 2 rest
    | _ => readDecimal text
  value.filter fun value ↦ -0x8000000000000000 ≤ value && value < 0x8000000000000000

/-- The double nearest to a decimal number, if it is finite. Far outside the range of doubles no
arithmetic is needed. -/
def nearestDouble? (significand : Nat) (exponent : Int) : Option Float :=
  let width := (toString significand).length + exponent
  if significand = 0 || width < -400 then some 0
  else if 400 < width then none
  else
    let value := Float.ofScientific significand (exponent < 0) exponent.natAbs
    if value.isInf then none else some value

def isExponentMark (c : Char) : Bool := c == 'e' || c == 'E'

/-- Without a point and an exponent a number is none of the reals. -/
def isRealChar (c : Char) : Bool := c == '.' || isExponentMark c

/-- The exponent with its mark in front; nothing at all means zero. -/
def readExponent : List Char → Option Int
  | [] => some 0
  | _ :: text =>
    let (negative, digits) := splitSign text
    (ungroup Char.isDigit digits).map fun digits ↦
      if negative then -(Decimal.value digits : Int) else Decimal.value digits

/-- The digits behind the point; nothing at all means none. -/
def readFraction : List Char → Option (List Char)
  | [] => some []
  | _ :: text => ungroup Char.isDigit text

def readUnsigned (text : List Char) : Option Float :=
  let mantissa := text.takeWhile (!isExponentMark ·)
  match wholeDigits? (mantissa.takeWhile (· != '.')),
    readFraction (mantissa.dropWhile (· != '.')),
    readExponent (text.dropWhile (!isExponentMark ·)) with
  | some whole, some fraction, some exponent =>
    if text.any isRealChar then
      nearestDouble? (Decimal.value (whole ++ fraction)) (exponent - fraction.length)
    else none
  | _, _, _ => none

def readReal (text : List Char) : Option Float :=
  let (negative, size) := splitSign text
  let value :=
    if size = "inf".toList then some (1 / 0)
    else if size = "nan".toList then some (0 / 0)
    else readUnsigned size
  value.map fun value ↦ if negative then -value else value

end SpriteBytecode.Toml
