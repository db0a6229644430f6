import SpriteBytecode.Text.Blank
import SpriteBytecode.Text.Hexadecimal

/-!
Word streams as text: four hexadecimal digits for each word. Reading skips blanks and commas
wherever they stand; writing uses capital letters and one blank between words.
-/

set_option autoImplicit false
set_option relaxedAutoImplicit false

namespace SpriteBytecode.StreamText

inductive Fault where
  /-- What is left without blanks and commas does not divide into words; it has this many bytes. -/
  | unevenDigits (count : Nat)
  | notHexadecimal
  deriving DecidableEq

def isSeparator (c : Char) : Bool := isBlank c || c == ','

/-- The characters that have to be digits. -/
def strip (text : List Char) : List Char := text.filter (!isSeparator ·)

/-- Words from groups of four digits. -/
def words? : List Char → Option (List UInt16)
  | [] => some []
  | a :: b :: c :: d :: rest =>
    match Hexadecimal.value? [a, b, c, d], words? rest with
    | some value, some words => some (UInt16.ofNat value :: words)
    | _, _ => none
  | _ => none

def parse (text : String) : Except Fault (List UInt16) :=
  let digits := strip text.toList
  let size := (String.ofList digits).utf8ByteSize
  if size % 4 = 0 then
    match words? digits with
    | some words => .ok words
    | none => .error .notHexadecimal
  else .error (.unevenDigits size)

def formatWord (word : UInt16) : String := Hexadecimal.padded 4 word.toNat

def format (words : List UInt16) : String := " ".intercalate (words.map formatWord)

end SpriteBytecode.StreamText
