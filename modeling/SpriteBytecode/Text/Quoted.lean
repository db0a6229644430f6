import SpriteBytecode.Text.GraphemeExtend
import SpriteBytecode.Text.Hexadecimal
import SpriteBytecode.Text.Invisible

/-!
Names quoted for messages and structural listings. Quotes and backslashes are escaped, the common
control characters have their letters, and every other character that a reader could not see by
itself is given by number: one that leaves no mark, and one that melts into the character before.
-/

set_option autoImplicit false
set_option relaxedAutoImplicit false

namespace SpriteBytecode.Quoted

/-- The printable characters of ASCII need no table. -/
def isPlain (c : Char) : Bool :=
  if c.toNat < 0x7F then 0x20 ≤ c.toNat else !(isGraphemeExtend c || isInvisible c)

/-- The letter that a character is escaped with. -/
def letter? (c : Char) : Option Char :=
  if c = '"' ∨ c = '\\' then some c
  else if c = '\n' then some 'n'
  else if c = '\r' then some 'r'
  else if c = '\t' then some 't'
  else if c.toNat = 0 then some '0'
  else none

def escape (c : Char) : List Char :=
  match letter? c with
  | some letter => ['\\', letter]
  | none =>
    if isPlain c then [c]
    else ['\\', 'u', '\x7b'] ++ (Hexadecimal.digits c.toNat).map Char.toLower ++ ['\x7d']

def encode (text : String) : String :=
  String.ofList ('"' :: text.toList.flatMap escape ++ ['"'])

theorem isPlain_of_ascii {c : Char} (hlo : 0x20 ≤ c.toNat) (hhi : c.toNat < 0x7F) :
    isPlain c = true := by
  simp [isPlain, hlo, hhi]

end SpriteBytecode.Quoted
