/-!
Blanks, comments and line ends of TOML. Control characters have no place in a comment or a text,
the tab excepted, and a carriage return stands only in front of a line feed.
-/

set_option autoImplicit false
set_option relaxedAutoImplicit false

namespace SpriteBytecode.Toml

def isTomlBlank (c : Char) : Bool := c == ' ' || c == '\t'

def isControl (c : Char) : Bool := (c.toNat < 0x20 && c != '\t') || c.toNat == 0x7F

def skipBlanks (text : List Char) : List Char := text.dropWhile isTomlBlank

def readNewline : List Char → Option (List Char)
  | '\n' :: rest => some rest
  | '\r' :: '\n' :: rest => some rest
  | _ => none

/-- Skips a comment up to its first control character, which has to be that of the line end. -/
def skipComment : List Char → List Char
  | '#' :: rest => rest.dropWhile fun c ↦ !isControl c
  | text => text

/-- Reads what may be left of a line: blanks and a comment. -/
def readLineEnd (text : List Char) : Option (List Char) :=
  match skipComment (skipBlanks text) with
  | [] => some []
  | text => readNewline text

/-- Skips blanks, comments and line ends in any number. -/
def skipSpace (inComment : Bool) : List Char → List Char
  | [] => []
  | '\n' :: rest => skipSpace false rest
  | '\r' :: '\n' :: rest => skipSpace false rest
  | c :: rest =>
    if inComment then if isControl c then c :: rest else skipSpace true rest
    else if isTomlBlank c then skipSpace false rest
    else if c = '#' then skipSpace true rest
    else c :: rest

end SpriteBytecode.Toml
