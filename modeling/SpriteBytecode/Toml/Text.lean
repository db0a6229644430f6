import SpriteBytecode.Text.Hexadecimal
import SpriteBytecode.Toml.Lexical

/-!
Quoted texts of TOML. Between double quotes a backslash starts an escape; between single quotes
every character stands for itself. A text between triple quotes may go over several lines.
-/

set_option autoImplicit false
set_option relaxedAutoImplicit false

namespace SpriteBytecode.Toml

def escapeLetter? : Char → Option Char
  | 'b' => some '\x08'
  | 't' => some '\t'
  | 'n' => some '\n'
  | 'f' => some '\x0c'
  | 'r' => some '\r'
  | 'e' => some '\x1b'
  | '"' => some '"'
  | '\\' => some '\\'
  | _ => none

/-- The character that hexadecimal digits number. Halves of surrogate pairs are none. -/
def numbered? (digits : List Char) : Option Char :=
  match Hexadecimal.value? digits with
  | some n => if n.isValidChar then some (Char.ofNat n) else none
  | none => none

/-- A long text ends with three quotes; up to two more in front of them belong to it. -/
def longEnd? (quote : Char) (text : List Char) : Option (List Char × List Char) :=
  let quotes := (text.take 5).takeWhile (· == quote)
  if quotes.length < 3 then none else some (quotes.drop 3, text.drop quotes.length)

/-- Nothing but blanks is left of the line, and a line end follows. -/
def endsLine (text : List Char) : Bool := (readNewline (skipBlanks text)).isSome

/-- Reads behind an opening double quote, or three of them if the text is long; `done` holds the
characters so far, the last one first. Behind a backslash at the end of a line the text goes on
with the next character that is neither a blank nor a line end; `joining` is the way to there. -/
def readBasic (long joining : Bool) (done : List Char) :
    List Char → Option (List Char × List Char)
  | [] => none
  | '"' :: rest =>
    if long then
      match longEnd? '"' ('"' :: rest) with
      | some (quotes, rest) => some (done.reverse ++ quotes, rest)
      | none => readBasic long false ('"' :: done) rest
    else some (done.reverse, rest)
  | '\\' :: 'x' :: a :: b :: rest =>
    match numbered? [a, b] with
    | some c => readBasic long false (c :: done) rest
    | none => none
  | '\\' :: 'u' :: a :: b :: c :: d :: rest =>
    match numbered? [a, b, c, d] with
    | some c => readBasic long false (c :: done) rest
    | none => none
  | '\\' :: 'U' :: a :: b :: c :: d :: e :: f :: g :: h :: rest =>
    match numbered? [a, b, c, d, e, f, g, h] with
    | some c => readBasic long false (c :: done) rest
    | none => none
  | '\\' :: letter :: rest =>
    match escapeLetter? letter with
    | some c => readBasic long false (c :: done) rest
    | none => if long && endsLine (letter :: rest) then readBasic long true done rest else none
  | '\r' :: '\n' :: rest =>
    if long then readBasic long joining (if joining then done else '\n' :: done) rest else none
  | c :: rest =>
    if joining && (isTomlBlank c || c == '\n') then readBasic long true done rest
    else if (c == '\n' && long) || !(isControl c || c == '\\') then
      readBasic long false (c :: done) rest
    else none

/-- Reads behind an opening single quote, or three of them if the text is long. -/
def readLiteral (long : Bool) (done : List Char) : List Char → Option (List Char × List Char)
  | [] => none
  | '\'' :: rest =>
    if long then
      match longEnd? '\'' ('\'' :: rest) with
      | some (quotes, rest) => some (done.reverse ++ quotes, rest)
      | none => readLiteral long ('\'' :: done) rest
    else some (done.reverse, rest)
  | '\r' :: '\n' :: rest => if long then readLiteral long ('\n' :: done) rest else none
  | c :: rest =>
    if (c == '\n' && long) || !isControl c then readLiteral long (c :: done) rest else none

/-- A line end right behind the opening quotes is no part of a long text. -/
def dropNewline (text : List Char) : List Char := (readNewline text).getD text

/-- Reads a text, if one starts here. -/
def readText : List Char → Option (List Char × List Char)
  | '"' :: '"' :: '"' :: rest => readBasic true false [] (dropNewline rest)
  | '"' :: rest => readBasic false false [] rest
  | '\'' :: '\'' :: '\'' :: rest => readLiteral true [] (dropNewline rest)
  | '\'' :: rest => readLiteral false [] rest
  | _ => none

end SpriteBytecode.Toml
