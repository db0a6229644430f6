import SpriteBytecode.Json.Number
import SpriteBytecode.Text.Hexadecimal

/-!
Tokens of JSON: brackets, marks, words, numbers, and texts as they are written between their
quotes. The token of a text says only that its escapes are well formed; a text has a meaning if it
also holds no half of a surrogate pair by itself.
-/

set_option autoImplicit false
set_option relaxedAutoImplicit false

namespace SpriteBytecode

inductive JsonToken where
  | arrayStart
  | arrayEnd
  | objectStart
  | objectEnd
  | comma
  | colon
  | null
  | bool (value : Bool)
  | number (number : JsonNumber)
  | text (written : List Char)
  deriving DecidableEq

namespace JsonToken

def isJsonBlank (c : Char) : Bool := c == ' ' || c == '\n' || c == '\r' || c == '\t'

def hexUnit? (a b c d : Char) : Option Nat := Hexadecimal.value? [a, b, c, d]

/-- The character of a one-letter escape. -/
def escapeLetter? : Char → Option Char
  | '"' => some '"'
  | '\\' => some '\\'
  | '/' => some '/'
  | 'b' => some '\x08'
  | 'f' => some '\x0c'
  | 'n' => some '\n'
  | 'r' => some '\r'
  | 't' => some '\t'
  | _ => none

/-- Reads behind an opening quote up to the closing one; `done` holds the characters so far, the
last one first. Characters below the blank have to be escaped. -/
def readWritten (done : List Char) : List Char → Option (List Char × List Char)
  | [] => none
  | '"' :: rest => some (done.reverse, rest)
  | '\\' :: 'u' :: a :: b :: c :: d :: rest =>
    match hexUnit? a b c d with
    | some _ => readWritten (d :: c :: b :: a :: 'u' :: '\\' :: done) rest
    | none => none
  | '\\' :: letter :: rest =>
    match escapeLetter? letter with
    | some _ => readWritten (letter :: '\\' :: done) rest
    | none => none
  | c :: rest => if c.toNat < 0x20 || c == '\\' then none else readWritten (c :: done) rest

def isHighSurrogate (unit : Nat) : Bool := 0xD800 ≤ unit && unit < 0xDC00

def isLowSurrogate (unit : Nat) : Bool := 0xDC00 ≤ unit && unit < 0xE000

def joinSurrogates (high low : Nat) : Char :=
  Char.ofNat (0x10000 + (high - 0xD800) * 0x400 + (low - 0xDC00))

/-- What a written text means. -/
def meaningFrom? (done : List Char) : List Char → Option String
  | [] => some (String.ofList done.reverse)
  | '\\' :: 'u' :: a :: b :: c :: d :: rest =>
    match hexUnit? a b c d with
    | none => none
    | some unit =>
      if isLowSurrogate unit then none
      else if isHighSurrogate unit then
        match rest with
        | '\\' :: 'u' :: a :: b :: c :: d :: rest =>
          match hexUnit? a b c d with
          | none => none
          | some low =>
            if isLowSurrogate low then meaningFrom? (joinSurrogates unit low :: done) rest
            else none
        | _ => none
      else meaningFrom? (Char.ofNat unit :: done) rest
  | '\\' :: letter :: rest =>
    match escapeLetter? letter with
    | some c => meaningFrom? (c :: done) rest
    | none => none
  | c :: rest => meaningFrom? (c :: done) rest

def meaning? (written : List Char) : Option String := meaningFrom? [] written

def read : List Char → Option (JsonToken × List Char)
  | '[' :: rest => some (arrayStart, rest)
  | ']' :: rest => some (arrayEnd, rest)
  | '\x7b' :: rest => some (objectStart, rest)
  | '\x7d' :: rest => some (objectEnd, rest)
  | ',' :: rest => some (comma, rest)
  | ':' :: rest => some (colon, rest)
  | '"' :: rest => (readWritten [] rest).map fun (written, rest) ↦ (text written, rest)
  | 'n' :: 'u' :: 'l' :: 'l' :: rest => some (null, rest)
  | 't' :: 'r' :: 'u' :: 'e' :: rest => some (bool true, rest)
  | 'f' :: 'a' :: 'l' :: 's' :: 'e' :: rest => some (bool false, rest)
  | rest => (JsonNumber.read rest).map fun (written, rest) ↦ (number written, rest)

/-- Reads tokens up to the end of the text; `fuel` bounds their number. -/
def readAll (fuel : Nat) (done : List JsonToken) (text : List Char) : Option (List JsonToken) :=
  match fuel with
  | 0 => none
  | fuel + 1 =>
    match text.dropWhile isJsonBlank with
    | [] => some done.reverse
    | text =>
      match read text with
      | some (token, rest) => readAll fuel (token :: done) rest
      | none => none

def ofText? (text : String) : Option (List JsonToken) := readAll (text.length + 1) [] text.toList

end JsonToken

end SpriteBytecode
