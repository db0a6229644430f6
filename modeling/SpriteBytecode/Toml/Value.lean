import SpriteBytecode.Toml.Moment
import SpriteBytecode.Toml.Number
import SpriteBytecode.Toml.Table

/-!
Values of TOML: texts, numbers, truth values, dates, lists and inline tables. Nothing can be added
to a list or an inline table later, so that they are settings as soon as they are read.
-/

set_option autoImplicit false
set_option relaxedAutoImplicit false

namespace SpriteBytecode.Toml

/-- Lists and inline tables may be nested this deeply. -/
def nestingLimit : Nat := 80

def isWordChar (c : Char) : Bool :=
  c.isAlphanum || c == '_' || c == '-' || c == '+' || c == '.' || c == ':'

def ofWord? (word : List Char) : Option Setting :=
  if word = "true".toList then some (.flag true)
  else if word = "false".toList then some (.flag false)
  else
    match readInteger word with
    | some value => some (.integer value)
    | none =>
      match readReal word with
      | some value => some (.real value)
      | none => if isMoment word then some (.text (String.ofList word)) else none

/-- Reads a value without quotes and brackets. Of those only a moment can hold a blank, between
its date and its time. -/
def readWord (text : List Char) : Option (Setting × List Char) :=
  let word := text.takeWhile isWordChar
  match readDate word, text.dropWhile isWordChar with
  | some [], ' ' :: c :: rest =>
    if c.isDigit then
      (ofWord? (word ++ ' ' :: (c :: rest).takeWhile isWordChar)).map
        (·, (c :: rest).dropWhile isWordChar)
    else (ofWord? word).map (·, ' ' :: c :: rest)
  | _, rest => (ofWord? word).map (·, rest)

mutual

/-- Reads one value. Every call uses up one unit of `fuel`, of which the length of the text is
enough; `depth` is what is left of the nesting limit. -/
def readValue (fuel depth : Nat) (text : List Char) : Option (Setting × List Char) :=
  match fuel with
  | 0 => none
  | fuel + 1 =>
    match text with
    | '[' :: rest =>
      match depth with
      | 0 => none
      | depth + 1 =>
        (readItems fuel depth [] rest).map fun (items, rest) ↦ (.list items, rest)
    | '\x7b' :: rest =>
      match depth with
      | 0 => none
      | depth + 1 =>
        (readEntries fuel depth [] rest).map fun (entries, rest) ↦
          (.table (entrySettings entries), rest)
    | text =>
      match readText text with
      | some (text, rest) => some (.text (String.ofList text), rest)
      | none => readWord text

/-- Reads the items of a list up to its closing bracket; a comma may stand behind the last. `done`
holds those before, the last one first. -/
def readItems (fuel depth : Nat) (done : List Setting) (text : List Char) :
    Option (List Setting × List Char) :=
  match fuel with
  | 0 => none
  | fuel + 1 =>
    match skipSpace false text with
    | ']' :: rest => some (done.reverse, rest)
    | text =>
      match readValue fuel depth text with
      | none => none
      | some (item, rest) =>
        match skipSpace false rest with
        | ',' :: rest => readItems fuel depth (item :: done) rest
        | ']' :: rest => some ((item :: done).reverse, rest)
        | _ => none

/-- Reads the entries of an inline table up to its closing brace, like the items of a list. Its
parts, keys and values taken as a whole, may stand on lines of their own. -/
def readEntries (fuel depth : Nat) (entries : Entries) (text : List Char) :
    Option (Entries × List Char) :=
  match fuel with
  | 0 => none
  | fuel + 1 =>
    match skipSpace false text with
    | '\x7d' :: rest => some (entries, rest)
    | text =>
      match readKey text with
      | none => none
      | some (key, rest) =>
        match skipSpace false rest with
        | '=' :: rest =>
          match readValue fuel depth (skipSpace false rest) with
          | none => none
          | some (setting, rest) =>
            match entries.define? key setting with
            | none => none
            | some entries =>
              match skipSpace false rest with
              | ',' :: rest => readEntries fuel depth entries rest
              | '\x7d' :: rest => some (entries, rest)
              | _ => none
        | _ => none

end

end SpriteBytecode.Toml
