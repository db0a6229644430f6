import SpriteBytecode.Json.Token
import SpriteBytecode.Json.Value

/-!
Reading JSON values. The whole text has to be one value. Numbers that no double can hold, halves
of surrogate pairs and values nested too deeply are refused.
-/

set_option autoImplicit false
set_option relaxedAutoImplicit false

namespace SpriteBytecode.Json

/-- Arrays and objects may be nested this deeply. -/
def nestingLimit : Nat := 127

def ofNumber? (number : JsonNumber) : Option Json :=
  match number.integer? with
  | some value => some (.integer value)
  | none => if number.isFinite then some (.decimal number) else none

mutual

/-- Reads one value. Every call uses up one unit of `fuel`, of which the number of tokens is
enough; `depth` is what is left of the nesting limit. -/
def readValue (fuel depth : Nat) (tokens : List JsonToken) : Option (Json × List JsonToken) :=
  match fuel with
  | 0 => none
  | fuel + 1 =>
    match tokens with
    | .null :: rest => some (.null, rest)
    | .bool value :: rest => some (.bool value, rest)
    | .number number :: rest => (ofNumber? number).map (·, rest)
    | .text written :: rest => (JsonToken.meaning? written).map fun text ↦ (.string text, rest)
    | .arrayStart :: rest =>
      match depth with
      | 0 => none
      | depth + 1 =>
        match rest with
        | .arrayEnd :: rest => some (.array [], rest)
        | rest => (readItems fuel depth rest).map fun (items, rest) ↦ (.array items, rest)
    | .objectStart :: rest =>
      match depth with
      | 0 => none
      | depth + 1 =>
        match rest with
        | .objectEnd :: rest => some (.object [], rest)
        | rest => (readMembers fuel depth rest).map fun (members, rest) ↦ (.object members, rest)
    | _ => none

/-- Reads the items of an array up to its closing bracket. -/
def readItems (fuel depth : Nat) (tokens : List JsonToken) :
    Option (List Json × List JsonToken) :=
  match fuel with
  | 0 => none
  | fuel + 1 =>
    match readValue fuel depth tokens with
    | some (item, .arrayEnd :: rest) => some ([item], rest)
    | some (item, .comma :: rest) =>
      (readItems fuel depth rest).map fun (items, rest) ↦ (item :: items, rest)
    | _ => none

/-- Reads the members of an object up to its closing brace. -/
def readMembers (fuel depth : Nat) (tokens : List JsonToken) :
    Option (List (String × Json) × List JsonToken) :=
  match fuel with
  | 0 => none
  | fuel + 1 =>
    match tokens with
    | .text written :: .colon :: rest =>
      match JsonToken.meaning? written, readValue fuel depth rest with
      | some name, some (value, .objectEnd :: rest) => some ([(name, value)], rest)
      | some name, some (value, .comma :: rest) =>
        (readMembers fuel depth rest).map fun (members, rest) ↦ ((name, value) :: members, rest)
      | _, _ => none
    | _ => none

end

/-- The value that tokens start with, at a depth that lies `outer` levels inside. -/
def ofTokens? (outer : Nat) (tokens : List JsonToken) : Option (Json × List JsonToken) :=
  readValue (tokens.length + 1) (nestingLimit - outer) tokens

def parse? (text : String) : Option Json :=
  match (JsonToken.ofText? text).bind (ofTokens? 0) with
  | some (value, []) => some value
  | _ => none

end SpriteBytecode.Json
