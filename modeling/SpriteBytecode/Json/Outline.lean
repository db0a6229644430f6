import SpriteBytecode.Json.Skip

/-!
Objects of which only some members matter. The outline of an object gives every member with its
name as it is written and the tokens from its value on; the values that nobody asks for are only
skipped.
-/

set_option autoImplicit false
set_option relaxedAutoImplicit false

namespace SpriteBytecode.Json

/-- A member by its written name and the tokens from its value on. -/
abbrev Member := List Char × List JsonToken

/-- Reads the members of an object up to its closing brace, with which the text ends. -/
def outlineFrom (fuel : Nat) (done : List Member) (tokens : List JsonToken) :
    Option (List Member) :=
  match fuel with
  | 0 => none
  | fuel + 1 =>
    match tokens with
    | .text written :: .colon :: value =>
      match skip [] .value value with
      | some [.objectEnd] => some ((written, value) :: done).reverse
      | some (.comma :: rest) => outlineFrom fuel ((written, value) :: done) rest
      | _ => none
    | _ => none

def outline? (text : String) : Option (List Member) :=
  match JsonToken.ofText? text with
  | some [.objectStart, .objectEnd] => some []
  | some (.objectStart :: tokens) => outlineFrom (tokens.length + 1) [] tokens
  | _ => none

/-- The value of a member, if it is a text. -/
def textOf? : List JsonToken → Option String
  | .text written :: _ => JsonToken.meaning? written
  | _ => none

/-- The member, if its name is one of these. Its name has to have a meaning in any case. -/
def field? (names : List String) (member : Member) : Option (Option (String × Json)) :=
  match JsonToken.meaning? member.1 with
  | none => none
  | some name =>
    if names.contains name then (ofTokens? 1 member.2).map fun (value, _) ↦ some (name, value)
    else some none

/-- The members of an object that have one of these names. -/
def fields? (names : List String) (text : String) : Option JsonFields :=
  ((outline? text).bind (·.mapM (field? names))).map (·.filterMap id)

end SpriteBytecode.Json
