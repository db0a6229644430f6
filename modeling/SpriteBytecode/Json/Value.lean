import SpriteBytecode.Json.Number

/-!
JSON values. Integers are kept apart from other numbers by the way they are written, because a
field that takes integers takes no other number, not even one of integral value. Members of an
object stand in the order of the text, repetitions included.
-/

set_option autoImplicit false
set_option relaxedAutoImplicit false

namespace SpriteBytecode

inductive Json where
  | null
  | bool (value : Bool)
  | integer (value : Int)
  /-- A number with a fraction or an exponent, a negative zero, or an integer too wide to be one. -/
  | decimal (number : JsonNumber)
  | string (value : String)
  | array (items : List Json)
  | object (members : List (String × Json))

namespace Json

def ofNat (n : Nat) : Json := integer n

def ofInt16 (n : Int16) : Json := integer n.toInt

/-- Nothing is written as `null`. -/
def ofOption {α : Type} (encode : α → Json) : Option α → Json
  | none => null
  | some value => encode value

def asText? : Json → Option String
  | string value => some value
  | _ => none

def asBool? : Json → Option Bool
  | bool value => some value
  | _ => none

/-- An integer between two bounds, the upper one excluded. -/
def asInt? (low high : Int) : Json → Option Int
  | integer value => if low ≤ value ∧ value < high then some value else none
  | _ => none

def asNat? (bound : Nat) (json : Json) : Option Nat := (json.asInt? 0 bound).map Int.toNat

def asUInt8? (json : Json) : Option UInt8 := (json.asNat? 0x100).map UInt8.ofNat

def asUInt16? (json : Json) : Option UInt16 := (json.asNat? 0x10000).map UInt16.ofNat

def asInt16? (json : Json) : Option Int16 := (json.asInt? (-0x8000) 0x8000).map Int16.ofInt

def asInt32? (json : Json) : Option Int32 :=
  (json.asInt? (-0x80000000) 0x80000000).map Int32.ofInt

/-- A count that a machine word of 64 bits can hold. -/
def asCount? (json : Json) : Option Nat := json.asNat? 0x10000000000000000

def asList? {α : Type} (decode : Json → Option α) : Json → Option (List α)
  | array items => items.mapM decode
  | _ => none

def asMembers? : Json → Option (List (String × Json))
  | object members => some members
  | _ => none

/-- An object gives fields by name, and an array in the order of `names`, from the first on. -/
def asFields? (names : List String) : Json → Option (List (String × Json))
  | object members => some members
  | array items => if items.length ≤ names.length then some (names.zip items) else none
  | _ => none

end Json

/-- Members of an object, from which named fields are read. A field that is written twice is an
error, and members that nobody asks for are ignored. -/
abbrev JsonFields := List (String × Json)

namespace JsonFields

variable {α : Type}

def named (fields : JsonFields) (name : String) : List Json :=
  (fields.filter (·.1 == name)).map (·.2)

def required (fields : JsonFields) (name : String) (decode : Json → Option α) : Option α :=
  match fields.named name with
  | [value] => decode value
  | _ => none

def withDefault (fields : JsonFields) (name : String) (default : α) (decode : Json → Option α) :
    Option α :=
  match fields.named name with
  | [] => some default
  | [value] => decode value
  | _ => none

/-- A missing field and an explicit `null` both stand for nothing. -/
def nullable (fields : JsonFields) (name : String) (decode : Json → Option α) :
    Option (Option α) :=
  match fields.named name with
  | [] | [.null] => some none
  | [value] => (decode value).map some
  | _ => none

end JsonFields

end SpriteBytecode
