import SpriteBytecode.Toml.Text

/-!
Keys of TOML: up to eighty names with points between them. A name is bare or a text of one line in
quotes.
-/

set_option autoImplicit false
set_option relaxedAutoImplicit false

namespace SpriteBytecode.Toml

structure Key where
  /-- The tables on the way. -/
  path : List String
  name : String
  deriving DecidableEq

def Key.names (key : Key) : List String := key.path ++ [key.name]

def isKeyChar (c : Char) : Bool := c.isAlphanum || c == '_' || c == '-'

def readName : List Char → Option (String × List Char)
  | '"' :: rest => (readBasic false false [] rest).map fun (name, rest) ↦ (String.ofList name, rest)
  | '\'' :: rest => (readLiteral false [] rest).map fun (name, rest) ↦ (String.ofList name, rest)
  | text =>
    match text.takeWhile isKeyChar with
    | [] => none
    | name => some (String.ofList name, text.dropWhile isKeyChar)

def nameLimit : Nat := 80

/-- Reads a key of at most `limit` names. -/
def readNames (limit : Nat) (text : List Char) : Option (Key × List Char) :=
  match limit with
  | 0 => none
  | limit + 1 =>
    match readName (skipBlanks text) with
    | none => none
    | some (name, rest) =>
      match skipBlanks rest with
      | '.' :: rest =>
        (readNames limit rest).map fun (key, rest) ↦ ({ key with path := name :: key.path }, rest)
      | rest => some (⟨[], name⟩, rest)

/-- Reads a key with the blanks around it. -/
def readKey (text : List Char) : Option (Key × List Char) := readNames nameLimit text

theorem length_names_readNames {limit : Nat} {text rest : List Char} {key : Key}
    (h : readNames limit text = some (key, rest)) : key.names.length ≤ limit := by
  induction limit generalizing text rest key with
  | zero => simp [readNames] at h
  | succ limit ih =>
    unfold readNames at h
    split at h
    · cases h
    · split at h
      · obtain ⟨⟨inner, rest⟩, hi, he⟩ := Option.map_eq_some_iff.mp h
        cases he
        simpa [Key.names] using ih hi
      · cases h
        simp [Key.names]

end SpriteBytecode.Toml
