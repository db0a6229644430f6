import SpriteBytecode.Toml.Value

/-!
TOML documents: definitions of values, one to a line, below headers that say which table they
belong to. A document is refused as a whole if any part of it is.
-/

set_option autoImplicit false
set_option relaxedAutoImplicit false

namespace SpriteBytecode.Toml

/-- What has been read of a document. -/
structure Document where
  entries : Entries := []
  /-- The header that definitions stand below. -/
  header : List String := []

namespace Document

def openTable? (document : Document) (key : Key) : Option Document :=
  (document.entries.openTable? key).map fun entries ↦ ⟨entries, key.names⟩

def openNext? (document : Document) (key : Key) : Option Document :=
  (document.entries.openNext? key).map fun entries ↦ ⟨entries, key.names⟩

def define? (document : Document) (key : Key) (setting : Setting) : Option Document :=
  (document.entries.defineIn? document.header key setting).map fun entries ↦
    { document with entries }

/-- Reads a header or a definition; `fuel` bounds the size of its value. -/
def readStatement (fuel : Nat) (document : Document) (text : List Char) :
    Option (Document × List Char) :=
  match text with
  | '[' :: '[' :: rest =>
    match readKey rest with
    | some (key, ']' :: ']' :: rest) => (document.openNext? key).map (·, rest)
    | _ => none
  | '[' :: rest =>
    match readKey rest with
    | some (key, ']' :: rest) => (document.openTable? key).map (·, rest)
    | _ => none
  | text =>
    match readKey text with
    | some (key, '=' :: rest) =>
      match readValue fuel nestingLimit (skipBlanks rest) with
      | some (setting, rest) => (document.define? key setting).map (·, rest)
      | none => none
    | _ => none

/-- Reads the rest of a document; `fuel` bounds the number of statements and the size of each. -/
def readFrom (fuel : Nat) (document : Document) (text : List Char) : Option Document :=
  match fuel with
  | 0 => none
  | fuel + 1 =>
    match skipSpace false text with
    | [] => some document
    | text =>
      match readStatement (fuel + 1) document text with
      | none => none
      | some (document, rest) =>
        match readLineEnd rest with
        | none => none
        | some rest => readFrom fuel document rest

/-- Byte order marks, of which up to two may stand in front, are no part of the document. -/
def dropMarks : List Char → List Char
  | '\uFEFF' :: '\uFEFF' :: text => text
  | '\uFEFF' :: text => text
  | text => text

/-- The entries of the outermost table, in the order of their first mention. -/
def parse? (text : String) : Option (List (String × Setting)) :=
  (readFrom (text.length + 1) {} (dropMarks text.toList)).map fun document ↦
    entrySettings document.entries

end Document

end SpriteBytecode.Toml
