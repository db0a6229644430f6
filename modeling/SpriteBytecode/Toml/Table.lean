import SpriteBytecode.Settings.Tree
import SpriteBytecode.Toml.Key

/-!
Tables of a TOML document while it is being read. A table remembers how it came about,
because that decides who may add to it: every value is defined once, a header opens a table once,
and dotted keys extend only tables that no header has opened, which none may open from then on.
-/

set_option autoImplicit false
set_option relaxedAutoImplicit false

namespace SpriteBytecode.Toml

/-- How a table came about. -/
inductive Origin where
  /-- A header names it. -/
  | header
  /-- It is on the way to a table that a header names. -/
  | implied
  /-- It is on the way to a value with a dotted key, whatever made it. -/
  | dotted
  deriving DecidableEq

inductive Node where
  | value (setting : Setting)
  | table (origin : Origin) (entries : List (String × Node))
  /-- Tables under one name, of which the last is open and the others, the latest first, are
  complete. -/
  | series (earlier : List (List (String × Node))) (entries : List (String × Node))

abbrev Entries := List (String × Node)

mutual

def Node.toSetting : Node → Setting
  | .value setting => setting
  | .table _ entries => .table (entrySettings entries)
  | .series earlier entries => .list (earlierSettings earlier ++ [.table (entrySettings entries)])

def entrySettings : List (String × Node) → List (String × Setting)
  | [] => []
  | (name, node) :: rest => (name, node.toSetting) :: entrySettings rest

/-- The tables of a series in the order in which they were opened. -/
def earlierSettings : List (List (String × Node)) → List Setting
  | [] => []
  | entries :: rest => earlierSettings rest ++ [.table (entrySettings entries)]

end

namespace Entries

/-- Another node for a name that has one. -/
def replace (entries : Entries) (name : String) (node : Node) : Entries :=
  entries.map fun entry ↦ if entry.1 == name then (name, node) else entry

/-- Changes the entries of the table at the end of a path; tables that are not there yet are made
on the way. A series stands for its last table. Dotted keys do not go through tables with a header
of their own, and leave their mark on the others. -/
def alter? (dotted : Bool) (change : Origin → Entries → Option Entries) :
    List String → Origin → Entries → Option Entries
  | [], origin, entries => change origin entries
  | name :: path, _, entries =>
    match entries.lookup name with
    | none =>
      let origin := if dotted then Origin.dotted else .implied
      (alter? dotted change path origin []).map fun children ↦
        entries ++ [(name, .table origin children)]
    | some (.table origin children) =>
      if dotted && origin == .header then none
      else
        let origin := if dotted then Origin.dotted else origin
        (alter? dotted change path origin children).map fun children ↦
          entries.replace name (.table origin children)
    | some (.series earlier children) =>
      (alter? dotted change path .header children).map fun children ↦
        entries.replace name (.series earlier children)
    | some (.value _) => none

/-- Defines a value in a table or in tables below it. A dotted key has to end in a table with the
mark of dotted keys, which the last table of a series never has. -/
def define? (entries : Entries) (key : Key) (setting : Setting) : Option Entries :=
  alter? true (fun origin entries ↦
    if (origin == .dotted) == key.path.isEmpty then none
    else
      match entries.lookup key.name with
      | some _ => none
      | none => some (entries ++ [(key.name, .value setting)])) key.path .header entries

/-- Opens the table of a header, which must not have been opened yet. -/
def openTable? (entries : Entries) (key : Key) : Option Entries :=
  alter? false (fun _ entries ↦
    match entries.lookup key.name with
    | none => some (entries ++ [(key.name, .table .header [])])
    | some (.table .implied children) => some (entries.replace key.name (.table .header children))
    | some _ => none) key.path .header entries

/-- Opens a further table of a series. -/
def openNext? (entries : Entries) (key : Key) : Option Entries :=
  alter? false (fun _ entries ↦
    match entries.lookup key.name with
    | none => some (entries ++ [(key.name, .series [] [])])
    | some (.series earlier last) =>
      some (entries.replace key.name (.series (last :: earlier) []))
    | some _ => none) key.path .header entries

/-- Defines a value in the table that a header has opened. -/
def defineIn? (entries : Entries) (header : List String) (key : Key) (setting : Setting) :
    Option Entries :=
  alter? false (fun _ entries ↦ entries.define? key setting) header .header entries

end Entries

end SpriteBytecode.Toml
