/-!
The files that an invocation can reach. A flat directory holds files and no further directories, and
stands among directories of which only those are known that lead to it or to devices. A path is
followed step by step, so that a file or a device can be named in more than one way. Some devices
can be read, as an empty text, and some take whatever is written to them.
-/

set_option autoImplicit false
set_option relaxedAutoImplicit false

namespace SpriteBytecode.CommandLine

/-- Where a written text goes. -/
inductive Destination where
  | file (name : String)
  | output
  | nowhere
  deriving DecidableEq

structure Directory where
  /-- The text that is read from a path. -/
  read? : String → Option String
  /-- The text of a file, which is looked for under its full path; devices are no files. -/
  full? : String → Option String
  write? : String → Option Destination

namespace Directory

/-- Bytes that a name may have. -/
def nameLimit : Nat := 255

/-- Bytes that a path may have. -/
def pathLimit : Nat := 4095

/-- The place of a flat directory, as the names of the directories that lead to it. -/
def location : List String := ["tmp", "spriteworks"]

/-- The place of the devices. -/
def devices : List String := ["dev"]

/-- Known directories, each as the names that lead to it. -/
def known : List (List String) :=
  [[], devices, ["proc"], ["proc", "self"], location.dropLast, location]

/-- Follows one step of a path. -/
def step? (place : List String) (name : String) : Option (List String) :=
  if name == "" || name == "." then some place
  else if name == ".." then some place.dropLast
  else if place == ["proc", "self"] && name == "cwd" then some location
  else if known.contains (place ++ [name]) then some (place ++ [name])
  else none

/-- The directory that a path leads to, and the name there that it ends with. A path that ends with
a step leads to no file. -/
def follow? (path : String) : Option (List String × String) := do
  if pathLimit < path.utf8ByteSize then none
  let parts := path.splitOn "/"
  let name ← parts.getLast?
  if ["", ".", ".."].contains name || nameLimit < name.utf8ByteSize then none
  return (← parts.dropLast.foldlM step? (if path.startsWith "/" then [] else location), name)

def isDevice (path : String) : Bool := (follow? path).any (·.1 == devices)

/-- What is read from a device. -/
def deviceText? (name : String) : Option String :=
  if ["null", "stdin"].contains name then some "" else none

/-- Where a text goes that is written to a device. -/
def deviceDestination? (name : String) : Option Destination :=
  if name == "stdout" then some .output
  else if ["null", "zero", "random", "urandom", "stderr"].contains name then some .nowhere
  else none

/-- The full path of a path from a flat directory on. -/
def fullPath (path : String) : String :=
  if path.startsWith "/" then path else "/" ++ "/".intercalate location ++ "/" ++ path

/-- A point stands in the name, not only in front of it. -/
def hasExtension (name : String) : Bool := name.toList.tail.contains '.'

/-- The path with an extension behind its last name. Steps that lead nowhere are left out at its
end, unless they stand behind an extension. A step upwards takes no extension. -/
def extend? (extension path : String) : Option String :=
  let parts := path.splitOn "/"
  let kept := (parts.reverse.dropWhile fun part ↦ part == "." || part == "").reverse
  match kept.getLast? with
  | none | some ".." => none
  | some name =>
    if hasExtension name && kept.length < parts.length then none
    else some ("/".intercalate kept ++ extension)

/-- A flat directory with these files in it. What is written to the directory above is not seen
again. -/
def flat (files : List (String × String)) : Directory where
  read? path := do
    let (place, name) ← follow? path
    if place == location then files.lookup name
    else if place == devices then deviceText? name
    else none
  full? path := do
    let (place, name) ← follow? (fullPath path)
    if place == location then files.lookup name else none
  write? path := do
    let (place, name) ← follow? path
    if place == location then some (.file name)
    else if place == devices then deviceDestination? name
    else if place == location.dropLast then some .nowhere
    else none

end Directory

end SpriteBytecode.CommandLine
