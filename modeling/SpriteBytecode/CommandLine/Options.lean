/-!
Grammar of command line arguments. An option has a long name and may have a letter; its value is
attached to it or stands in the next argument, which then must not look like an option. Two hyphens
alone end the options. Every option may be given once.
-/

set_option autoImplicit false
set_option relaxedAutoImplicit false

namespace SpriteBytecode.CommandLine

structure OptionSpec where
  long : String
  short : Option Char := none
  takesValue : Bool := true

/-- Options with their values, and the other arguments. A flag has an empty value. -/
structure Matches where
  options : List (String × String) := []
  positionals : List String := []

namespace Matches

def value? (found : Matches) (name : String) : Option String := found.options.lookup name

def isSet (found : Matches) (name : String) : Bool := (found.value? name).isSome

def addOption? (found : Matches) (name value : String) : Option Matches :=
  if found.isSet name then none
  else some { found with options := found.options ++ [(name, value)] }

def addPositionals (found : Matches) (arguments : List String) : Matches :=
  { found with positionals := found.positionals ++ arguments }

end Matches

/-- What an argument is, given the argument behind it. -/
inductive Reading where
  | positional
  | endOfOptions
  | option (name value : String)
  /-- The value is the next argument. -/
  | optionWithNext (name value : String)
  | refused

def looksLikeOption (argument : String) : Bool :=
  match argument.toList with
  | '-' :: _ :: _ => true
  | _ => false

def readOption (spec : Option OptionSpec) (attached next : Option String) : Reading :=
  match spec with
  | none => .refused
  | some spec =>
    match spec.takesValue, attached, next with
    | true, some value, _ => .option spec.long value
    | true, none, some value =>
      if looksLikeOption value then .refused else .optionWithNext spec.long value
    | false, none, _ => .option spec.long ""
    | _, _, _ => .refused

/-- The value behind an equals sign, if there is one. -/
def splitAssignment (text : List Char) : String × Option String :=
  let name := String.ofList (text.takeWhile (· != '='))
  match text.dropWhile (· != '=') with
  | [] => (name, none)
  | _ :: value => (name, some (String.ofList value))

/-- A value attached to a letter may have an equals sign in front. -/
def attachedValue : List Char → Option String
  | [] => none
  | '=' :: value => some (String.ofList value)
  | value => some (String.ofList value)

def readArgument (specs : List OptionSpec) (argument : String) (next : Option String) : Reading :=
  match argument.toList with
  | ['-', '-'] => .endOfOptions
  | '-' :: '-' :: text =>
    let (name, attached) := splitAssignment text
    readOption (specs.find? (·.long == name)) attached next
  | '-' :: letter :: rest =>
    readOption (specs.find? (·.short == some letter)) (attachedValue rest) next
  | _ => .positional

/-- Reads arguments up to the end, or up to the first positional if `leading` is set. The second
part is what was left unread. -/
def matchArguments (specs : List OptionSpec) (leading : Bool) :
    List String → Matches → Option (Matches × List String)
  | [], found => some (found, [])
  | argument :: rest, found =>
    match readArgument specs argument rest.head? with
    | .refused => none
    | .endOfOptions => if leading then none else some (found.addPositionals rest, [])
    | .positional =>
      if leading then some (found, argument :: rest)
      else matchArguments specs leading rest (found.addPositionals [argument])
    | .option name value =>
      match found.addOption? name value with
      | none => none
      | some found => matchArguments specs leading rest found
    | .optionWithNext name value =>
      match found.addOption? name value, rest with
      | some found, _ :: rest => matchArguments specs leading rest found
      | _, _ => none

end SpriteBytecode.CommandLine
