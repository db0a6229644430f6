import SpriteBytecode.CommandLine.Options
import SpriteBytecode.Text.Decimal

/-!
What the command line is asked to do. Arguments that make no sense give no invocation at all.
-/

set_option autoImplicit false
set_option relaxedAutoImplicit false

namespace SpriteBytecode.CommandLine

/-- A word stream as text, and the file with its label hints. -/
structure StreamSource where
  words : String
  hints? : Option String

inductive Action where
  /-- List the commands of a stream. -/
  | list (stream : StreamSource) (assets? : Option String) (owner? : Option Nat)
  /-- Write a stream as records. -/
  | toRecords (stream : StreamSource) (assets? : Option String)
  /-- Assemble a file of records. -/
  | assemble (records : String) (assets? hintsOut? : Option String)
  /-- Print the timing of a stream. -/
  | time (stream : StreamSource) (maxIterations? : Option Nat)
  /-- Play a stream tick by tick. -/
  | play (stream : StreamSource) (assets? : Option String) (steps : Nat) (correctedScale : Bool)

structure Invocation where
  settings? : Option String
  action : Action

def settingsOption : OptionSpec := { long := "config", short := some 'c' }

def hintsOption : OptionSpec := { long := "hints" }

def assetsOption : OptionSpec := { long := "assets", short := some 'a' }

/-- The variable that names the settings file when no option does. -/
def settingsVariable : String := "SPRANIM_CONFIG"

/-- Ticks that are played when no number is given. -/
def defaultSteps : Nat := 16

def optionsOf : String → Option (List OptionSpec)
  | "disasm" => some [settingsOption, hintsOption, assetsOption, { long := "owner" }]
  | "export" => some [settingsOption, hintsOption, assetsOption]
  | "asm" => some [settingsOption, assetsOption, { long := "hints-out" }]
  | "timing" => some [settingsOption, hintsOption, { long := "max-iterations" }]
  | "play" =>
    some [settingsOption, hintsOption, assetsOption, { long := "steps", short := some 's' },
      { long := "corrected-scale", takesValue := false }]
  | _ => none

/-- A file name must not be empty. -/
def pathOf? (text : String) : Option String := if text.isEmpty then none else some text

/-- A count that fits in 64 bits. -/
def countOf? (text : String) : Option Nat :=
  (Decimal.natural? text).filter (· < 0x10000000000000000)

namespace Matches

variable {α : Type}

/-- The value of an option that may be missing, but must make sense if it is there. -/
def optional (found : Matches) (name : String) (decode : String → Option α) :
    Option (Option α) :=
  match found.value? name with
  | none => some none
  | some text => (decode text).map some

end Matches

def actionOf? (command : String) (found : Matches) : Option Action := do
  let [subject] := found.positionals | none
  let path? (name : String) : Option (Option String) := found.optional name pathOf?
  let stream? : Option StreamSource := do return ⟨subject, ← path? "hints"⟩
  match command with
  | "disasm" => return .list (← stream?) (← path? "assets") (← found.optional "owner" countOf?)
  | "export" => return .toRecords (← stream?) (← path? "assets")
  | "asm" => return .assemble (← pathOf? subject) (← path? "assets") (← path? "hints-out")
  | "timing" => return .time (← stream?) (← found.optional "max-iterations" countOf?)
  | "play" =>
    return .play (← stream?) (← path? "assets")
      ((← found.optional "steps" countOf?).getD defaultSteps) (found.isSet "corrected-scale")
  | _ => none

/-- The settings file: the option behind the command counts before the option in front of it, and
both before the environment, whose value has to make sense if it is looked at. -/
def settingsPath? (environment : List (String × String)) (outer inner : Matches) :
    Option (Option String) := do
  let outerPath ← outer.optional "config" pathOf?
  let innerPath ← inner.optional "config" pathOf?
  if outerPath.isSome && innerPath.isSome then return innerPath
  match environment.lookup settingsVariable with
  | none => return innerPath.or outerPath
  | some text =>
    let path ← pathOf? text
    return innerPath.or outerPath |>.or (some path)

def Invocation.parse? (environment : List (String × String)) (arguments : List String) :
    Option Invocation := do
  let (outer, rest) ← matchArguments [settingsOption] true arguments {}
  let command :: rest := rest | none
  let (inner, _) ← matchArguments (← optionsOf command) false rest {}
  return {
    settings? := ← settingsPath? environment outer inner
    action := ← actionOf? command inner }

end SpriteBytecode.CommandLine
