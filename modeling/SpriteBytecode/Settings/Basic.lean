import SpriteBytecode.Playback.Config
import SpriteBytecode.Settings.Path

/-!
Settings of the command line: the playback and timing configurations, read from a settings file and
overridden by the environment. Values convert between numbers, booleans and texts where the text of
one is plain for the other.
-/

set_option autoImplicit false
set_option relaxedAutoImplicit false

namespace SpriteBytecode

namespace Setting

/-- Small letters for capital ones. Beyond ASCII only the Kelvin sign has an ASCII letter. -/
def lowerChar (c : Char) : Char := if c = '\u212A' then 'k' else c.toLower

def lower (text : String) : String := String.ofList (text.toList.map lowerChar)

/-- Truth values by name. -/
def truth? (text : String) : Option Bool :=
  if ["true", "on", "yes"].contains (lower text) then some true
  else if ["false", "off", "no"].contains (lower text) then some false
  else none

/-- A real number is rounded, a half away from zero, and stops at the ends of 64 bits. -/
def asInteger? : Setting → Option Int
  | integer value => some value
  | real value => some value.round.toInt64.toInt
  | flag value => some (if value then 1 else 0)
  | text value =>
    match truth? value with
    | some truth => some (if truth then 1 else 0)
    | none => Decimal.integer? value
  | blank | list _ | table _ => none

/-- A count of at most 64 bits. A text has no minus sign, not even for zero. -/
def asCount? (setting : Setting) : Option Nat :=
  let value :=
    match setting with
    | real value => some (value.round.toUInt64.toNat : Int)
    | text value =>
      match truth? value with
      | some truth => some (if truth then 1 else 0)
      | none => (Decimal.natural? value).map Int.ofNat
    | _ => setting.asInteger?
  (value.filter fun value ↦ 0 ≤ value && value < 0x10000000000000000).map Int.toNat

def asInt32? (setting : Setting) : Option Int32 :=
  let fits (value : Int) : Bool := -0x80000000 ≤ value && value < 0x80000000
  (setting.asInteger?.filter fits).map Int32.ofInt

def asBool? : Setting → Option Bool
  | integer value => some (value != 0)
  | real value => some (value != 0)
  | flag value => some value
  | text "1" => some true
  | text "0" => some false
  | text value => truth? value
  | blank | list _ | table _ => none

variable {α : Type}

/-- A field that is missing has its default. -/
def fieldOr (setting : Setting) (name : String) (default : α) (decode : Setting → Option α) :
    Option α :=
  match setting.child? name with
  | none => some default
  | some value => decode value

/-- A table gives fields by name, and a list in their order; what is left of the list is ignored. -/
def asFields? (names : List String) : Setting → Option Setting
  | table entries => some (table entries)
  | list items => some (table (names.zip items))
  | _ => none

end Setting

structure Settings where
  playback : PlaybackConfig := {}
  timing : TimingConfig := {}

/-- A setting that no playback can run with. -/
inductive SettingsFault where
  | ticksNotPositive (ticks : Int32)
  | noIterations
  deriving DecidableEq

def SettingsFault.message : SettingsFault → String
  | ticksNotPositive ticks =>
    "ticks_per_step must be greater than zero, got " ++ toString ticks.toInt
  | noIterations => "max_iterations must be greater than zero"

namespace Settings

def playbackOf? (tree : Setting) : Option PlaybackConfig := do
  let default : PlaybackConfig := {}
  let tree ← tree.asFields? PlaybackConfig.fieldNames
  return {
    maxIterations := ← tree.fieldOr "max_iterations" default.maxIterations Setting.asCount?
    ticksPerStep := ← tree.fieldOr "ticks_per_step" default.ticksPerStep Setting.asInt32?
    scaleYSetsZ := ← tree.fieldOr "legacy_scale_fallthrough"
      default.scaleYSetsZ Setting.asBool? }

def timingOf? (tree : Setting) : Option TimingConfig := do
  let tree ← tree.asFields? TimingConfig.fieldNames
  return { maxIterations :=
    ← tree.fieldOr "max_iterations" defaultMaxIterations Setting.asCount? }

def ofTree? (tree : Setting) : Option Settings := do
  return {
    playback := ← tree.fieldOr "playback" {} playbackOf?
    timing := ← tree.fieldOr "timing" {} timingOf? }

def fault? (settings : Settings) : Option SettingsFault :=
  if settings.playback.ticksPerStep.toInt ≤ 0 then
    some (.ticksNotPositive settings.playback.ticksPerStep)
  else if settings.playback.maxIterations = 0 ∨ settings.timing.maxIterations = 0 then
    some .noIterations
  else none

/-- Settings by the names that a file gives them; the names of the outermost table are paths. -/
def treeOf (entries : List (String × Setting)) : Setting :=
  entries.foldl (fun tree (key, value) ↦ tree.define key value) .blank

/-- What the names of overriding variables start with. -/
def variableStem : String := "spranim__"

/-- The path that a variable sets, in any case: two underscores in it stand for a point. -/
def overrideKey? (variableName : String) : Option String :=
  let name := Setting.lower variableName
  if name.startsWith variableStem then
    some (".".intercalate ((name.drop variableStem.length).toString.splitOn "__"))
  else none

def override (environment : List (String × String)) (tree : Setting) : Setting :=
  environment.foldl (fun tree (name, value) ↦
    match overrideKey? name with
    | some key => tree.define key (.text value)
    | none => tree) tree

end Settings

end SpriteBytecode
