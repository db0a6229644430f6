import SpriteBytecode.Json.Value
import SpriteBytecode.Playback.Config
import SpriteBytecode.Playback.State
import SpriteBytecode.Timing.Report
import SpriteBytecode.Validation

/-!
JSON forms of animation states, configurations, timing reports and diagnostics.
-/

set_option autoImplicit false
set_option relaxedAutoImplicit false

namespace SpriteBytecode

def Vec3.toJson (v : Vec3) : Json :=
  .object [("x", .integer v.x), ("y", .integer v.y), ("z", .integer v.z)]

def AnimationState.toJson (state : AnimationState) : Json :=
  .object
    [("cursor", .ofNat state.cursor),
      ("delay", .integer state.delay),
      ("repeat", .ofOption .integer state.repeats),
      ("parent", .ofOption .ofNat state.parent),
      ("raster", .ofOption .ofNat state.raster),
      ("palette", .ofOption .ofNat state.palette),
      ("position", state.position.toJson),
      ("rotation", state.rotation.toJson),
      ("scale", state.scale.toJson),
      ("complete", .bool state.complete),
      ("waited", .ofNat state.waited)]

namespace PlaybackConfig

/-- Fields that are missing have their defaults. -/
def ofJson? (json : Json) : Option PlaybackConfig := do
  let fields : JsonFields ← json.asFields? fieldNames
  let default : PlaybackConfig := {}
  return {
    maxIterations := ← fields.withDefault "max_iterations" default.maxIterations Json.asCount?
    ticksPerStep := ← fields.withDefault "ticks_per_step" default.ticksPerStep Json.asInt32?
    scaleYSetsZ := ← fields.withDefault "legacy_scale_fallthrough"
      default.scaleYSetsZ Json.asBool? }

def toJson (config : PlaybackConfig) : Json :=
  .object
    [("max_iterations", .ofNat config.maxIterations),
      ("ticks_per_step", .integer config.ticksPerStep.toInt),
      ("legacy_scale_fallthrough", .bool config.scaleYSetsZ)]

end PlaybackConfig

namespace TimingConfig

def ofJson? (json : Json) : Option TimingConfig := do
  let fields : JsonFields ← json.asFields? fieldNames
  return { maxIterations :=
    ← fields.withDefault "max_iterations" defaultMaxIterations Json.asCount? }

def toJson (config : TimingConfig) : Json :=
  .object [("max_iterations", .ofNat config.maxIterations)]

end TimingConfig

def TimingReport.toJson (report : TimingReport) : Json :=
  .object
    [("times", .array (report.times.map (Json.ofOption .ofNat))),
      ("total", .ofNat report.total),
      ("termination", .string report.termination.name)]

def Problem.toJson : Problem → Json
  | missingLabel name => .object [("MissingLabel", .string name)]
  | danglingRaster index => .object [("DanglingRaster", .ofInt16 index)]
  | danglingPalette index => .object [("DanglingPalette", .ofInt16 index)]
  | danglingParent index => .object [("DanglingParent", .ofNat index.toNat)]
  | selfParent => .string "SelfParent"
  | zeroWait => .string "ZeroWait"
  | oddWait count => .object [("OddWait", .ofNat count.toNat)]
  | forwardJump => .string "ForwardJump"

def Diagnostic.toJson (diagnostic : Diagnostic) : Json :=
  .object
    [("index", .ofNat diagnostic.index),
      ("severity", .string diagnostic.severity.name),
      ("kind", diagnostic.problem.toJson)]

end SpriteBytecode
