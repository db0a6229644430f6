import SpriteBytecode.CommandLine.Run

/-!
The command line program. It reads the files that the invocation names, carries the invocation out,
and shows what came of it.
-/

set_option autoImplicit false
set_option relaxedAutoImplicit false

open SpriteBytecode CommandLine

/-- Files that an invocation reads. -/
def SpriteBytecode.CommandLine.Invocation.inputs (invocation : Invocation) : List String :=
  invocation.settings?.toList.flatMap settingsPaths ++
    match invocation.action with
    | .list stream assets? _ | .toRecords stream assets? | .play stream assets? _ _ =>
      stream.hints?.toList ++ assets?.toList
    | .assemble records assets? _ => records :: assets?.toList
    | .time stream _ => stream.hints?.toList

/-- Variables that the program looks at. -/
def variableNames : List String :=
  [settingsVariable, "SPRANIM__PLAYBACK__MAX_ITERATIONS", "SPRANIM__PLAYBACK__TICKS_PER_STEP",
    "SPRANIM__PLAYBACK__LEGACY_SCALE_FALLTHROUGH", "SPRANIM__TIMING__MAX_ITERATIONS"]

def readEnvironment : IO (List (String × String)) :=
  variableNames.filterMapM fun name ↦ do
    return (← IO.getEnv name).map (name, ·)

def readInputs (paths : List String) : IO (List (String × String)) :=
  paths.filterMapM fun (path : String) ↦ do
    try return some (path, ← IO.FS.readFile path)
    catch _ => return none

def showFailure (failure : Failure) : IO UInt32 := do
  IO.eprintln ("Error: " ++ failure.message)
  match failure.cause? with
  | some cause => IO.eprintln ("\nCaused by:\n    " ++ cause)
  | none => pure ()
  return 1

def main (arguments : List String) : IO UInt32 := do
  let environment ← readEnvironment
  match Invocation.parse? environment arguments with
  | none =>
    IO.eprintln "error: invalid arguments"
    return 2
  | some invocation =>
    let files ← readInputs invocation.inputs
    let directory : Directory :=
      { read? := (List.lookup · files)
        full? := fun path ↦ if Directory.isDevice path then none else files.lookup path
        write? := some ∘ .file }
    let report := invocation.run directory environment
    report.output.printed.forM fun text ↦ IO.println text
    for (path, text) in report.output.written do
      try IO.FS.writeFile path text
      catch _ => return ← showFailure (.unwritable path)
    match report.failure? with
    | some failure => showFailure failure
    | none => return 0
