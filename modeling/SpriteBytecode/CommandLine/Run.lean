import SpriteBytecode.Assembly
import SpriteBytecode.CommandLine.Invocation
import SpriteBytecode.CommandLine.Report
import SpriteBytecode.CommandList.Listing
import SpriteBytecode.Json.Printer
import SpriteBytecode.Json.Reader
import SpriteBytecode.Label.Json
import SpriteBytecode.Playback.Json
import SpriteBytecode.Playback.Tick
import SpriteBytecode.Record.Export
import SpriteBytecode.Record.Import
import SpriteBytecode.Record.Json
import SpriteBytecode.Toml.Document

/-!
Carrying an invocation out. The first thing that goes wrong ends it: settings before the words of
the stream, the words before its hints, and these before the assets.
-/

set_option autoImplicit false
set_option relaxedAutoImplicit false

namespace SpriteBytecode.CommandLine

variable {α : Type}

def orFail (failure : Failure) : Option α → Run α
  | some value => pure value
  | none => throw failure

def readFile (directory : Directory) (path : String) (parse? : String → Option α) : Run α := do
  let text ← orFail (.unreadable path) (directory.read? path)
  orFail (.unparsable path) (parse? text)

/-- Where a settings file is looked for; it may be named without its extension. -/
def settingsPaths (path : String) : List String :=
  path :: (Directory.extend? ".toml" path).toList

/-- Variables of the environment override what the file says; without a file they count for
nothing. -/
def loadSettings (directory : Directory) (environment : List (String × String)) :
    Option String → Run Settings
  | none => pure {}
  | some path => do
    let text ← orFail (.unloadable path) ((settingsPaths path).findSome? directory.full?)
    let entries ← orFail (.unloadable path) (Toml.Document.parse? text)
    let settings ← orFail (.invalidSettings path none)
      (Settings.ofTree? (Settings.override environment (Settings.treeOf entries)))
    match settings.fault? with
    | some fault => throw (.invalidSettings path (some fault))
    | none => return settings

def loadStream (directory : Directory) (stream : StreamSource) : Run CommandList := do
  let words ←
    match StreamText.parse stream.words with
    | .ok words => pure words
    | .error fault => throw (.badWords fault)
  let hints ←
    match stream.hints? with
    | some path => readFile directory path LabelHints.parse?
    | none => pure .empty
  match disassemble words hints with
  | .ok list => return list
  | .error error => throw (.undecodable error)

def loadInventory (directory : Directory) : Option String → Run Inventory
  | some path => readFile directory path Inventory.parse?
  | none => pure .empty

def padLeft (width : Nat) (text : String) : String :=
  String.ofList (text.toList.leftpad width ' ')

def padRight (width : Nat) (text : String) : String :=
  String.ofList (text.toList.rightpad width ' ')

/-- Index, word offset, listing text and start time of a command. -/
def listingLine (index offset : Nat) (text : String) (time? : Option Nat) : String :=
  "  " ++ padLeft 3 (toString index) ++ " @" ++ Hexadecimal.padded 4 offset ++ "  "
    ++ padRight 32 text ++ " " ++ ((time?.map fun time ↦ "t=" ++ toString time).getD "")

def problemLine (problem : Problem) : String :=
  "        [" ++ problem.severity.name ++ "] " ++ problem.message

/-- The listing of a list, each command with its problem below it. -/
def listingLines (list : CommandList) (report : TimingReport) (assets : Assets)
    (owner? : Option Nat) : List String :=
  let labels := list.labelTable
  (list.commands.zip (list.wordOffsets.zip report.times)).zipIdx.flatMap
    fun ((command, offset, time?), index) ↦
      listingLine index offset (labels.describe command) time? ::
        ((labels.problem? assets owner? index command).map problemLine).toList

def runList (list : CommandList) (assets : Assets) (owner? : Option Nat) (settings : Settings) :
    Run Unit := do
  let report := analyzeTiming list settings.timing
  let diagnostics := list.validate assets owner?
  printLine ("Commands: " ++ toString list.length ++ " | words: " ++ toString list.wordLen)
  (listingLines list report assets owner?).forM printLine
  printLine ("Timing: total " ++ toString report.total ++ " (" ++ report.termination.name ++ ")")
  if diagnostics.any (·.severity == .error) then throw (.problems diagnostics.length)

def runAssemble (directory : Directory) (path : String) (assets? hintsOut? : Option String) :
    Run Unit := do
  let records ← readFile directory path CommandRecord.parseList?
  let inventory ← loadInventory directory assets?
  match assemble (.ofRecords records inventory.assets) with
  | .error error => throw (.unassemblable path error)
  | .ok assembled =>
    printLine (StreamText.format assembled.words)
    match hintsOut? with
    | some out => writeFile directory out assembled.hints.toJson.pretty
    | none => printLine assembled.hints.toJson.pretty

def tickLine (tick : Nat) (outcome : StepOutcome) (state : AnimationState) : String :=
  padLeft 4 (toString tick) ++ " " ++ outcome.name ++ " " ++ state.toJson.compact

/-- Plays and prints ticks from number `tick` on, at most `steps` of them, and stops at the end. -/
def runTicks (player : Player) (steps tick : Nat) (state : AnimationState) : Run Unit :=
  match steps with
  | 0 => pure ()
  | steps + 1 => do
    let (outcome, state) := player.advance state
    printLine (tickLine tick outcome state)
    if outcome = .ended then pure ()
    else runTicks player steps (tick + 1) state

def runAction (directory : Directory) (settings : Settings) : Action → Run Unit
  | .list stream assets? owner? => do
    let list ← loadStream directory stream
    runList list (← loadInventory directory assets?).assets owner? settings
  | .toRecords stream assets? => do
    let list ← loadStream directory stream
    let inventory ← loadInventory directory assets?
    printLine (CommandRecord.listToJson (list.toRecords inventory.assets)).pretty
  | .assemble records assets? hintsOut? => runAssemble directory records assets? hintsOut?
  | .time stream maxIterations? => do
    let list ← loadStream directory stream
    if maxIterations? = some 0 then throw .noIterations
    let config := (maxIterations?.map fun cap ↦ { maxIterations := cap }).getD settings.timing
    printLine (analyzeTiming list config).toJson.pretty
  | .play stream assets? steps correctedScale => do
    let list ← loadStream directory stream
    let inventory ← loadInventory directory assets?
    let config :=
      if correctedScale then { settings.playback with scaleYSetsZ := false }
      else settings.playback
    runTicks { program := list.program, assets := inventory.assets, config } steps 0 .initial

def Invocation.run (invocation : Invocation) (directory : Directory)
    (environment : List (String × String)) : Report :=
  .ofRun do
    let settings ← loadSettings directory environment invocation.settings?
    runAction directory settings invocation.action

end SpriteBytecode.CommandLine
