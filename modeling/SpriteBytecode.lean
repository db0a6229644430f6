import SpriteBytecode.Assembly
import SpriteBytecode.Assets
import SpriteBytecode.CommandLine.Directory
import SpriteBytecode.CommandLine.Invocation
import SpriteBytecode.CommandLine.Options
import SpriteBytecode.CommandLine.Report
import SpriteBytecode.CommandLine.Run
import SpriteBytecode.CommandList.Basic
import SpriteBytecode.CommandList.Edit
import SpriteBytecode.CommandList.LabelTable
import SpriteBytecode.CommandList.Listing
import SpriteBytecode.CommandList.Program
import SpriteBytecode.Disassembly
import SpriteBytecode.Error
import SpriteBytecode.Instruction.Basic
import SpriteBytecode.Instruction.Codec
import SpriteBytecode.Instruction.Listing
import SpriteBytecode.Instruction.Opcode
import SpriteBytecode.Json.Number
import SpriteBytecode.Json.Outline
import SpriteBytecode.Json.Printer
import SpriteBytecode.Json.Reader
import SpriteBytecode.Json.Skip
import SpriteBytecode.Json.Token
import SpriteBytecode.Json.Value
import SpriteBytecode.Label.Hints
import SpriteBytecode.Label.Json
import SpriteBytecode.Label.Name
import SpriteBytecode.Label.Numbering
import SpriteBytecode.Log
import SpriteBytecode.Main
import SpriteBytecode.Playback.Config
import SpriteBytecode.Playback.Execution
import SpriteBytecode.Playback.Json
import SpriteBytecode.Playback.State
import SpriteBytecode.Playback.Tick
import SpriteBytecode.Proofs.Assembly.Destination
import SpriteBytecode.Proofs.Assembly.Encoding
import SpriteBytecode.Proofs.Assembly.Hints
import SpriteBytecode.Proofs.Assembly.Renumbering
import SpriteBytecode.Proofs.CommandList.Marker
import SpriteBytecode.Proofs.CommandList.Mirror
import SpriteBytecode.Proofs.CommandList.Place
import SpriteBytecode.Proofs.CommandList.Renumbering
import SpriteBytecode.Proofs.Disassembly.Acceptance
import SpriteBytecode.Proofs.Disassembly.Layout
import SpriteBytecode.Proofs.Disassembly.Reload
import SpriteBytecode.Proofs.Disassembly.RoundTrip
import SpriteBytecode.Proofs.Instruction.Codec
import SpriteBytecode.Proofs.Label.Name
import SpriteBytecode.Proofs.Playback.Clock
import SpriteBytecode.Proofs.Playback.Course
import SpriteBytecode.Proofs.Playback.DeepCopy
import SpriteBytecode.Proofs.Playback.Effect
import SpriteBytecode.Proofs.Playback.Mirror
import SpriteBytecode.Proofs.Playback.Renumbering
import SpriteBytecode.Proofs.Record.Pipeline
import SpriteBytecode.Proofs.Record.RoundTrip
import SpriteBytecode.Proofs.Stream.Boundary
import SpriteBytecode.Proofs.Stream.Spelling
import SpriteBytecode.Proofs.Timing.Simulation
import SpriteBytecode.Record.Basic
import SpriteBytecode.Record.Export
import SpriteBytecode.Record.Import
import SpriteBytecode.Record.Json
import SpriteBytecode.Settings.Basic
import SpriteBytecode.Settings.Path
import SpriteBytecode.Settings.Tree
import SpriteBytecode.Stream.Synthetic
import SpriteBytecode.Stream.Text
import SpriteBytecode.Text.Blank
import SpriteBytecode.Text.CodeRange
import SpriteBytecode.Text.Decimal
import SpriteBytecode.Text.GraphemeExtend
import SpriteBytecode.Text.Hexadecimal
import SpriteBytecode.Text.Invisible
import SpriteBytecode.Text.Lines
import SpriteBytecode.Text.Quoted
import SpriteBytecode.Timing.Report
import SpriteBytecode.Timing.Walk
import SpriteBytecode.Toml.Document
import SpriteBytecode.Toml.Key
import SpriteBytecode.Toml.Lexical
import SpriteBytecode.Toml.Moment
import SpriteBytecode.Toml.Number
import SpriteBytecode.Toml.Table
import SpriteBytecode.Toml.Text
import SpriteBytecode.Toml.Value
import SpriteBytecode.Validation
import SpriteBytecode.Proofs.Timing.Recurrence
import SpriteBytecode.Proofs.Playback.Session
import SpriteBytecode.Proofs.CommandList.Block
import SpriteBytecode.Proofs.Playback.Regrouping
import SpriteBytecode.Proofs.Timing.Block
import SpriteBytecode.Proofs.Record.NormalForm
import SpriteBytecode.Proofs.Validation.Report
import SpriteBytecode.Proofs.Playback.Transition
import SpriteBytecode.Proofs.Validation.Warning
import SpriteBytecode.Proofs.Assembly.Failure
import SpriteBytecode.Proofs.Assembly.Naming
import SpriteBytecode.Proofs.Validation.MissingLabel
import SpriteBytecode.Proofs.CommandList.Observer
import SpriteBytecode.Proofs.Disassembly.Placement
import SpriteBytecode.Proofs.Playback.Completion
import SpriteBytecode.Proofs.Disassembly.Direction
import SpriteBytecode.Proofs.Assembly.Encodability
import SpriteBytecode.Proofs.Assembly.Refusal
import SpriteBytecode.Proofs.Assembly.Relocation
import SpriteBytecode.Proofs.Playback.Countdown
import SpriteBytecode.Proofs.Playback.Ending
import SpriteBytecode.Proofs.Playback.Stall
import SpriteBytecode.Proofs.Disassembly.Recall
import SpriteBytecode.Proofs.Playback.Appearance
import SpriteBytecode.Proofs.Timing.Chronology
import SpriteBytecode.Proofs.Record.Resolution
import SpriteBytecode.Proofs.Record.Parent
import SpriteBytecode.Proofs.Instruction.Buffer
import SpriteBytecode.Proofs.Stream.Frames
import SpriteBytecode.Proofs.Stream.Jumps
import SpriteBytecode.Proofs.Stream.HexCodec
import SpriteBytecode.Proofs.Label.Escape
