import SpriteBytecode.CommandLine.Directory
import SpriteBytecode.Error
import SpriteBytecode.Settings.Basic
import SpriteBytecode.Stream.Text
import SpriteBytecode.Text.Lines

/-!
What an invocation gives back: printed text, files to write, and the failure that ended it, if one
did. What was printed before a failure stands.
-/

set_option autoImplicit false
set_option relaxedAutoImplicit false

namespace SpriteBytecode.CommandLine

inductive Failure where
  | unloadable (path : String)
  | invalidSettings (path : String) (fault? : Option SettingsFault)
  | badWords (fault : StreamText.Fault)
  | unreadable (path : String)
  | unparsable (path : String)
  | unwritable (path : String)
  | undecodable (error : BytecodeError)
  | unassemblable (path : String) (error : BytecodeError)
  | noIterations
  /-- The listing shows this many problems, errors among them. -/
  | problems (count : Nat)
  deriving DecidableEq

namespace Failure

def message : Failure → String
  | unloadable path => "Failed to load " ++ path
  | invalidSettings path _ => "Invalid settings in " ++ path
  | badWords (.unevenDigits count) =>
    "Word stream must have four hex digits per word, got " ++ toString count ++ " digits"
  | badWords .notHexadecimal => "Word stream is not valid hex"
  | unreadable path => "Failed to read " ++ path
  | unparsable path => "Failed to parse " ++ path
  | unwritable path => "Failed to write " ++ path
  | undecodable _ => "Failed to disassemble word stream"
  | unassemblable path _ => "Failed to assemble " ++ path
  | noIterations => "max-iterations must be greater than zero"
  | problems count => "Stream has " ++ toString count ++ " problem(s)"

/-- What lies behind the failure, where it is one of the library's own errors. -/
def cause? : Failure → Option String
  | invalidSettings _ fault? => fault?.map SettingsFault.message
  | undecodable error | unassemblable _ error => some error.message
  | _ => none

/-- The failure as it is reported, with the cause below the message. -/
def lines (failure : Failure) : List String :=
  linesOf failure.message ++ (failure.cause?.map linesOf).getD []

end Failure

structure Output where
  /-- Printed texts, each of which ends a line. -/
  printed : Array String := #[]
  /-- Files by name, with their texts. -/
  written : List (String × String) := []

/-- A computation that prints and writes until it fails. -/
abbrev Run := ExceptT Failure (StateM Output)

def printLine (text : String) : Run Unit :=
  modify fun output ↦ { output with printed := output.printed.push text }

def writeFile (directory : Directory) (path text : String) : Run Unit :=
  match directory.write? path with
  | some (.file name) =>
    modify fun output ↦ { output with written := output.written ++ [(name, text)] }
  | some .output => printLine text
  | some .nowhere => pure ()
  | none => throw (.unwritable path)

structure Report where
  output : Output
  failure? : Option Failure

/-- The printed text as lines. -/
def Report.lines (report : Report) : List String :=
  report.output.printed.toList.flatMap linesOf

/-- Files that the run has added to those that were there. -/
def Report.created (report : Report) (files : List (String × String)) :
    List (String × String) :=
  report.output.written.filter fun (name, _) ↦ (files.lookup name).isNone

def Report.ofRun (run : Run Unit) : Report :=
  match run.run.run {} with
  | (.ok (), output) => ⟨output, none⟩
  | (.error failure, output) => ⟨output, some failure⟩

end SpriteBytecode.CommandLine
