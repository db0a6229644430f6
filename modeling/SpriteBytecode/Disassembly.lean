import SpriteBytecode.CommandList.Basic
import SpriteBytecode.Instruction.Codec
import SpriteBytecode.Label.Name
import SpriteBytecode.Label.Numbering
import SpriteBytecode.Log

/-!
From a word stream to a command list. The stream is decoded from its start to its end, every
distinct jump target gets one label, numbered in the order in which the targets first occur, and
each label's marker goes in front of the first command that starts at the target or behind it. A
target at which no command starts has its label renamed to the escape that pins it.
-/

set_option autoImplicit false
set_option relaxedAutoImplicit false

namespace SpriteBytecode

/-- The instructions of a stream whose first word has position `offset`. -/
def decodeStream (offset : Nat) (words : List UInt16) :
    Except BytecodeError (List RawInstruction) :=
  match words with
  | [] => .ok []
  | word :: tail =>
    match _h : Instruction.decode (word :: tail) with
    | .error reason => .error (.malformedStream offset reason)
    | .ok (instruction, rest) =>
      (decodeStream (offset + instruction.wordLen) rest).map (instruction :: ·)
  termination_by words.length
  decreasing_by exact Instruction.length_lt_of_decode _h

/-- Distinct jump targets in the order of their first occurrence. -/
def jumpTargets (instructions : List RawInstruction) : List UInt16 :=
  Numbering.firsts (instructions.filterMap (·.jumpTarget?))

/-- A command starts at this word. -/
def startsAt (position : Nat) : List Command → Bool
  | [] => false
  | command :: rest =>
    position == 0 ||
      (command.wordLen ≤ position && startsAt (position - command.wordLen) rest)

/-- Puts the marker in front of the first command that starts at this word or behind it. -/
def insertMarker (marker : Command) (position : Nat) : List Command → List Command
  | [] => [marker]
  | command :: rest =>
    if position = 0 then marker :: command :: rest
    else command :: insertMarker marker (position - command.wordLen) rest

structure Disassembly where
  list : CommandList
  /-- Targets at which no command starts, in ascending order. -/
  escaped : List UInt16

namespace Disassembly

/-- Commands with jumps by label, and no marker yet. -/
def unmarked (hints : LabelHints) (instructions : List RawInstruction) : Disassembly :=
  let targets := jumpTargets instructions
  let numbering := Numbering.ofList targets
  { list :=
      { commands := instructions.map (·.mapTarget fun target ↦ ⟨numbering.number target⟩)
        labelNames := targets.map (LabelName.ofPosition hints) }
    escaped := [] }

def placeMarker (id : LabelId) (position : UInt16) (d : Disassembly) : Disassembly :=
  let commands := insertMarker (.label id) position.toNat d.list.commands
  if startsAt position.toNat d.list.commands then { d with list := { d.list with commands } }
  else
    { list :=
        { commands, labelNames := d.list.labelNames.set id.index (LabelName.escape position) }
      escaped := d.escaped ++ [position] }

/-- Markers are placed in ascending order of their targets. A marker that is already placed counts
as a command that starts where it stands. -/
def ofInstructions (hints : LabelHints) (instructions : List RawInstruction) : Disassembly :=
  let targets := jumpTargets instructions
  let numbering := Numbering.ofList targets
  (targets.mergeSort fun a b ↦ a.toNat ≤ b.toNat).foldl
    (fun d target ↦ d.placeMarker ⟨numbering.number target⟩ target) (unmarked hints instructions)

def ofStream (words : List UInt16) (hints : LabelHints) : Except BytecodeError Disassembly :=
  (decodeStream 0 words).map (ofInstructions hints)

def log (wordCount : Nat) (d : Disassembly) : List Log.Entry :=
  d.escaped.map (fun position ↦
    ⟨.debug, "Jump target 0x" ++ Hexadecimal.ofNat position.toNat
      ++ " does not start an instruction, label renamed to " ++ LabelName.escape position⟩)
  ++ [⟨.debug, "Disassembled " ++ toString wordCount ++ " words into "
      ++ toString d.list.length ++ " commands (" ++ toString d.list.labelNames.length
      ++ " labels)"⟩]

end Disassembly

/-- The command list of a stream, its labels named by `hints`. -/
def disassemble (words : List UInt16) (hints : LabelHints) : Except BytecodeError CommandList :=
  (Disassembly.ofStream words hints).map (·.list)

end SpriteBytecode
