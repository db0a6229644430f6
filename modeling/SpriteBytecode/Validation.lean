import SpriteBytecode.Assets
import SpriteBytecode.CommandList.LabelTable

/-!
Problems of a command list that stop neither its assembly nor its playback. Every command has at
most one problem, and problems are reported in list order.
-/

set_option autoImplicit false
set_option relaxedAutoImplicit false

namespace SpriteBytecode

inductive Severity where
  /-- It plays, but hardly as intended. -/
  | warning
  /-- It refers to something that does not exist. -/
  | error
  deriving DecidableEq

def Severity.name : Severity → String
  | warning => "Warning"
  | error => "Error"

inductive Problem where
  | missingLabel (name : String)
  | danglingRaster (index : Int16)
  | danglingPalette (index : Int16)
  | danglingParent (index : UInt8)
  | selfParent
  | zeroWait
  | oddWait (count : UInt16)
  | forwardJump
  deriving DecidableEq

namespace Problem

def severity : Problem → Severity
  | zeroWait | oddWait _ | forwardJump => .warning
  | _ => .error

def message : Problem → String
  | missingLabel name => "missing label " ++ name
  | danglingRaster index => "raster " ++ toString index.toInt ++ " does not exist"
  | danglingPalette index => "palette " ++ toString index.toInt ++ " does not exist"
  | danglingParent index => "parent component " ++ toString index.toNat ++ " does not exist"
  | selfParent => "parented to itself"
  | zeroWait => "zero duration plays as 4095"
  | oddWait count => "odd duration " ++ toString count.toNat
  | forwardJump => "jumps forward"

end Problem

/-- A problem and the index of the command that has it. -/
structure Diagnostic where
  index : Nat
  problem : Problem
  deriving DecidableEq

def Diagnostic.severity (diagnostic : Diagnostic) : Severity := diagnostic.problem.severity

def Diagnostic.message (diagnostic : Diagnostic) : String :=
  "[" ++ toString diagnostic.index ++ "] " ++ diagnostic.severity.name ++ ": "
    ++ diagnostic.problem.message

namespace LabelTable

def jumpProblem? (labels : LabelTable) (index : Nat) (target : LabelId) : Option Problem :=
  match labels.place? target with
  | none => some (.missingLabel ((labels.name? target).getD "?"))
  | some destination => if index < destination then some .forwardJump else none

/-- The problem of one command. `owner` is the component that the list belongs to, if known. -/
def problem? (labels : LabelTable) (assets : Assets) (owner : Option Nat) (index : Nat) :
    Command → Option Problem
  | .wait count =>
    if count = 0 then some .zeroWait
    else if count.toNat % 2 = 1 then some (.oddWait count)
    else none
  | .setRaster raster =>
    if 0 ≤ raster.toInt ∧ assets.resolve? .raster raster.toInt = none then
      some (.danglingRaster raster)
    else none
  | .setPalette palette =>
    if 0 ≤ palette.toInt ∧ assets.resolve? .palette palette.toInt = none then
      some (.danglingPalette palette)
    else none
  | .setParent parent =>
    if assets.resolve? .component parent.toNat = none then some (.danglingParent parent)
    else if owner = some parent.toNat then some .selfParent
    else none
  | .goto target | .loop target _ => labels.jumpProblem? index target
  | _ => none

def diagnosticsFrom (labels : LabelTable) (assets : Assets) (owner : Option Nat) (index : Nat) :
    List Command → List Diagnostic
  | [] => []
  | command :: rest =>
    match labels.problem? assets owner index command with
    | some problem =>
      ⟨index, problem⟩ :: labels.diagnosticsFrom assets owner (index + 1) rest
    | none => labels.diagnosticsFrom assets owner (index + 1) rest

end LabelTable

namespace CommandList

def validate (list : CommandList) (assets : Assets) (owner : Option Nat) : List Diagnostic :=
  list.labelTable.diagnosticsFrom assets owner 0 list.commands

end CommandList

end SpriteBytecode
