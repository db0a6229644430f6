/-!
Animation instructions. An instruction is parametric in what its jumps point at: word positions
when it comes straight from a stream, label handles when it stands in an editable list.
-/

set_option autoImplicit false
set_option relaxedAutoImplicit false

namespace SpriteBytecode

/-- Which axes a scale instruction sets. -/
inductive ScaleMode where
  | uniform
  | x
  | y
  | z
  deriving DecidableEq

inductive Instruction (τ : Type) where
  | wait (count : UInt16)
  | setRaster (index : Int16)
  | goto (target : τ)
  | setPosition (flag : Bool) (x y z : Int16)
  | setRotation (x y z : Int16)
  | setScale (mode : ScaleMode) (percent : Int16)
  | setPalette (index : Int16)
  | loop (target : τ) (count : Int16)
  | setUnknown (value : UInt8)
  | setParent (index : UInt8)
  | setNotify (value : UInt8)
  /-- A zero-width jump destination; no stream holds one. -/
  | label (target : τ)
  deriving DecidableEq

/-- Jumps give the absolute position of a word in the stream. -/
abbrev RawInstruction := Instruction UInt16

/-- How long a wait with a stored count of zero lasts. -/
def maxWait : UInt16 := 4095

namespace Instruction

variable {τ υ : Type}

/-- Stream words that the instruction takes up. -/
def wordLen : Instruction τ → Nat
  | label _ => 0
  | setScale .. | loop .. => 2
  | setRotation .. => 3
  | setPosition .. => 4
  | _ => 1

def name : Instruction τ → String
  | wait _ => "Wait"
  | setRaster _ => "Set Raster"
  | goto _ => "Goto"
  | setPosition .. => "Set Position"
  | setRotation .. => "Set Rotation"
  | setScale .. => "Set Scale"
  | setPalette _ => "Set Palette"
  | loop .. => "Loop"
  | setUnknown _ => "Set Unknown"
  | setParent _ => "Set Parent"
  | setNotify _ => "Set Notify"
  | label _ => "Label"

def isLabel : Instruction τ → Bool
  | label _ => true
  | _ => false

def jumpTarget? : Instruction τ → Option τ
  | goto target | loop target _ => some target
  | _ => none

/-- How long a wait really lasts. -/
def effectiveWait? : Instruction τ → Option UInt16
  | wait count => some (if count = 0 then maxWait else count)
  | _ => none

/-- Applies `f` to the jump target, or to the handle of a label marker. -/
def mapTarget (f : τ → υ) : Instruction τ → Instruction υ
  | wait count => wait count
  | setRaster index => setRaster index
  | goto target => goto (f target)
  | setPosition flag x y z => setPosition flag x y z
  | setRotation x y z => setRotation x y z
  | setScale mode percent => setScale mode percent
  | setPalette index => setPalette index
  | loop target count => loop (f target) count
  | setUnknown value => setUnknown value
  | setParent index => setParent index
  | setNotify value => setNotify value
  | label target => label (f target)

/-- As `mapTarget`, where looking a target up can fail. -/
def mapTargetM {ε : Type} (f : τ → Except ε υ) : Instruction τ → Except ε (Instruction υ)
  | goto target => (f target).map goto
  | loop target count => (f target).map (loop · count)
  | label target => (f target).map label
  | wait count => .ok (wait count)
  | setRaster index => .ok (setRaster index)
  | setPosition flag x y z => .ok (setPosition flag x y z)
  | setRotation x y z => .ok (setRotation x y z)
  | setScale mode percent => .ok (setScale mode percent)
  | setPalette index => .ok (setPalette index)
  | setUnknown value => .ok (setUnknown value)
  | setParent index => .ok (setParent index)
  | setNotify value => .ok (setNotify value)

@[simp] theorem wordLen_mapTarget (f : τ → υ) (i : Instruction τ) :
    (i.mapTarget f).wordLen = i.wordLen := by
  cases i <;> rfl

@[simp] theorem isLabel_mapTarget (f : τ → υ) (i : Instruction τ) :
    (i.mapTarget f).isLabel = i.isLabel := by
  cases i <;> rfl

@[simp] theorem jumpTarget?_mapTarget (f : τ → υ) (i : Instruction τ) :
    (i.mapTarget f).jumpTarget? = i.jumpTarget?.map f := by
  cases i <;> rfl

theorem wordLen_eq_zero_iff (i : Instruction τ) : i.wordLen = 0 ↔ i.isLabel = true := by
  cases i <;> simp [wordLen, isLabel]

end Instruction

end SpriteBytecode
