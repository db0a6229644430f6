/-!
The opcode table. The high nibble of an instruction's first word is its opcode, the low twelve bits
are its first operand, and the opcode fixes how many words the instruction has. Signed operands of
twelve bits are read in two's complement.
-/

set_option autoImplicit false
set_option relaxedAutoImplicit false

namespace SpriteBytecode

inductive Opcode where
  | wait
  | setRaster
  | goto
  | setPosition
  | setRotation
  | setScale
  | setPalette
  | loop
  | extended
  deriving DecidableEq

namespace Opcode

def nibble : Opcode → UInt16
  | wait => 0
  | setRaster => 1
  | goto => 2
  | setPosition => 3
  | setRotation => 4
  | setScale => 5
  | setPalette => 6
  | loop => 7
  | extended => 8

def ofNibble? (nibble : UInt16) : Option Opcode :=
  match nibble.toNat with
  | 0 => some wait
  | 1 => some setRaster
  | 2 => some goto
  | 3 => some setPosition
  | 4 => some setRotation
  | 5 => some setScale
  | 6 => some setPalette
  | 7 => some loop
  | 8 => some extended
  | _ => none

def wordLen : Opcode → Nat
  | setScale | loop => 2
  | setRotation => 3
  | setPosition => 4
  | _ => 1

theorem ofNibble?_nibble (op : Opcode) : ofNibble? op.nibble = some op := by
  cases op <;> rfl

theorem eq_nibble_of_ofNibble? {n : UInt16} {op : Opcode} (h : ofNibble? n = some op) :
    n = op.nibble := by
  apply UInt16.toNat_inj.mp
  unfold ofNibble? at h
  split at h <;> simp_all <;> subst h <;> simp [nibble]

end Opcode

/-- The opcode nibble of an instruction's first word. -/
def opcodeOf (word : UInt16) : UInt16 := word / 0x1000

/-- The twelve operand bits of an instruction's first word. -/
def operandOf (word : UInt16) : UInt16 := word % 0x1000

def firstWord (op : Opcode) (operand : UInt16) : UInt16 := op.nibble * 0x1000 + operand

/-- The low twelve bits of a word as a signed number. -/
def signExtend12 (operand : UInt16) : Int16 := Int16.ofInt (Int.bmod operand.toNat 0x1000)

end SpriteBytecode
