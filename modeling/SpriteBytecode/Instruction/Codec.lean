import SpriteBytecode.Error
import SpriteBytecode.Instruction.Basic
import SpriteBytecode.Instruction.Opcode

/-!
The instruction codec. Decoding takes one instruction off the front of a word list and returns the
rest; encoding gives the words of one instruction. What decodes is never shorter than one word, so
that repeated decoding ends.
-/

set_option autoImplicit false
set_option relaxedAutoImplicit false

namespace SpriteBytecode

namespace ScaleMode

def operand : ScaleMode → UInt16
  | uniform => 0
  | x => 1
  | y => 2
  | z => 3

def ofOperand? (operand : UInt16) : Option ScaleMode :=
  match operand.toNat with
  | 0 => some uniform
  | 1 => some x
  | 2 => some y
  | 3 => some z
  | _ => none

end ScaleMode

namespace Instruction

/-- Reads the operands behind an opcode. The words of the instruction have to be there before any
fault of its operands is reported. -/
def decodeOperands (word : UInt16) :
    Opcode → List UInt16 → Except MalformedReason (RawInstruction × List UInt16)
  | .wait, rest => .ok (wait (operandOf word), rest)
  | .setRaster, rest => .ok (setRaster (signExtend12 word), rest)
  | .goto, rest => .ok (goto (operandOf word), rest)
  | .setPosition, x :: y :: z :: rest =>
    match (operandOf word).toNat with
    | 0 => .ok (setPosition false x.toInt16 y.toInt16 z.toInt16, rest)
    | 1 => .ok (setPosition true x.toInt16 y.toInt16 z.toInt16, rest)
    | _ => .error (.invalidPositionFlag word)
  | .setRotation, y :: z :: rest =>
    .ok (setRotation (signExtend12 word) y.toInt16 z.toInt16, rest)
  | .setScale, percent :: rest =>
    match ScaleMode.ofOperand? (operandOf word) with
    | some mode => .ok (setScale mode percent.toInt16, rest)
    | none => .error (.invalidScaleMode word)
  | .setPalette, rest => .ok (setPalette (signExtend12 word), rest)
  | .loop, count :: rest => .ok (loop (operandOf word) count.toInt16, rest)
  | .extended, rest =>
    let value := (operandOf word % 0x100).toUInt8
    match (operandOf word / 0x100).toNat with
    | 0 => .ok (setUnknown value, rest)
    | 1 => .ok (setParent value, rest)
    | 2 => .ok (setNotify value, rest)
    | _ => .error (.unknownSubOpcode word)
  | op, rest => .error (.truncated op.wordLen (rest.length + 1))

/-- Takes one instruction off the front and returns the words behind it. -/
def decode : List UInt16 → Except MalformedReason (RawInstruction × List UInt16)
  | [] => .error (.truncated 1 0)
  | word :: rest =>
    match Opcode.ofNibble? (opcodeOf word) with
    | none => .error (.unknownOpcode word)
    | some op => decodeOperands word op rest

/-- An unsigned operand has to fit in twelve bits. -/
def unsignedOperand (instruction : String) (value : UInt16) : Except BytecodeError UInt16 :=
  if value.toNat < 0x1000 then .ok value
  else .error (.operandOutOfRange instruction value.toNat)

/-- A signed operand has to fit in twelve bits, the sign included. -/
def signedOperand (instruction : String) (value : Int16) : Except BytecodeError UInt16 :=
  if -0x800 ≤ value.toInt ∧ value.toInt < 0x800 then .ok (operandOf value.toUInt16)
  else .error (.operandOutOfRange instruction value.toInt)

def extendedWord (subOpcode : UInt16) (value : UInt8) : UInt16 :=
  firstWord .extended (subOpcode * 0x100 + value.toUInt16)

/-- The words of one instruction; a label has none. -/
def encode (i : RawInstruction) : Except BytecodeError (List UInt16) :=
  match i with
  | wait count => (unsignedOperand i.name count).map fun v ↦ [firstWord .wait v]
  | setRaster index => (signedOperand i.name index).map fun v ↦ [firstWord .setRaster v]
  | goto target => (unsignedOperand i.name target).map fun v ↦ [firstWord .goto v]
  | setPosition flag x y z =>
    .ok [firstWord .setPosition (if flag then 1 else 0), x.toUInt16, y.toUInt16, z.toUInt16]
  | setRotation x y z =>
    (signedOperand i.name x).map fun v ↦ [firstWord .setRotation v, y.toUInt16, z.toUInt16]
  | setScale mode percent => .ok [firstWord .setScale mode.operand, percent.toUInt16]
  | setPalette index => (signedOperand i.name index).map fun v ↦ [firstWord .setPalette v]
  | loop target count =>
    (unsignedOperand i.name target).map fun v ↦ [firstWord .loop v, count.toUInt16]
  | setUnknown value => .ok [extendedWord 0 value]
  | setParent index => .ok [extendedWord 1 index]
  | setNotify value => .ok [extendedWord 2 value]
  | label _ => .ok []

/-- Encodes behind the words already in `buffer`. -/
def encodeOnto (buffer : List UInt16) (i : RawInstruction) : Except BytecodeError (List UInt16) :=
  i.encode.map (buffer ++ ·)

theorem wordLen_of_decodeOperands {word : UInt16} {op : Opcode} {words rest : List UInt16}
    {i : RawInstruction} (h : decodeOperands word op words = .ok (i, rest)) :
    i.wordLen = op.wordLen ∧ words.length + 1 = i.wordLen + rest.length := by
  unfold decodeOperands at h
  repeat' split at h
  all_goals simp at h
  all_goals
    obtain ⟨rfl, rfl⟩ := h
    simp [wordLen, Opcode.wordLen]
    try omega

/-- A decoded instruction covers exactly the words that the rest lacks. -/
theorem length_of_decode {words rest : List UInt16} {i : RawInstruction}
    (h : decode words = .ok (i, rest)) : words.length = i.wordLen + rest.length := by
  cases words with
  | nil => simp [decode] at h
  | cons word tail =>
    simp only [decode] at h
    split at h
    · simp at h
    · exact (wordLen_of_decodeOperands h).2

theorem wordLen_pos_of_decode {words rest : List UInt16} {i : RawInstruction}
    (h : decode words = .ok (i, rest)) : 0 < i.wordLen := by
  cases words with
  | nil => simp [decode] at h
  | cons word tail =>
    simp only [decode] at h
    split at h
    · simp at h
    next op _ =>
      rw [(wordLen_of_decodeOperands h).1]
      cases op <;> simp [Opcode.wordLen]

theorem length_lt_of_decode {words rest : List UInt16} {i : RawInstruction}
    (h : decode words = .ok (i, rest)) : rest.length < words.length := by
  have := length_of_decode h
  have := wordLen_pos_of_decode h
  omega

end Instruction

end SpriteBytecode
