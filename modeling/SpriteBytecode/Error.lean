import SpriteBytecode.Text.Hexadecimal

/-!
Why bytecode cannot be decoded or encoded, as causes, with one wording for each.
-/

set_option autoImplicit false
set_option relaxedAutoImplicit false

namespace SpriteBytecode

/-- Why no instruction starts at a place of a word stream. -/
inductive MalformedReason where
  | unknownOpcode (word : UInt16)
  | unknownSubOpcode (word : UInt16)
  | invalidScaleMode (word : UInt16)
  | invalidPositionFlag (word : UInt16)
  | truncated (needed available : Nat)
  deriving DecidableEq

namespace MalformedReason

def message : MalformedReason → String
  | unknownOpcode word => "unknown animation command " ++ Hexadecimal.padded 4 word.toNat
  | unknownSubOpcode word => "unknown 0x8 sub-command " ++ Hexadecimal.padded 4 word.toNat
  | invalidScaleMode word => "invalid scale command type " ++ Hexadecimal.padded 4 word.toNat
  | invalidPositionFlag word => "invalid position flag " ++ Hexadecimal.padded 4 word.toNat
  | truncated needed available =>
    "instruction needs " ++ toString needed ++ " words, only " ++ toString available ++ " left"

end MalformedReason

inductive BytecodeError where
  | malformedStream (offset : Nat) (reason : MalformedReason)
  | unresolvedLabel (name : String)
  | operandOutOfRange (instruction : String) (value : Int)
  deriving DecidableEq

namespace BytecodeError

def message : BytecodeError → String
  | malformedStream offset reason =>
    "Malformed stream at word " ++ toString offset ++ ": " ++ reason.message
  | unresolvedLabel name => "Unresolved label: " ++ name
  | operandOutOfRange instruction value =>
    instruction ++ " operand " ++ toString value ++ " does not fit its encoding"

end BytecodeError

end SpriteBytecode
