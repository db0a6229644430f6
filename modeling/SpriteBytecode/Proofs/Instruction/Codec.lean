import SpriteBytecode.Instruction.Codec

/-!
The instruction codec is exact in both directions. What one instruction is written as is read back
as that instruction, whatever stands behind it (`decode_of_encode`); what an instruction is read
from is how it is written (`exists_encode_of_decode`), so no two spellings share a meaning. The
words of an instruction are as many as its length says (`length_of_encode`).
-/

set_option autoImplicit false
set_option relaxedAutoImplicit false

namespace SpriteBytecode

theorem map_eq_ok_iff {ε α β : Type} (f : α → β) (result : Except ε α) (b : β) :
    result.map f = .ok b ↔ ∃ a, result = .ok a ∧ f a = b := by
  cases result <;> simp [Except.map]

/-! ### First words -/

theorem toNat_nibble_le (op : Opcode) : op.nibble.toNat ≤ 8 := by
  cases op <;> decide

theorem toNat_operandOf (word : UInt16) : (operandOf word).toNat = word.toNat % 0x1000 := by
  rw [operandOf, UInt16.toNat_mod]
  rfl

theorem toNat_opcodeOf (word : UInt16) : (opcodeOf word).toNat = word.toNat / 0x1000 := by
  rw [opcodeOf, UInt16.toNat_div]
  rfl

theorem toNat_operandOf_lt (word : UInt16) : (operandOf word).toNat < 0x1000 := by
  rw [toNat_operandOf]
  omega

theorem toNat_firstWord (op : Opcode) {operand : UInt16} (h : operand.toNat < 0x1000) :
    (firstWord op operand).toNat = op.nibble.toNat * 0x1000 + operand.toNat := by
  have hop := toNat_nibble_le op
  have hunit : (0x1000 : UInt16).toNat = 0x1000 := rfl
  rw [firstWord, UInt16.toNat_add, UInt16.toNat_mul, hunit]
  omega

theorem opcodeOf_firstWord (op : Opcode) {operand : UInt16} (h : operand.toNat < 0x1000) :
    opcodeOf (firstWord op operand) = op.nibble := by
  apply UInt16.toNat_inj.mp
  rw [toNat_opcodeOf, toNat_firstWord op h]
  omega

theorem operandOf_firstWord (op : Opcode) {operand : UInt16} (h : operand.toNat < 0x1000) :
    operandOf (firstWord op operand) = operand := by
  apply UInt16.toNat_inj.mp
  rw [toNat_operandOf, toNat_firstWord op h]
  omega

/-- A word is its opcode and its operand put together again. -/
theorem firstWord_operandOf {word : UInt16} {op : Opcode}
    (h : Opcode.ofNibble? (opcodeOf word) = some op) : firstWord op (operandOf word) = word := by
  have hnibble := congrArg UInt16.toNat (Opcode.eq_nibble_of_ofNibble? h)
  rw [toNat_opcodeOf] at hnibble
  apply UInt16.toNat_inj.mp
  rw [toNat_firstWord op (toNat_operandOf_lt word), toNat_operandOf]
  omega

/-! ### Signed operands -/

theorem toInt_eq_bmod (value : Int16) : value.toInt = Int.bmod value.toUInt16.toNat 0x10000 := by
  rw [← Int16.toInt_toBitVec, BitVec.toInt_eq_toNat_bmod, Int16.toNat_toBitVec]

theorem toInt_signExtend12 (word : UInt16) :
    (signExtend12 word).toInt = Int.bmod word.toNat 0x1000 := by
  have hbmod : Int.bmod (Int.bmod word.toNat 0x1000) Int16.size = Int.bmod word.toNat 0x1000 := by
    have hsize : Int16.size = 0x10000 := rfl
    rw [hsize, Int.bmod_def, Int.bmod_def]
    omega
  exact Int16.toInt_ofInt.trans hbmod

theorem signExtend12_range (word : UInt16) :
    -0x800 ≤ (signExtend12 word).toInt ∧ (signExtend12 word).toInt < 0x800 := by
  rw [toInt_signExtend12, Int.bmod_def]
  omega

theorem signExtend12_firstWord (op : Opcode) {value : Int16}
    (h : -0x800 ≤ value.toInt ∧ value.toInt < 0x800) :
    signExtend12 (firstWord op (operandOf value.toUInt16)) = value := by
  have hvalue := value.toUInt16.toNat_lt
  apply Int16.toInt_inj.mp
  rw [toInt_signExtend12, toNat_firstWord op (toNat_operandOf_lt _), toNat_operandOf]
  rw [toInt_eq_bmod, Int.bmod_def] at h ⊢
  rw [Int.bmod_def]
  omega

theorem operandOf_signExtend12 (word : UInt16) :
    operandOf (signExtend12 word).toUInt16 = operandOf word := by
  have hword := word.toNat_lt
  have hvalue := (signExtend12 word).toUInt16.toNat_lt
  have hsigned := toInt_signExtend12 word
  rw [toInt_eq_bmod, Int.bmod_def, Int.bmod_def] at hsigned
  apply UInt16.toNat_inj.mp
  rw [toNat_operandOf, toNat_operandOf]
  omega

/-! ### Operands of the extended opcode -/

/-- The operand of an extended word has the sub-opcode above the low byte. -/
theorem toNat_extendedOperand {subOpcode : UInt16} (h : subOpcode.toNat < 0x10) (value : UInt8) :
    (subOpcode * 0x100 + value.toUInt16).toNat = subOpcode.toNat * 0x100 + value.toNat := by
  have hvalue := value.toNat_lt
  have hunit : (0x100 : UInt16).toNat = 0x100 := rfl
  rw [UInt16.toNat_add, UInt16.toNat_mul, hunit, UInt8.toNat_toUInt16]
  omega

theorem toNat_extendedOperand_div {subOpcode : UInt16} (h : subOpcode.toNat < 0x10)
    (value : UInt8) :
    ((subOpcode * 0x100 + value.toUInt16) / 0x100).toNat = subOpcode.toNat := by
  have hvalue := value.toNat_lt
  have hunit : (0x100 : UInt16).toNat = 0x100 := rfl
  rw [UInt16.toNat_div, toNat_extendedOperand h, hunit]
  omega

theorem toUInt8_extendedOperand_mod {subOpcode : UInt16} (h : subOpcode.toNat < 0x10)
    (value : UInt8) :
    ((subOpcode * 0x100 + value.toUInt16) % 0x100).toUInt8 = value := by
  have hvalue := value.toNat_lt
  have hunit : (0x100 : UInt16).toNat = 0x100 := rfl
  apply UInt8.toNat_inj.mp
  rw [UInt16.toNat_toUInt8, UInt16.toNat_mod, toNat_extendedOperand h, hunit]
  omega

/-- An operand is its sub-opcode and its low byte put together again. -/
theorem extendedOperand_div_mod {operand subOpcode : UInt16} (h : operand.toNat < 0x1000)
    (hsub : (operand / 0x100).toNat = subOpcode.toNat) :
    subOpcode * 0x100 + (operand % 0x100).toUInt8.toUInt16 = operand := by
  have hunit : (0x100 : UInt16).toNat = 0x100 := rfl
  rw [UInt16.toNat_div, hunit] at hsub
  apply UInt16.toNat_inj.mp
  rw [toNat_extendedOperand (by omega), UInt16.toNat_toUInt8, UInt16.toNat_mod, hunit]
  omega

namespace ScaleMode

theorem operand_lt (mode : ScaleMode) : mode.operand.toNat < 0x1000 := by
  cases mode <;> decide

theorem ofOperand?_operand (mode : ScaleMode) : ofOperand? mode.operand = some mode := by
  cases mode <;> rfl

theorem eq_operand_of_ofOperand? {operand : UInt16} {mode : ScaleMode}
    (h : ofOperand? operand = some mode) : operand = mode.operand := by
  apply UInt16.toNat_inj.mp
  unfold ofOperand? at h
  split at h <;> simp_all <;> subst h <;> simp [ScaleMode.operand]

end ScaleMode

/-! ### Whole instructions -/

namespace Instruction

theorem unsignedOperand_eq_ok_iff (name : String) (value operand : UInt16) :
    unsignedOperand name value = .ok operand ↔ value.toNat < 0x1000 ∧ operand = value := by
  unfold unsignedOperand
  split
  · next hlt => simp [hlt, eq_comm]
  · next hle => simp [hle]

theorem signedOperand_eq_ok_iff (name : String) (value : Int16) (operand : UInt16) :
    signedOperand name value = .ok operand ↔
      (-0x800 ≤ value.toInt ∧ value.toInt < 0x800) ∧ operand = operandOf value.toUInt16 := by
  unfold signedOperand
  split
  · next hrange => simp [hrange, eq_comm]
  · next hrange => simp only [hrange, false_and, reduceCtorEq]

/-- The operands are read as the opcode of the first word says. -/
theorem decode_firstWord (op : Opcode) {operand : UInt16} (h : operand.toNat < 0x1000)
    (rest : List UInt16) :
    decode (firstWord op operand :: rest) = decodeOperands (firstWord op operand) op rest := by
  simp only [decode, opcodeOf_firstWord op h, Opcode.ofNibble?_nibble]

theorem decode_extendedWord {subOpcode : UInt16} (h : subOpcode.toNat < 0x10) (value : UInt8)
    (rest : List UInt16) :
    decode (extendedWord subOpcode value :: rest) =
      match subOpcode.toNat with
      | 0 => .ok (setUnknown value, rest)
      | 1 => .ok (setParent value, rest)
      | 2 => .ok (setNotify value, rest)
      | _ => .error (.unknownSubOpcode (extendedWord subOpcode value)) := by
  have hvalue := value.toNat_lt
  have hoperand : (subOpcode * 0x100 + value.toUInt16).toNat < 0x1000 := by
    rw [toNat_extendedOperand h]
    omega
  have hdecode := decode_firstWord .extended hoperand rest
  rw [decodeOperands, operandOf_firstWord _ hoperand, toNat_extendedOperand_div h,
    toUInt8_extendedOperand_mod h] at hdecode
  exact hdecode

/-- What an instruction is written as is read back as that instruction, and nothing behind it is
touched. -/
theorem decode_of_encode {i : RawInstruction} {words : List UInt16} (h : i.encode = .ok words)
    (hlabel : i.isLabel = false) (rest : List UInt16) :
    decode (words ++ rest) = .ok (i, rest) := by
  cases i with
  | wait | goto | loop =>
    obtain ⟨operand, hoperand, rfl⟩ := (map_eq_ok_iff _ _ _).mp h
    obtain ⟨hlt, rfl⟩ := (unsignedOperand_eq_ok_iff _ _ _).mp hoperand
    simp [decode_firstWord _ hlt, decodeOperands, operandOf_firstWord _ hlt]
  | setRaster | setRotation | setPalette =>
    obtain ⟨operand, hoperand, rfl⟩ := (map_eq_ok_iff _ _ _).mp h
    obtain ⟨hrange, rfl⟩ := (signedOperand_eq_ok_iff _ _ _).mp hoperand
    simp [decode_firstWord _ (toNat_operandOf_lt _), decodeOperands,
      signExtend12_firstWord _ hrange]
  | setPosition flag x y z =>
    cases h
    cases flag
    · have hflag : (0 : UInt16).toNat < 0x1000 := by decide
      simp [decode_firstWord _ hflag, decodeOperands, operandOf_firstWord _ hflag]
    · have hflag : (1 : UInt16).toNat < 0x1000 := by decide
      simp [decode_firstWord _ hflag, decodeOperands, operandOf_firstWord _ hflag]
  | setScale mode percent =>
    cases h
    simp [decode_firstWord _ mode.operand_lt, decodeOperands,
      operandOf_firstWord _ mode.operand_lt, ScaleMode.ofOperand?_operand]
  | setUnknown value | setParent value | setNotify value =>
    cases h
    exact decode_extendedWord (by decide) value rest
  | label target => simp [isLabel] at hlabel

/-- Decoded operands are written again behind the opcode that they were decoded for. -/
theorem encode_of_decodeOperands {word : UInt16} {op : Opcode} {tail rest : List UInt16}
    {i : RawInstruction} (h : decodeOperands word op tail = .ok (i, rest)) :
    ∃ operands, i.encode = .ok (firstWord op (operandOf word) :: operands) ∧
      tail = operands ++ rest := by
  have hlt := toNat_operandOf_lt word
  have hunsigned (name : String) :
      unsignedOperand name (operandOf word) = .ok (operandOf word) :=
    (unsignedOperand_eq_ok_iff _ _ _).mpr ⟨hlt, rfl⟩
  have hsigned (name : String) :
      signedOperand name (signExtend12 word) = .ok (operandOf word) :=
    (signedOperand_eq_ok_iff _ _ _).mpr
      ⟨signExtend12_range word, (operandOf_signExtend12 word).symm⟩
  unfold decodeOperands at h
  split at h
  · cases h
    exact ⟨[], by rw [encode, hunsigned]; rfl, rfl⟩
  · cases h
    exact ⟨[], by rw [encode, hsigned]; rfl, rfl⟩
  · cases h
    exact ⟨[], by rw [encode, hunsigned]; rfl, rfl⟩
  · next x y z _ =>
    split at h
    · next hflag =>
      have hoperand : operandOf word = 0 := UInt16.toNat_inj.mp hflag
      cases h
      exact ⟨_, by rw [hoperand]; rfl, rfl⟩
    · next hflag =>
      have hoperand : operandOf word = 1 := UInt16.toNat_inj.mp hflag
      cases h
      exact ⟨_, by rw [hoperand]; rfl, rfl⟩
    · cases h
  · cases h
    exact ⟨_, by rw [encode, hsigned]; rfl, rfl⟩
  · split at h
    · next mode hmode =>
      cases h
      exact ⟨_, by rw [encode, ← ScaleMode.eq_operand_of_ofOperand? hmode], rfl⟩
    · cases h
  · cases h
    exact ⟨[], by rw [encode, hsigned]; rfl, rfl⟩
  · cases h
    exact ⟨_, by rw [encode, hunsigned]; rfl, rfl⟩
  · have hextended (subOpcode : UInt16)
        (hsub : (operandOf word / 0x100).toNat = subOpcode.toNat) :
        extendedWord subOpcode (operandOf word % 0x100).toUInt8 =
          firstWord .extended (operandOf word) := by
      rw [extendedWord, extendedOperand_div_mod hlt hsub]
    dsimp only at h
    split at h
    · next hsub =>
      cases h
      exact ⟨[], by rw [encode, hextended 0 hsub], rfl⟩
    · next hsub =>
      cases h
      exact ⟨[], by rw [encode, hextended 1 hsub], rfl⟩
    · next hsub =>
      cases h
      exact ⟨[], by rw [encode, hextended 2 hsub], rfl⟩
    · cases h
  · cases h

theorem isLabel_of_decodeOperands {word : UInt16} {op : Opcode} {tail rest : List UInt16}
    {i : RawInstruction} (h : decodeOperands word op tail = .ok (i, rest)) :
    i.isLabel = false := by
  have hlen := (wordLen_of_decodeOperands h).1
  have hpos : 0 < op.wordLen := by cases op <;> decide
  rw [← Bool.not_eq_true, ← wordLen_eq_zero_iff]
  omega

/-- What an instruction is read from is how it is written. -/
theorem exists_encode_of_decode {words rest : List UInt16} {i : RawInstruction}
    (h : decode words = .ok (i, rest)) :
    ∃ front, i.encode = .ok front ∧ i.isLabel = false ∧ words = front ++ rest := by
  cases words with
  | nil => simp [decode] at h
  | cons word tail =>
    simp only [decode] at h
    split at h
    · simp at h
    · next op hop =>
      obtain ⟨operands, hencode, rfl⟩ := encode_of_decodeOperands h
      rw [firstWord_operandOf hop] at hencode
      exact ⟨_, hencode, isLabel_of_decodeOperands h, rfl⟩

theorem length_of_encode {i : RawInstruction} {words : List UInt16} (h : i.encode = .ok words) :
    words.length = i.wordLen := by
  by_cases hlabel : i.isLabel = false
  · have hdecode := length_of_decode (decode_of_encode h hlabel [])
    simpa using hdecode
  · cases i with
    | label target => cases h; rfl
    | _ => simp [isLabel] at hlabel

end Instruction

end SpriteBytecode
