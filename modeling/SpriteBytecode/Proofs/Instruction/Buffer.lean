import SpriteBytecode.Proofs.Assembly.Refusal

/-!
Instructions written into a buffer word by word. Every word is appended when its own operand has
been checked, so that a refusal behind a word would leave that word in the buffer. No instruction is
refused behind its first word (`exists_checkedWords_of_error`), and writing is encoding behind the
words that are already there (`writeOnto_eq`): the buffer grows by the whole instruction or stays
as it is.
-/

set_option autoImplicit false
set_option relaxedAutoImplicit false

namespace SpriteBytecode

/-- Appends words in order, up to the first that is refused, and returns the buffer with what has
become of it. -/
def appendChecked (buffer : List UInt16) :
    List (Except BytecodeError UInt16) → Except BytecodeError Unit × List UInt16
  | [] => (.ok (), buffer)
  | .error error :: _ => (.error error, buffer)
  | .ok word :: rest => appendChecked (buffer ++ [word]) rest

theorem appendChecked_map_ok (buffer words : List UInt16) :
    appendChecked buffer (words.map .ok) = (.ok (), buffer ++ words) := by
  induction words generalizing buffer with
  | nil => rw [List.map_nil, appendChecked, List.append_nil]
  | cons word rest ih =>
    rw [List.map_cons, appendChecked, ih, List.append_assoc, List.singleton_append]

namespace Instruction

/-- The words of an instruction, each with the check of the operand that it holds. -/
def checkedWords (i : RawInstruction) : List (Except BytecodeError UInt16) :=
  match i with
  | wait count => [(unsignedOperand i.name count).map (firstWord .wait)]
  | setRaster index => [(signedOperand i.name index).map (firstWord .setRaster)]
  | goto target => [(unsignedOperand i.name target).map (firstWord .goto)]
  | setPosition flag x y z =>
    [.ok (firstWord .setPosition (if flag then 1 else 0)), .ok x.toUInt16, .ok y.toUInt16,
      .ok z.toUInt16]
  | setRotation x y z =>
    [(signedOperand i.name x).map (firstWord .setRotation), .ok y.toUInt16, .ok z.toUInt16]
  | setScale mode percent => [.ok (firstWord .setScale mode.operand), .ok percent.toUInt16]
  | setPalette index => [(signedOperand i.name index).map (firstWord .setPalette)]
  | loop target count =>
    [(unsignedOperand i.name target).map (firstWord .loop), .ok count.toUInt16]
  | setUnknown value => [.ok (extendedWord 0 value)]
  | setParent index => [.ok (extendedWord 1 index)]
  | setNotify value => [.ok (extendedWord 2 value)]
  | label _ => []

/-- Writes an instruction behind the words of a buffer, word by word. -/
def writeOnto (buffer : List UInt16) (i : RawInstruction) :
    Except BytecodeError Unit × List UInt16 :=
  appendChecked buffer i.checkedWords

theorem checkedWords_of_encode {i : RawInstruction} {words : List UInt16}
    (h : i.encode = .ok words) : i.checkedWords = words.map .ok := by
  cases i with
  | wait | setRaster | goto | setRotation | setPalette | loop =>
    obtain ⟨operand, hoperand, rfl⟩ := (map_eq_ok_iff _ _ _).mp h
    rw [checkedWords, hoperand]
    rfl
  | setPosition | setScale | setUnknown | setParent | setNotify | label =>
    obtain rfl := Except.ok.inj h
    rfl

/-- What is refused is refused before its first word. -/
theorem exists_checkedWords_of_error {i : RawInstruction} {error : BytecodeError}
    (h : i.encode = .error error) : ∃ rest, i.checkedWords = .error error :: rest := by
  cases i with
  | wait | setRaster | goto | setRotation | setPalette | loop =>
    have hoperand := (map_eq_error_iff _ _ _).mp h
    rw [checkedWords, hoperand]
    exact ⟨_, rfl⟩
  | setPosition | setScale | setUnknown | setParent | setNotify | label => cases h

/-- Writing is encoding behind the words of the buffer, which stays as it is on a refusal. -/
theorem writeOnto_eq (buffer : List UInt16) (i : RawInstruction) :
    writeOnto buffer i =
      match encodeOnto buffer i with
      | .ok written => (.ok (), written)
      | .error error => (.error error, buffer) := by
  rw [writeOnto, encodeOnto]
  rcases hencode : i.encode with error | words
  · obtain ⟨rest, hrest⟩ := exists_checkedWords_of_error hencode
    rw [hrest]
    rfl
  · rw [checkedWords_of_encode hencode, appendChecked_map_ok]
    rfl

/-- A field of twelve bits cannot hold the operand, or the jump target, that it is given. -/
def Overflows (i : RawInstruction) : Prop :=
  ¬ i.OperandsFit ∨ ∃ target, i.jumpTarget? = some target ∧ 0xFFF < target.toNat

theorem exists_encode_iff_not_overflows (i : RawInstruction) :
    (∃ words, i.encode = .ok words) ↔ ¬ i.Overflows := by
  rw [exists_encode_iff, Overflows, not_or, not_not, not_exists]
  simp only [not_and, Nat.not_lt, Nat.lt_succ_iff]

theorem overflows_iff_exists_error (i : RawInstruction) :
    i.Overflows ↔ ∃ value, i.encode = .error (.operandOutOfRange i.name value) := by
  rw [← not_not (a := i.Overflows), ← exists_encode_iff_not_overflows, not_exists_eq_ok_iff]
  constructor
  · rintro ⟨error, herror⟩
    rcases (encode_eq_error_iff i error).mp herror with ⟨value, -, -, rfl⟩ | ⟨target, -, -, rfl⟩
    · exact ⟨value, herror⟩
    · exact ⟨target.toNat, herror⟩
  · rintro ⟨value, herror⟩
    exact ⟨_, herror⟩

/-- What decodes is the front of the words as long as the instruction, and encodes to that front. -/
theorem encode_take_of_decode {words rest : List UInt16} {i : RawInstruction}
    (h : decode words = .ok (i, rest)) :
    i.encode = .ok (words.take i.wordLen) ∧ rest = words.drop i.wordLen := by
  obtain ⟨front, hencode, -, rfl⟩ := exists_encode_of_decode h
  rw [← length_of_encode hencode, List.take_left, List.drop_left]
  exact ⟨hencode, rfl⟩

/-- Which operands overflow, by the kind of instruction. -/
theorem overflows_iff (i : RawInstruction) :
    i.Overflows ↔
      match i with
      | wait value | goto value | loop value _ => 0xFFF < value.toNat
      | setRaster value | setPalette value | setRotation value _ _ =>
        value.toInt < -2048 ∨ 2047 < value.toInt
      | _ => False := by
  cases i with
  | setRaster | setRotation | setPalette =>
    simp only [Overflows, OperandsFit, jumpTarget?, reduceCtorEq, false_and, exists_false,
      or_false]
    omega
  | _ => simp [Overflows, OperandsFit, jumpTarget?, Nat.succ_le_iff]

theorem written_of_not_overflows {i : RawInstruction} (h : ¬ i.Overflows) :
    ∃ words, i.encode = .ok words ∧ words.length = i.wordLen ∧ ∀ buffer,
      encodeOnto buffer i = .ok (buffer ++ words) ∧
        writeOnto buffer i = (.ok (), buffer ++ words) := by
  obtain ⟨words, hwords⟩ := (exists_encode_iff_not_overflows i).mpr h
  refine ⟨words, hwords, length_of_encode hwords, fun buffer ↦ ?_⟩
  rw [writeOnto_eq, encodeOnto, hwords]
  exact ⟨rfl, rfl⟩

theorem refused_of_overflows {i : RawInstruction} (h : i.Overflows) :
    ∃ value, ∀ buffer, encodeOnto buffer i = .error (.operandOutOfRange i.name value) ∧
      writeOnto buffer i = (.error (.operandOutOfRange i.name value), buffer) := by
  obtain ⟨value, herror⟩ := (overflows_iff_exists_error i).mp h
  refine ⟨value, fun buffer ↦ ?_⟩
  rw [writeOnto_eq, encodeOnto, herror]
  exact ⟨rfl, rfl⟩

/-- What the codec makes of an instruction. -/
structure CodecExact (i : RawInstruction) : Prop where
  overflows : i.Overflows ↔
    match i with
    | wait value | goto value | loop value _ => 0xFFF < value.toNat
    | setRaster value | setPalette value | setRotation value _ _ =>
      value.toInt < -2048 ∨ 2047 < value.toInt
    | _ => False
  /-- Its words are appended to any buffer. -/
  written : ¬ i.Overflows → ∃ words, i.encode = .ok words ∧ words.length = i.wordLen ∧
    ∀ buffer, encodeOnto buffer i = .ok (buffer ++ words) ∧
      writeOnto buffer i = (.ok (), buffer ++ words)
  /-- Or it is refused by its name, and the buffer is left alone. -/
  refused : i.Overflows → ∃ value, ∀ buffer,
    encodeOnto buffer i = .error (.operandOutOfRange i.name value) ∧
      writeOnto buffer i = (.error (.operandOutOfRange i.name value), buffer)
  /-- What it is written as is read as the instruction, whatever follows. -/
  readBack : ∀ words rest : List UInt16, i.encode = .ok words → i.isLabel = false →
    decode (words ++ rest) = .ok (i, rest)
  /-- What it is read from is as long as it is, and is what it is written as. -/
  rewritten : ∀ words rest : List UInt16, decode words = .ok (i, rest) →
    words.length = i.wordLen + rest.length ∧ i.encode = .ok (words.take i.wordLen) ∧
      rest = words.drop i.wordLen

/-- Writing appends the words of the instruction, as many as its length says, or is refused by the
instruction's name and leaves the buffer alone; it is refused exactly if an operand or a target does
not fit. What is written is read back, whatever follows, and what is read is written again. -/
theorem codec_exact (i : RawInstruction) : i.CodecExact where
  overflows := overflows_iff i
  written := written_of_not_overflows
  refused := refused_of_overflows
  readBack _ rest hencode hlabel := decode_of_encode hencode hlabel rest
  rewritten _ _ hdecode := ⟨length_of_decode hdecode, encode_take_of_decode hdecode⟩

/-- A rotation with the least operand of twelve bits, in front of a word that does not decode. -/
theorem codec_exact_least_rotation :
    encode (.setRotation (-2048) 1 (-1)) = .ok [0x4800, 0x0001, 0xFFFF] ∧
      decode [0x4800, 0x0001, 0xFFFF, 0xA000] = .ok (.setRotation (-2048) 1 (-1), [0xA000]) ∧
      encode (.setRotation (-2048) 1 (-1)) =
        .ok ([0x4800, 0x0001, 0xFFFF, 0xA000].take 3) := by
  have hexact := codec_exact (.setRotation (-2048) 1 (-1))
  have hencode : encode (.setRotation (-2048) 1 (-1)) = .ok [0x4800, 0x0001, 0xFFFF] := by decide
  have hdecode := hexact.readBack _ [0xA000] hencode rfl
  exact ⟨hencode, hdecode, (hexact.rewritten _ _ hdecode).2.1⟩

end Instruction

end SpriteBytecode
